import Docstore.Command.Run
import Docstore.Listener.Rehearsal
import Docstore.Server.Wire
import Docstore.Text.Instant
import Std.Async.DNS
import Std.Async.TCP
import Std.Async.Timer
import Std.Time.DateTime.Timestamp

/-!
# The program

The outer layer: it collects what a command may look at, lets `CommandLine.run` say what the command
comes to, and carries that out.  Following a log is a loop around `Machine.step`: this layer makes
the requests and waits, the machine decides.
-/

namespace Docstore

namespace Program

open Std.Async

/-- The names of the environment variables that settings come from. -/
def variableNames : List String :=
  ["AQLBRIDGE_CONFIG", "AQLBRIDGE_URL", "AQLBRIDGE_DATABASE", "AQLBRIDGE_USERNAME",
    "AQLBRIDGE_PASSWORD"]

/-- Those of the variables that are set, with their values. -/
def environment : IO (Dictionary String) :=
  variableNames.filterMapM fun name => return (← IO.getEnv name).map fun value => (name, value)

/-- The directory for settings of the user. -/
def userDirectory : IO (Option String) := do
  match ← IO.getEnv "XDG_CONFIG_HOME" with
  | some d => if Text.startsWith "/" d then return some d
  | none => pure ()
  return (← IO.getEnv "HOME").map (· ++ "/.config")

/-- The surroundings with the files at some paths, as far as they can be read. -/
def withFiles (s : Surroundings) (paths : List String) : IO Surroundings := do
  let mut files := s.files
  for path in paths do
    let content ← try some <$> IO.FS.readFile path catch _ => pure none
    match content, Surroundings.walk? (fun _ => true) path with
    | some text, some parts => files := Dictionary.put (String.intercalate "/" parts) text files
    | _, _ => pure ()
  return { s with files }

/-- What arrives until the other side is done. -/
partial def receive (socket : TCP.Socket.Client) (sofar : ByteArray) : Async ByteArray := do
  match ← socket.recv? 65536 with
  | some bytes => receive socket (sofar ++ bytes)
  | none => return sofar

/-- What a host sends in answer to a request. -/
def exchange (h : Host) (request : String) : Async ByteArray := do
  let service := UInt16.ofNat h.service
  match (← DNS.getAddrInfo h.name (toString h.service))[0]? with
  | none => throw (.userError "the host has no address")
  | some address =>
      let socket ← TCP.Socket.Client.mk
      socket.connect (match address with
        | .v4 a => .v4 ⟨a, service⟩
        | .v6 a => .v6 ⟨a, service⟩)
      socket.sendAll #[request.toUTF8]
      receive socket ByteArray.empty

/-- The answer to a question, unless it fails to come in time. -/
def ask (settings : Settings) (q : Question) : IO (Option Response) := do
  let c := settings.connection
  match Host.ofUrl? c.url with
  | none => return none
  | some h =>
      let late : Async ByteArray := do
        sleep (.ofNat settings.following.timeout)
        return ByteArray.empty
      try
        let bytes ← (Async.race (exchange h (q.requestText c h)) late).block
        return Response.ofBytes? bytes.toList
      catch _ => return none

/-- All of the standard input. -/
partial def readAll (input : IO.FS.Stream) (sofar : String) : IO String := do
  let line ← input.getLine
  if line.isEmpty then return sofar else readAll input (sofar ++ line)

/-- Milliseconds since the start of 1970. -/
def clock : IO Nat := return (← Std.Time.Timestamp.now).toMillisecondsSinceUnixEpoch.toInt.toNat

def world (words : List String) : IO CommandLine.World := do
  let s : Surroundings := { environment := ← environment, userDirectory := ← userDirectory }
  let now := Text.instant (← clock)
  match CommandLine.read words with
  | .run _ (.compile none _) =>
      return { surroundings := s, input := ← readAll (← IO.getStdin) "", now }
  | .run shared command =>
      let s ← withFiles s (Settings.places shared.config s)
      match CommandLine.settings shared s with
      | .error _ => return { surroundings := s, now }
      | .ok settings =>
          let s ← withFiles s settings.logging.file.toList
          let server ← match command with
            | .tail _ => ask settings .logEnd
            | _ => pure none
          return { surroundings := s, now, server }
  | _ => return { surroundings := s, now }

/-- Makes an empty file where there is none, with the directories above it. -/
def makeFile (path : String) : IO Unit := do
  let above := (Text.cutAtAll '/' path).dropLast
  if !above.isEmpty then IO.FS.createDirAll (String.intercalate "/" above)
  IO.FS.withFile path .append fun _ => pure ()

/-- Follows a log without end and prints its events. -/
partial def follow (p : CommandLine.Pursuit) (m : Machine) : IO Unit := do
  let asking := m.request
  let question := Question.after asking.session.cursor.tick p.settings.following.chunk
  let poll := match ← ask p.settings question with
    | some r => r.poll
    | none => .failed (.transport none)
  let m := asking.take poll
  IO.print (CommandLine.eventLines p.collections m.phase.unpublished)
  (← IO.getStdout).flush
  let (m, _) := m.publishAll {} 0 m.phase.unpublished
  match m.phase with
  | .waiting => do
      IO.sleep (UInt32.ofNat p.settings.following.interval)
      follow p (m.advance .elapsed)
  | _ => follow p m

/-- Carries an outcome out and returns the exit code. -/
def carryOut (o : CommandLine.Outcome) : IO UInt32 := do
  try o.made.forM makeFile
  catch e =>
    IO.eprintln (CommandLine.errorLine (.inputOutput (some (toString e))))
    return 1
  IO.print o.output
  match o.failure with
  | some f => IO.eprintln (CommandLine.errorLine f)
  | none => if o.code = 2 then IO.eprint CommandLine.mistakeText
  match o.follows with
  | some p => follow p (Machine.advance {} (.started (.ok p.tick)))
  | none => pure ()
  return UInt32.ofNat o.code

end Program

end Docstore

/-- The program: carries out the command line. -/
def main (words : List String) : IO UInt32 := do
  Docstore.Program.carryOut (Docstore.CommandLine.run (← Docstore.Program.world words) words)
