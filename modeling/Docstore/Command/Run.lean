import Docstore.Command.Help
import Docstore.Server.Exchange
import Docstore.Settings.Place
import Docstore.Statement.Compile
import Docstore.Statement.Record

/-!
# Running a command

What a command does is computed from what the program finds around it: files, environment, standard
input, the time, and the answer of the server to the first question.  The outcome is an exit code,
the standard output, the log files that come into being, and the failure that is reported.

Following the log of a server that answers does not end by itself; for that, `Outcome.follows` holds
what to follow, and `eventLines` says what is printed on the way.
-/

namespace Docstore

namespace CommandLine

/-- What a command finds around it. -/
structure World where
  surroundings : Surroundings := {}
  input : String := ""
  now : String := ""
  /-- The answer of the server to the question where its log ends, if it answers. -/
  server : Option Response := none
  deriving Repr

/-- A log to be followed: with which settings, for which collections, from which position. -/
structure Pursuit where
  settings : Settings
  collections : List String
  tick : Nat
  deriving Repr

/-- What running a command comes to. -/
structure Outcome where
  code : Nat := 0
  output : String := ""
  /-- The log files that come into being, in ascending order. -/
  made : List String := []
  failure : Option Failure := none
  /-- What to go on with, when the log of a server is to be followed. -/
  follows : Option Pursuit := none

def failed (made : List String) (f : Failure) : Outcome :=
  { code := 1, made, failure := some f }

/-- The parts of a directory that is to be made where it is missing. -/
def directoryParts? (path : String) : Option (List String) :=
  if path.isEmpty then some [] else Surroundings.walk? (fun _ => true) path

/-- Whether a file stands at a path of parts. -/
def isFileAt (s : Surroundings) (parts : List String) : Bool :=
  !parts.isEmpty && Dictionary.has (String.intercalate "/" parts) s.files

/-- The names of the log files in a directory. -/
def logFileNames : List String := ["aqlbridge.log", "aqlbridge_replication.log"]

/-- The failure of a path that is too long, or has a part that is. -/
def tooLong : Failure := .inputOutput (some "File name too long (os error 36)")

/-- The log files that come into being.  A directory is made where it is missing, which fails when a
file stands in its place and when its path is too long. -/
def logFiles (l : Logging) (s : Surroundings) : Except Failure (List String) :=
  match l.file, l.directory with
  | some file, _ =>
      match s.file? file with
      | some _ => .ok []
      | none => .error (.configuration none)
  | none, none => .ok []
  | none, some directory =>
      match directoryParts? directory with
      | none => .error tooLong
      | some parts =>
          if isFileAt s parts then .error (.inputOutput (some "File exists (os error 17)"))
          else if (List.range parts.length).any (fun n => isFileAt s (parts.take n)) then
            .error (.inputOutput (some "Not a directory (os error 20)"))
          else if parts.any (fun part => Surroundings.partLimit < part.utf8ByteSize) then
            .error tooLong
          else
            .ok ((logFileNames.map fun name => String.intercalate "/" (parts ++ [name])).filter
              fun path => !Dictionary.has path s.files)

/-- The settings of a command, with the level from the command line. -/
def settings (shared : Shared) (s : Surroundings) : Except Failure Settings :=
  (Settings.load shared.config s).map fun settings =>
    match shared.level with
    | some level => { settings with logging := { settings.logging with level } }
    | none => settings

def eventLine (e : ChangeEvent) : String :=
  (Json.object [
    ("collection", .string e.collection),
    ("event", .string e.kind.eventName),
    ("tick", Json.orNull (e.tick.map fun t => .string (toString t))),
    ("document", e.document)]).compact ++ "\n"

/-- The lines for events: of all collections, or of those that are listed, once for each time that
they are. -/
def eventLines (collections : List String) (events : List ChangeEvent) : String :=
  String.join (events.flatMap fun e =>
    let times := if collections.isEmpty then 1 else collections.count e.collection
    List.replicate times (eventLine e))

def runCompile (w : World) (request : Option String) (pretty : Bool) : Outcome :=
  match Request.compileText w.now (request.getD w.input) with
  | .error f => failed [] f
  | .ok compiled =>
      let v := compiled.toJson
      { output := (if pretty then v.pretty else v.compact) ++ "\n" }

/-- Runs a command with its settings and the log files that it has made. -/
def runWith (w : World) (settings : Settings) (made : List String) : Command → Outcome
  | .compile request pretty => runCompile w request pretty
  | .showConfig => { output := settings.outline.block ++ "\n", made }
  | .tail collections =>
      let position := match w.server with
        | some r => r.logEnd
        | none => .error (.transport none)
      match position with
      | .ok tick => { made, follows := some ⟨settings, collections, tick⟩ }
      | .error f => failed made (Machine.startupFailure f)

def runCommand (w : World) (shared : Shared) (command : Command) : Outcome :=
  match command with
  | .compile request pretty => runCompile w request pretty
  | _ =>
      match settings shared w.surroundings with
      | .error f => failed [] f
      | .ok settings =>
          match logFiles settings.logging w.surroundings with
          | .error f => failed [] f
          | .ok made => runWith w settings made command

def run (w : World) (words : List String) : Outcome :=
  match read words with
  | .help topic => { output := helpText topic }
  | .version => { output := versionText }
  | .mistake => { code := 2 }
  | .run shared command => runCommand w shared command

/-- What is said of a failure that has no wording of its own. -/
def briefly : Failure → String
  | .malformedJson => "the input is not the JSON that was asked for"
  | .configuration _ => "the settings cannot be read"
  | _ => "the exchange with the server failed"

/-- What is written to the standard error for a failure. -/
def errorLine (f : Failure) : String := "error: " ++ f.message?.getD (briefly f)

/-- What is written to the standard error for a command line that is not understood. -/
def mistakeText : String :=
  lines ["error: the command line is not understood", "",
    "Usage: aqlbridge [OPTIONS] <COMMAND>", "", "For more information, try '--help'."]

end CommandLine

end Docstore
