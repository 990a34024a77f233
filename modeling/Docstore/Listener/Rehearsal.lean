import Docstore.Bus.Basic
import Docstore.Listener.Machine

/-!
# Rehearsing a listener

A rehearsal runs the machine of a listener against answers that are written down beforehand, on a
bus that nobody else uses while the listener publishes, and on a clock that moves only while the
listener waits: for an answer, or between requests.  No such wait
lasts longer than thirty years.  An answer that takes longer than the time-out is cut off there and
counts as a failure.  When the answers are used up, one more request finds nothing, and the listener
is stopped in the wait that follows.

An answer may bring along that the listener is stopped just before it arrives.  Such an answer comes
a moment after its delay.  If the delay is as long as the time-out, the request has failed by then,
and the listener is stopped in the wait that follows; if it is longer, the listener is not stopped
at all.
-/

namespace Docstore

/-- The text of a span of milliseconds: in seconds from one second on, in milliseconds below, and
zero in the smallest unit there is. -/
def spanText (ms : Nat) : String :=
  if ms = 0 then "0ns"
  else if ms < 1000 then toString ms ++ "ms"
  else
    let thousandths := Nat.toDigits 10 (1000 + ms % 1000)
    let fraction := ((thousandths.drop 1).reverse.dropWhile (· == '0')).reverse
    toString (ms / 1000)
      ++ (if fraction.isEmpty then "" else "." ++ String.ofList fraction) ++ "s"

/-- The failure of a request that took too long. -/
def timedOut (ms : Nat) : Failure :=
  .transport (some ("request timed out after " ++ spanText ms))

/-- The longest wait: thirty years of 365 days, in milliseconds. -/
def longestWait : Nat := 946080000000

/-- The spans of a listener, in milliseconds, and the size that it asks for. -/
structure Pace where
  interval : Nat := 1000
  timeout : Nat := 30000
  chunk : Option Nat := none
  deriving DecidableEq, Repr

/-- An answer that is written down: what it says, how long it takes, and whether the listener is
stopped just before it arrives. -/
structure Cue where
  poll : Poll
  delay : Nat := 0
  stop : Bool := false
  deriving DecidableEq, Repr

/-- A request that the listener made: the position it asked from, and when. -/
structure RequestMade where
  tick : Nat
  time : Nat
  deriving DecidableEq, Repr

namespace Pace

/-- How long the listener waits between two requests. -/
def wait (pace : Pace) : Nat := min pace.interval longestWait

/-- Whether an answer with a delay is cut off. -/
def isLate (pace : Pace) (delay : Nat) : Bool := pace.timeout < min delay longestWait

/-- Whether a delay ends with the time-out. -/
def isDue (pace : Pace) (delay : Nat) : Bool := pace.timeout == min delay longestWait

/-- How long a request takes that is answered after a delay. -/
def duration (pace : Pace) (delay : Nat) : Nat := min pace.timeout (min delay longestWait)

end Pace

namespace Machine

def advance (m : Machine) (move : Move) : Machine := (m.step move).getD m

def stop (m : Machine) : Machine := m.clear.notify

/-- The machine after a look at its flag and, if it shall go on, with a request in flight. -/
def request (m : Machine) : Machine :=
  (m.advance (.check m.running)).advance (.ask m.session.cursor.tick)

/-- The machine after an answer was handled, or thrown away. -/
def take (m : Machine) (p : Poll) : Machine :=
  ((m.advance (.answer p)).advance (.recheck m.running)).advance (.handle p)

/-- The machine and the bus after events that are due were published there, one after the other; the
first publication has the number. -/
def publishAll (m : Machine) (b : Bus) (publication : Nat) : List ChangeEvent → Machine × Bus
  | [] => (m.advance .settle, b)
  | e :: es =>
      let p := b.publish e
      let m := (m.advance (.publish publication e)).advance (.delivered publication e p.crashed)
      m.publishAll p.bus (publication + 1) es

def asked? (m : Machine) : Option Nat :=
  match m.phase with
  | .fetching position => some position
  | _ => none

def result? (m : Machine) : Option (Except Failure Nat) :=
  match m.phase with
  | .ended result => some result
  | _ => none

end Machine

/-- How far a rehearsal has come. -/
structure Rehearsal where
  machine : Machine
  bus : Bus
  time : Nat := 0
  requests : List RequestMade := []
  /-- The events published, each with the number of requests made by then. -/
  events : List (ChangeEvent × Nat) := []
  deriving Repr

namespace Rehearsal

def request (pace : Pace) (r : Rehearsal) (cue : Cue) : Rehearsal :=
  let m := r.machine.request
  let requests := r.requests ++ (m.asked?.map fun tick => ⟨tick, r.time⟩).toList
  let tie := cue.stop && pace.isDue cue.delay
  let late := tie || pace.isLate cue.delay
  let m := if cue.stop && !late then m.stop else m
  let m := m.take (if late then .failed (timedOut pace.timeout) else cue.poll)
  let fresh := m.phase.unpublished
  let (m, bus) := m.publishAll r.bus r.events.length fresh
  { machine := if tie then m.stop else m
    bus
    time := r.time + pace.duration cue.delay
    requests
    events := r.events ++ fresh.map fun e => (e, requests.length) }

/-- The requests up to the end of the listener. -/
def play (pace : Pace) (r : Rehearsal) : List Cue → Rehearsal
  | [] =>
      let r := r.request pace { poll := .idle }
      { r with machine := (r.machine.stop.advance .woken).request }
  | cue :: cues =>
      let r := r.request pace cue
      match r.machine.phase with
      | .checking => play pace r cues
      | .waiting =>
          if r.machine.wake then { r with machine := (r.machine.advance .woken).request }
          else
            play pace { r with machine := r.machine.advance .elapsed, time := r.time + pace.wait }
              cues
      | _ => r

/-- The rehearsal of a listener that finds the log ending at `start`, after a delay. -/
def perform (pace : Pace) (bus : Bus) (start : Except Failure Nat) (delay : Nat)
    (cues : List Cue) : Rehearsal :=
  let position := if pace.isLate delay then .error (timedOut pace.timeout) else start
  let m := Machine.advance {} (.started position)
  let r : Rehearsal := { machine := m, bus, time := pace.duration delay }
  match m.phase with
  | .reporting failure =>
      { r with machine := m.advance .reported, bus := (bus.publishError failure).bus }
  | _ => play pace r cues

end Rehearsal

end Docstore
