import Docstore.Listener.Metrics
import Docstore.Log.Cursor

/-!
# The listener as a machine

A listener asks where the log ends, and from then on asks for what came after its position, applies
what it gets and publishes it.  After an answer that brought nothing it waits; after a batch it asks
again at once.  It can be stopped at any time: then it starts no further round, and the answer to a
request that is in flight is thrown away.

The machine has a phase, a flag that says whether the listener shall go on, and a wake-up that a
stop leaves behind.  `step` says which moves are possible in a phase.  To look at the flag and to
act on what it said are different moves, so a stop may fall between the two.  A wait ends when its
time is over or by consuming the wake-up, so a stop that comes before the wait begins is not slept
through.

The log and the bus are not part of the machine.  Its moves say what it hears from the log, what it
publishes, and how many handlers crashed in the course of that.
-/

namespace Docstore

/-- The answer to a request for what came after a position. -/
inductive Poll where
  | idle
  | failed (failure : Failure)
  | batch (last : Nat) (body : String)
  deriving DecidableEq, Repr

/-- What a listener works on: its position and its counters. -/
structure Session where
  cursor : Cursor := {}
  metrics : Metrics := {}
  deriving Repr, Inhabited

/-- What is left of applying a batch, once the cursor has taken it in. -/
structure Delivery where
  /-- The events still to be published. -/
  unpublished : List ChangeEvent
  /-- What there is to be counted in the end. -/
  tally : Tally
  /-- How many calls of handlers have crashed so far. -/
  crashed : Nat := 0
  deriving DecidableEq, Repr

namespace Session

/-- The entries of an answer that is to be applied: a batch that ends behind the position and
parses. -/
def accepted? (tick : Nat) : Poll → Option (Nat × List LogEntry)
  | .batch last body =>
      if last ≤ tick then none
      else
        match readBatch body with
        | .ok entries => some (last, entries)
        | .error _ => none
  | _ => none

/-- Whether an answer brings nothing without being a failure: nothing came, or nothing new. -/
def isStale (tick : Nat) : Poll → Bool
  | .idle => true
  | .failed _ => false
  | .batch last _ => last ≤ tick

def count (m : Metrics) (d : Delivery) : Metrics :=
  { m with
    applied := m.applied + 1
    emitted := m.emitted + .ofNat d.tally.emitted
    dropped := m.dropped + .ofNat d.tally.dropped
    committed := m.committed + .ofNat d.tally.committed
    aborted := m.aborted + .ofNat d.tally.aborted
    crashes := m.crashes + .ofNat d.crashed }

/-- The session after an answer, and what is to be delivered if a batch was taken in. -/
def handle (s : Session) (p : Poll) : Session × Option Delivery :=
  match accepted? s.cursor.tick p with
  | some (last, entries) =>
      let (cursor, effect) := s.cursor.apply last entries
      ({ s with cursor }, some { unpublished := effect.events, tally := effect.tally })
  | none =>
      let m := s.metrics
      let m := if isStale s.cursor.tick p then { m with idle := m.idle + 1 }
        else { m with failed := m.failed + 1 }
      ({ s with metrics := m }, none)

end Session

/-- Where a listener is. -/
inductive Phase where
  /-- It waits for the position where the log ends. -/
  | starting
  /-- It could not start, and is about to say so. -/
  | reporting (failure : Failure)
  /-- It is about to look whether it shall go on. -/
  | checking
  /-- It has seen that it shall go on, and is about to send a request. -/
  | asking
  /-- A request for what came after a position is in flight. -/
  | fetching (position : Nat)
  /-- An answer has come; it is about to look whether it shall go on. -/
  | received (p : Poll)
  /-- It is about to handle an answer. -/
  | handling (p : Poll)
  /-- It is publishing the events of a batch, and is between two of them. -/
  | publishing (d : Delivery)
  /-- It waits until a publication is finished. -/
  | delivering (publication : Nat) (e : ChangeEvent) (d : Delivery)
  /-- It waits before the next request. -/
  | waiting
  | ended (result : Except Failure Nat)
  deriving Repr

namespace Phase

def delivery? : Phase → Option Delivery
  | .publishing d => some d
  | .delivering _ _ d => some d
  | _ => none

/-- The events that have come out of the log and are still to be published. -/
def unpublished (phase : Phase) : List ChangeEvent :=
  (phase.delivery?.map Delivery.unpublished).getD []

/-- The publication that the listener waits for, with its event. -/
def current? : Phase → Option (Nat × ChangeEvent)
  | .delivering publication e _ => some (publication, e)
  | _ => none

end Phase

/-- A listener in the midst of its work. -/
structure Machine where
  phase : Phase := .starting
  session : Session := {}
  /-- Whether it shall go on. -/
  running : Bool := true
  /-- Whether a wake-up is waiting to be consumed. -/
  wake : Bool := false
  deriving Repr

/-- What a listener may do next. -/
inductive Move where
  /-- The log tells where it ends, or fails to. -/
  | started (position : Except Failure Nat)
  /-- The listener reports that it could not start. -/
  | reported
  /-- It looks whether it shall go on, and finds this. -/
  | check (goOn : Bool)
  /-- It sends a request for what came after a position. -/
  | ask (position : Nat)
  /-- The answer to the request in flight arrives. -/
  | answer (p : Poll)
  /-- It looks once more, with an answer in hand. -/
  | recheck (goOn : Bool)
  /-- It handles the answer that it has. -/
  | handle (p : Poll)
  /-- It begins to publish an event. -/
  | publish (publication : Nat) (e : ChangeEvent)
  /-- The publication that it waits for is finished, and tells how many calls crashed. -/
  | delivered (publication : Nat) (e : ChangeEvent) (crashed : Nat)
  /-- It counts a batch whose events are all published. -/
  | settle
  /-- The time of the wait is over. -/
  | elapsed
  /-- The wait consumes a wake-up. -/
  | woken
  deriving Repr

namespace Machine

/-- The failure of a listener that could not start. -/
def startupFailure (f : Failure) : Failure := .replicationStartup f.message?

/-- The machine after a look at the flag: it goes on to a phase, or it ends. -/
def look (m : Machine) (goOn : Bool) (next : Phase) : Option Machine :=
  if m.running = goOn then
    some { m with phase := if goOn then next else .ended (.ok m.session.cursor.tick) }
  else none

/-- The machine after a move, if the move is possible where it is. -/
def step (m : Machine) : Move → Option Machine
  | .started position =>
      match m.phase, position with
      | .starting, .ok tick =>
          some { m with phase := .checking, session := { m.session with cursor := { tick } } }
      | .starting, .error f =>
          some { m with phase := .reporting (startupFailure f), running := false }
      | _, _ => none
  | .reported =>
      match m.phase with
      | .reporting failure => some { m with phase := .ended (.error failure) }
      | _ => none
  | .check goOn =>
      match m.phase with
      | .checking => m.look goOn .asking
      | _ => none
  | .ask position =>
      match m.phase with
      | .asking =>
          let s := m.session
          if position = s.cursor.tick then
            some { m with
              phase := .fetching position
              session := { s with metrics := { s.metrics with polls := s.metrics.polls + 1 } } }
          else none
      | _ => none
  | .answer p =>
      match m.phase with
      | .fetching _ => some { m with phase := .received p }
      | _ => none
  | .recheck goOn =>
      match m.phase with
      | .received p => m.look goOn (.handling p)
      | _ => none
  | .handle p =>
      match m.phase with
      | .handling answer =>
          if p = answer then
            let (session, delivery?) := m.session.handle p
            some { m with phase := (delivery?.map .publishing).getD .waiting, session }
          else none
      | _ => none
  | .publish publication e =>
      match m.phase with
      | .publishing d =>
          match d.unpublished with
          | first :: rest =>
              if e = first then
                some { m with phase := .delivering publication e { d with unpublished := rest } }
              else none
          | [] => none
      | _ => none
  | .delivered publication e crashed =>
      match m.phase with
      | .delivering awaited first d =>
          if publication = awaited ∧ e = first then
            some { m with phase := .publishing { d with crashed := d.crashed + crashed } }
          else none
      | _ => none
  | .settle =>
      match m.phase with
      | .publishing d =>
          if d.unpublished = [] then
            let s := m.session
            let metrics := Session.count s.metrics d
            some { m with phase := .checking, session := { s with metrics } }
          else none
      | _ => none
  | .elapsed =>
      match m.phase with
      | .waiting => some { m with phase := .checking }
      | _ => none
  | .woken =>
      match m.phase with
      | .waiting => if m.wake then some { m with phase := .checking, wake := false } else none
      | _ => none

/-- The first half of a stop: the listener shall not go on. -/
def clear (m : Machine) : Machine := { m with running := false }

/-- The second half of a stop: a wake-up is left, for the wait that goes on or for the next one. -/
def notify (m : Machine) : Machine := { m with wake := true }

end Machine

end Docstore
