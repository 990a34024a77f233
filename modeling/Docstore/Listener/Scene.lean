import Docstore.Bus.Publication
import Docstore.Listener.Machine

/-!
# A listener among others

A listener shares its bus with everybody who has a clone of it, and it is stopped by others who run
beside it.  To stop it is to clear its flag and then to leave a wake-up.  Moves of the listener,
halves of stops and whatever happens on the bus follow one another in any order.

When the listener publishes an event, a publication begins on the bus, and the listener makes no
other move until that publication is finished.  The publication goes on like any other, call by
call, and the handlers that it calls may do what everybody else may do.
-/

namespace Docstore

/-- The moment on the bus that a move of the listener is. -/
def Move.moment? : Move → Option Moment
  | .publish _ e => some (.begins e)
  | .delivered publication _ crashed => some (.finishes publication crashed)
  | _ => none

/-- A listener, those who stop it, and its bus. -/
structure Scene where
  machine : Machine := {}
  /-- How many have cleared the flag and have yet to leave a wake-up. -/
  stopping : Nat := 0
  traffic : Traffic := {}
  deriving Repr

/-- What may happen in a scene. -/
inductive Act where
  | listener (move : Move)
  /-- Somebody begins to stop the listener. -/
  | clear
  /-- Somebody who began to stop the listener is done. -/
  | notify
  /-- Something happens on the bus that is no move of the listener. -/
  | bus (m : Moment)
  deriving Repr

namespace Act

def move? : Act → Option Move
  | .listener move => some move
  | _ => none

/-- What the act is on the bus. -/
def moment? : Act → Option Moment
  | .listener move => move.moment?
  | .bus m => some m
  | _ => none

/-- The event that goes to the receivers, when the publications have these events. -/
def sent? (events : List ChangeEvent) : Act → Option ChangeEvent
  | .listener (.delivered _ e _) => some e
  | .bus m => m.sent? events
  | _ => none

end Act

namespace Scene

/-- The act is possible in a scene, and leads to another one. -/
inductive Step (s : Scene) : Act → Scene → Prop where
  | quiet {move : Move} {machine : Machine} (hmove : s.machine.step move = some machine)
      (hquiet : move.moment? = none) : Step s (.listener move) { s with machine }
  | publish {e : ChangeEvent} {machine : Machine} {traffic : Traffic}
      (hmove : s.machine.step (.publish s.traffic.publications.length e) = some machine)
      (hbegins : s.traffic.Step (.begins e) traffic) :
      Step s (.listener (.publish s.traffic.publications.length e)) { s with machine, traffic }
  | delivered {publication crashed : Nat} {e : ChangeEvent} {machine : Machine} {traffic : Traffic}
      (hmove : s.machine.step (.delivered publication e crashed) = some machine)
      (hfinishes : s.traffic.Step (.finishes publication crashed) traffic) :
      Step s (.listener (.delivered publication e crashed)) { s with machine, traffic }
  | clear : Step s .clear { s with machine := s.machine.clear, stopping := s.stopping + 1 }
  | notify (others : Nat) (hstopping : s.stopping = others + 1) :
      Step s .notify { s with machine := s.machine.notify, stopping := others }
  | bus {m : Moment} {traffic : Traffic} (hmoment : s.traffic.Step m traffic)
      (hothers : ∀ publication e, s.machine.phase.current? = some (publication, e) →
        ∀ crashed, m ≠ .finishes publication crashed) :
      Step s (.bus m) { s with traffic }

/-- The acts lead from one scene to another. -/
inductive Run : Scene → List Act → Scene → Prop where
  | nil (s : Scene) : Run s [] s
  | cons {s mid last : Scene} {act : Act} {acts : List Act} (hstep : Step s act mid)
      (hrest : Run mid acts last) : Run s (act :: acts) last

def moves (acts : List Act) : List Move := acts.filterMap Act.move?

def history (acts : List Act) : List Moment := acts.filterMap Act.moment?

/-- The events that go to the receivers of a collection, when the publications have these events. -/
def sent (events : List ChangeEvent) (collection : String) (acts : List Act) : List ChangeEvent :=
  (acts.filterMap (Act.sent? events)).filter fun e => e.collection = collection

end Scene

end Docstore
