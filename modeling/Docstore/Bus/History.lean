import Docstore.Bus.Basic

/-!
# The history of a bus

A bus and its clones share their subscribers, so whatever is done through one of them is done to one
and the same bus.  A history lists it, one act after the other, and `Bus.after` is the bus that it
leads to.

To publish an event is to call the handlers it reaches and then to send it to the receivers.  The
handlers run while nobody holds the bus.  `publish` is a publication in which nothing else happens
and every handler does what its `Handler` says.  `send` is the second half alone: with whatever
acts come before it, it is the end of a publication whose handlers did something else, or during
which others used the bus.
-/

namespace Docstore

namespace Bus

/-- What may be done to a bus. -/
inductive Act where
  | register (topic : Topic) (h : Handler)
  | subscribe (collection : String)
  | publish (e : ChangeEvent)
  /-- The end of a publication: the event goes to the receivers. -/
  | send (e : ChangeEvent)
  | receive (receiver : Nat)
  | drop (receiver : Nat)
  deriving Repr

/-- The event that an act delivers to receivers. -/
def Act.event? : Act → Option ChangeEvent
  | .publish e | .send e => some e
  | .register _ _ | .subscribe _ | .receive _ | .drop _ => none

def act (b : Bus) : Act → Bus
  | .register topic h => b.register topic h
  | .subscribe collection => (b.subscribe collection).1
  | .publish e => (b.publish e).bus
  | .send e => b.send e
  | .receive receiver => (b.receive receiver).1
  | .drop receiver => b.dropReceiver receiver

def after (b : Bus) (acts : List Act) : Bus := acts.foldl act b

theorem after_append (b : Bus) (as bs : List Act) : b.after (as ++ bs) = (b.after as).after bs :=
  List.foldl_append

theorem after_concat (b : Bus) (as : List Act) (a : Act) :
    b.after (as ++ [a]) = (b.after as).act a := b.after_append as [a]

/-- The events that a receiver takes in an act. -/
def taken (b : Bus) (receiver : Nat) : Act → List ChangeEvent
  | .receive other => if other = receiver then (b.receive receiver).2.event?.toList else []
  | _ => []

/-- The events that a receiver takes along a history, in order. -/
def received (receiver : Nat) : Bus → List Act → List ChangeEvent
  | _, [] => []
  | b, a :: acts => b.taken receiver a ++ received receiver (b.act a) acts

/-- The events of a collection that a history delivers, in order. -/
def published (collection : String) (acts : List Act) : List ChangeEvent :=
  (acts.filterMap Act.event?).filter fun e => e.collection = collection

/-- At the end of a history that starts with a new bus, the receiver is one that subscribed to the
collection and was not dropped since. -/
def Listens (history : List Act) (collection : String) (receiver : Nat) : Prop :=
  ∃ before later, history = before ++ .subscribe collection :: later ∧
    receiver = ((({} : Bus).after before).subscribe collection).2 ∧ .drop receiver ∉ later

theorem published_cons (collection : String) (a : Act) (acts : List Act) :
    published collection (a :: acts) = published collection [a] ++ published collection acts := by
  have hcons : a :: acts = [a] ++ acts := rfl
  rw [hcons, published, List.filterMap_append, List.filter_append]
  rfl

end Bus

end Docstore
