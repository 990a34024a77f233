import Docstore.Bus.Basic

/-!
# Publications, call by call

`Bus.publish` is a publication during which nothing else happens and every handler does what its
`Handler` says.  Here a publication is taken apart.  It begins with the list of the handlers that it
will call, calls them one after the other, and is finished when its event has gone to the receivers.
Nobody holds the bus while a handler runs, so the handler and anybody else who has the bus or a
clone of it may register handlers and publish.  A call ends in a crash or it does not.

Receivers join, take the events that they find and are dropped, also while handlers run.

A history lists what happens to a bus, moment by moment.  The publications in it are numbered in the
order in which they begin, from zero.
-/

namespace Docstore

/-- A publication under way, or finished. -/
structure Publication where
  event : ChangeEvent
  /-- The handlers that are still to be called. -/
  waiting : List Handler
  /-- Whether a handler is running. -/
  running : Bool := false
  /-- How many calls have crashed so far. -/
  crashed : Nat := 0
  /-- What the publication returned, when it is finished. -/
  result : Option Nat := none
  deriving Repr

/-- A bus, and the publications on it by their numbers. -/
structure Traffic where
  bus : Bus := {}
  publications : List Publication := []
  deriving Repr

/-- What happens at one moment. -/
inductive Moment where
  | registers (topic : Topic) (h : Handler)
  | begins (e : ChangeEvent)
  /-- The publication calls the handler. -/
  | calls (publication : Nat) (h : Handler)
  /-- The handler that the publication called is done. -/
  | ends (publication : Nat) (crashed : Bool)
  /-- The publication is finished and returns a number. -/
  | finishes (publication : Nat) (crashed : Nat)
  /-- Somebody subscribes to the events of a collection, and gets a receiver. -/
  | subscribes (collection : String) (receiver : Nat)
  /-- A receiver looks into its queue. -/
  | receives (receiver : Nat) (found : Received)
  | drops (receiver : Nat)
  deriving Repr

namespace Moment

def registered? (topic : Topic) : Moment → Option Handler
  | .registers other h => if other = topic then some h else none
  | _ => none

def isBeginning : Moment → Bool
  | .begins _ => true
  | _ => false

def begun? : Moment → Option ChangeEvent
  | .begins e => some e
  | _ => none

def called? (publication : Nat) : Moment → Option Handler
  | .calls p h => if p = publication then some h else none
  | _ => none

def isCrash (publication : Nat) : Moment → Bool
  | .ends p crashed => p == publication && crashed
  | _ => false

/-- Whether the publication goes on by the moment. -/
def isOf (publication : Nat) : Moment → Bool
  | .calls p _ | .ends p _ | .finishes p _ => p == publication
  | _ => false

/-- The event that goes to the receivers, when the publications have these events. -/
def sent? (events : List ChangeEvent) : Moment → Option ChangeEvent
  | .finishes p _ => events[p]?
  | _ => none

def taken? (receiver : Nat) : Moment → Option ChangeEvent
  | .receives other found => if other = receiver then found.event? else none
  | _ => none

/-- The moments of a call that is not disturbed. -/
def ofCall (publication : Nat) (h : Handler) : List Moment :=
  .calls publication h ::
    (h.registers.map (fun r => .registers r.1 r.2) ++ [.ends publication h.crashes])

/-- The moments of a publication that is not disturbed. -/
def ofPublication (publication : Nat) (e : ChangeEvent) (hs : List Handler) : List Moment :=
  .begins e :: (hs.flatMap (ofCall publication)
    ++ [.finishes publication (hs.filter Handler.crashes).length])

end Moment

namespace Traffic

/-- The traffic with another publication under the number. -/
def put (t : Traffic) (publication : Nat) (q : Publication) : Traffic :=
  { t with publications := t.publications.set publication q }

/-- What may happen next. -/
inductive Step : Traffic → Moment → Traffic → Prop where
  | registers (t : Traffic) (topic : Topic) (h : Handler) :
      Step t (.registers topic h) { t with bus := t.bus.register topic h }
  | begins (t : Traffic) (e : ChangeEvent) :
      Step t (.begins e)
        { t with
          publications :=
            t.publications ++ [{ event := e, waiting := t.bus.reached e.collection }] }
  | calls {t : Traffic} {p : Nat} {q : Publication} {h : Handler} {rest : List Handler}
      (hq : t.publications[p]? = some q) (hidle : q.running = false)
      (hnext : q.waiting = h :: rest) :
      Step t (.calls p h) (t.put p { q with waiting := rest, running := true })
  | ends {t : Traffic} {p : Nat} {q : Publication} (hq : t.publications[p]? = some q)
      (hrunning : q.running = true) (crashed : Bool) :
      Step t (.ends p crashed)
        (t.put p { q with running := false, crashed := q.crashed + crashed.toNat })
  | finishes {t : Traffic} {p : Nat} {q : Publication} (hq : t.publications[p]? = some q)
      (hidle : q.running = false) (hnone : q.waiting = []) (hopen : q.result = none) :
      Step t (.finishes p q.crashed)
        { t.put p { q with result := some q.crashed } with bus := t.bus.send q.event }
  | subscribes (t : Traffic) (collection : String) :
      Step t (.subscribes collection (t.bus.subscribe collection).2)
        { t with bus := (t.bus.subscribe collection).1 }
  | receives (t : Traffic) (receiver : Nat) :
      Step t (.receives receiver (t.bus.receive receiver).2)
        { t with bus := (t.bus.receive receiver).1 }
  | drops (t : Traffic) (receiver : Nat) :
      Step t (.drops receiver) { t with bus := t.bus.dropReceiver receiver }

/-- The history leads from one state of the traffic to another. -/
inductive Run : Traffic → List Moment → Traffic → Prop where
  | nil (t : Traffic) : Run t [] t
  | cons {t u v : Traffic} {m : Moment} {ms : List Moment} (hstep : Step t m u)
      (hrest : Run u ms v) : Run t (m :: ms) v

/-- The handlers that a history registers for the topic, in order. -/
def registered (topic : Topic) (history : List Moment) : List Handler :=
  history.filterMap (Moment.registered? topic)

/-- The handlers that an event of the collection is due to after a history: those of the
collection, then those for all events. -/
def due (collection : String) (history : List Moment) : List Handler :=
  registered (.collection collection) history ++ registered .all history

def begun (history : List Moment) : Nat := history.countP Moment.isBeginning

def called (publication : Nat) (history : List Moment) : List Handler :=
  history.filterMap (Moment.called? publication)

def crashes (publication : Nat) (history : List Moment) : Nat :=
  history.countP (Moment.isCrash publication)

/-- The events of the publications that a history begins, by their numbers. -/
def events (history : List Moment) : List ChangeEvent := history.filterMap Moment.begun?

def taken (receiver : Nat) (history : List Moment) : List ChangeEvent :=
  history.filterMap (Moment.taken? receiver)

/-- How often a publication goes on along a history. -/
def moments (publication : Nat) (history : List Moment) : Nat :=
  history.countP (Moment.isOf publication)

end Traffic

end Docstore
