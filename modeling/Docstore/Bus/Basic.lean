import Docstore.Dictionary
import Docstore.Failure
import Docstore.Log.Event

/-!
# The event bus

The bus fans events out.  Handlers are called for the events of one collection or for all events; a
handler may register further handlers while it runs and may crash.  Receivers have a queue of the
events of one collection.  Error handlers hear of failures.

Which handlers an event reaches is settled before the first of them is called: those of its
collection in the order of registration, then those for all events.  So a handler that is
registered during an event hears only of later ones, and a crash cuts nobody short.
-/

namespace Docstore

/-- What calls a handler. -/
inductive Topic where
  | collection (name : String)
  | all
  deriving DecidableEq, Repr

/-- A handler: what it is called, what it registers on each call, and whether it then crashes. -/
inductive Handler where
  | mk (name : String) (registers : List (Topic × Handler)) (crashes : Bool)
  deriving Repr, Inhabited

namespace Handler

def name : Handler → String
  | .mk name _ _ => name

def registers : Handler → List (Topic × Handler)
  | .mk _ registers _ => registers

def crashes : Handler → Bool
  | .mk _ _ crashes => crashes

end Handler

/-- Subscribers, and the queues of the receivers that are alive. -/
structure Bus where
  /-- The handlers of collections. -/
  handlers : Dictionary (List Handler) := []
  /-- The handlers of all events. -/
  catchAll : List Handler := []
  errorHandlers : List Handler := []
  /-- The receivers that the bus sends the events of a collection to. -/
  channels : Dictionary (List Nat) := []
  /-- The queues of the receivers that are alive. -/
  queues : List (Nat × List ChangeEvent) := []
  /-- The number of the next receiver. -/
  next : Nat := 0
  deriving Repr, Inhabited

/-- What a publication did: the bus after it, the handlers called and how many of them crashed. -/
structure Published where
  bus : Bus
  calls : List String
  crashed : Nat
  deriving Repr

/-- What a receiver finds. -/
inductive Received where
  | event (e : ChangeEvent)
  | nothing
  | disconnected
  deriving DecidableEq, Repr

def Received.event? : Received → Option ChangeEvent
  | .event e => some e
  | .nothing | .disconnected => none

namespace Bus

def register (b : Bus) (topic : Topic) (h : Handler) : Bus :=
  match topic with
  | .all => { b with catchAll := b.catchAll ++ [h] }
  | .collection c =>
      { b with
        handlers := Dictionary.put c ((Dictionary.get? c b.handlers).getD [] ++ [h]) b.handlers }

def registerAll (b : Bus) (hs : List (Topic × Handler)) : Bus :=
  hs.foldl (fun b h => b.register h.1 h.2) b

def onError (b : Bus) (h : Handler) : Bus := { b with errorHandlers := b.errorHandlers ++ [h] }

/-- The handlers that an event of a collection reaches, in the order of the calls. -/
def reached (b : Bus) (collection : String) : List Handler :=
  (Dictionary.get? collection b.handlers).getD [] ++ b.catchAll

def subscribe (b : Bus) (collection : String) : Bus × Nat :=
  ({ b with
      channels :=
        Dictionary.put collection ((Dictionary.get? collection b.channels).getD [] ++ [b.next])
          b.channels
      queues := b.queues ++ [(b.next, [])]
      next := b.next + 1 }, b.next)

def isAlive (b : Bus) (receiver : Nat) : Bool := b.queues.any fun q => q.1 == receiver

/-- Drops a receiver with its queue.  The bus forgets it at the next event of its collection. -/
def dropReceiver (b : Bus) (receiver : Nat) : Bus :=
  { b with queues := b.queues.filter fun q => q.1 != receiver }

/-- Takes the first event from the queue of a receiver. -/
def receive (b : Bus) (receiver : Nat) : Bus × Received :=
  match b.queues.lookup receiver with
  | none => (b, .disconnected)
  | some [] => (b, .nothing)
  | some (e :: rest) =>
      ({ b with queues := b.queues.map fun q => if q.1 = receiver then (q.1, rest) else q },
        .event e)

/-- Whether the bus has receivers on record for a collection. -/
def hasChannel (b : Bus) (collection : String) : Bool := Dictionary.has collection b.channels

def call (b : Bus) (h : Handler) : Bus := b.registerAll h.registers

/-- Sends an event to the receivers on record for its collection.  The record keeps those that are
alive, and is removed when none is. -/
def send (b : Bus) (e : ChangeEvent) : Bus :=
  match Dictionary.get? e.collection b.channels with
  | none => b
  | some receivers =>
      let alive := receivers.filter b.isAlive
      { b with
        queues := b.queues.map fun q => if q.1 ∈ alive then (q.1, q.2 ++ [e]) else q
        channels :=
          if alive.isEmpty then Dictionary.erase e.collection b.channels
          else Dictionary.put e.collection alive b.channels }

/-- Delivers an event: to the handlers, then to the receivers. -/
def publish (b : Bus) (e : ChangeEvent) : Published :=
  let hs := b.reached e.collection
  { bus := (hs.foldl call b).send e
    calls := hs.map Handler.name
    crashed := (hs.filter Handler.crashes).length }

/-- Reports a failure to the error handlers. -/
def publishError (b : Bus) (_failure : Failure) : Published :=
  let hs := b.errorHandlers
  { bus := hs.foldl call b
    calls := hs.map Handler.name
    crashed := (hs.filter Handler.crashes).length }

def summary (b : Bus) : String :=
  "EventBus \x7b collections: " ++ toString b.handlers.length
    ++ ", any: " ++ toString b.catchAll.length
    ++ ", errors: " ++ toString b.errorHandlers.length
    ++ ", channels: " ++ toString b.channels.length ++ " \x7d"

end Bus

end Docstore
