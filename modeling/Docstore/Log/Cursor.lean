import Docstore.Log.Transactions

/-!
# The cursor of a log

A cursor is a position in the log together with the transactions that are open there.  Applying a
batch takes its entries one by one and then moves the position forward.  The entries of a
transaction come out when it commits and vanish when it aborts; entries outside any transaction
come out at once.  An entry that comes out is announced as an event, or dropped when its data has
no usable id.

`Transactions.step` says what one entry does; everything else is repetition.
-/

namespace Docstore

/-- Counts of what happened to entries and transactions. -/
structure Tally where
  emitted : Nat := 0
  dropped : Nat := 0
  committed : Nat := 0
  aborted : Nat := 0
  deriving DecidableEq, Repr

namespace Tally

def add (a b : Tally) : Tally :=
  ⟨a.emitted + b.emitted, a.dropped + b.dropped, a.committed + b.committed,
    a.aborted + b.aborted⟩

instance : Add Tally := ⟨add⟩

end Tally

/-- What came out: the events in order, and the counts. -/
structure Effect where
  events : List ChangeEvent := []
  tally : Tally := {}
  deriving DecidableEq, Repr

namespace Effect

def append (a b : Effect) : Effect := ⟨a.events ++ b.events, a.tally + b.tally⟩

instance : Append Effect := ⟨append⟩

/-- The effect of letting entries out. -/
def ofEntries (es : List LogEntry) : Effect :=
  let events := es.filterMap LogEntry.toEvent?
  { events, tally := { emitted := events.length, dropped := es.length - events.length } }

end Effect

namespace Transactions

/-- What one entry does to the open transactions, and what comes out. -/
def step (pending : Transactions) (e : LogEntry) : Transactions × Effect :=
  match e.kind with
  | .transactionStart => (start e.transaction pending, {})
  | .transactionCommit =>
      match held? e.transaction pending with
      | some es => (close e.transaction pending, ⟨[], { committed := 1 }⟩ ++ Effect.ofEntries es)
      | none => (pending, {})
  | .transactionAbort =>
      match held? e.transaction pending with
      | some _ => (close e.transaction pending, ⟨[], { aborted := 1 }⟩)
      | none => (pending, {})
  | .documentUpsert | .documentRemove =>
      if e.isStandalone then (pending, Effect.ofEntries [e]) else (append e pending, {})
  | .other _ => (pending, {})

/-- What entries do one after the other. -/
def run (pending : Transactions) : List LogEntry → Transactions × Effect
  | [] => (pending, {})
  | e :: es =>
      let (next, effect) := step pending e
      let (last, more) := run next es
      (last, effect ++ more)

end Transactions

/-- A position in the log and the transactions that are open there. -/
structure Cursor where
  tick : Nat := 0
  transactions : Transactions := []
  deriving Repr, Inhabited

namespace Cursor

/-- Moves the position forward; an earlier one changes nothing. -/
def advance (c : Cursor) (tick : Nat) : Cursor :=
  if c.tick < tick then { c with tick } else c

/-- Applies the entries of a batch that ends at a position. -/
def apply (c : Cursor) (last : Nat) (entries : List LogEntry) : Cursor × Effect :=
  let (transactions, effect) := c.transactions.run entries
  ({ c with transactions }.advance last, effect)

end Cursor

end Docstore
