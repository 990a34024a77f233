import Docstore.Log.Transactions

/-!
# The history of the open transactions

Four things are asked of the store of open transactions: to start a transaction, to hold an entry
back, to commit a transaction and to abort it.  A history lists such calls, whatever transactions
they are for, one after the other, and `Transactions.after` is the store it leads to.

The entries of a log are such calls too, but for those that change no transaction.
-/

namespace Docstore

namespace Transactions

/-- What is asked of the store. -/
inductive Call where
  | start (tid : String)
  | append (e : LogEntry)
  | commit (tid : String)
  | abort (tid : String)
  deriving DecidableEq, Repr

namespace Call

def transaction : Call → String
  | .start tid | .commit tid | .abort tid => tid
  | .append e => e.transaction

def entry? : Call → Option LogEntry
  | .append e => some e
  | .start _ | .commit _ | .abort _ => none

end Call

def act (pending : Transactions) : Call → Transactions
  | .start tid => start tid pending
  | .append e => append e pending
  | .commit tid => (commit tid pending).1
  | .abort tid => (abort tid pending).1

def after (pending : Transactions) (history : List Call) : Transactions := history.foldl act pending

theorem after_append (pending : Transactions) (as bs : List Call) :
    after pending (as ++ bs) = after (after pending as) bs := List.foldl_append

/-- The entries that a call gives back. -/
def givenBack (pending : Transactions) : Call → List LogEntry
  | .commit tid => (commit tid pending).2.getD []
  | .start _ | .append _ | .abort _ => []

def returned (pending : Transactions) : List Call → List LogEntry
  | [] => []
  | c :: calls => givenBack pending c ++ returned (act pending c) calls

/-- All that can be learnt of a transaction: whether it is open, and what its commit and its abort
would answer. -/
def view (tid : String) (pending : Transactions) : Bool × Option (List LogEntry) × Option Nat :=
  (isOpen tid pending, (commit tid pending).2, (abort tid pending).2)

end Transactions

/-- What an entry of a log asks of the store. -/
def LogEntry.call? (e : LogEntry) : Option Transactions.Call :=
  match e.kind with
  | .transactionStart => some (.start e.transaction)
  | .transactionCommit => some (.commit e.transaction)
  | .transactionAbort => some (.abort e.transaction)
  | .documentUpsert | .documentRemove => if e.isStandalone then none else some (.append e)
  | .other _ => none

end Docstore
