import Docstore.Dictionary
import Docstore.Log.Entry

/-!
# Open transactions

Entries of a transaction are held back until its fate is known.  The store maps the id of each
open transaction to the entries that have come in for it.  Starting a transaction anew discards
what it held; an entry for a transaction that is not open opens it, since the log may have been
joined in its midst.
-/

namespace Docstore

/-- The entries held back for each open transaction. -/
abbrev Transactions := Dictionary (List LogEntry)

namespace Transactions

def start (tid : String) (pending : Transactions) : Transactions := Dictionary.put tid [] pending

/-- Holds back an entry for its transaction. -/
def append (e : LogEntry) (pending : Transactions) : Transactions :=
  Dictionary.put e.transaction ((Dictionary.get? e.transaction pending).getD [] ++ [e]) pending

def held? (tid : String) (pending : Transactions) : Option (List LogEntry) :=
  Dictionary.get? tid pending

def close (tid : String) (pending : Transactions) : Transactions := Dictionary.erase tid pending

/-- Commits a transaction: it is closed, and what was held back for it is given back. -/
def commit (tid : String) (pending : Transactions) : Transactions × Option (List LogEntry) :=
  (close tid pending, held? tid pending)

/-- Aborts a transaction: it is closed, and the number of entries that were held back for it is
told. -/
def abort (tid : String) (pending : Transactions) : Transactions × Option Nat :=
  (close tid pending, (held? tid pending).map List.length)

def isOpen (tid : String) (pending : Transactions) : Bool := Dictionary.has tid pending

def count (pending : Transactions) : Nat := pending.length

end Transactions

end Docstore
