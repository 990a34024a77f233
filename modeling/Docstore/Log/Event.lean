import Docstore.Json.Basic

/-!
# Change events

What subscribers hear of a committed change: the collection, the document, whether it was stored or
removed, and the position in the log if it is known.
-/

namespace Docstore

/-- What happened to a document. -/
inductive ChangeKind where
  | createOrUpdate
  | delete
  deriving DecidableEq, Repr

/-- The name under which a change is announced. -/
def ChangeKind.eventName : ChangeKind → String
  | .createOrUpdate => "onCreateOrUpdate"
  | .delete => "onDelete"

/-- One committed change. -/
structure ChangeEvent where
  collection : String
  document : Json
  kind : ChangeKind
  tick : Option Nat
  deriving DecidableEq, Repr

end Docstore
