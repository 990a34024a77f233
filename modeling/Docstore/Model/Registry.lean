import Docstore.Log.Event
import Docstore.Statement.Compile

/-!
# The registry of models

A model has an identity and is stored in a table.  The registry finds models by identity and, for
events that come out of a table, by the table they own.  Registering an identity again replaces its
model; the table it had before is given up, unless another model owns it by now.  When two models
share a table, the one registered last owns it.
-/

namespace Docstore

/-- A model: its identity, the table that stores it, its primary key, and whether it is cached. -/
structure Model where
  identity : String
  table : String
  primaryKey : String
  cached : Bool := false
  deriving DecidableEq, Repr

/-- Models by identity, and the identities that own tables. -/
structure Registry where
  models : Dictionary Model := []
  owners : Dictionary String := []
  deriving Repr, Inhabited

namespace Registry

def get? (r : Registry) (identity : String) : Option Model := Dictionary.get? identity r.models

/-- The owners of tables without the claim of a model on its table. -/
def released (owners : Dictionary String) (m : Model) : Dictionary String :=
  if Dictionary.get? m.table owners = some m.identity then Dictionary.erase m.table owners
  else owners

/-- Adds a model or replaces the one with its identity, which is returned then. -/
def replace (r : Registry) (m : Model) : Registry × Option Model :=
  let previous := r.get? m.identity
  let owners := match previous with
    | some p => released r.owners p
    | none => r.owners
  ({ models := Dictionary.put m.identity m r.models
     owners := Dictionary.put m.table m.identity owners }, previous)

/-- The registry with a model added or replaced. -/
def register (r : Registry) (m : Model) : Registry := (r.replace m).1

/-- The model that owns a table. -/
def byTable? (r : Registry) (table : String) : Option Model :=
  (Dictionary.get? table r.owners).bind r.get?

/-- The model that an event belongs to. -/
def ofEvent? (r : Registry) (e : ChangeEvent) : Option Model := r.byTable? e.collection

/-- The registered models by ascending identity. -/
def models? (r : Registry) : List Model :=
  (r.models.map Prod.snd).mergeSort fun a b => !(b.identity < a.identity : Bool)

def size (r : Registry) : Nat := r.models.length

/-- Compiles a request for a model: its table and primary key take the place of what the request
says. -/
def compile (now : String) (r : Registry) (identity : String) (request : Request) :
    Except Failure Compiled :=
  match r.get? identity with
  | none => .error (.noSuchModel identity)
  | some m =>
      Request.compile now { request with model := some m.table, primaryKey := some m.primaryKey }

end Registry

end Docstore
