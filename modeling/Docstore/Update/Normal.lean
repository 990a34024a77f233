import Docstore.Update.Assignments
import Docstore.Update.Mutation

/-!
# The normal form of an update

The mutations of an update are collected in a dictionary: each field stands where it was first
mentioned, with the mutation that was mentioned last.  From that, three forms are made.  As
*values*, a mutation other than a plain assignment is raw text over the stored document.  As a
*set expression*, every mutation is an expression, and the plain ones are kept as data besides.
For an *insertion*, every mutation is the data it comes to without a stored document.
-/

namespace Docstore

/-- The forms of an update. -/
inductive UpdateMode where
  | value
  | setExpression
  | insertion
  deriving DecidableEq, Repr

/-- An update in normal form: what it assigns, and the expressions of its fields. -/
structure NormalUpdate where
  assigned : Assignments := []
  rendered : List (String × String) := []
  deriving DecidableEq, Repr

/-- The fields of an update, each with its last mutation. -/
def fieldMutations (values : Json) : Except Failure (Dictionary Mutation) :=
  (mutationsOf values).map Dictionary.ofEntries

namespace Mutation

/-- The operand that a mutation assigns: data for a plain assignment, raw text otherwise. -/
def operand (field : String) (m : Mutation) : Operand :=
  match m with
  | .assign v => .literal v
  | _ => .raw (m.expression field)

/-- The data of a plain assignment. -/
def assigned? : Mutation → Option Json
  | .assign v => some v
  | _ => none

end Mutation

namespace NormalUpdate

/-- The form of field mutations in a mode. -/
def ofFields (mode : UpdateMode) (fields : Dictionary Mutation) : NormalUpdate :=
  match mode with
  | .value => { assigned := fields.map fun f => (f.1, f.2.operand f.1) }
  | .setExpression =>
      { assigned := fields.filterMap fun f => f.2.assigned?.map fun v => (f.1, .literal v)
        rendered := fields.map fun f => (f.1, f.2.expression f.1) }
  | .insertion => { assigned := fields.map fun f => (f.1, .literal f.2.initialValue) }

/-- The normal form of a JSON value in a mode. -/
def ofJson (mode : UpdateMode) (values : Json) : Except Failure NormalUpdate :=
  (fieldMutations values).map (ofFields mode)

/-- The expressions as the text of an object. -/
def objectText (u : NormalUpdate) : String :=
  if u.rendered.isEmpty then "\x7b\x7d"
  else
    "\x7b " ++ String.intercalate ", " (u.rendered.map fun f => Json.quote f.1 ++ ": " ++ f.2)
      ++ " \x7d"

end NormalUpdate

end Docstore
