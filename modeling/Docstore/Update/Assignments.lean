import Docstore.Term.Operand

/-!
# Assignments

What an update writes: an operand for each field, in the order in which the fields were first
assigned.  Assignments are a dictionary, so a second assignment replaces the first where it stands.
-/

namespace Docstore

/-- Operands for fields, in order. -/
abbrev Assignments := Dictionary Operand

namespace Assignments

/-- The assignments as an object of data, if none of them is raw text. -/
def plain? (a : Assignments) : Option (Dictionary Json) :=
  a.mapM fun e => e.2.literal?.map fun v => (e.1, v)

/-- The assignments as an object in which raw text is marked. -/
def toJson (a : Assignments) : Json := .object (a.map fun e => (e.1, e.2.toJson))

end Assignments

end Docstore
