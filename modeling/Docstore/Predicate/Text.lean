import Docstore.Predicate.Reader

/-!
# Predicates as query text

Every member of a conjunction or disjunction is put in parentheses, so the text shows the tree.
Membership in a list of one is written as the comparison with its only element.  Patterns fold the
case on both sides.
-/

namespace Docstore

/-- A list of operands between brackets. -/
def renderOperands (operands : List Operand) : String :=
  "[" ++ String.intercalate ", " (operands.map Operand.render) ++ "]"

/-- A comparison with one operand. -/
def SingleRelation.render (left right : String) : SingleRelation → String
  | .equal => left ++ " == " ++ right
  | .notEqual => left ++ " != " ++ right
  | .greater => left ++ " > " ++ right
  | .greaterOrEqual => left ++ " >= " ++ right
  | .less => left ++ " < " ++ right
  | .lessOrEqual => left ++ " <= " ++ right
  | .like => "LOWER(" ++ left ++ ") LIKE LOWER(" ++ right ++ ")"
  | .notLike => "LOWER(" ++ left ++ ") NOT LIKE LOWER(" ++ right ++ ")"
  | .has => right ++ " IN " ++ left
  | .notHas => right ++ " NOT IN " ++ left

/-- A comparison with a list of operands. -/
def ListRelation.render (left : String) (operands : List Operand) : ListRelation → String
  | .isIn =>
      match operands with
      | [only] => SingleRelation.equal.render left only.render
      | _ => left ++ " IN " ++ renderOperands operands
  | .notIn =>
      match operands with
      | [only] => SingleRelation.notEqual.render left only.render
      | _ => left ++ " NOT IN " ++ renderOperands operands
  | .allIn => renderOperands operands ++ " ALL IN " ++ left
  | .anyIn => renderOperands operands ++ " ANY IN " ++ left

/-- What is said of the left side. -/
def Comparison.render (left : String) : Comparison → String
  | .single relation operand => relation.render left operand.render
  | .list relation operands => relation.render left operands
  | .between low high => left ++ " BETWEEN " ++ low.render ++ " AND " ++ high.render

namespace Predicate

mutual

/-- The predicate as an expression over a loop variable. -/
def render (loopVar : String) : Predicate → String
  | .always => "true"
  | .all members => String.intercalate " AND " (renderMembers loopVar members)
  | .any members => String.intercalate " OR " (renderMembers loopVar members)
  | .compare field comparison => comparison.render (field.render loopVar)

/-- The members of a combination, each in parentheses. -/
def renderMembers (loopVar : String) : List Predicate → List String
  | [] => []
  | p :: ps => ("(" ++ render loopVar p ++ ")") :: renderMembers loopVar ps

end

/-- The predicate as a filter: nothing at all when it is always true. -/
def filterText (loopVar : String) (p : Predicate) : String :=
  if p.isAlways then "" else p.render loopVar

def filterTextOfJson (loopVar : String) (v : Json) : Except Failure String :=
  (ofJson v).map (filterText loopVar)

theorem renderMembers_eq_map (loopVar : String) (ps : List Predicate) :
    renderMembers loopVar ps = ps.map fun p => "(" ++ p.render loopVar ++ ")" := by
  induction ps with
  | nil => rfl
  | cons p ps ih => rw [renderMembers, ih, List.map_cons]

end Predicate

end Docstore
