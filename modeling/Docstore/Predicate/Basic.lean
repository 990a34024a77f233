import Docstore.Term.Field

/-!
# Predicates

A predicate is a tree of conjunctions and disjunctions over comparisons of a field with operands.
Three kinds of comparison differ in what stands on the right: one operand, a list, or the two ends
of a range.

`conjunction` is the conjunction that readers build: it leaves out what is always true and adds no
layer around a single member.  `equalities` collects the equations that hold whenever the
predicate does, so far as its outermost conjunction shows them.
-/

namespace Docstore

/-- A comparison with one operand. -/
inductive SingleRelation where
  | equal
  | notEqual
  | greater
  | greaterOrEqual
  | less
  | lessOrEqual
  /-- Matches a pattern, whatever the case of letters. -/
  | like
  | notLike
  /-- The field is a list that holds the operand. -/
  | has
  | notHas
  deriving DecidableEq, Repr

/-- A comparison with a list of operands. -/
inductive ListRelation where
  | isIn
  | notIn
  /-- All operands are in the field, which is a list. -/
  | allIn
  /-- Some operand is in the field, which is a list. -/
  | anyIn
  deriving DecidableEq, Repr

/-- What is said of a field. -/
inductive Comparison where
  | single (relation : SingleRelation) (operand : Operand)
  | list (relation : ListRelation) (operands : List Operand)
  | between (low high : Operand)
  deriving DecidableEq, Repr

/-- A condition on records. -/
inductive Predicate where
  | always
  | all (members : List Predicate)
  | any (members : List Predicate)
  | compare (field : Field) (comparison : Comparison)
  deriving Repr, Inhabited

namespace Predicate

/-- Whether the predicate is the one that is always true. -/
def isAlways : Predicate → Bool
  | .always => true
  | _ => false

/-- The conjunction of predicates, without those that are always true; one that is left stands for
itself. -/
def conjunction (members : List Predicate) : Predicate :=
  match members.filter fun p => !p.isAlways with
  | [] => .always
  | [p] => p
  | ps => .all ps

/-- The comparison of an attribute with an operand for equality. -/
def equals (path : String) (operand : Operand) : Predicate :=
  .compare (.attribute path) (.single .equal operand)

mutual

/-- The equalities of attributes in the outermost conjunction, in order. -/
def equalities : Predicate → List (String × Operand)
  | .compare (.attribute path) (.single .equal operand) => [(path, operand)]
  | .all members => equalitiesOf members
  | _ => []

/-- The equalities of several predicates, in order. -/
def equalitiesOf : List Predicate → List (String × Operand)
  | [] => []
  | p :: ps => equalities p ++ equalitiesOf ps

end

theorem equalitiesOf_eq_flatMap (ps : List Predicate) :
    equalitiesOf ps = ps.flatMap equalities := by
  induction ps with
  | nil => rfl
  | cons p ps ih => rw [equalitiesOf, ih, List.flatMap_cons]

theorem isAlways_iff {p : Predicate} : p.isAlways = true ↔ p = .always := by
  cases p <;> simp [isAlways]

/-- What is gathered member by member, with nothing to gather from what is always true, is not
changed by the way in which a conjunction is built. -/
theorem gather_conjunction {β : Type} {g : Predicate → List β} (halways : g .always = [])
    (hall : ∀ members, g (.all members) = members.flatMap g) (members : List Predicate) :
    g (conjunction members) = members.flatMap g := by
  have hfilter : ∀ ps : List Predicate,
      (ps.filter fun p => !p.isAlways).flatMap g = ps.flatMap g := by
    intro ps
    induction ps with
    | nil => rfl
    | cons p ps ih =>
      cases h : p.isAlways with
      | true =>
        obtain rfl := isAlways_iff.mp h
        rw [List.filter_cons_of_neg (by simp [h]), ih, List.flatMap_cons, halways, List.nil_append]
      | false =>
        rw [List.filter_cons_of_pos (by simp [h]), List.flatMap_cons, ih, List.flatMap_cons]
  rw [← hfilter, conjunction]
  split
  · next h => rw [h, halways, List.flatMap_nil]
  · next p h => rw [h, List.flatMap_singleton]
  · exact hall _

end Predicate

end Docstore
