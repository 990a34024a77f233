import Docstore.Failure
import Docstore.Predicate.Basic

/-!
# Reading predicates from JSON

A predicate is an object.  It is the conjunction of its entries, in order: an entry is a combinator
over a list of predicates, or a field with what is said of it.  A field's value is a set of
operators when it is an object with some marked key, and then every key of it must be an operator;
any other value is the operand of an equality.

A disjunction needs two members at least, and its members are read before they are counted, so a
fault inside a member is reported first.
-/

namespace Docstore

namespace Predicate

/-- The keys that combine predicates by conjunction. -/
def isConjunctionKey (key : String) : Bool := key == "$and" || key == "and"

/-- The keys that combine predicates by disjunction. -/
def isDisjunctionKey (key : String) : Bool := key == "$or" || key == "or"

/-- The operators that take one operand of any kind. -/
def singleOperators : List (String × SingleRelation) :=
  [("$gt", .greater), ("$gte", .greaterOrEqual), ("$lt", .less), ("$lte", .lessOrEqual),
    ("$ne", .notEqual), ("$has", .has), ("$nothas", .notHas)]

def patternOperators : List (String × SingleRelation) := [("$like", .like), ("$notlike", .notLike)]

def listOperators : List (String × ListRelation) :=
  [("$in", .isIn), ("$nin", .notIn), ("$allin", .allIn), ("$anyin", .anyIn)]

/-- The operator that takes the two ends of a range. -/
def rangeOperator : String := "$between"

/-- A pattern must be a string. -/
def readPattern (operator : String) (v : Json) : Except Failure Operand :=
  match v with
  | .string _ => .ok (.ofJson v)
  | _ => .error (.invalidOperator operator ("expects a string pattern, got " ++ v.typeName))

/-- A list must be an array that is not empty. -/
def readList (operator : String) (v : Json) : Except Failure (List Operand) :=
  match v with
  | .array [] => .error (.invalidOperator operator "requires a non-empty array")
  | .array items => .ok (items.map .ofJson)
  | _ => .error (.invalidOperator operator ("expects an array, got " ++ v.typeName))

/-- A range must be an array of two. -/
def readRange (v : Json) : Except Failure Comparison :=
  match v with
  | .array [low, high] => .ok (.between (.ofJson low) (.ofJson high))
  | _ => .error (.invalidOperator rangeOperator "requires an array of exactly two values")

/-- What an operator says of a field. -/
def readOperator (operator : String) (v : Json) : Except Failure Comparison :=
  match singleOperators.lookup operator with
  | some relation => .ok (.single relation (.ofJson v))
  | none =>
  match patternOperators.lookup operator with
  | some relation => (readPattern operator v).map (.single relation)
  | none =>
  match listOperators.lookup operator with
  | some relation => (readList operator v).map (.list relation)
  | none =>
    if operator = rangeOperator then readRange v
    else .error (.invalidOperator operator "unknown filter operator")

/-- Whether members of an object are operators: so they are when some key is marked. -/
def areOperators (members : Dictionary Json) : Bool := members.any fun m => isMarked m.1

/-- What the value of a field says of it. -/
def readComparisons (v : Json) : Except Failure (List Comparison) :=
  match v with
  | .object members =>
      if areOperators members then members.mapM fun m => readOperator m.1 m.2
      else .ok [.single .equal (.ofJson v)]
  | _ => .ok [.single .equal (.ofJson v)]

mutual

def ofJson : Json → Except Failure Predicate
  | .object members => (ofMembers members).map conjunction
  | v => .error (.invalidCriteria ("predicate must be an object, got " ++ v.typeName))

/-- The predicates of the entries of an object, in order. -/
def ofMembers : List (String × Json) → Except Failure (List Predicate)
  | [] => .ok []
  | (key, v) :: rest => do
      let parts ← ofMember key v
      let more ← ofMembers rest
      .ok (parts ++ more)

/-- The predicates of one entry. -/
def ofMember (key : String) : Json → Except Failure (List Predicate)
  | .array items =>
      if isConjunctionKey key then do
        let members ← ofItems items
        .ok [conjunction members]
      else if isDisjunctionKey key then do
        let members ← ofItems items
        if members.length < 2 then
          .error (.invalidOperator key "requires an array of at least two predicates")
        else .ok [.any members]
      else
        (readComparisons (.array items)).map (·.map (.compare (.ofKey key)))
  | v =>
      if isConjunctionKey key || isDisjunctionKey key then
        .error (.invalidOperator key ("expects an array, got " ++ v.typeName))
      else
        (readComparisons v).map (·.map (.compare (.ofKey key)))

/-- The predicates of the items of an array. -/
def ofItems : List Json → Except Failure (List Predicate)
  | [] => .ok []
  | v :: vs => do
      let p ← ofJson v
      let ps ← ofItems vs
      .ok (p :: ps)

end

end Predicate

end Docstore
