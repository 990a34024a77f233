import Docstore.Failure
import Docstore.Term.Field

/-!
# Mutations of a field

An update assigns a field a value or changes what is stored there.  A mutation has two readings: an
expression over the stored document, and the value that it comes to when there is no stored
document yet.

`mutationsOf` reads the mutations of a JSON object one after the other: the members of `$and`
stand in its place, an operator applies to each of its fields, and any other key is a plain
assignment.
-/

namespace Docstore

/-- The variable that stands for the stored document. -/
def storedVariable : String := "OLD"

/-- A change of one field. -/
inductive Mutation where
  | assign (value : Json)
  | increment (amount : Number)
  /-- Adds a value to the end of a list, unless it is there already and must be unique. -/
  | push (value : Json) (unique : Bool)
  /-- Adds a value to the front of a list, unless it is there already and must be unique. -/
  | unshift (value : Json) (unique : Bool)
  | pop
  | shift
  /-- Removes values from a list. -/
  | pull (values : List Json)
  deriving DecidableEq, Repr

def boolText (b : Bool) : String := if b then "true" else "false"

namespace Mutation

/-- The mutation as an expression that yields the new value of a field. -/
def expression (field : String) (m : Mutation) : String :=
  let stored := attributePath storedVariable field
  match m with
  | .assign v => v.compact
  | .increment n =>
      match n.text.toList with
      | '-' :: rest => stored ++ "-" ++ String.ofList rest
      | _ => stored ++ "+" ++ n.text
  | .push v unique => "PUSH(" ++ stored ++ ", " ++ v.compact ++ ", " ++ boolText unique ++ ")"
  | .unshift v unique =>
      "UNSHIFT(" ++ stored ++ ", " ++ v.compact ++ ", " ++ boolText unique ++ ")"
  | .pop => "POP(" ++ stored ++ ")"
  | .shift => "SHIFT(" ++ stored ++ ")"
  | .pull values =>
      "REMOVE_VALUES(" ++ stored ++ ", " ++ (Json.array values).compact ++ ")"

/-- The value of a field that was not there before. -/
def initialValue : Mutation → Json
  | .assign v => v
  | .increment n => .number n
  | .push v _ => .array [v]
  | .unshift v _ => .array [v]
  | .pop => .array []
  | .shift => .array []
  | .pull _ => .array []

/-- What an operator does with its operand. -/
inductive Operator where
  | increment
  | push (unique : Bool)
  | unshift (unique : Bool)
  | pop
  | shift
  | pull
  deriving DecidableEq, Repr

def operators : List (String × Operator) :=
  [("$inc", .increment), ("$push", .push false), ("$pushset", .push true),
    ("$unshift", .unshift false), ("$unshiftset", .unshift true), ("$pop", .pop),
    ("$shift", .shift), ("$pull", .pull)]

/-- The mutation of a field by an operator. -/
def ofOperator (operator : Operator) (field : String) (v : Json) : Except Failure Mutation :=
  match operator with
  | .increment =>
      match v with
      | .number n => .ok (.increment n)
      | _ =>
          .error (.invalidUpdate
            ("$inc on \x60" ++ field ++ "\x60 requires a number, got " ++ v.typeName))
  | .push unique => .ok (.push v unique)
  | .unshift unique => .ok (.unshift v unique)
  | .pop => .ok .pop
  | .shift => .ok .shift
  | .pull =>
      match v with
      | .array values => .ok (.pull values)
      | _ =>
          .error (.invalidUpdate
            ("$pull on \x60" ++ field ++ "\x60 requires an array, got " ++ v.typeName))

/-- Whether a key splices the members of a list. -/
def isSpliceKey (key : String) : Bool := key == "$and" || key == "and"

/-- The mutations of an operator's fields, in order. -/
def ofOperand (operator : Operator) (key : String) (v : Json) :
    Except Failure (List (String × Mutation)) :=
  match v with
  | .object fields => fields.mapM fun f => (ofOperator operator f.1 f.2).map fun m => (f.1, m)
  | _ =>
      .error (.invalidUpdate
        (key ++ " expects an object of field operands, got " ++ v.typeName))

/-- The mutations of an entry whose key splices nothing. -/
def ofEntry (key : String) (v : Json) : Except Failure (List (String × Mutation)) :=
  match operators.lookup key with
  | some operator => ofOperand operator key v
  | none => .ok [(key, .assign v)]

mutual

/-- The mutations of the entries of an object, in order. -/
def ofMembers : List (String × Json) → Except Failure (List (String × Mutation))
  | [] => .ok []
  | (key, v) :: rest => do
      let ms ← ofMember key v
      let more ← ofMembers rest
      .ok (ms ++ more)

/-- The mutations of one entry. -/
def ofMember (key : String) : Json → Except Failure (List (String × Mutation))
  | .array parts =>
      if isSpliceKey key then ofParts key parts else ofEntry key (.array parts)
  | v =>
      if isSpliceKey key then
        .error (.invalidUpdate (key ++ " expects an array of objects, got " ++ v.typeName))
      else ofEntry key v

/-- The mutations of spliced members, in order. -/
def ofParts (key : String) : List Json → Except Failure (List (String × Mutation))
  | [] => .ok []
  | part :: parts => do
      let ms ← ofPart key part
      let more ← ofParts key parts
      .ok (ms ++ more)

/-- The mutations of one spliced member, which must be an object. -/
def ofPart (key : String) : Json → Except Failure (List (String × Mutation))
  | .object members => ofMembers members
  | v => .error (.invalidUpdate (key ++ " members must be objects, got " ++ v.typeName))

end

end Mutation

/-- The mutations of a JSON value, in the order of the text. -/
def mutationsOf : Json → Except Failure (List (String × Mutation))
  | .object members => Mutation.ofMembers members
  | v => .error (.invalidUpdate ("values must be an object, got " ++ v.typeName))

end Docstore
