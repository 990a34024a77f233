import Docstore.Pipeline.Basic
import Docstore.Predicate.Reader

/-!
# Reading pipelines from JSON

A pipeline is an object with a key for each stage; unknown keys are ignored, and so is the order of
the keys, since the stages are read in their own order.  Aliases become variables of the query and
must be identifiers.
-/

namespace Docstore

namespace Pipeline

/-- The members of a stage, which must be an object. -/
def stageMembers (stage : String) (v : Json) : Except Failure (Dictionary Json) :=
  match v with
  | .object members => .ok members
  | _ => .error (.invalidPipeline (stage ++ " must be an object, got " ++ v.typeName))

/-- An alias, which must be an identifier. -/
def readAlias (stage name : String) : Except Failure String :=
  if isIdentifier name then .ok name
  else .error (.invalidPipeline ("invalid " ++ stage ++ " alias \x60" ++ name ++ "\x60"))

def readFilter : Option Json → Except Failure (Option Predicate)
  | none => .ok none
  | some v => do
      let _ ← stageMembers "$filter" v
      let p ← Predicate.ofJson v
      .ok (some p)

/-- The key of `$collect` that names the variable for the members of a group. -/
def intoKey : String := "$into"

/-- What an entry of `$collect` adds: the variable for members, or a group. -/
inductive Grouping where
  | into (name : String)
  | by (name : String) (source : Field)
  deriving DecidableEq, Repr

def readGrouping (m : String × Json) : Except Failure Grouping :=
  match m.2 with
  | .string source =>
      if m.1 = intoKey then
        if isIdentifier source then .ok (.into source)
        else .error (.invalidPipeline ("invalid $into variable \x60" ++ source ++ "\x60"))
      else (readAlias "$collect" m.1).map fun name => .by name (.ofKey source)
  | _ =>
      .error (.invalidPipeline ("$collect source for \x60" ++ m.1 ++ "\x60 must be a string"))

/-- The groups among the entries, in order. -/
def groupsOf (entries : List Grouping) : List (String × Field) :=
  entries.filterMap fun
    | .by name source => some (name, source)
    | .into _ => none

/-- The variable for members, if an entry names it. -/
def intoOf (entries : List Grouping) : Option String :=
  entries.findSome? fun
    | .into name => some name
    | .by _ _ => none

def readCollect : Option Json → Except Failure (List Grouping)
  | none => .ok []
  | some v => do
      let members ← stageMembers "$collect" v
      members.mapM readGrouping

/-- One entry of `$aggregate`: an alias and a call of one function on one field. -/
def readAggregate (m : String × Json) : Except Failure Aggregate :=
  match m.2 with
  | .object [(operator, v)] =>
      match AggregateFunction.operators.lookup operator with
      | none =>
          .error (.invalidPipeline
            ("unknown aggregate function \x60" ++ operator ++ "\x60 for \x60" ++ m.1 ++ "\x60"))
      | some function =>
          match v with
          | .string operand =>
              (readAlias "$aggregate" m.1).map fun name => ⟨name, function, .ofKey operand⟩
          | _ =>
              .error (.invalidPipeline
                (operator ++ " operand for \x60" ++ m.1 ++ "\x60 must be a string"))
  | .object _ =>
      .error (.invalidPipeline
        ("$aggregate entry \x60" ++ m.1 ++ "\x60 must name exactly one function"))
  | _ => .error (.invalidPipeline ("$aggregate entry \x60" ++ m.1 ++ "\x60 must be an object"))

def readAggregates : Option Json → Except Failure (List Aggregate)
  | none => .ok []
  | some v => do
      let members ← stageMembers "$aggregate" v
      members.mapM readAggregate

/-- One entry of `$sort`; the direction is a word in capitals. -/
def readSortKey (m : String × Json) : Except Failure (Field × Direction) :=
  if m.2 = .string "ASC" then .ok (.ofKey m.1, .ascending)
  else if m.2 = .string "DESC" then .ok (.ofKey m.1, .descending)
  else
    .error (.invalidPipeline
      ("$sort direction for \x60" ++ m.1 ++ "\x60 must be \"ASC\" or \"DESC\", got "
        ++ m.2.compact))

def readSort : Option Json → Except Failure (List (Field × Direction))
  | none => .ok []
  | some v => do
      let members ← stageMembers "$sort" v
      members.mapM readSortKey

/-- The shape of the result, which must be an object. -/
def readShape : Option Json → Except Failure (Option Json)
  | none => .ok none
  | some v => do
      let _ ← stageMembers "$return" v
      .ok (some v)

/-- The pipeline of the members of an object. -/
def ofMembers (members : Dictionary Json) : Except Failure Pipeline := do
  let filter ← readFilter (members.get? "$filter")
  let grouping ← readCollect (members.get? "$collect")
  let aggregates ← readAggregates (members.get? "$aggregate")
  let sort ← readSort (members.get? "$sort")
  let shape ← readShape (members.get? "$return")
  .ok {
    filter, aggregates, sort, shape,
    groups := groupsOf grouping
    into := intoOf grouping }

def ofJson : Json → Except Failure Pipeline
  | .object members => ofMembers members
  | v => .error (.invalidPipeline ("pipeline must be an object, got " ++ v.typeName))

end Pipeline

end Docstore
