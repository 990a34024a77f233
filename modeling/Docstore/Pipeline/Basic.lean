import Docstore.Criteria.Basic

/-!
# Aggregation pipelines

A pipeline filters records, groups them, computes aggregates of each group, sorts what comes out
and shapes the result.  Each stage is optional.
-/

namespace Docstore

/-- A function on the values of a group. -/
inductive AggregateFunction where
  | sum
  | average
  | minimum
  | maximum
  | floor
  deriving DecidableEq, Repr

namespace AggregateFunction

/-- The operators of requests and their functions. -/
def operators : List (String × AggregateFunction) :=
  [("$sum", .sum), ("$avg", .average), ("$min", .minimum), ("$max", .maximum), ("$floor", .floor)]

/-- The name of a function in query text. -/
def keyword : AggregateFunction → String
  | .sum => "SUM"
  | .average => "AVERAGE"
  | .minimum => "MIN"
  | .maximum => "MAX"
  | .floor => "FLOOR"

end AggregateFunction

/-- A value computed for each group. -/
structure Aggregate where
  name : String
  function : AggregateFunction
  operand : Field
  deriving DecidableEq, Repr

/-- A chain of stages over the records of a collection. -/
structure Pipeline where
  filter : Option Predicate := none
  /-- The variables that name a group, and what records of a group share. -/
  groups : List (String × Field) := []
  /-- The variable that holds the members of a group. -/
  into : Option String := none
  aggregates : List Aggregate := []
  sort : List (Field × Direction) := []
  /-- The shape of the result. -/
  shape : Option Json := none
  deriving Repr, Inhabited

/-- Whether what comes out are groups rather than records. -/
def Pipeline.isGrouped (p : Pipeline) : Bool := !p.groups.isEmpty || !p.aggregates.isEmpty

end Docstore
