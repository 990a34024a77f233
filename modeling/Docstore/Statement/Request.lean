import Docstore.Failure
import Docstore.Json.Parser
import Docstore.Statement.Method

/-!
# Requests

A request names a model, a method and the primary key of the model, and carries what the method
works with.  In JSON it is a record: an object with some of the fields, or an array of all of them
in order.  A field that is `null` is as good as absent.
-/

namespace Docstore

/-- One operation on a model. -/
structure Request where
  model : Option String := none
  method : Option Method := none
  criteria : Option Json := none
  values : Option Json := none
  primaryKey : Option String := none
  edgeCollections : Option Json := none
  distance : Option Json := none
  aggregate : Option Json := none
  numericAttribute : Option String := none
  deriving Repr, Inhabited

namespace Method

/-- A method in JSON: its name, or an object with the name as its only key and `null` under it. -/
def ofDraft? : Draft → Option Method
  | .string name => name.bind ofName?
  | .object [(name, .null)] => name.bind ofName?
  | _ => none

end Method

namespace Request

def fieldNames : List String :=
  ["model", "method", "criteria", "values", "pkColumnName", "edgeCollections",
    "distanceCriteria", "aggregateCriteria", "numericAttrName"]

/-- The request of a draft.  `depth` bounds the nesting below the record itself. -/
def ofDraft? (depth : Nat) (d : Draft) : Option Request :=
  match d.record? fieldNames fieldNames.length with
  | some [model, method, criteria, values, primaryKey, edges, distance, aggregate, numeric] => do
      let model ← Draft.optional? Draft.string? model
      let method ← Draft.optional? Method.ofDraft? method
      let criteria ← Draft.optional? (Draft.value? depth) criteria
      let values ← Draft.optional? (Draft.value? depth) values
      let primaryKey ← Draft.optional? Draft.string? primaryKey
      let edgeCollections ← Draft.optional? (Draft.value? depth) edges
      let distance ← Draft.optional? (Draft.value? depth) distance
      let aggregate ← Draft.optional? (Draft.value? depth) aggregate
      let numericAttribute ← Draft.optional? Draft.string? numeric
      some { model, method, criteria, values, primaryKey, edgeCollections, distance, aggregate,
             numericAttribute }
  | _ => none

/-- The nesting that a text leaves below a record. -/
def innerDepth : Nat := Draft.depthLimit - 1

def ofJson (v : Json) : Except Failure Request :=
  match ofDraft? innerDepth v.draft with
  | some r => .ok r
  | none => .error .malformedJson

def ofText (text : String) : Except Failure Request :=
  match (Draft.parse? text).bind (ofDraft? innerDepth) with
  | some r => .ok r
  | none => .error .malformedJson

end Request

end Docstore
