import Docstore.Statement.Basic

/-!
# Statements as JSON

The record of a statement has its fields in a fixed order.  The last three stand only in statements
that write something.
-/

namespace Docstore

def Json.ofText? (s : Option String) : Json := Json.orNull (s.map .string)

/-- A natural number below `2 ^ 64`, or `null`. -/
def Json.ofNat? (n : Option Nat) : Json :=
  Json.orNull (n.bind fun n => (Number.ofInt? n).map .number)

namespace Payload

def valuesJson : Payload → Json
  | .nothing => .null
  | .documents v => v
  | .update _ _ assigned _ => assigned.toJson

/-- The fields after `values`. -/
def restJson : Payload → List (String × Json)
  | .nothing => []
  | .documents v => [("valuesToSet", v)]
  | .update search insertion _ expression =>
      [("valuesToSet", .string expression), ("criteria", .object search),
        ("insertvalues", .object insertion)]

end Payload

def Statement.toJson (s : Statement) : Json :=
  .object ([
    ("tableName", .string s.model),
    ("model", .string s.model),
    ("method", .string s.method.name),
    ("select", .array (s.select.map .string)),
    ("selectClause", .string s.selectClause),
    ("whereClause", .string s.filter),
    ("primarywhere", Json.orNull (s.primaryId.map fun id => .object [("_id", .string id)])),
    ("whereVertexClause", .string s.vertexFilter),
    ("whereEdgeClause", .string s.edgeFilter),
    ("sortClause", .string (String.intercalate ", " s.sortClauses)),
    ("sortClauseArray", .array (s.sortClauses.map .string)),
    ("limit", Json.ofNat? s.limit),
    ("skip", Json.ofNat? s.skip),
    ("numericAttrName", Json.ofText? s.numericAttribute),
    ("edgeCollections", Json.ofText? s.edgeCollections),
    ("geoAttrName", Json.ofText? (s.distance.map Distance.path)),
    ("geoRadius", Json.orNull (s.distance.map fun d => .number (.float d.radius))),
    ("distanceCriteria", Json.orNull (s.distance.map Distance.toJson)),
    ("values", s.payload.valuesJson)] ++ s.payload.restJson)

def Compiled.toJson : Compiled → Json
  | .statement s => s.toJson
  | .pipeline text => .object [("aggregatestatement", .string text)]

end Docstore
