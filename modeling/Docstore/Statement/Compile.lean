import Docstore.Criteria.Reader
import Docstore.EdgeList
import Docstore.Pipeline.Text
import Docstore.Statement.Basic
import Docstore.Statement.Request
import Docstore.Update.Normal

/-!
# Compiling requests

A request is checked part by part, in a fixed order, and the first fault ends the compilation.
Nothing is partially compiled.  The clock is a parameter: it is the text that an insertion gets as
its time of creation when neither the filter nor the values provide one.
-/

namespace Docstore

/-- The loop variables of a traversal. -/
def vertexVariable : String := "v"

/-- The variable for the edges of a traversal. -/
def edgeVariable : String := "e"

/-- The attribute that holds the time of creation. -/
def createdAt : String := "createdAt"

namespace Request

/-- A field that must be there. -/
def need {α : Type} (name : String) : Option α → Except Failure α
  | some a => .ok a
  | none => .error (.missingField name)

/-- A text that must be there and hold more than blanks. -/
def needText (name : String) (s : Option String) : Except Failure String :=
  need name (s.filter fun t => !Text.isAllBlank t)

/-- An optional part that must be readable when it is there. -/
def readOptional {α : Type} (read : Json → Except Failure α) :
    Option Json → Except Failure (Option α)
  | none => .ok none
  | some v => (read v).map some

/-- The filter of a traversal: a bare string is the primary key. -/
def traversalFilter (primaryKey loopVar : String) : Option Json → Except Failure String
  | none => .ok ""
  | some (.string key) =>
      .ok ((Predicate.equals primaryKey (.literal (.string key))).render loopVar)
  | some v => Predicate.filterTextOfJson loopVar v

def sortClause (k : SortKey) : String :=
  attributePath recordVariable k.field ++ " " ++ k.direction.keyword

/-- The clause of the selection: the whole record, or the primary key and the selected others. -/
def selectClause (select : List String) (primaryKey : String) : String :=
  if select.isEmpty then recordVariable
  else
    let others := select.filter fun f => f ≠ primaryKey
    "KEEP(" ++ recordVariable ++ ", "
      ++ String.intercalate ", " ((primaryKey :: others).map Json.quote) ++ ")"

/-- The key of a document, if a value can be one: a string that is not empty, or a number. -/
def documentKey? : Json → Option String
  | .string s => if s.isEmpty then none else some s
  | .number n => some n.text
  | _ => none

/-- The id of the document that a filter pins down: by the first equality on the primary key, if
that has data that can be a key. -/
def primaryId? (filter : Predicate) (model primaryKey : String) : Option String := do
  let operand ← filter.equalities.lookup primaryKey
  let v ← operand.literal?
  let key ← documentKey? v
  some (model ++ "/" ++ key)

/-- The data that a filter demands of its records: the equalities with data, later ones winning. -/
def searchDocument (filter : Predicate) : Dictionary Json :=
  .ofEntries (filter.equalities.filterMap fun e => e.2.literal?.map fun v => (e.1, v))

/-- The document that is stored when there is none to update: what the filter demands, overwritten
by what is assigned, with a time of creation. -/
def insertionDocument (now : String) (search : Dictionary Json) (assigned : Assignments) :
    Dictionary Json :=
  let filled := search.putAll (assigned.filterMap fun e => e.2.literal?.map fun v => (e.1, v))
  if filled.has createdAt then filled else filled.put createdAt (.string now)

/-- Whether a method can store this value. -/
def checkDocuments (method : Method) (values : Json) : Except Failure Unit :=
  match method, values with
  | .createEach, .array items =>
      match items.find? fun v => !v.isObject with
      | none => .ok ()
      | some v =>
          .error (.invalidUpdate ("createEach entries must be objects, got " ++ v.typeName))
  | .createEach, v =>
      .error (.invalidUpdate ("createEach expects an array of objects, got " ++ v.typeName))
  | _, .object _ => .ok ()
  | m, v => .error (.invalidUpdate (m.name ++ " expects an object, got " ++ v.typeName))

/-- What the method needs besides its model: edges for a traversal, a circle for a search by
distance, an attribute for a sum or an average. -/
def checkNeeds (r : Request) (method : Method) (edges : Option String)
    (distance : Option Distance) : Except Failure Unit :=
  if method.needsEdges && edges.isNone then .error (.missingField "edgeCollections")
  else if method = .findNear && distance.isNone then .error (.missingField "distanceCriteria")
  else if method.needsNumericAttribute && (r.numericAttribute.getD "").isEmpty then
    .error (.missingField "numericAttrName")
  else .ok ()

def compilePayload (now : String) (r : Request) (method : Method) (filter : Predicate) :
    Except Failure Payload :=
  if method.isUpdate then do
    let values ← need "values" r.values
    let fields ← fieldMutations values
    let search := searchDocument filter
    .ok (.update search
      (insertionDocument now search (NormalUpdate.ofFields .insertion fields).assigned)
      (NormalUpdate.ofFields .value fields).assigned
      (NormalUpdate.ofFields .setExpression fields).objectText)
  else if method.isInsert then do
    let values ← need "values" r.values
    checkDocuments method values
    .ok (.documents values)
  else .ok .nothing

/-- The statement of a request for a model, a method and a primary key. -/
def compileStatement (now : String) (r : Request) (model : String) (method : Method)
    (primaryKey : String) : Except Failure Statement := do
  let criteria ← Criteria.ofJson (Json.orNull r.criteria)
  let vertexFilter ← traversalFilter primaryKey vertexVariable criteria.vertices
  let edgeFilter ← traversalFilter primaryKey edgeVariable criteria.edges
  let edgeCollections ← readOptional EdgeList.ofJson r.edgeCollections
  let distance ← readOptional Distance.ofJson r.distance
  checkNeeds r method edgeCollections distance
  let payload ← compilePayload now r method criteria.filter
  .ok {
    model, method, vertexFilter, edgeFilter, edgeCollections, distance, payload
    select := criteria.select
    selectClause := selectClause criteria.select primaryKey
    filter := criteria.filter.filterText recordVariable
    primaryId := primaryId? criteria.filter model primaryKey
    sortClauses := criteria.sort.map sortClause
    limit := criteria.limit
    skip := criteria.skip
    numericAttribute := r.numericAttribute }

def compile (now : String) (r : Request) : Except Failure Compiled := do
  let model ← needText "model" r.model
  let method ← need "method" r.method
  let primaryKey ← needText "pkColumnName" r.primaryKey
  if method = .aggregate then
    let pipeline ← need "aggregateCriteria" r.aggregate
    let text ← Pipeline.renderJson pipeline primaryKey model
    .ok (.pipeline text)
  else
    let statement ← compileStatement now r model method primaryKey
    .ok (.statement statement)

/-- Compiles the request of a JSON text. -/
def compileText (now text : String) : Except Failure Compiled := (ofText text).bind (compile now)

end Request

/-- The statement of a result; a pipeline is none. -/
def Compiled.toStatement : Compiled → Except Failure Statement
  | .statement s => .ok s
  | .pipeline _ =>
      .error (.invalidCriteria "aggregate requests compile to a pipeline, not a statement")

end Docstore
