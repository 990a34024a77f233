import Docstore.Pipeline.Reader
import Docstore.Predicate.Text

/-!
# Pipelines as query text

One line per stage, in the order of execution.  Grouping and aggregation share the keyword that
opens them, and the variable for the members of a group goes with the last of the two.  Sort keys
of a grouped pipeline are variables and stand for themselves; otherwise they are attributes of the
record.

Without a shape the result is the variables of a grouped pipeline, or the record with its key under
the name of the primary key.
-/

namespace Docstore

/-- The name of a collection: between backticks when it is no identifier. -/
def collectionName (name : String) : String :=
  if isIdentifier name then name else "\x60" ++ name ++ "\x60"

mutual

/-- A shape as an expression: marked strings are references, other values are themselves, and an
object whose only entry is `$concat` with a list joins texts. -/
def Json.shapeText : Json → String
  | .string s =>
      match rawText? s with
      | some reference => reference
      | none => Json.quote s
  | .array items => "[" ++ String.intercalate ", " (Json.shapeItems items) ++ "]"
  | .object [("$concat", .array parts)] =>
      "CONCAT(" ++ String.intercalate ", " (Json.shapeItems parts) ++ ")"
  | .object members => "\x7b " ++ String.intercalate ", " (Json.shapeMembers members) ++ " \x7d"
  | .number n => n.text
  | .bool b => if b then "true" else "false"
  | .null => "null"

/-- The items of an array in a shape. -/
def Json.shapeItems : List Json → List String
  | [] => []
  | v :: vs => Json.shapeText v :: Json.shapeItems vs

/-- The members of an object in a shape, each with its key. -/
def Json.shapeMembers : List (String × Json) → List String
  | [] => []
  | (k, v) :: ms => (Json.quote k ++ ": " ++ Json.shapeText v) :: Json.shapeMembers ms

end

namespace Pipeline

/-- The stage that goes through a collection. -/
def forStage (collection : String) : String :=
  "FOR " ++ recordVariable ++ " IN " ++ collectionName collection

/-- The filter stage, unless the filter is absent or always true. -/
def filterStage (p : Pipeline) : List String :=
  match p.filter with
  | none => []
  | some f => if f.isAlways then [] else ["FILTER " ++ f.render recordVariable]

/-- The clause for the members of a group. -/
def intoClause (p : Pipeline) : String :=
  match p.into with
  | none => ""
  | some name => " INTO " ++ name

def groupText (g : String × Field) : String := g.1 ++ " = " ++ g.2.render recordVariable

def aggregateText (a : Aggregate) : String :=
  a.name ++ " = " ++ a.function.keyword ++ "(" ++ a.operand.render recordVariable ++ ")"

def collectStage (p : Pipeline) : List String :=
  if p.groups.isEmpty then []
  else
    ["COLLECT " ++ String.intercalate ", " (p.groups.map groupText)
      ++ (if p.aggregates.isEmpty then p.intoClause else "")]

def aggregateStage (p : Pipeline) : List String :=
  if p.aggregates.isEmpty then []
  else
    [(if p.groups.isEmpty then "COLLECT " else "") ++ "AGGREGATE "
      ++ String.intercalate ", " (p.aggregates.map aggregateText) ++ p.intoClause]

def sortKeyText (p : Pipeline) (key : Field × Direction) : String :=
  (match key.1 with
    | .attribute name => if p.isGrouped then name else attributePath recordVariable name
    | .expression text => text) ++ " " ++ key.2.keyword

def sortStage (p : Pipeline) : List String :=
  if p.sort.isEmpty then [] else ["SORT " ++ String.intercalate ", " (p.sort.map p.sortKeyText)]

/-- The variables that grouping and aggregation bind, in order. -/
def boundNames (p : Pipeline) : List String :=
  p.groups.map Prod.fst ++ p.aggregates.map Aggregate.name ++ p.into.toList

def resultText (p : Pipeline) (key : String) : String :=
  match p.shape with
  | some shape => shape.shapeText
  | none =>
      if p.isGrouped then
        "\x7b " ++ String.intercalate ", " (p.boundNames.map fun n => Json.quote n ++ ": " ++ n)
          ++ " \x7d"
      else
        "MERGE(" ++ recordVariable ++ ", \x7b " ++ Json.quote key ++ ": " ++ recordVariable
          ++ "._key \x7d)"

/-- The lines of the query, for the primary key and the collection at hand. -/
def stages (p : Pipeline) (key collection : String) : List String :=
  forStage collection :: (p.filterStage ++ p.collectStage ++ p.aggregateStage ++ p.sortStage
    ++ ["RETURN " ++ p.resultText key])

def render (p : Pipeline) (key collection : String) : String :=
  String.intercalate "\n" (p.stages key collection)

def renderJson (v : Json) (key collection : String) : Except Failure String :=
  (ofJson v).map fun p => p.render key collection

end Pipeline

end Docstore
