import Docstore.Distance
import Docstore.Statement.Method
import Docstore.Update.Assignments

/-!
# Statements

What a request compiles to: the clauses of a query, and the values that it writes.  An aggregate
request compiles to the text of a pipeline instead.
-/

namespace Docstore

/-- What a statement writes. -/
inductive Payload where
  /-- Nothing is written. -/
  | nothing
  /-- Documents are stored as given. -/
  | documents (value : Json)
  /-- Stored documents are updated; where there is none, `insertion` is stored. -/
  | update (search insertion : Dictionary Json) (assigned : Assignments) (expression : String)
  deriving DecidableEq, Repr

/-- The resolved form of one operation. -/
structure Statement where
  model : String
  method : Method
  select : List String
  selectClause : String
  filter : String
  /-- The id of the one document that the filter pins down. -/
  primaryId : Option String
  vertexFilter : String
  edgeFilter : String
  sortClauses : List String
  limit : Option Nat
  skip : Option Nat
  numericAttribute : Option String
  edgeCollections : Option String
  distance : Option Distance
  payload : Payload
  deriving DecidableEq, Repr

namespace Statement

/-- The number of records that stands for all of them, where a skip needs a number. -/
def unlimited : Nat := 9007199254740991

/-- The clause for the window of records; empty without a limit and without a skip. -/
def limitClause (s : Statement) : String :=
  match s.skip.filter (0 < ·), s.limit with
  | none, none => ""
  | none, some limit => "LIMIT " ++ toString limit
  | some skip, limit => "LIMIT " ++ toString skip ++ ", " ++ toString (limit.getD unlimited)

end Statement

/-- The result of compiling a request. -/
inductive Compiled where
  | statement (s : Statement)
  | pipeline (text : String)
  deriving DecidableEq, Repr

end Docstore
