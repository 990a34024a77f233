import Docstore.Predicate.Basic

/-!
# Criteria

What a request asks of records: a filter, the attributes to keep, an order, a window, and filters
for the vertices and edges of a traversal.  The last two stay in JSON, because a bare string there
means the primary key, whose name is known only when the request is compiled.
-/

namespace Docstore

/-- A direction of sorting. -/
inductive Direction where
  | ascending
  | descending
  deriving DecidableEq, Repr

namespace Direction

/-- Whether a text is a word in lower case, whatever its own case. -/
def isWord (word s : String) : Bool := s.toList.map Char.toLower == word.toList

/-- The direction that a JSON value names: a word in any case, or one of the numbers 1 and -1. -/
def ofJson? : Json → Option Direction
  | .string s =>
      if isWord "asc" s then some .ascending
      else if isWord "desc" s then some .descending
      else none
  | .number n =>
      match n.toInt64? with
      | some 1 => some .ascending
      | some (-1) => some .descending
      | _ => none
  | _ => none

/-- The word for a direction in query text. -/
def keyword : Direction → String
  | .ascending => "ASC"
  | .descending => "DESC"

end Direction

/-- An attribute to sort by. -/
structure SortKey where
  field : String
  direction : Direction
  deriving DecidableEq, Repr

/-- What a request asks of records. -/
structure Criteria where
  filter : Predicate := .always
  select : List String := []
  sort : List SortKey := []
  limit : Option Nat := none
  skip : Option Nat := none
  vertices : Option Json := none
  edges : Option Json := none
  deriving Repr, Inhabited

def Criteria.isEmpty (c : Criteria) : Bool :=
  c.filter.isAlways && c.select.isEmpty && c.sort.isEmpty && c.limit.isNone && c.skip.isNone
    && c.vertices.isNone && c.edges.isNone

end Docstore
