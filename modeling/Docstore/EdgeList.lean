import Docstore.Failure
import Docstore.Json.Basic
import Docstore.Text.Blank
import Docstore.Text.Pieces

/-!
# Lists of edge collections

A traversal names the collections of its edges, in a list or in one text with commas.  Names are
trimmed and blank ones left out; at least one must remain.  The result is the names with a comma
and a blank between them.
-/

namespace Docstore

namespace EdgeList

/-- The name of a collection in a list. -/
def readName (v : Json) : Except Failure String :=
  match v with
  | .string s => .ok (Text.trim s)
  | _ =>
      .error (.invalidCriteria ("edge collection names must be strings, got " ++ v.typeName))

/-- The names that a JSON value lists, blank ones included. -/
def readNames : Json → Except Failure (List String)
  | .string s => .ok ((Text.cutAtAll ',' s).map Text.trim)
  | .array items => items.mapM readName
  | v =>
      .error (.invalidCriteria ("edge collections must be a string or array, got " ++ v.typeName))

/-- The text of a list of names; an empty list is refused. -/
def ofNames (names : List String) : Except Failure String :=
  match names.filter fun n => !n.isEmpty with
  | [] => .error (.invalidCriteria "edge collection list is empty")
  | kept => .ok (String.intercalate ", " kept)

/-- The text of the edge collections that a JSON value lists. -/
def ofJson (v : Json) : Except Failure String := (readNames v).bind ofNames

end EdgeList

end Docstore
