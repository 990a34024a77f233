import Docstore.Criteria.Basic
import Docstore.Json.Parser
import Docstore.Predicate.Reader

/-!
# Reading criteria from JSON

`null` and the empty object ask nothing.  Any other object needs the key `where`, even if it holds
`null`; the other keys are optional, and `null` is as good as absent.  Unknown keys are ignored.
The parts are read in the order filter, selection, sorting, limit, skip, so the first fault in
that order is the one reported, wherever the keys stand.
-/

namespace Docstore

namespace Criteria

/-- A member that is there and is not `null`. -/
def given? (key : String) (members : Dictionary Json) : Option Json :=
  (members.get? key).filter fun v => !v.isNull

def readFilter : Option Json → Except Failure Predicate
  | none => .ok .always
  | some v => Predicate.ofJson v

def readSelected (v : Json) : Except Failure String :=
  match v with
  | .string s => .ok s
  | _ => .error (.invalidCriteria ("\x60select\x60 entries must be strings, got " ++ v.typeName))

def readSelect : Option Json → Except Failure (List String)
  | none => .ok []
  | some (.array items) => items.mapM readSelected
  | some v => .error (.invalidCriteria ("\x60select\x60 must be an array, got " ++ v.typeName))

def readSortKey (m : String × Json) : Except Failure SortKey :=
  match Direction.ofJson? m.2 with
  | some direction => .ok ⟨m.1, direction⟩
  | none =>
      .error (.invalidCriteria
        ("invalid sort direction for \x60" ++ m.1 ++ "\x60: " ++ m.2.compact))

/-- The sort keys of an object, in order. -/
def readSortKeys (members : Dictionary Json) : Except Failure (List SortKey) :=
  members.mapM readSortKey

/-- The sort keys of an item of a list. -/
def readSortItem (v : Json) : Except Failure (List SortKey) :=
  match v with
  | .object members => readSortKeys members
  | _ =>
      .error (.invalidCriteria
        ("\x60sort\x60 entries must be \x7bfield: direction\x7d objects, got " ++ v.typeName))

/-- The sort keys: of an object, or of a list of objects one after the other. -/
def readSort : Option Json → Except Failure (List SortKey)
  | none => .ok []
  | some (.object members) => readSortKeys members
  | some (.array items) => (items.mapM readSortItem).map List.flatten
  | some v =>
      .error (.invalidCriteria ("\x60sort\x60 must be an array or object, got " ++ v.typeName))

def readCount (key : String) : Option Json → Except Failure (Option Nat)
  | none => .ok none
  | some v =>
      match v.toNat64? with
      | some n => .ok (some n)
      | none =>
          .error (.invalidCriteria
            ("\x60" ++ key ++ "\x60 must be a non-negative integer, got " ++ v.compact))

/-- The criteria of the members of an object that has the key `where`. -/
def ofMembers (members : Dictionary Json) : Except Failure Criteria := do
  let filter ← readFilter (given? "where" members)
  let select ← readSelect (given? "select" members)
  let sort ← readSort (given? "sort" members)
  let limit ← readCount "limit" (given? "limit" members)
  let skip ← readCount "skip" (given? "skip" members)
  .ok {
    filter, select, sort, limit, skip,
    vertices := given? "whereVertex" members
    edges := given? "whereEdge" members }

def ofJson : Json → Except Failure Criteria
  | .null => .ok {}
  | .object [] => .ok {}
  | .object members =>
      if Dictionary.has "where" members then ofMembers members
      else
        .error (.invalidCriteria
          "criteria with top-level keys must include a \x60where\x60 key")
  | v => .error (.invalidCriteria ("criteria must be an object, got " ++ v.typeName))

def ofText (text : String) : Except Failure Criteria :=
  match Json.parse? text with
  | some v => ofJson v
  | none => .error .malformedJson

end Criteria

end Docstore
