import Docstore.Json.Basic

/-!
# Drafts: JSON texts before their leaves are judged

A text can have the shape of JSON and still denote no value: a number may be too large, an escape
in a string may be half of a pair, the nesting may be too deep.  Where a member of a record is
unknown its content is skipped, and there such defects do not matter.  A draft therefore keeps the
shape and, at each leaf, the value if there is one.  `value?` judges a draft as a whole, `record?`
takes out the fields of a record and leaves the others unjudged.
-/

namespace Docstore

/-- A text with the shape of JSON.  Keys may repeat. -/
inductive Draft where
  | null
  | bool (value : Bool)
  | number (value : Option Number)
  | string (value : Option String)
  | array (items : List Draft)
  | object (members : List (Option String × Draft))
  deriving Inhabited

namespace Draft

mutual

/-- The value of a draft that nests arrays and objects at most `depth` deep.  A repeated key keeps
its first place and takes its last value. -/
def value? (depth : Nat) : Draft → Option Json
  | .null => some .null
  | .bool b => some (.bool b)
  | .number n => n.map .number
  | .string s => s.map .string
  | .array items =>
      match depth with
      | 0 => none
      | d + 1 => (itemValues? d items).map .array
  | .object members =>
      match depth with
      | 0 => none
      | d + 1 => (memberValues? d members).map fun ms => .object (Dictionary.ofEntries ms)

def itemValues? (depth : Nat) : List Draft → Option (List Json)
  | [] => some []
  | d :: ds => do
      let v ← value? depth d
      let vs ← itemValues? depth ds
      some (v :: vs)

def memberValues? (depth : Nat) : List (Option String × Draft) → Option (List (String × Json))
  | [] => some []
  | (k, d) :: ms => do
      let key ← k
      let v ← value? depth d
      let rest ← memberValues? depth ms
      some ((key, v) :: rest)

end

/-- How deep a text may nest arrays and objects. -/
def depthLimit : Nat := 127

/-- The drafts under a key. -/
def occurrences (name : String) (members : List (Option String × Draft)) : List Draft :=
  members.filterMap fun m => if m.1 = some name then some m.2 else none

/-- The drafts of the named fields, one entry per name.  A record is an object in which no field
stands twice, whatever else it holds, or an array of the fields in order, of which the first
`least` must be there. -/
def record? (names : List String) (least : Nat) : Draft → Option (List (Option Draft))
  | .object members =>
      if members.all (fun m => m.1.isSome)
          && names.all (fun name => (occurrences name members).length ≤ 1) then
        some (names.map fun name => (occurrences name members).head?)
      else none
  | .array items =>
      if least ≤ items.length ∧ items.length ≤ names.length then
        some (items.map some ++ List.replicate (names.length - items.length) none)
      else none
  | _ => none

/-- A field that may be left out or be `null`: outside none if it is neither that nor readable. -/
def optional? {α : Type} (read : Draft → Option α) : Option Draft → Option (Option α)
  | none => some none
  | some .null => some none
  | some d => (read d).map some

def string? : Draft → Option String
  | .string s => s
  | _ => none

def number? : Draft → Option Number
  | .number n => n
  | _ => none

end Draft

namespace Json

mutual

def draft : Json → Draft
  | .null => .null
  | .bool b => .bool b
  | .number n => .number (some n)
  | .string s => .string (some s)
  | .array items => .array (draftItems items)
  | .object members => .object (draftMembers members)

def draftItems : List Json → List Draft
  | [] => []
  | v :: vs => draft v :: draftItems vs

def draftMembers : List (String × Json) → List (Option String × Draft)
  | [] => []
  | (k, v) :: ms => (some k, draft v) :: draftMembers ms

end

end Json

end Docstore
