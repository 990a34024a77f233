import Docstore.Dictionary
import Docstore.Toml.Shape

/-!
# TOML documents

The lines of a document are carried out from top to bottom on a tree whose nodes remember how they
came about, since that decides what may be added to them later.  A table that a header named is
named once; a table that only lies on the way to a header may still get a header; a table made by a
dotted path can be extended by dotted paths from the same table only; and a value is never extended.
In a list of tables every way goes through the last one.

A header opens its table before the assignments under it are carried out, while an item joins its
list of tables after them.  The first fault ends the work.
-/

namespace Docstore

namespace Toml

/-- How a table came about. -/
inductive Origin where
  /-- A header named it. -/
  | header
  /-- It lies on the way to what a header named. -/
  | implied
  /-- It lies on the way of a dotted path. -/
  | dotted
  deriving DecidableEq, Repr

/-- A part of a document in the making. -/
inductive Node where
  | value (v : Toml)
  | table (origin : Origin) (entries : List (String × Node))
  | items (tables : List (List (String × Node)))
  deriving Inhabited

/-- The entries of a table in the making. -/
abbrev Nodes := List (String × Node)

/-! ### The tree -/

mutual

def Node.toToml : Node → Toml
  | .value v => v
  | .table _ entries => .table (entryValues entries)
  | .items tables => .array (tableValues tables)

def entryValues : List (String × Node) → List (String × Toml)
  | [] => []
  | (k, n) :: rest => (k, n.toToml) :: entryValues rest

def tableValues : List (List (String × Node)) → List Toml
  | [] => []
  | entries :: rest => .table (entryValues entries) :: tableValues rest

end

/-- Assigns a value to a path within a table; `takes` says whether the table takes new entries. -/
def assignIn (takes : Bool) (value : Toml) : List String → Nodes → Option Nodes
  | [], _ => none
  | [key], entries =>
      if takes && !Dictionary.has key entries then some (Dictionary.put key (.value value) entries)
      else none
  | key :: path, entries =>
      match Dictionary.get? key entries with
      | none => do
          let inner ← assignIn true value path []
          some (Dictionary.put key (.table .dotted inner) entries)
      | some (.table .dotted inner) => do
          let inner ← assignIn true value path inner
          some (Dictionary.put key (.table .dotted inner) entries)
      | some (.table .implied inner) => do
          let inner ← assignIn false value path inner
          some (Dictionary.put key (.table .implied inner) entries)
      | some (.items tables) => do
          let last ← tables.getLast?
          let inner ← assignIn false value path last
          some (Dictionary.put key (.items (tables.dropLast ++ [inner])) entries)
      | some (.table .header _) | some (.value _) => none

/-- A part of the work that fails for no other reason than the rules of the format. -/
def orMalformed {α : Type} : Option α → Except Fault α
  | some a => .ok a
  | none => .error .malformed

/-- Changes the entries of the table that a path of headers leads to.  Tables on the way come into
being. -/
def within (change : Nodes → Except Fault Nodes) : List String → Nodes → Except Fault Nodes
  | [], entries => change entries
  | key :: path, entries =>
      match Dictionary.get? key entries with
      | none => do
          let inner ← within change path []
          .ok (Dictionary.put key (.table .implied inner) entries)
      | some (.table origin inner) => do
          let inner ← within change path inner
          .ok (Dictionary.put key (.table origin inner) entries)
      | some (.items tables) => do
          let last ← orMalformed tables.getLast?
          let inner ← within change path last
          .ok (Dictionary.put key (.items (tables.dropLast ++ [inner])) entries)
      | some (.value _) => .error .malformed

/-- Applies a change to the last key of a path, in the table that the keys before it lead to. -/
def atLast (change : String → Nodes → Except Fault Nodes) (path : List String) (entries : Nodes) :
    Except Fault Nodes :=
  match path.getLast? with
  | none => .error .malformed
  | some key => within (change key) path.dropLast entries

/-! ### Names and values -/

/-- The names of a path, if all are well spelt and there are not too many. -/
def namesOf (path : Path) : Except Fault (List String) := do
  let names ← orMalformed (path.mapM KeyPart.name?)
  if depthLimit < names.length then .error .tooDeep else .ok names

mutual

def Shape.toToml : Shape → Except Fault Toml
  | .scalar v => orMalformed v
  | .array items => (shapesToToml items).map .array
  | .table entries => (assignAll [] entries).map fun nodes => .table (entryValues nodes)

def shapesToToml : List Shape → Except Fault (List Toml)
  | [] => .ok []
  | s :: rest => do
      let v ← s.toToml
      let vs ← shapesToToml rest
      .ok (v :: vs)

def assignAll (entries : Nodes) : List (Path × Shape) → Except Fault Nodes
  | [] => .ok entries
  | (path, shape) :: rest => do
      let names ← namesOf path
      let v ← shape.toToml
      let entries ← orMalformed (assignIn true v names entries)
      assignAll entries rest

end

/-! ### Sections -/

/-- A header and the assignments under it. -/
structure Section where
  header : Header
  assignments : List (Path × Shape)

/-- The assignments in front of the first header, and the sections. -/
def sectionsOf : List Line → List (Path × Shape) × List Section
  | [] => ([], [])
  | .assignment path value :: rest =>
      let r := sectionsOf rest
      ((path, value) :: r.1, r.2)
  | .header h :: rest =>
      let r := sectionsOf rest
      ([], ⟨h, r.1⟩ :: r.2)

/-- Gives a table its header and carries out the assignments under it. -/
def openTable (assignments : List (Path × Shape)) (key : String) (entries : Nodes) :
    Except Fault Nodes := do
  let start ← match Dictionary.get? key entries with
    | none => .ok []
    | some (.table .implied inner) => .ok inner
    | some _ => .error .malformed
  let inner ← assignAll start assignments
  .ok (Dictionary.put key (.table .header inner) entries)

def addItem (table : Nodes) (key : String) (entries : Nodes) : Except Fault Nodes :=
  match Dictionary.get? key entries with
  | none => .ok (Dictionary.put key (.items [table]) entries)
  | some (.items tables) => .ok (Dictionary.put key (.items (tables ++ [table])) entries)
  | some _ => .error .malformed

def carryOut (root : Nodes) (s : Section) : Except Fault Nodes :=
  match s.header with
  | .table path => do
      let names ← namesOf path
      atLast (openTable s.assignments) names root
  | .item path => do
      let names ← namesOf path
      let table ← assignAll [] s.assignments
      atLast (addItem table) names root

/-- The entries of the document that a text is. -/
def parse (text : String) : Except Fault (List (String × Toml)) := do
  let lines ← orMalformed (linesOf? text)
  let (top, sections) := sectionsOf lines
  let root ← assignAll [] top
  let root ← sections.foldlM carryOut root
  .ok (entryValues root)

end Toml

end Docstore
