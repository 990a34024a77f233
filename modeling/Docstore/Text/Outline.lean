import Docstore.Text.Pieces
import Docstore.Text.Quoted

/-!
# Outlines of values

A description of a value for people: a word, a word applied to a part, or a record with named parts.
It is written on one line, or with one part per line, four blanks deeper at each level.
-/

namespace Docstore

/-- A description of a value. -/
inductive Outline where
  | word (text : String)
  | applied (name : String) (part : Outline)
  | record (name : String) (parts : List (String × Outline))
  deriving Inhabited

namespace Outline

def ofOption (part : Option Outline) : Outline :=
  match part with
  | none => .word "None"
  | some o => .applied "Some" o

mutual

def line : Outline → String
  | .word text => text
  | .applied name part => name ++ "(" ++ part.line ++ ")"
  | .record name parts => name ++ " \x7b " ++ String.intercalate ", " (partLines parts) ++ " \x7d"

/-- The parts of a record on one line each. -/
def partLines : List (String × Outline) → List String
  | [] => []
  | (name, part) :: rest => (name ++ ": " ++ part.line) :: partLines rest

end

/-- A line break and the blanks of a level. -/
def lineAt (level : Nat) : String := String.ofList ('\n' :: List.replicate (4 * level) ' ')

mutual

/-- The description with one part per line, at a level. -/
def blockAt (level : Nat) : Outline → String
  | .word text => text
  | .applied name part =>
      name ++ "(" ++ lineAt (level + 1) ++ blockAt (level + 1) part ++ "," ++ lineAt level ++ ")"
  | .record name parts =>
      name ++ " \x7b" ++ partBlocks (level + 1) parts ++ lineAt level ++ "\x7d"

/-- The parts of a record, each on lines of its own. -/
def partBlocks (level : Nat) : List (String × Outline) → String
  | [] => ""
  | (name, part) :: rest =>
      lineAt level ++ name ++ ": " ++ blockAt level part ++ "," ++ partBlocks level rest

end

/-- The description with one part per line. -/
def block (o : Outline) : String := blockAt 0 o

end Outline

end Docstore
