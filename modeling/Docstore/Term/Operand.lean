import Docstore.Term.Literal

/-!
# Operands

What stands on the right of a comparison or an assignment is either data or query text.  A literal
is escaped when it is written; raw text is copied as it is.  In JSON, raw text is a string that
starts with a dollar sign, and this is decided in one place, `Operand.ofJson`: only for the operand
itself, never for strings inside an array or an object.
-/

namespace Docstore

/-- The mark in front of raw query text. -/
def rawMark : Char := '$'

/-- The text behind the raw mark. -/
def rawText? (s : String) : Option String :=
  match s.toList with
  | c :: cs => if c = rawMark then some (String.ofList cs) else none
  | [] => none

/-- Whether a text starts with the raw mark. -/
def isMarked (s : String) : Bool := (rawText? s).isSome

/-- Data, or query text copied verbatim. -/
inductive Operand where
  | literal (value : Json)
  | raw (text : String)
  deriving DecidableEq, Repr

namespace Operand

/-- The operand that a JSON value stands for: raw text for a marked string, data otherwise. -/
def ofJson (v : Json) : Operand :=
  match v with
  | .string s =>
      match rawText? s with
      | some text => .raw text
      | none => .literal v
  | _ => .literal v

/-- The JSON form of an operand; raw text gets its mark. -/
def toJson : Operand → Json
  | .literal v => v
  | .raw text => .string (String.ofList [rawMark] ++ text)

def render : Operand → String
  | .literal v => v.literalText
  | .raw text => text

def literal? : Operand → Option Json
  | .literal v => some v
  | .raw _ => none

def isRaw : Operand → Bool
  | .literal _ => false
  | .raw _ => true

end Operand

end Docstore
