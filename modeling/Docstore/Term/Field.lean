import Docstore.Term.Operand

/-!
# Fields

The left of a comparison is an attribute of the record at hand or an expression copied verbatim.
An attribute is a path of names joined by points; a name that is no identifier is put between
backticks, with a backslash before each backtick that it holds.

A key of a request is an expression when it carries the raw mark, or when it wraps the record in a
call: some opening parenthesis is followed, after blanks, by the whole word `record`, and
something follows that word.
-/

namespace Docstore

/-- The variable that stands for the record at hand. -/
def recordVariable : String := "record"

/-- The quote around names that are no identifiers. -/
def backtick : Char := '\x60'

/-- Whether a character may start an identifier. -/
def isNameStart (c : Char) : Bool := c.isAlpha || c == '_'

/-- Whether a character may stand inside an identifier. -/
def isNameChar (c : Char) : Bool := c.isAlphanum || c == '_'

/-- Whether characters are an identifier: ASCII letters, digits and underscores, not starting with
a digit. -/
def isIdentifierChars : List Char → Bool
  | [] => false
  | c :: cs => isNameStart c && cs.all isNameChar

def isIdentifier (s : String) : Bool := isIdentifierChars s.toList

/-- The escape of a character between backticks. -/
def escapeInBackticks (c : Char) : List Char := if c = backtick then ['\\', backtick] else [c]

/-- A name of a path: as it is for an identifier, between backticks otherwise. -/
def pathSegment (cs : List Char) : List Char :=
  if isIdentifierChars cs then cs
  else backtick :: (cs.flatMap escapeInBackticks ++ [backtick])

/-- The path from a variable to an attribute, which names its steps between points. -/
def attributePath (loopVar field : String) : String :=
  loopVar ++ String.ofList
    ((Text.piecesOf '.' field.toList).flatMap fun seg => '.' :: pathSegment seg)

/-- An attribute of the record at hand, or an expression. -/
inductive Field where
  | attribute (path : String)
  | expression (text : String)
  deriving DecidableEq, Repr

namespace Field

/-- Whether characters start, after blanks, with a variable as a whole word and go on behind it. -/
def startsWithVariable (loopVar cs : List Char) : Bool :=
  match Text.afterFront? loopVar (Text.trimFront cs) with
  | some (c :: _) => !isNameChar c
  | _ => false

/-- Whether some opening parenthesis is followed by the variable. -/
def wraps (loopVar : List Char) : List Char → Bool
  | [] => false
  | c :: cs => (c == '(' && startsWithVariable loopVar cs) || wraps loopVar cs

/-- The field that a key of a request names. -/
def ofKey (key : String) : Field :=
  match rawText? key with
  | some text => .expression text
  | none =>
      if wraps recordVariable.toList key.toList then .expression key else .attribute key

def render (loopVar : String) : Field → String
  | .attribute path => attributePath loopVar path
  | .expression text => text

end Field

end Docstore
