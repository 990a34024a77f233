import Docstore.Toml.Quoted
import Docstore.Toml.Scalar

/-!
# The shape of a TOML document

A text can have the shape of a document and still be none: an escape may be unknown, a bare word
may be no value, a key may be given twice.  The shape is what brackets, commas, points, equals
signs, line breaks and comments make of a text.  It keeps the parts of keys and the scalars, each
with what it stands for if it stands for something.  A part of a key or a scalar that is missing,
while what surrounds it leaves no doubt about its place, does not spoil the shape; it stands for
nothing.

A line is an assignment, the header of a table or the header of an item in a list of tables.
Within brackets line breaks and comments may stand between any two words; within a key only spaces
and tabs.
-/

namespace Docstore

namespace Toml

/-- What stands between the points of a key. -/
inductive KeyPart where
  | name (text : String)
  | misspelt
  | missing
  deriving DecidableEq, Repr

def KeyPart.name? : KeyPart → Option String
  | .name text => some text
  | .misspelt | .missing => none

abbrev Path := List KeyPart

/-- What stands on the right of an assignment. -/
inductive Shape where
  | scalar (value : Option Toml)
  | array (items : List Shape)
  | table (entries : List (Path × Shape))
  deriving Inhabited

/-- The header of a table, or of an item in a list of tables. -/
inductive Header where
  | table (path : Path)
  | item (path : Path)

/-- A line that holds more than a comment. -/
inductive Line where
  | assignment (path : Path) (value : Shape)
  | header (h : Header)

/-! ### Blanks and comments -/

/-- The characters after spaces and tabs. -/
def skipIndent (cs : List Char) : List Char := cs.dropWhile isIndent

/-- The characters after a comment, if one comes next; none if it holds a control character. -/
def skipComment? : List Char → Option (List Char)
  | '#' :: cs =>
      match cs.dropWhile isPlain with
      | [] => some []
      | '\n' :: rest => some ('\n' :: rest)
      | '\r' :: '\n' :: rest => some ('\n' :: rest)
      | _ => none
  | cs => some cs

/-- The characters after blanks, line breaks and comments. -/
def skipFiller? : Nat → List Char → Option (List Char)
  | 0, _ => none
  | steps + 1, cs =>
      match skipIndent cs with
      | '\n' :: rest => skipFiller? steps rest
      | '\r' :: '\n' :: rest => skipFiller? steps rest
      | '#' :: rest => (skipComment? ('#' :: rest)).bind (skipFiller? steps)
      | rest => some rest

/-- The characters after blanks, line breaks and comments, however many. -/
def afterFiller? (cs : List Char) : Option (List Char) := skipFiller? (cs.length + 1) cs

/-- Whether a line ends here, perhaps with a comment. -/
def endsLine : List Char → Bool
  | [] => true
  | c :: _ => c == '#' || c == '\n' || c == '\r'

/-- What follows the end of a line, on which only a comment may be left. -/
def endLine? (cs : List Char) : Option (List Char) := do
  match ← skipComment? (skipIndent cs) with
  | [] => some []
  | '\n' :: rest => some rest
  | '\r' :: '\n' :: rest => some rest
  | _ => none

/-! ### Keys -/

/-- Whether a character continues a bare word, well spelt or not. -/
def isWordChar (c : Char) : Bool := !".=,[]\x7b\x7d \t#\r\n".toList.contains c

/-- Whether a character may stand in a key without quotes. -/
def isKeyChar (c : Char) : Bool := c.isAlphanum || c == '_' || c == '-'

/-- One part of a key, and what follows. -/
def readKeyPart (cs : List Char) : KeyPart × List Char :=
  match readKeyString cs with
  | some (text, rest) => (text.elim .misspelt .name, rest)
  | none =>
      match cs.takeWhile isWordChar with
      | [] => (.missing, cs)
      | word =>
          (if word.all isKeyChar then .name (String.ofList word) else .misspelt,
            cs.dropWhile isWordChar)

/-- A key of one or more parts with points between them, and what follows. -/
def readKey : Nat → List Char → Path × List Char
  | 0, cs => ([.missing], cs)
  | steps + 1, cs =>
      let (part, rest) := readKeyPart (skipIndent cs)
      match skipIndent rest with
      | '.' :: rest =>
          let r := readKey steps rest
          (part :: r.1, r.2)
      | rest => ([part], rest)

/-- A key of however many parts. -/
def readPath (cs : List Char) : Path × List Char := readKey (cs.length + 1) cs

/-- Whether a key breaks off before its last part. -/
def breaksOff (path : Path) : Bool := path.getLast? == some .missing

/-! ### Values -/

/-- Whether characters start with a bare word. -/
def startsWord : List Char → Bool
  | [] => false
  | c :: _ => isWordChar c && c != '"' && c != '\x27'

/-- The characters of a scalar that does not start with a quote, and what follows.  It is made of
words and points, and goes on over blanks in front of a further word. -/
def cutScalar : Nat → List Char → List Char × List Char
  | 0, cs => ([], cs)
  | steps + 1, cs =>
      match cs with
      | '.' :: rest =>
          let r := cutScalar steps rest
          ('.' :: r.1, r.2)
      | _ =>
          let start := skipIndent cs
          if startsWord start then
            let r := cutScalar steps (start.dropWhile isWordChar)
            (cs.takeWhile isIndent ++ start.takeWhile isWordChar ++ r.1, r.2)
          else ([], cs)

def readScalar (cs : List Char) : Option (Option Toml × List Char) :=
  match readString cs with
  | some (text, rest) => some (text.map .string, rest)
  | none =>
      let r := cutScalar (cs.length + 1) cs
      if r.1.isEmpty then none else some (bare? r.1, r.2)

mutual

/-- A value with at most `room` brackets inside each other, and what follows. -/
def readShape (room : Nat) : Nat → List Char → Option (Shape × List Char)
  | 0, _ => none
  | steps + 1, cs =>
      match cs, room with
      | '[' :: _, 0 => none
      | '[' :: rest, room + 1 => do
          let (items, rest) ← readItems room steps rest
          some (.array items, rest)
      | '\x7b' :: _, 0 => none
      | '\x7b' :: rest, room + 1 => do
          let (entries, rest) ← readEntries room steps rest
          some (.table entries, rest)
      | _, _ => (readScalar cs).map fun r => (.scalar r.1, r.2)

/-- The items up to the end of an array. -/
def readItems (room : Nat) : Nat → List Char → Option (List Shape × List Char)
  | 0, _ => none
  | steps + 1, cs => do
      match ← afterFiller? cs with
      | ']' :: rest => some ([], rest)
      | start => do
          let (v, rest) ← readShape room steps start
          match ← afterFiller? rest with
          | ',' :: rest => do
              let (vs, rest) ← readItems room steps rest
              some (v :: vs, rest)
          | ']' :: rest => some ([v], rest)
          | _ => none

/-- The entries up to the end of a table in braces. -/
def readEntries (room : Nat) : Nat → List Char → Option (List (Path × Shape) × List Char)
  | 0, _ => none
  | steps + 1, cs => do
      match ← afterFiller? cs with
      | '\x7d' :: rest => some ([], rest)
      | start => do
          let (path, rest) := readPath start
          match ← afterFiller? rest with
          | '\x7d' :: rest => some ([(path, .scalar none)], rest)
          | '=' :: rest => do
              match ← afterFiller? rest with
              | '\x7d' :: rest => some ([(path, .scalar none)], rest)
              | rest => do
                  let (v, rest) ← readShape room steps rest
                  match ← afterFiller? rest with
                  | ',' :: rest => do
                      let (more, rest) ← readEntries room steps rest
                      some ((path, v) :: more, rest)
                  | '\x7d' :: rest => some ([(path, v)], rest)
                  | _ => none
          | _ => none

end

/-! ### Lines -/

/-- Passes over the rest of a line. -/
def skipLine? : Nat → List Char → Option (List Char)
  | 0, _ => none
  | steps + 1, cs =>
      match readString cs with
      | some (_, rest) => skipLine? steps rest
      | none =>
          if endsLine cs then endLine? cs
          else skipLine? steps (cs.drop (max 1 (cs.takeWhile isWordChar).length))

/-- What follows the line of a header, from the end of its key on.  A header whose key breaks off
need not be closed. -/
def endHeader? (double : Bool) (path : Path) : List Char → Option (List Char)
  | ']' :: rest => if double then (after? ']' rest).bind endLine? else endLine? rest
  | rest => if breaksOff path then skipLine? (rest.length + 1) rest else none

/-- A line that holds more than a comment, and what follows it. -/
def readLine (cs : List Char) : Option (Line × List Char) :=
  match cs with
  | '[' :: '[' :: rest =>
      let (path, rest) := readPath rest
      (endHeader? true path rest).map fun rest => (.header (.item path), rest)
  | '[' :: rest =>
      let (path, rest) := readPath rest
      (endHeader? false path rest).map fun rest => (.header (.table path), rest)
  | _ => do
      let (path, rest) := readPath cs
      let rest := skipIndent (← after? '=' rest)
      let (v, rest) ←
        if endsLine rest then some (.scalar none, rest)
        else readShape depthLimit (2 * rest.length + 2) rest
      some (.assignment path v, ← endLine? rest)

def readLines : Nat → List Char → Option (List Line)
  | 0, _ => none
  | steps + 1, cs => do
      match ← afterFiller? cs with
      | [] => some []
      | start => do
          let (line, rest) ← readLine start
          let more ← readLines steps rest
          some (line :: more)

/-- The lines of a text, if it has the shape of a document.  A byte order mark in front does not
matter. -/
def linesOf? (text : String) : Option (List Line) :=
  let cs := match text.toList with
    | c :: cs => if c.toNat = 0xFEFF then cs else c :: cs
    | [] => []
  readLines (cs.length + 1) cs

end Toml

end Docstore
