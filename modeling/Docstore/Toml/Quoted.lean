import Docstore.Json.Parser

/-!
# Strings of TOML

Four kinds of string.  Between double quotes, a backslash starts an escape; between single quotes
every character stands for itself.  Either quote tripled allows line breaks inside, drops one right
after the opening, and allows one or two quotes inside and at the end.  Between tripled double
quotes a backslash at the end of a line joins it with the next text.

A string is read in two steps.  The first finds where it ends, for which only quotes, backslashes
and line breaks matter; a string without an end has no content.  The second turns the content into
the text that it stands for, if it stands for one.
-/

namespace Docstore

namespace Toml

/-! ### The content -/

/-- Whether a character may stand in a comment or a string on one line: no control character but
the tab. -/
def isPlain (c : Char) : Bool := c == '\t' || (0x20 ≤ c.toNat && c.toNat != 0x7F)

/-- The number that hexadecimal digits spell. -/
def hexNumber? (cs : List Char) : Option Nat :=
  cs.foldl (fun n c => do some ((← n) * 16 + (← Draft.hexDigit? c))) (some 0)

/-- The character with a number, unless the number is half of a pair or too large. -/
def scalar? (n : Nat) : Option Char := if n.isValidChar then some (Char.ofNat n) else none

/-- The character of a numeric escape with `count` digits, and what follows it. -/
def numericEscape? (count : Nat) (cs : List Char) : Option (Char × List Char) :=
  if cs.length < count then none
  else do
    let n ← hexNumber? (cs.take count)
    let c ← scalar? n
    some (c, cs.drop count)

/-- The character that the characters after a backslash stand for, and what follows. -/
def escape? : List Char → Option (Char × List Char)
  | 'b' :: cs => some (Char.ofNat 0x08, cs)
  | 't' :: cs => some ('\t', cs)
  | 'n' :: cs => some ('\n', cs)
  | 'f' :: cs => some (Char.ofNat 0x0C, cs)
  | 'r' :: cs => some ('\r', cs)
  | 'e' :: cs => some (Char.ofNat 0x1B, cs)
  | '"' :: cs => some ('"', cs)
  | '\\' :: cs => some ('\\', cs)
  | 'x' :: cs => numericEscape? 2 cs
  | 'u' :: cs => numericEscape? 4 cs
  | 'U' :: cs => numericEscape? 8 cs
  | _ => none

/-- Whether a character is a space or a tab. -/
def isIndent (c : Char) : Bool := c == ' ' || c == '\t'

/-- The characters after spaces, tabs and line breaks. -/
def skipToText : List Char → List Char
  | '\n' :: cs => skipToText cs
  | '\r' :: '\n' :: cs => skipToText cs
  | c :: cs => if isIndent c then skipToText cs else c :: cs
  | [] => []

/-- What follows a backslash at the end of a line: nothing but spaces up to the line break, and
then everything up to the next text. -/
def afterJoin? (cs : List Char) : Option (List Char) :=
  match cs.dropWhile isIndent with
  | '\n' :: rest => some (skipToText rest)
  | '\r' :: '\n' :: rest => some (skipToText rest)
  | _ => none

/-- The text of a content in which every character stands for itself; with `breaks`, line breaks
may be among them. -/
def literalText? (breaks : Bool) : List Char → Option (List Char)
  | [] => some []
  | '\n' :: cs => if breaks then (literalText? breaks cs).map ('\n' :: ·) else none
  | '\r' :: '\n' :: cs =>
      if breaks then (literalText? breaks cs).map fun text => '\r' :: '\n' :: text else none
  | c :: cs => if isPlain c then (literalText? breaks cs).map (c :: ·) else none

/-- The text of a content with escapes; with `breaks`, line breaks may stand in it, and a backslash
joins lines.  The count bounds the steps. -/
def escapedText? (breaks : Bool) : Nat → List Char → Option (List Char)
  | 0, _ => none
  | steps + 1, cs =>
      match cs with
      | [] => some []
      | '\\' :: rest =>
          match (if breaks then afterJoin? rest else none) with
          | some rest => escapedText? breaks steps rest
          | none => do
              let (c, rest) ← escape? rest
              let text ← escapedText? breaks steps rest
              some (c :: text)
      | '\n' :: rest => if breaks then (escapedText? breaks steps rest).map ('\n' :: ·) else none
      | '\r' :: '\n' :: rest =>
          if breaks then (escapedText? breaks steps rest).map fun text => '\r' :: '\n' :: text
          else none
      | c :: rest => if isPlain c then (escapedText? breaks steps rest).map (c :: ·) else none

/-- The characters without a line break in front. -/
def skipBreak : List Char → List Char
  | '\n' :: cs => cs
  | '\r' :: '\n' :: cs => cs
  | cs => cs

/-! ### Where a string ends -/

/-- The content of a string on one line up to its closing quote `q`, and what follows; with
`escapes`, a backslash protects a quote and another backslash. -/
def cutShort (q : Char) (escapes : Bool) : List Char → Option (List Char) × List Char
  | [] => (none, [])
  | '\\' :: c :: cs =>
      if escapes ∧ (c = q ∨ c = '\\') then
        let r := cutShort q escapes cs
        (r.1.map fun content => '\\' :: c :: content, r.2)
      else
        let r := cutShort q escapes (c :: cs)
        (r.1.map ('\\' :: ·), r.2)
  | c :: cs =>
      if c = q then (some [], cs)
      else if c = '\n' then (none, c :: cs)
      else
        let r := cutShort q escapes cs
        (r.1.map (c :: ·), r.2)

/-- The number of quotes `q` in front of the characters, five at most. -/
def quotesInFront (q : Char) (cs : List Char) : Nat := ((cs.take 5).takeWhile (· == q)).length

/-- The content of a string up to its three closing quotes `q`, before which there may be two more,
and what follows. -/
def cutLong (q : Char) (escapes : Bool) : List Char → Option (List Char) × List Char
  | [] => (none, [])
  | c :: cs =>
      let quotes := quotesInFront q (c :: cs)
      if 3 ≤ quotes then (some (List.replicate (quotes - 3) q), (c :: cs).drop quotes)
      else
        match cs with
        | d :: ds =>
            if escapes ∧ c = '\\' ∧ (d = q ∨ d = '\\') then
              let r := cutLong q escapes ds
              (r.1.map fun content => c :: d :: content, r.2)
            else
              let r := cutLong q escapes (d :: ds)
              (r.1.map (c :: ·), r.2)
        | [] => (none, [])

/-- Whether characters start with a tripled quote. -/
def startsLong : List Char → Bool
  | '"' :: '"' :: '"' :: _ => true
  | '\x27' :: '\x27' :: '\x27' :: _ => true
  | _ => false

/-- The text that a content with escapes stands for. -/
def escaped? (breaks : Bool) (content : List Char) : Option String :=
  (escapedText? breaks (content.length + 1) content).map String.ofList

/-- The text that a content without escapes stands for. -/
def literal? (breaks : Bool) (content : List Char) : Option String :=
  (literalText? breaks content).map String.ofList

/-- A string of any kind, from its opening quote on: the text that it stands for, if it stands for
one, and what follows it. -/
def readString : List Char → Option (Option String × List Char)
  | '"' :: '"' :: '"' :: cs =>
      let r := cutLong '"' true cs
      some (r.1.bind fun content => escaped? true (skipBreak content), r.2)
  | '"' :: cs =>
      let r := cutShort '"' true cs
      some (r.1.bind (escaped? false), r.2)
  | '\x27' :: '\x27' :: '\x27' :: cs =>
      let r := cutLong '\x27' false cs
      some (r.1.bind fun content => literal? true (skipBreak content), r.2)
  | '\x27' :: cs =>
      let r := cutShort '\x27' false cs
      some (r.1.bind (literal? false), r.2)
  | _ => none

/-- A string that names a part of a key, for which it must be one on one line. -/
def readKeyString (cs : List Char) : Option (Option String × List Char) :=
  (readString cs).map fun r => (if startsLong cs then none else r.1, r.2)

end Toml

end Docstore
