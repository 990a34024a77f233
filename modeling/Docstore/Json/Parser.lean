import Docstore.Json.Draft

/-!
# Reading JSON text

A strict reader.  Blanks are the space, the tab, the line feed and the carriage return; there are
no comments, no trailing commas, no leading zeros, no control characters inside strings.  The
reader turns characters into a draft and returns what it has not used; `Draft.parse?` asks that
only blanks be left, and `Json.parse?` that the draft denote a value.

The recursion runs on a count of steps that a text of its length cannot exhaust: every step down
or along has used a character by the second time it is taken.
-/

namespace Docstore

namespace Draft

/-- The blanks that may stand between the tokens of a text. -/
def isSpace (c : Char) : Bool := c = ' ' || c = '\n' || c = '\t' || c = '\r'

/-- The characters from the first token on. -/
def skipSpaces (cs : List Char) : List Char := cs.dropWhile isSpace

/-- The value of a hexadecimal digit of either case. -/
def hexDigit? (c : Char) : Option Nat :=
  let n := c.toNat
  if 48 ≤ n ∧ n ≤ 57 then some (n - 48)
  else if 97 ≤ n ∧ n ≤ 102 then some (n - 87)
  else if 65 ≤ n ∧ n ≤ 70 then some (n - 55)
  else none

/-- The number that four hexadecimal digits spell. -/
def hexUnit? (a b c d : Char) : Option Nat := do
  some (((← hexDigit? a) * 16 + (← hexDigit? b)) * 256 + (← hexDigit? c) * 16 + (← hexDigit? d))

/-- The character that a backslash and one letter stand for. -/
def shortEscape? (c : Char) : Option Char :=
  if c = '"' ∨ c = '\\' ∨ c = '/' then some c
  else if c = 'n' then some '\n'
  else if c = 't' then some '\t'
  else if c = 'r' then some '\r'
  else if c = 'b' then some (Char.ofNat 8)
  else if c = 'f' then some (Char.ofNat 12)
  else none

/-- A piece of a string: a character, or the sixteen bits of a numeric escape. -/
inductive StringPart where
  | char (c : Char)
  | unit (n : Nat)
  deriving DecidableEq

/-- The pieces of a string up to its closing quote, and what follows the quote. -/
def readParts : List Char → Option (List StringPart × List Char)
  | '"' :: rest => some ([], rest)
  | '\\' :: 'u' :: a :: b :: c :: d :: rest => do
      let n ← hexUnit? a b c d
      let (parts, rest) ← readParts rest
      some (.unit n :: parts, rest)
  | '\\' :: e :: rest => do
      let c ← shortEscape? e
      let (parts, rest) ← readParts rest
      some (.char c :: parts, rest)
  | c :: rest =>
      if c = '\\' ∨ c.toNat < 0x20 then none
      else do
        let (parts, rest) ← readParts rest
        some (.char c :: parts, rest)
  | [] => none

/-- Whether sixteen bits are the first half of a pair. -/
def isHighHalf (n : Nat) : Bool := 0xD800 ≤ n && n < 0xDC00

/-- Whether sixteen bits are the second half of a pair. -/
def isLowHalf (n : Nat) : Bool := 0xDC00 ≤ n && n < 0xE000

/-- The characters of a string, if no half of a pair stands alone. -/
def partChars? : List StringPart → Option (List Char)
  | [] => some []
  | .char c :: parts => (partChars? parts).map (c :: ·)
  | .unit n :: .unit m :: parts =>
      if isHighHalf n then
        if isLowHalf m then
          (partChars? parts).map (Char.ofNat (0x10000 + (n - 0xD800) * 0x400 + (m - 0xDC00)) :: ·)
        else none
      else if isLowHalf n then none
      else (partChars? (.unit m :: parts)).map (Char.ofNat n :: ·)
  | .unit n :: parts =>
      if isHighHalf n || isLowHalf n then none
      else (partChars? parts).map (Char.ofNat n :: ·)

/-- The string after its opening quote, and what follows its closing one. -/
def readString (cs : List Char) : Option (Option String × List Char) := do
  let (parts, rest) ← readParts cs
  some ((partChars? parts).map String.ofList, rest)

/-- The values of the digits in front, and what follows them. -/
def readDigits (cs : List Char) : List Nat × List Char :=
  ((cs.takeWhile Char.isDigit).map fun c => c.toNat - 48, cs.dropWhile Char.isDigit)

/-- The digits of a fraction, if a point comes next. -/
def readFraction : List Char → Option (Option (List Nat) × List Char)
  | '.' :: cs =>
      let (ds, rest) := readDigits cs
      if ds = [] then none else some (some ds, rest)
  | cs => some (none, cs)

/-- The sign of an exponent, and what follows it. -/
def readSign : List Char → Bool × List Char
  | '-' :: cs => (true, cs)
  | '+' :: cs => (false, cs)
  | cs => (false, cs)

/-- The exponent, if its mark comes next. -/
def readExponent : List Char → Option (Option Int × List Char)
  | [] => some (none, [])
  | c :: cs =>
      if c = 'e' ∨ c = 'E' then
        let (negative, cs) := readSign cs
        let (ds, rest) := readDigits cs
        if ds = [] then none
        else
          let n : Nat := ds.foldl (fun n d => 10 * n + d) 0
          some (some (if negative then -(n : Int) else n), rest)
      else some (none, c :: cs)

/-- A number without its sign. -/
def readMagnitude (negative : Bool) (cs : List Char) : Option (Option Number × List Char) := do
  let (whole, rest) := readDigits cs
  if whole = [] ∨ (whole.head? = some 0 ∧ 1 < whole.length) then none
  else
    let (fraction, rest) ← readFraction rest
    let (exponent, rest) ← readExponent rest
    some (Number.ofLiteral? negative whole fraction exponent, rest)

def readNumber : List Char → Option (Option Number × List Char)
  | '-' :: cs => readMagnitude true cs
  | cs => readMagnitude false cs

mutual

/-- The value that comes next, and what follows it. -/
def readValue : Nat → List Char → Option (Draft × List Char)
  | 0, _ => none
  | steps + 1, cs =>
      match skipSpaces cs with
      | '"' :: rest => (readString rest).map fun r => (.string r.1, r.2)
      | '[' :: rest =>
          match skipSpaces rest with
          | ']' :: rest => some (.array [], rest)
          | rest => (readItems steps rest).map fun r => (.array r.1, r.2)
      | '\x7b' :: rest =>
          match skipSpaces rest with
          | '\x7d' :: rest => some (.object [], rest)
          | rest => (readMembers steps rest).map fun r => (.object r.1, r.2)
      | 'n' :: 'u' :: 'l' :: 'l' :: rest => some (.null, rest)
      | 't' :: 'r' :: 'u' :: 'e' :: rest => some (.bool true, rest)
      | 'f' :: 'a' :: 'l' :: 's' :: 'e' :: rest => some (.bool false, rest)
      | rest => (readNumber rest).map fun r => (.number r.1, r.2)

/-- The items up to the end of an array, at least one. -/
def readItems : Nat → List Char → Option (List Draft × List Char)
  | 0, _ => none
  | steps + 1, cs => do
      let (v, rest) ← readValue steps cs
      match skipSpaces rest with
      | ',' :: rest =>
          let (vs, rest) ← readItems steps rest
          some (v :: vs, rest)
      | ']' :: rest => some ([v], rest)
      | _ => none

/-- The members up to the end of an object, at least one. -/
def readMembers : Nat → List Char → Option (List (Option String × Draft) × List Char)
  | 0, _ => none
  | steps + 1, cs =>
      match skipSpaces cs with
      | '"' :: rest => do
          let (key, rest) ← readString rest
          match skipSpaces rest with
          | ':' :: rest =>
              let (v, rest) ← readValue steps rest
              match skipSpaces rest with
              | ',' :: rest =>
                  let (ms, rest) ← readMembers steps rest
                  some ((key, v) :: ms, rest)
              | '\x7d' :: rest => some ([(key, v)], rest)
              | _ => none
          | _ => none
      | _ => none

end

/-- The draft of characters that are one value and blanks around it. -/
def parseChars? (cs : List Char) : Option Draft :=
  match readValue (2 * cs.length + 1) cs with
  | some (d, rest) => if skipSpaces rest = [] then some d else none
  | none => none

def parse? (text : String) : Option Draft := parseChars? text.toList

end Draft

def Json.parse? (text : String) : Option Json :=
  (Draft.parse? text).bind (Draft.value? Draft.depthLimit)

end Docstore
