import Docstore.Decimal.Binary64

/-!
# Numbers spelt in plain text

Readers for numbers that stand alone in a text.  An integer is an optional sign and digits and must
fit its range; a decimal has an optional point and an optional exponent besides.  Blanks, group
marks and other bases are refused, and so is a decimal too large for a finite number.
-/

namespace Docstore

namespace Numeral

def digitValue (c : Char) : Nat := c.toNat - 48

/-- The natural number that a list of digits spells. -/
def natOfDigits (cs : List Char) : Nat := cs.foldl (fun n c => 10 * n + digitValue c) 0

/-- The natural number that a text of one or more digits spells. -/
def nat? (cs : List Char) : Option Nat :=
  if cs ≠ [] ∧ cs.all Char.isDigit then some (natOfDigits cs) else none

/-- An optional sign: whether it is a minus, and the rest. -/
def signed (cs : List Char) : Bool × List Char :=
  match cs with
  | '-' :: rest => (true, rest)
  | '+' :: rest => (false, rest)
  | _ => (false, cs)

/-- A number below `2 ^ 64`: digits after an optional plus. -/
def unsigned64? (s : String) : Option Nat :=
  let digits := match s.toList with
    | '+' :: rest => rest
    | cs => cs
  (nat? digits).filter (· < 18446744073709551616)

/-- A number from `-2 ^ 63` up to but not including `2 ^ 63`: digits after an optional sign. -/
def signed64? (s : String) : Option Int :=
  let (negative, digits) := signed s.toList
  ((nat? digits).map fun n => if negative then -(n : Int) else n).filter
    fun i => -9223372036854775808 ≤ i ∧ i < 9223372036854775808

/-- The exponent part of a decimal: nothing, or a mark and a signed integer. -/
def exponent? : List Char → Option Int
  | [] => some 0
  | c :: cs =>
      if c = 'e' ∨ c = 'E' then
        let (negative, digits) := signed cs
        (nat? digits).map fun n => if negative then -(n : Int) else n
      else none

/-- The finite number that a text spells: an optional sign, digits with an optional point among or
beside them, and an optional exponent; the nearest number is taken. -/
def decimal? (s : String) : Option Binary64 := do
  let (negative, cs) := signed s.toList
  let whole := cs.takeWhile Char.isDigit
  let afterWhole := cs.dropWhile Char.isDigit
  let (fraction, rest) := match afterWhole with
    | '.' :: ds => (ds.takeWhile Char.isDigit, ds.dropWhile Char.isDigit)
    | ds => ([], ds)
  if whole = [] ∧ fraction = [] then none
  else
    let e ← exponent? rest
    Binary64.ofDecimal? negative (natOfDigits (whole ++ fraction)) (e - fraction.length)

end Numeral

end Docstore
