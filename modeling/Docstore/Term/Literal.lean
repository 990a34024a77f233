import Docstore.Decimal.Numeral
import Docstore.Text.Blank
import Docstore.Json.Printer

/-!
# Literal values in query text

A value that a request supplies as data is written into a query as JSON, with one exception: a
string that spells a plain decimal number is written as that number.  `numericString?` says which
strings do: an optional minus, digits without a needless leading zero, and perhaps a point with
more digits.  Without a point the number must fit 64 bits with sign; otherwise the string stays a
string.
-/

namespace Docstore

/-- Digits that may stand in front of the point: at least one, and no zero in front of others. -/
def isWholePart (cs : List Char) : Bool :=
  !cs.isEmpty && cs.all Char.isDigit && !(1 < cs.length && cs.head? == some '0')

/-- Digits that may stand behind the point: at least one. -/
def isFractionPart (cs : List Char) : Bool := !cs.isEmpty && cs.all Char.isDigit

/-- The number that a string spells, if it is written as a plain decimal. -/
def numericString? (s : String) : Option Number :=
  let unsigned := match s.toList with
    | '-' :: cs => cs
    | cs => cs
  match Text.cutChars? '.' unsigned with
  | none =>
      if isWholePart unsigned then (Numeral.signed64? s).bind Number.ofInt? else none
  | some (whole, fraction) =>
      if isWholePart whole && isFractionPart fraction then
        (Numeral.decimal? s).map .float
      else none

/-- The text of a value inside a query. -/
def Json.literalText : Json → String
  | .string s =>
      match numericString? s with
      | some n => n.text
      | none => Json.quote s
  | v => v.compact

/-- A natural number below `2 ^ 64`, given as a number or spelt in a string. -/
def Json.toNat64? : Json → Option Nat
  | .number n => n.toNat64?
  | .string s => Numeral.unsigned64? s
  | _ => none

/-- A finite number, given as a number or spelt in a string; blanks around it do not matter. -/
def Json.toBinary64? : Json → Option Binary64
  | .number n => n.toBinary64?
  | .string s => Numeral.decimal? (Text.trim s)
  | _ => none

end Docstore
