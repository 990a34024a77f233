import Docstore.Decimal.Shortest

/-!
# Laying out the digits of a number

Which digits a number has is settled by `Binary64.shortest`; how they are written is a value of
`Layout`.  The library writes numbers in two layouts.  JSON text (`Layout.json`) is positional from
`10 ^ (-5)` up to `10 ^ 16`, always with a fraction, and scientific with a signed exponent outside.
Plain text (`Layout.plain`), for coordinates, is positional everywhere and writes whole numbers
without a fraction.  The two also differ in the rare case that a number lies halfway between two
equally short decimals.
-/

namespace Docstore

/-- The decisions of a number format. -/
structure Layout where
  /-- The place values of the first digit for which the number is written without an exponent;
  `none` is no limit. -/
  positional : Option (Int × Int)
  /-- Whether a whole number written positionally still gets a fraction, `.0`. -/
  wholeFraction : Bool
  /-- Which of two equally near decimals is written. -/
  tie : Tie

namespace Layout

def json : Layout := ⟨some (-5, 15), true, .toEven⟩

def plain : Layout := ⟨none, false, .away⟩

/-- Whether a first digit at place `10 ^ place` is written without an exponent. -/
def isPositional (l : Layout) (place : Int) : Bool :=
  match l.positional with
  | none => true
  | some (lo, hi) => lo ≤ place && place ≤ hi

/-- The digits of `digits * 10 ^ exponent` with the point where it belongs. -/
def positionalText (l : Layout) (digits : List Char) (exponent : Int) : String :=
  let whole := if l.wholeFraction then ".0" else ""
  if 0 ≤ exponent then
    String.ofList (digits ++ List.replicate exponent.toNat '0') ++ whole
  else
    let point := (digits.length : Int) + exponent
    if 0 < point then
      String.ofList (digits.take point.toNat) ++ "." ++ String.ofList (digits.drop point.toNat)
    else
      "0." ++ String.ofList (List.replicate (-point).toNat '0' ++ digits)

/-- One digit, a fraction unless it would be empty, and the exponent with its sign. -/
def scientificText (digits : List Char) (place : Int) : String :=
  let fraction := digits.drop 1
  let mantissa := String.ofList (digits.take 1)
    ++ (if fraction.isEmpty then "" else "." ++ String.ofList fraction)
  mantissa ++ "e" ++ (if place < 0 then "-" else "+") ++ toString place.natAbs

def render (l : Layout) (x : Binary64) : String :=
  let sign := if x.negative then "-" else ""
  if x.isZero then sign ++ "0" ++ (if l.wholeFraction then ".0" else "")
  else
    let d := x.shortest l.tie
    let digits := Nat.toDigits 10 d.digits
    let place := (digits.length : Int) + d.exponent - 1
    sign ++ (if l.isPositional place then l.positionalText digits d.exponent
      else scientificText digits place)

end Layout

end Docstore
