import Docstore.Decimal.Layout

/-!
# JSON numbers

A number is an integer that fits 64 bits, signed or unsigned, or a finite floating-point number;
the two kinds never compare equal, so `5` and `5.0` are different values.  The text of a number is
its decimal digits for an integer and the layout `Layout.json` for a floating-point number.

A literal is read the way its digits come: they are collected into a 64-bit significand, digits
beyond that only count towards the exponent, and a literal with a point, an exponent or too many
digits is the significand scaled by a power of ten.
-/

namespace Docstore

/-- The integers that a JSON number keeps as integers: from `-2 ^ 63` up to but not including
`2 ^ 64`. -/
abbrev FitsInteger (i : Int) : Prop := -9223372036854775808 ≤ i ∧ i < 18446744073709551616

/-- A JSON number. -/
inductive Number where
  | int (value : Int) (fits : FitsInteger value := by decide)
  | float (value : Binary64)
  deriving DecidableEq, Repr

namespace Number

/-- The integer as a number, when it fits. -/
def ofInt? (i : Int) : Option Number :=
  if h : FitsInteger i then some (.int i h) else none

/-- A natural number below `2 ^ 64` as a number. -/
def ofNat64 (n : UInt64) : Number := .int n.toNat (by
  have := n.toNat_lt
  constructor <;> omega)

def text : Number → String
  | .int i _ => toString i
  | .float x => Layout.json.render x

/-- The number as a natural number below `2 ^ 64`; a floating-point number is none. -/
def toNat64? : Number → Option Nat
  | .int i _ => if 0 ≤ i then some i.toNat else none
  | .float _ => none

/-- The number as an integer of 64 bits with sign; a floating-point number is none. -/
def toInt64? : Number → Option Int
  | .int i _ => if i < 9223372036854775808 then some i else none
  | .float _ => none

/-- The floating-point number nearest to the number. -/
def toBinary64? : Number → Option Binary64
  | .int i _ => Binary64.ofInt? i
  | .float x => some x

/-- A literal taken apart: the significand so far and the power of ten that it still needs. -/
structure Scaled where
  significand : Nat
  exponent : Int

namespace Scaled

/-- Whether another digit still fits the significand, which is below `2 ^ 64`. -/
def takes (s : Scaled) (digit : Nat) : Bool :=
  s.significand * 10 + digit < 18446744073709551616

/-- Appends digits in front of the point.  From the first digit that does not fit on, digits count
only towards the exponent. -/
def pushWhole (s : Scaled) : List Nat → Scaled
  | [] => s
  | d :: ds =>
      if s.takes d then pushWhole ⟨s.significand * 10 + d, s.exponent⟩ ds
      else ⟨s.significand, s.exponent + (ds.length + 1 : Nat)⟩

/-- Appends digits behind the point.  From the first digit that does not fit on, digits are
dropped. -/
def pushFraction (s : Scaled) : List Nat → Scaled
  | [] => s
  | d :: ds =>
      if s.takes d then pushFraction ⟨s.significand * 10 + d, s.exponent - 1⟩ ds else s

/-- The floating-point number, if it is not too large. -/
def toBinary64? (s : Scaled) (negative : Bool) : Option Binary64 := do
  let x ← Binary64.round? false s.significand 1
  let y ← x.scaleByTen? s.exponent
  some (if negative then y.neg else y)

end Scaled

/-- The number of a literal, given as its sign, the digits in front of the point, the digits behind
it and the exponent.  A literal without point and exponent is an integer when it fits; minus zero
is the floating-point zero of that sign. -/
def ofLiteral? (negative : Bool) (whole : List Nat) (fraction : Option (List Nat))
    (exponent : Option Int) : Option Number :=
  let w := Scaled.pushWhole ⟨0, 0⟩ whole
  match fraction, exponent with
  | none, none =>
      let i : Int := if negative then -(w.significand : Int) else w.significand
      if w.exponent = 0 ∧ ¬(negative ∧ w.significand = 0) ∧ FitsInteger i then ofInt? i
      else (w.toBinary64? negative).map .float
  | _, _ =>
      let f := w.pushFraction (fraction.getD [])
      let s : Scaled := ⟨f.significand, f.exponent + exponent.getD 0⟩
      (s.toBinary64? negative).map .float

theorem ofInt?_eq_some {i : Int} (h : FitsInteger i) : ofInt? i = some (.int i h) :=
  dif_pos h

end Number

end Docstore
