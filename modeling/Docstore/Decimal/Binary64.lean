import Docstore.Decimal.Power

/-!
# Finite binary floating-point numbers of 53 bits

A number is a sign and a magnitude `significand * 2 ^ exponent`, kept in canonical form: the
significand has 53 bits, or fewer at the least exponent.  So two numbers are equal exactly when
their fields are, both zeros included.  Neither an infinity nor a NaN is such a number; an
operation whose result would be too large has none.

All arithmetic is on natural numbers.  `round?` takes an exact quotient to the nearest number,
ties to the even significand; the product, the quotient and the two readers are roundings of exact
values.
-/

namespace Docstore

/-- The quotient of two naturals rounded to the nearest natural, ties to the even one. -/
def roundQuotient (num den : Nat) : Nat :=
  let q := num / den
  let r := num % den
  if den < 2 * r ∨ (den = 2 * r ∧ q % 2 = 1) then q + 1 else q

/-- A significand and an exponent in canonical form: the significand is below `2 ^ 52` at the least
exponent, or from there up to `2 ^ 53`. -/
abbrev Binary64.Canonical (significand : Nat) (exponent : Int) : Prop :=
  (significand < 4503599627370496 ∧ exponent = -1074) ∨
    (4503599627370496 ≤ significand ∧ significand < 9007199254740992 ∧
      -1074 ≤ exponent ∧ exponent ≤ 971)

/-- A finite number: `significand * 2 ^ exponent`, negated when `negative`. -/
structure Binary64 where
  negative : Bool
  significand : Nat
  exponent : Int
  canonical : Binary64.Canonical significand exponent
  deriving DecidableEq, Repr

namespace Binary64

/-- The number with these fields, when they are canonical. -/
def ofParts? (negative : Bool) (significand : Nat) (exponent : Int) : Option Binary64 :=
  if h : Canonical significand exponent then some ⟨negative, significand, exponent, h⟩ else none

def zero (negative : Bool) : Binary64 := ⟨negative, 0, -1074, by decide⟩

instance : Inhabited Binary64 := ⟨zero false⟩

/-- Whether the number is a zero of either sign. -/
def isZero (x : Binary64) : Bool := x.significand == 0

def abs (x : Binary64) : Binary64 := { x with negative := false }

def neg (x : Binary64) : Binary64 := { x with negative := !x.negative }

/-- The numerator of the magnitude. -/
def num (x : Binary64) : Nat := x.significand * powerOver 2 x.exponent

/-- The denominator of the magnitude. -/
def den (x : Binary64) : Nat := powerUnder 2 x.exponent

/-- The exponent of the largest power of two that is at most `num / den`, both positive. -/
def binaryLog (num den : Nat) : Int :=
  let e : Int := (num.log2 : Int) - den.log2
  if num * powerUnder 2 e < den * powerOver 2 e then e - 1 else e

/-- The number nearest to `num / den`, ties to the even significand, for a positive `den`; `none`
when that is too large. -/
def round? (negative : Bool) (num den : Nat) : Option Binary64 :=
  if num = 0 then some (zero negative)
  else
    let e := max (binaryLog num den - 52) (-1074)
    let m := roundQuotient (num * powerUnder 2 e) (den * powerOver 2 e)
    if m = 9007199254740992 then ofParts? negative 4503599627370496 (e + 1)
    else ofParts? negative m e

/-- The rounded product. -/
def mul? (x y : Binary64) : Option Binary64 :=
  round? (x.negative != y.negative) (x.num * y.num) (x.den * y.den)

/-- The rounded quotient by a number other than zero. -/
def div? (x y : Binary64) : Option Binary64 :=
  round? (x.negative != y.negative) (x.num * y.den) (x.den * y.num)

/-- The number nearest to an integer below `2 ^ 1024` in magnitude. -/
def ofInt? (i : Int) : Option Binary64 := round? (i < 0) i.natAbs 1

/-- The number nearest to `digits * 10 ^ exponent`.  A magnitude that is far out of range is
settled by its size alone, so that no large power is ever formed. -/
def ofDecimal? (negative : Bool) (digits : Nat) (exponent : Int) : Option Binary64 :=
  if digits = 0 then some (zero negative)
  else if 400 < exponent then none
  else if exponent < -400 - (digits.log2 : Int) then some (zero negative)
  else round? negative (digits * powerOver 10 exponent) (powerUnder 10 exponent)

/-- The number nearest to `10 ^ n`. -/
def powerOfTen? (n : Nat) : Option Binary64 := round? false (powerOver 10 n) 1

/-- `x * 10 ^ exponent` as one rounded product or quotient with the rounded power of ten.  Below
`10 ^ (-308)` the quotient is taken in two steps, and further down nothing is left of the number.
Above `10 ^ 308` only a zero has a result. -/
def scaleByTen? (x : Binary64) (exponent : Int) : Option Binary64 :=
  if x.isZero then some x
  else if 308 < exponent then none
  else if 0 ≤ exponent then do x.mul? (← powerOfTen? exponent.toNat)
  else if -308 ≤ exponent then do x.div? (← powerOfTen? (-exponent).toNat)
  else if -616 ≤ exponent then do
    let y ← x.div? (← powerOfTen? 308)
    y.div? (← powerOfTen? (-(exponent + 308)).toNat)
  else some (zero x.negative)

/-- The fields of a number determine it. -/
theorem ext_parts {x y : Binary64} (hn : x.negative = y.negative)
    (hs : x.significand = y.significand) (he : x.exponent = y.exponent) : x = y := by
  cases x
  cases y
  simp_all

/-- A number is made from its own fields, and from no others. -/
theorem ofParts?_eq_some_iff {n : Bool} {m : Nat} {e : Int} {x : Binary64} :
    ofParts? n m e = some x ↔ x.negative = n ∧ x.significand = m ∧ x.exponent = e := by
  constructor
  · intro h
    unfold ofParts? at h
    split at h
    · cases h
      exact ⟨rfl, rfl, rfl⟩
    · exact absurd h (by simp)
  · rintro ⟨rfl, rfl, rfl⟩
    simp [ofParts?, x.canonical]

/-- A rounded quotient is at most half a unit away from the exact one. -/
theorem roundQuotient_near (num den : Nat) (hden : 0 < den) :
    2 * num ≤ 2 * (roundQuotient num den * den) + den ∧
      2 * (roundQuotient num den * den) ≤ 2 * num + den := by
  have hq : den * (num / den) + num % den = num := Nat.div_add_mod num den
  have hr : num % den < den := Nat.mod_lt num hden
  unfold roundQuotient
  simp only
  split
  · next h =>
      have : (num / den + 1) * den = den * (num / den) + den := by
        rw [Nat.add_mul, Nat.one_mul, Nat.mul_comm]
      omega
  · next h =>
      rw [Nat.mul_comm (num / den) den]
      omega

end Binary64

end Docstore
