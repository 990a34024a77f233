import Docstore.Decimal.Binary64

/-!
# The fewest digits that identify a number

The reals that round to a finite number form an interval; its ends belong to it exactly when the
significand is even.  A decimal *reads back* to the number when it lies in that interval.  The
search takes grids of 1, 2, … significant digits and tests the two neighbours of the number on
each; the first grid with a hit gives the digits, the closer neighbour wins, and for an exact tie
the caller names the winner.  Should no grid of seventeen digits hit, the exact decimal value is the
answer, so what is returned always reads back.
-/

namespace Docstore

/-- Which of two equally near decimals is taken. -/
inductive Tie where
  /-- The one with the even last digit. -/
  | toEven
  /-- The one further from zero. -/
  | away
  deriving DecidableEq, Repr

/-- The decimal `digits * 10 ^ exponent`. -/
structure DecimalForm where
  digits : Nat
  exponent : Int
  deriving DecidableEq, Repr

/-- Whether `a * 10 ^ i < b * 2 ^ j`. -/
def decimalBelow (a : Nat) (i : Int) (b : Nat) (j : Int) : Bool :=
  a * powerOver 10 i * powerUnder 2 j < b * powerOver 2 j * powerUnder 10 i

/-- Whether `a * 10 ^ i = b * 2 ^ j`. -/
def decimalEqual (a : Nat) (i : Int) (b : Nat) (j : Int) : Bool :=
  a * powerOver 10 i * powerUnder 2 j == b * powerOver 2 j * powerUnder 10 i

namespace Binary64

/-- Whether the gap to the magnitude below is half the gap to the one above: so it is at the least
53-bit significand, except at the least exponent. -/
def narrowBelow (x : Binary64) : Bool := x.significand == 4503599627370496 && x.exponent != -1074

/-- The lower end of the interval of `x`, in quarters of its last place. -/
def lowerEnd (x : Binary64) : Nat := 4 * x.significand - (if x.narrowBelow then 1 else 2)

/-- The upper end of the interval of `x`, in quarters of its last place. -/
def upperEnd (x : Binary64) : Nat := 4 * x.significand + 2

/-- Whether a decimal lies among the reals that round to the magnitude of `x`. -/
def readsBack (x : Binary64) (d : DecimalForm) : Bool :=
  let q := x.exponent - 2
  let even := x.significand % 2 == 0
  (!decimalBelow d.digits d.exponent x.lowerEnd q
      && (even || !decimalEqual d.digits d.exponent x.lowerEnd q))
    && (decimalBelow d.digits d.exponent x.upperEnd q
      || (even && decimalEqual d.digits d.exponent x.upperEnd q))

/-- The least `k` with magnitude below `10 ^ k`, for a number other than zero: estimated from the
binary logarithm and corrected by one comparison. -/
def decimalScale (x : Binary64) : Int :=
  let log := (x.significand.log2 : Int) + x.exponent
  let k := Int.fdiv (log * 30103) 100000 + 1
  if x.num * powerUnder 10 k < x.den * powerOver 10 k then k else k + 1

/-- The better of the two neighbours of `x` among the multiples of `10 ^ grid`, if one of them
reads back. -/
def onGrid? (tie : Tie) (x : Binary64) (grid : Int) : Option DecimalForm :=
  let num := x.num * powerUnder 10 grid
  let den := x.den * powerOver 10 grid
  let below : DecimalForm := ⟨num / den, grid⟩
  let above : DecimalForm := ⟨num / den + 1, grid⟩
  let rest := num % den
  match x.readsBack below, x.readsBack above with
  | true, true =>
      if 2 * rest < den ∨ (2 * rest = den ∧ tie = .toEven ∧ below.digits % 2 = 0) then some below
      else some above
  | true, false => some below
  | false, true => some above
  | false, false => none

/-- The magnitude of `x`, written out in full. -/
def exactDecimal (x : Binary64) : DecimalForm :=
  if 0 ≤ x.exponent then ⟨x.num, 0⟩
  else ⟨x.significand * powerUnder 5 x.exponent, x.exponent⟩

/-- The fewest digits that read back to `x`, as digits and an exponent; trailing zeros are not yet
taken off. -/
def fewestDigits (tie : Tie) (x : Binary64) : DecimalForm :=
  let k := x.decimalScale
  ((List.range 17).findSome? fun i => x.onGrid? tie (k - (i + 1 : Nat))).getD x.exactDecimal

end Binary64

/-- Moves trailing zeros of the digits into the exponent. -/
def DecimalForm.stripped (d : DecimalForm) : DecimalForm :=
  if h : d.digits ≠ 0 ∧ d.digits % 10 = 0 then
    DecimalForm.stripped ⟨d.digits / 10, d.exponent + 1⟩
  else d
termination_by d.digits
decreasing_by exact Nat.div_lt_self (Nat.pos_of_ne_zero h.1) (by omega)

/-- The digits of `x` that are written: the fewest that read back, without trailing zeros. -/
def Binary64.shortest (tie : Tie) (x : Binary64) : DecimalForm := (x.fewestDigits tie).stripped

/-- What a grid yields reads back. -/
theorem Binary64.readsBack_onGrid? {tie : Tie} {x : Binary64} {grid : Int} {d : DecimalForm}
    (h : x.onGrid? tie grid = some d) : x.readsBack d = true := by
  unfold Binary64.onGrid? at h
  simp only at h
  split at h
  · next h1 h2 =>
      split at h
      · cases h
        exact h1
      · cases h
        exact h2
  · next h1 _ =>
      cases h
      exact h1
  · next _ h2 =>
      cases h
      exact h2
  · exact absurd h (by simp)

end Docstore
