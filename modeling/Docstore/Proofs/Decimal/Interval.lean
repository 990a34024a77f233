import Docstore.Decimal.Shortest
import Mathlib.Algebra.Order.Field.Power
import Mathlib.Algebra.Order.Field.Rat
import Mathlib.Tactic.FieldSimp
import Mathlib.Tactic.Linarith
import Mathlib.Tactic.Positivity
import Mathlib.Tactic.Ring

/-!
# The reals that round to a number

The decimals that read back to a number are those whose value lies between the
ends of its interval, the ends included for an even significand
(`readsBack_iff`).  The digits that are written always do (`surrounds_shortest`),
whether a grid has yielded them or the exact value is taken.

Intervals of different magnitudes have no value in common
(`eq_of_surrounds`): neighbours with one exponent have significands of different
parity, and where the exponent changes the last significand before the step is
odd.  So the digits determine the magnitude.
-/

namespace Docstore

theorem zpow_eq_powerOver_div (base : Nat) (h : 0 < base) (e : Int) :
    (base : ℚ) ^ e = powerOver base e / powerUnder base e := by
  have hbase : (base : ℚ) ≠ 0 := by exact_mod_cast h.ne'
  rcases le_total 0 e with he | he
  · obtain ⟨n, rfl⟩ := Int.eq_ofNat_of_zero_le he
    have hover : powerOver base n = base ^ n := rfl
    have hunder : powerUnder base n = 1 := by simp [powerUnder]
    rw [hover, hunder, zpow_natCast]
    simp
  · obtain ⟨n, hn⟩ := Int.eq_ofNat_of_zero_le (Int.neg_nonneg_of_nonpos he)
    obtain rfl : e = -(n : Int) := by omega
    have hover : powerOver base (-n) = 1 := by simp [powerOver]
    have hunder : powerUnder base (-n) = base ^ n := by simp [powerUnder]
    rw [hover, hunder, zpow_neg, zpow_natCast]
    simp

theorem decimalBelow_iff (a : Nat) (i : Int) (b : Nat) (j : Int) :
    decimalBelow a i b j = true ↔ (a : ℚ) * 10 ^ i < b * 2 ^ j := by
  have hten := zpow_eq_powerOver_div 10 (by decide) i
  have htwo := zpow_eq_powerOver_div 2 (by decide) j
  have hi : (0 : ℚ) < powerUnder 10 i := by exact_mod_cast powerUnder_pos (by decide) i
  have hj : (0 : ℚ) < powerUnder 2 j := by exact_mod_cast powerUnder_pos (by decide) j
  push_cast at hten htwo
  rw [decimalBelow, decide_eq_true_iff, hten, htwo, ← mul_div_assoc, ← mul_div_assoc,
    div_lt_div_iff₀ hi hj]
  exact_mod_cast Iff.rfl

theorem decimalEqual_iff (a : Nat) (i : Int) (b : Nat) (j : Int) :
    decimalEqual a i b j = true ↔ (a : ℚ) * 10 ^ i = b * 2 ^ j := by
  have hten := zpow_eq_powerOver_div 10 (by decide) i
  have htwo := zpow_eq_powerOver_div 2 (by decide) j
  have hi : (powerUnder 10 i : ℚ) ≠ 0 := by exact_mod_cast (powerUnder_pos (by decide) i).ne'
  have hj : (powerUnder 2 j : ℚ) ≠ 0 := by exact_mod_cast (powerUnder_pos (by decide) j).ne'
  push_cast at hten htwo
  rw [decimalEqual, beq_iff_eq, hten, htwo, ← mul_div_assoc, ← mul_div_assoc, div_eq_div_iff hi hj]
  exact_mod_cast Iff.rfl

def DecimalForm.value (d : DecimalForm) : ℚ := d.digits * 10 ^ d.exponent

theorem DecimalForm.value_stripped (d : DecimalForm) : d.stripped.value = d.value := by
  induction d using DecimalForm.stripped.induct with
  | case1 d h ih =>
    rw [DecimalForm.stripped, dif_pos h, ih]
    have hdigits : (d.digits : ℚ) = (d.digits / 10 : Nat) * 10 := by
      exact_mod_cast (Nat.div_mul_cancel (Nat.dvd_of_mod_eq_zero h.2)).symm
    rw [value, value, hdigits]
    simp only [zpow_add₀ (show (10 : ℚ) ≠ 0 by norm_num), zpow_one]
    ring
  | case2 d h => rw [DecimalForm.stripped, dif_neg h]

namespace Binary64

/-- Whether a value lies between the ends of the interval of `x`; the ends count for
an even significand. -/
structure Surrounds (x : Binary64) (v : ℚ) : Prop where
  lower : (x.lowerEnd : ℚ) * 2 ^ (x.exponent - 2) ≤ v
  upper : v ≤ x.upperEnd * 2 ^ (x.exponent - 2)
  inside : x.significand % 2 = 1 →
    (x.lowerEnd : ℚ) * 2 ^ (x.exponent - 2) < v ∧ v < x.upperEnd * 2 ^ (x.exponent - 2)

theorem readsBack_iff (x : Binary64) (d : DecimalForm) :
    x.readsBack d = true ↔ x.Surrounds d.value := by
  have hparity : x.significand % 2 = 0 ∨ x.significand % 2 = 1 := by omega
  simp only [readsBack, Bool.and_eq_true, Bool.or_eq_true, Bool.not_eq_true', beq_iff_eq,
    ← Bool.not_eq_true, decimalBelow_iff, decimalEqual_iff]
  rw [← DecimalForm.value]
  constructor
  · rintro ⟨⟨hlow, hlowEven⟩, hup⟩
    refine ⟨not_lt.mp hlow, ?_, fun hodd => ⟨?_, ?_⟩⟩
    · rcases hup with hup | ⟨-, hup⟩
      · exact hup.le
      · exact hup.le
    · rcases hlowEven with heven | hne
      · omega
      · exact lt_of_le_of_ne (not_lt.mp hlow) (Ne.symm hne)
    · rcases hup with hup | ⟨heven, -⟩
      · exact hup
      · omega
  · intro h
    refine ⟨⟨not_lt.mpr h.lower, ?_⟩, ?_⟩
    · rcases hparity with heven | hodd
      · exact .inl heven
      · exact .inr (h.inside hodd).1.ne'
    · rcases hparity with heven | hodd
      · rcases h.upper.lt_or_eq with hlt | heq
        · exact .inl hlt
        · exact .inr ⟨heven, heq⟩
      · exact .inl (h.inside hodd).2

/-! ### The digits that are written -/

theorem value_exactDecimal (x : Binary64) :
    x.exactDecimal.value = x.significand * 2 ^ x.exponent := by
  rw [exactDecimal]
  split
  · next he =>
    obtain ⟨n, hn⟩ := Int.eq_ofNat_of_zero_le he
    rw [DecimalForm.value, num, hn]
    simp [powerOver]
  · next he =>
    obtain ⟨n, hn⟩ := Int.eq_ofNat_of_zero_le (Int.neg_nonneg_of_nonpos (not_le.mp he).le)
    have hexp : x.exponent = -(n : Int) := by omega
    have hten : (10 : ℚ) ^ n = 5 ^ n * 2 ^ n := by rw [← mul_pow]; norm_num
    have hunder : powerUnder 5 (-n) = 5 ^ n := by simp [powerUnder]
    rw [DecimalForm.value, hexp]
    simp only [hunder, zpow_neg, zpow_natCast, hten]
    push_cast
    field_simp

theorem value_in_quarters (x : Binary64) :
    (x.significand : ℚ) * 2 ^ x.exponent = (4 * x.significand : Nat) * 2 ^ (x.exponent - 2) := by
  rw [zpow_sub₀ (by norm_num)]
  push_cast
  ring

theorem surrounds_exactDecimal (x : Binary64) : x.Surrounds x.exactDecimal.value := by
  have hunit : (0 : ℚ) < 2 ^ (x.exponent - 2) := by positivity
  rw [value_exactDecimal, value_in_quarters]
  refine ⟨?_, ?_, fun hodd => ⟨?_, ?_⟩⟩
  · refine mul_le_mul_of_nonneg_right ?_ hunit.le
    exact_mod_cast Nat.sub_le _ _
  · refine mul_le_mul_of_nonneg_right ?_ hunit.le
    exact_mod_cast Nat.le_add_right _ _
  · refine mul_lt_mul_of_pos_right ?_ hunit
    rw [lowerEnd]
    norm_cast
    split <;> omega
  · refine mul_lt_mul_of_pos_right ?_ hunit
    exact_mod_cast Nat.lt_add_of_pos_right (by decide)

theorem surrounds_fewestDigits (tie : Tie) (x : Binary64) :
    x.Surrounds (x.fewestDigits tie).value := by
  rw [fewestDigits]
  cases hfound : (List.range 17).findSome? fun i =>
      x.onGrid? tie (x.decimalScale - (i + 1 : Nat)) with
  | none => exact surrounds_exactDecimal x
  | some d =>
    obtain ⟨i, -, hgrid⟩ := List.exists_of_findSome?_eq_some hfound
    exact (readsBack_iff x d).mp (readsBack_onGrid? hgrid)

/-- **The digits that are written lie in the interval of the number.** -/
theorem surrounds_shortest (tie : Tie) (x : Binary64) : x.Surrounds (x.shortest tie).value := by
  rw [shortest, DecimalForm.value_stripped]
  exact surrounds_fewestDigits tie x

/-! ### Intervals of different magnitudes -/

/-- Two intervals with a value in common, in quarters of the last place of the first. -/
theorem Surrounds.lowerEnd_le {x y : Binary64} {v : ℚ} {k : Nat} (hx : x.Surrounds v)
    (hy : y.Surrounds v) (hk : y.exponent = x.exponent + k) :
    y.lowerEnd * 2 ^ k ≤ x.upperEnd ∧
      (x.significand % 2 = 1 ∨ y.significand % 2 = 1 → y.lowerEnd * 2 ^ k < x.upperEnd) := by
  have hunit : (0 : ℚ) < 2 ^ (x.exponent - 2) := by positivity
  have hscale : (y.lowerEnd : ℚ) * 2 ^ (y.exponent - 2) =
      (y.lowerEnd * 2 ^ k : Nat) * 2 ^ (x.exponent - 2) := by
    have hexp : y.exponent - 2 = k + (x.exponent - 2) := by omega
    rw [hexp, zpow_add₀ (by norm_num), zpow_natCast]
    push_cast
    ring
  constructor
  · have hle := hy.lower.trans hx.upper
    rw [hscale] at hle
    exact_mod_cast le_of_mul_le_mul_right hle hunit
  · intro hodd
    have hlt : (y.lowerEnd : ℚ) * 2 ^ (y.exponent - 2) < x.upperEnd * 2 ^ (x.exponent - 2) := by
      rcases hodd with hodd | hodd
      · exact lt_of_le_of_lt hy.lower (hx.inside hodd).2
      · exact lt_of_lt_of_le (hy.inside hodd).1 hx.upper
    rw [hscale] at hlt
    exact_mod_cast lt_of_mul_lt_mul_right hlt hunit.le

/-- The lower end is half a unit below the significand, or a quarter where the
exponent changes. -/
theorem lowerEnd_eq (x : Binary64) :
    x.lowerEnd = 4 * x.significand - 2 ∨
      (x.lowerEnd = 4 * x.significand - 1 ∧ x.significand = 4503599627370496) := by
  rw [lowerEnd]
  split
  · next h =>
    rw [narrowBelow, Bool.and_eq_true, beq_iff_eq] at h
    exact .inr ⟨rfl, h.1⟩
  · exact .inl rfl

/-- With a larger exponent the interval begins no lower than the last one ends. -/
theorem le_lowerEnd_of_lt {x y : Binary64} (h : x.exponent < y.exponent) :
    18014398509481983 ≤ y.lowerEnd := by
  have hx := x.canonical
  have hy := y.canonical
  have hnarrow : y.significand = 4503599627370496 → y.lowerEnd = 18014398509481983 := by
    intro hs
    have hne : y.exponent ≠ -1074 := by omega
    simp [lowerEnd, narrowBelow, hs, hne]
  by_cases hs : y.significand = 4503599627370496
  · rw [hnarrow hs]
  · rcases lowerEnd_eq y with hl | ⟨-, hs'⟩
    · omega
    · exact absurd hs' hs

theorem not_surrounds_of_exponent_lt {x y : Binary64} {v : ℚ} (h : x.exponent < y.exponent)
    (hx : x.Surrounds v) : ¬y.Surrounds v := by
  intro hy
  obtain ⟨k, hk⟩ := Int.eq_ofNat_of_zero_le (show 0 ≤ y.exponent - x.exponent - 1 by omega)
  have hlow := le_lowerEnd_of_lt h
  have hcanonical := x.canonical
  obtain ⟨hle, hlt⟩ := hx.lowerEnd_le hy (k := k + 1) (by push_cast; omega)
  have hpow : y.lowerEnd * 2 ≤ y.lowerEnd * 2 ^ (k + 1) :=
    Nat.mul_le_mul_left _ (Nat.le_self_pow (by omega) 2)
  rw [upperEnd] at hle hlt
  -- the significand below the step can only be the largest, which is odd
  have hlast : x.significand = 9007199254740991 := by omega
  have := hlt (.inl (by rw [hlast]))
  omega

/-- **A value lies in the interval of one magnitude at most.** -/
theorem eq_of_surrounds {x y : Binary64} {v : ℚ} (hx : x.Surrounds v) (hy : y.Surrounds v) :
    x.significand = y.significand ∧ x.exponent = y.exponent := by
  rcases lt_trichotomy x.exponent y.exponent with h | h | h
  · exact absurd hy (not_surrounds_of_exponent_lt h hx)
  · refine ⟨?_, h⟩
    obtain ⟨hle, hlt⟩ := hx.lowerEnd_le hy (k := 0) (by rw [h]; simp)
    obtain ⟨hle', hlt'⟩ := hy.lowerEnd_le hx (k := 0) (by rw [h]; simp)
    rw [pow_zero, mul_one, upperEnd] at hle hlt hle' hlt'
    have hlx := lowerEnd_eq x
    have hly := lowerEnd_eq y
    omega
  · exact absurd hx (not_surrounds_of_exponent_lt h hy)

end Binary64

end Docstore
