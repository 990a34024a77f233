import Docstore.Proofs.Decimal.Interval

/-!
# Rounding exact values

`Binary64.round?` takes a quotient of naturals to a finite number, and
`Binary64.ofDecimal?` a decimal of any size.  `IsRounding` says what is asked of
both: the number has the given sign and its interval holds the value, and there
is no number only if the value is too large for one.

Intervals of different magnitudes have no value in common and all of them lie
below `overflow`.  So a rounding is determined by the value: it is the number
with the sign in whose interval the value lies (`IsRounding.eq_some_iff`), and
there is one exactly for the values below `overflow` (`IsRounding.exists_iff`).

* `roundQuotient` is off by half a unit at most, and by less for an odd result
  (`isNearest_roundQuotient`).
* `binaryLog_bounds`: the place of the first binary digit, from which the unit is
  chosen, so that the significand has 53 bits (`exists_round?_eq`), or is rounded up
  to the next power of two (`isRounding_carry`).
-/

namespace Docstore

namespace Binary64

/-- The least value that is too large for a finite number: the largest one and
half a unit of its last place. -/
def overflow : ℚ := 2 ^ 1024 - 2 ^ 970

/-- The result of rounding a value: the number with this sign in whose interval
the value lies, or nothing for a value that is too large. -/
structure IsRounding (rounded : Option Binary64) (negative : Bool) (v : ℚ) : Prop where
  surrounds : ∀ x ∈ rounded, x.negative = negative ∧ x.Surrounds v
  overflow_le : rounded = none → overflow ≤ v

theorem overflow_eq : overflow = (36028797018963966 : Nat) * 2 ^ (969 : Int) := by
  have hlarge : (2 : ℚ) ^ 1024 = 2 ^ 55 * 2 ^ 969 := by rw [← pow_add]
  have hsmall : (2 : ℚ) ^ 970 = 2 * 2 ^ 969 := by rw [pow_succ, mul_comm]
  have hunit : (2 : ℚ) ^ (969 : Int) = 2 ^ 969 := by rw [← zpow_natCast]; rfl
  rw [overflow, hlarge, hsmall, hunit, ← sub_mul]
  norm_num

/-! ### Values in an interval -/

theorem Surrounds.lt_overflow {x : Binary64} {v : ℚ} (h : x.Surrounds v) : v < overflow := by
  have hx := x.canonical
  have hscale : (2 : ℚ) ^ (x.exponent - 2) ≤ 2 ^ (969 : Int) :=
    zpow_le_zpow_right₀ (by norm_num) (by omega)
  have hunit : (0 : ℚ) < 2 ^ (969 : Int) := by positivity
  have hlimit := overflow_eq
  have hends : x.upperEnd ≤ 36028797018963966 := by
    rw [upperEnd]
    omega
  have hle : (x.upperEnd : ℚ) * 2 ^ (x.exponent - 2) ≤ x.upperEnd * 2 ^ (969 : Int) :=
    mul_le_mul_of_nonneg_left hscale (Nat.cast_nonneg _)
  have hmax : (x.upperEnd : ℚ) * 2 ^ (969 : Int) ≤ overflow := by
    rw [hlimit]
    exact mul_le_mul_of_nonneg_right (by exact_mod_cast hends) hunit.le
  -- only the largest number reaches up to the limit, and its significand is odd
  by_cases hodd : x.significand % 2 = 1
  · exact lt_of_lt_of_le (h.inside hodd).2 (hle.trans hmax)
  · refine lt_of_le_of_lt (h.upper.trans hle) ?_
    have hless : x.upperEnd < 36028797018963966 := by
      rw [upperEnd]
      omega
    rw [hlimit]
    exact mul_lt_mul_of_pos_right (by exact_mod_cast hless) hunit

theorem surrounds_zero {negative : Bool} {v : ℚ} (h0 : 0 ≤ v) (hv : v ≤ 2 * 2 ^ (-1076 : Int)) :
    (zero negative).Surrounds v := by
  have hlow : (zero negative).lowerEnd = 0 := rfl
  have hup : (zero negative).upperEnd = 2 := rfl
  refine ⟨?_, ?_, fun hodd => absurd hodd (by decide : ¬(0 % 2 = 1))⟩
  · rw [hlow, Nat.cast_zero, zero_mul]
    exact h0
  · rw [hup]
    exact hv

namespace IsRounding

variable {rounded : Option Binary64} {negative : Bool} {v : ℚ}

/-- **A rounding is determined** by the sign and the value. -/
theorem eq_some_iff (h : IsRounding rounded negative v) {x : Binary64} :
    rounded = some x ↔ x.negative = negative ∧ x.Surrounds v := by
  constructor
  · exact fun hx => h.surrounds x hx
  · rintro ⟨hsign, hx⟩
    cases hr : rounded with
    | none => exact absurd hx.lt_overflow (not_lt.mpr (h.overflow_le hr))
    | some y =>
      obtain ⟨hy, hv⟩ := h.surrounds y hr
      obtain ⟨hs, he⟩ := eq_of_surrounds hv hx
      exact congrArg some (ext_parts (hy.trans hsign.symm) hs he)

theorem eq_none_iff (h : IsRounding rounded negative v) : rounded = none ↔ overflow ≤ v := by
  refine ⟨h.overflow_le, fun hv => Option.eq_none_iff_forall_not_mem.mpr fun x hx => ?_⟩
  exact absurd (h.surrounds x hx).2.lt_overflow (not_lt.mpr hv)

/-- **There is a number** exactly for the values that are not too large. -/
theorem exists_iff (h : IsRounding rounded negative v) :
    (∃ x, rounded = some x) ↔ v < overflow := by
  rw [← Option.isSome_iff_exists, ← not_le, ← h.eq_none_iff, ← Option.not_isSome_iff_eq_none,
    not_not]

/-- A number in whose interval the value lies is a rounding of it. -/
theorem of_surrounds {x : Binary64} (h : x.Surrounds v) : IsRounding (some x) x.negative v :=
  ⟨fun y hy => by obtain rfl := Option.some.inj hy; exact ⟨rfl, h⟩, fun hx => absurd hx (by simp)⟩

end IsRounding

/-! ### Quotients -/

/-- Whether a natural is nearest to a value, the even one of two equally near. -/
structure IsNearest (m : Nat) (w : ℚ) : Prop where
  lower : (m : ℚ) - 1 / 2 ≤ w
  upper : w ≤ m + 1 / 2
  inside : m % 2 = 1 → (m : ℚ) - 1 / 2 < w ∧ w < m + 1 / 2

theorem roundQuotient_near_of_odd {num den : Nat} (hden : 0 < den)
    (hodd : roundQuotient num den % 2 = 1) :
    2 * num < 2 * (roundQuotient num den * den) + den ∧
      2 * (roundQuotient num den * den) < 2 * num + den := by
  have hq : den * (num / den) + num % den = num := Nat.div_add_mod num den
  have hr : num % den < den := Nat.mod_lt num hden
  unfold roundQuotient at hodd ⊢
  simp only at hodd ⊢
  split
  · next h =>
    rw [if_pos h] at hodd
    have hup : (num / den + 1) * den = den * (num / den) + den := by
      rw [Nat.add_mul, Nat.one_mul, Nat.mul_comm]
    omega
  · next h =>
    rw [if_neg h] at hodd
    rw [Nat.mul_comm (num / den) den]
    omega

theorem isNearest_roundQuotient (num : Nat) {den : Nat} (hden : 0 < den) :
    IsNearest (roundQuotient num den) (num / den) := by
  have hd : (0 : ℚ) < den := by exact_mod_cast hden
  obtain ⟨hup, hlow⟩ := roundQuotient_near num den hden
  have hlow' : (2 * (roundQuotient num den * den) : ℚ) ≤ 2 * num + den := by exact_mod_cast hlow
  have hup' : (2 * num : ℚ) ≤ 2 * (roundQuotient num den * den) + den := by exact_mod_cast hup
  refine ⟨?_, ?_, fun hodd => ⟨?_, ?_⟩⟩
  · rw [le_div_iff₀ hd]
    linarith
  · rw [div_le_iff₀ hd]
    linarith
  · have hlt : (2 * (roundQuotient num den * den) : ℚ) < 2 * num + den := by
      exact_mod_cast (roundQuotient_near_of_odd hden hodd).2
    rw [lt_div_iff₀ hd]
    linarith
  · have hlt : (2 * num : ℚ) < 2 * (roundQuotient num den * den) + den := by
      exact_mod_cast (roundQuotient_near_of_odd hden hodd).1
    rw [div_lt_iff₀ hd]
    linarith

theorem div_div_zpow (num den : Nat) (e : Int) :
    (num / den : ℚ) / 2 ^ e = (num * powerUnder 2 e : Nat) / (den * powerOver 2 e : Nat) := by
  have htwo := zpow_eq_powerOver_div 2 (by decide) e
  push_cast at htwo ⊢
  rw [htwo, div_div_div_eq]

section Quotient

variable {num den : Nat} (hnum : 0 < num) (hden : 0 < den)

include hnum hden

theorem binaryLog_bounds :
    (2 : ℚ) ^ binaryLog num den ≤ num / den ∧ (num / den : ℚ) < 2 ^ (binaryLog num den + 1) := by
  have hd : (0 : ℚ) < den := by exact_mod_cast hden
  have hn2 : (2 : ℚ) ^ (num.log2 : Int) ≤ num := by
    exact_mod_cast Nat.log2_self_le hnum.ne'
  have hn2' : (num : ℚ) < 2 ^ ((num.log2 : Int) + 1) := by
    exact_mod_cast (Nat.lt_log2_self (n := num))
  have hd2 : (2 : ℚ) ^ (den.log2 : Int) ≤ den := by
    exact_mod_cast Nat.log2_self_le hden.ne'
  have hd2' : (den : ℚ) < 2 ^ ((den.log2 : Int) + 1) := by
    exact_mod_cast (Nat.lt_log2_self (n := den))
  have hsplit (i j : Int) : (2 : ℚ) ^ i * 2 ^ j = 2 ^ (i + j) := (zpow_add₀ (by norm_num) i j).symm
  -- the difference of the logarithms is right or one too large
  have hlow : (2 : ℚ) ^ ((num.log2 : Int) - den.log2 - 1) ≤ num / den := by
    rw [le_div_iff₀ hd]
    calc (2 : ℚ) ^ ((num.log2 : Int) - den.log2 - 1) * den
        ≤ 2 ^ ((num.log2 : Int) - den.log2 - 1) * 2 ^ ((den.log2 : Int) + 1) :=
          mul_le_mul_of_nonneg_left hd2'.le (by positivity)
      _ = 2 ^ (num.log2 : Int) := by rw [hsplit]; congr 1; omega
      _ ≤ num := hn2
  have hup : (num / den : ℚ) < 2 ^ ((num.log2 : Int) - den.log2 + 1) := by
    rw [div_lt_iff₀ hd]
    calc (num : ℚ) < 2 ^ ((num.log2 : Int) + 1) := hn2'
      _ = 2 ^ ((num.log2 : Int) - den.log2 + 1) * 2 ^ (den.log2 : Int) := by
          rw [hsplit]; congr 1; omega
      _ ≤ 2 ^ ((num.log2 : Int) - den.log2 + 1) * den :=
          mul_le_mul_of_nonneg_left hd2 (by positivity)
  have hcompare : num * powerUnder 2 ((num.log2 : Int) - den.log2) <
      den * powerOver 2 ((num.log2 : Int) - den.log2) ↔
        (num / den : ℚ) < 2 ^ ((num.log2 : Int) - den.log2) := by
    have hpos : (0 : ℚ) < (den * powerOver 2 ((num.log2 : Int) - den.log2) : Nat) := by
      exact_mod_cast Nat.mul_pos hden (powerOver_pos (by decide) _)
    rw [← div_lt_one (by positivity : (0 : ℚ) < 2 ^ ((num.log2 : Int) - den.log2)), div_div_zpow,
      div_lt_one hpos, Nat.cast_lt]
  rw [binaryLog]
  split
  · next h =>
    refine ⟨hlow, ?_⟩
    rw [sub_add_cancel]
    exact hcompare.mp h
  · next h => exact ⟨not_lt.mp fun hlt => h (hcompare.mpr hlt), hup⟩

/-- **How a quotient is rounded**: to the nearest multiple of a power of two that leaves the
significand 53 bits, or fewer at the least exponent.  If that is one bit too long, it is the next
power of two. -/
theorem exists_round?_eq (negative : Bool) :
    ∃ m e, round? negative num den =
        (if m = 9007199254740992 then ofParts? negative 4503599627370496 (e + 1)
          else ofParts? negative m e) ∧
      IsNearest m (num / den / 2 ^ e) ∧ (num / den / 2 ^ e : ℚ) < 9007199254740992 ∧
      -1074 ≤ e ∧ (e = -1074 ∨ 4503599627370496 ≤ (num / den / 2 ^ e : ℚ)) := by
  obtain ⟨hlow, hup⟩ := binaryLog_bounds hnum hden
  have hscale (i j : Int) : (2 : ℚ) ^ i / 2 ^ j = 2 ^ (i - j) :=
    (zpow_sub₀ (by norm_num) i j).symm
  obtain ⟨e, he⟩ : ∃ e, e = max (binaryLog num den - 52) (-1074) := ⟨_, rfl⟩
  have hunit : (0 : ℚ) < 2 ^ e := by positivity
  refine ⟨roundQuotient (num * powerUnder 2 e) (den * powerOver 2 e), e, ?_, ?_, ?_, by omega, ?_⟩
  · rw [round?, if_neg hnum.ne', ← he]
  · rw [div_div_zpow]
    exact isNearest_roundQuotient _ (Nat.mul_pos hden (powerOver_pos (by decide) e))
  · calc (num / den / 2 ^ e : ℚ) < 2 ^ (binaryLog num den + 1) / 2 ^ e := by
          exact div_lt_div_of_pos_right hup hunit
      _ = 2 ^ (binaryLog num den + 1 - e) := hscale _ _
      _ ≤ 2 ^ (53 : Int) := zpow_le_zpow_right₀ (by norm_num) (by omega)
      _ = 9007199254740992 := by norm_num
  · by_cases hmin : e = -1074
    · exact .inl hmin
    · refine .inr ?_
      calc (4503599627370496 : ℚ) = 2 ^ (binaryLog num den - e) := by
            rw [show binaryLog num den - e = 52 by omega]
            norm_num
        _ = 2 ^ binaryLog num den / 2 ^ e := (hscale _ _).symm
        _ ≤ num / den / 2 ^ e := div_le_div_of_nonneg_right hlow hunit.le

end Quotient

/-- A number with the nearest significand surrounds the value, if the value is at most a quarter
below it where the gap below is narrower. -/
theorem surrounds_of_isNearest {x : Binary64} {v : ℚ} (hv : 0 ≤ v)
    (h : IsNearest x.significand (v / 2 ^ x.exponent))
    (hnarrow : x.narrowBelow = true → (x.significand : ℚ) - 1 / 4 ≤ v / 2 ^ x.exponent) :
    x.Surrounds v := by
  have hunit : (0 : ℚ) < 2 ^ (x.exponent - 2) := by positivity
  obtain ⟨w, hw⟩ : ∃ w, w = v / 2 ^ x.exponent := ⟨_, rfl⟩
  have hw0 : 0 ≤ w := hw ▸ div_nonneg hv (by positivity)
  have hvalue : v = 4 * w * 2 ^ (x.exponent - 2) := by
    rw [hw, zpow_sub₀ (by norm_num)]
    field_simp
    norm_num
  rw [← hw] at h hnarrow
  have hlow : (x.lowerEnd : ℚ) ≤ 4 * w ∧ (x.significand % 2 = 1 → (x.lowerEnd : ℚ) < 4 * w) := by
    rw [lowerEnd]
    split
    · next hn =>
      have hwide := hnarrow hn
      rw [narrowBelow, Bool.and_eq_true, beq_iff_eq] at hn
      rw [hn.1] at hwide ⊢
      push_cast at hwide ⊢
      exact ⟨by linarith, fun hodd => absurd hodd (by decide)⟩
    · rcases Nat.eq_zero_or_pos x.significand with hzero | hpos
      · rw [hzero]
        exact ⟨by simpa using hw0, fun hodd => absurd hodd (by decide)⟩
      · have hcast : ((4 * x.significand - 2 : Nat) : ℚ) = 4 * x.significand - 2 := by
          rw [Nat.cast_sub (by omega)]
          push_cast
          rfl
        rw [hcast]
        exact ⟨by linarith [h.lower], fun hodd => by linarith [(h.inside hodd).1]⟩
  have hup : 4 * w ≤ x.upperEnd ∧ (x.significand % 2 = 1 → 4 * w < x.upperEnd) := by
    rw [upperEnd]
    push_cast
    exact ⟨by linarith [h.upper], fun hodd => by linarith [(h.inside hodd).2]⟩
  rw [hvalue]
  refine ⟨mul_le_mul_of_nonneg_right hlow.1 hunit.le, mul_le_mul_of_nonneg_right hup.1 hunit.le,
    fun hodd => ⟨mul_lt_mul_of_pos_right (hlow.2 hodd) hunit,
      mul_lt_mul_of_pos_right (hup.2 hodd) hunit⟩⟩

/-- What is half a unit of its last place below the power of two after the largest number, or
above that, is too large. -/
theorem overflow_le_of_le {v : ℚ} {e : Int} (he : 971 ≤ e)
    (h : 9007199254740992 - 1 / 2 ≤ v / 2 ^ e) : overflow ≤ v := by
  have hunit : (0 : ℚ) < 2 ^ e := by positivity
  have hscale : (2 : ℚ) ^ (971 : Int) ≤ 2 ^ e := zpow_le_zpow_right₀ (by norm_num) he
  calc overflow = (9007199254740992 - 1 / 2) * 2 ^ (971 : Int) := by
        rw [overflow_eq, show (971 : Int) = 2 + 969 from rfl, zpow_add₀ (by norm_num)]
        generalize (2 : ℚ) ^ (969 : Int) = unit
        norm_num
        ring
    _ ≤ (9007199254740992 - 1 / 2) * 2 ^ e := mul_le_mul_of_nonneg_left hscale (by norm_num)
    _ ≤ v := (le_div_iff₀ hunit).mp h

theorem not_canonical_of_ofParts?_eq_none {negative : Bool} {s : Nat} {e : Int}
    (h : ofParts? negative s e = none) : ¬Canonical s e := by
  intro hcanonical
  rw [ofParts?, dif_pos hcanonical] at h
  exact absurd h (by simp)

section Parts

variable {v : ℚ} {e : Int} (hv : 0 ≤ v) (hmin : -1074 ≤ e) (negative : Bool)

include hv hmin

/-- A significand with 53 bits, or fewer at the least exponent, is the one of a rounding when it
is nearest to the value. -/
theorem isRounding_ofParts? {m : Nat} (hnear : IsNearest m (v / 2 ^ e))
    (hm : m < 9007199254740992)
    (hplace : e = -1074 ∨ 4503599627370496 ≤ m ∧ 4503599627370496 ≤ v / 2 ^ e) :
    IsRounding (ofParts? negative m e) negative v := by
  constructor
  · intro x hx
    obtain ⟨hsign, rfl, rfl⟩ := ofParts?_eq_some_iff.mp hx
    refine ⟨hsign, surrounds_of_isNearest hv hnear fun hnarrow => ?_⟩
    rw [narrowBelow, Bool.and_eq_true, beq_iff_eq, bne_iff_ne] at hnarrow
    have hge := (hplace.resolve_left hnarrow.2).2
    rw [hnarrow.1]
    push_cast
    linarith
  · intro hnone
    have hcanonical := not_canonical_of_ofParts?_eq_none hnone
    have hexp : 972 ≤ e := by
      by_contra hlt
      refine hcanonical ?_
      unfold Canonical
      omega
    have hlow : (4503599627370496 : ℚ) ≤ v / 2 ^ e := (hplace.resolve_left (by omega)).2
    have hdouble : v / 2 ^ (e - 1) = 2 * (v / 2 ^ e) := by
      rw [zpow_sub₀ (by norm_num), zpow_one]
      field_simp
    exact overflow_le_of_le (e := e - 1) (by omega) (by rw [hdouble]; linarith)

/-- A significand that is rounded up to 54 bits is the next power of two. -/
theorem isRounding_carry (hlow : 9007199254740992 - 1 / 2 ≤ v / 2 ^ e)
    (hbelow : v / 2 ^ e < 9007199254740992) :
    IsRounding (ofParts? negative 4503599627370496 (e + 1)) negative v := by
  have hhalf : v / 2 ^ (e + 1) = v / 2 ^ e / 2 := by
    rw [zpow_add₀ (by norm_num), zpow_one, div_div]
  constructor
  · intro x hx
    obtain ⟨hsign, hs, he⟩ := ofParts?_eq_some_iff.mp hx
    have hwidth : (x.significand : ℚ) - 1 / 4 ≤ v / 2 ^ x.exponent ∧
        v / 2 ^ x.exponent < x.significand := by
      rw [hs, he, hhalf]
      push_cast
      exact ⟨by linarith, by linarith⟩
    have hnear : IsNearest x.significand (v / 2 ^ x.exponent) := by
      refine ⟨by linarith, by linarith, fun hodd => absurd hodd ?_⟩
      rw [hs]
      decide
    exact ⟨hsign, surrounds_of_isNearest hv hnear fun _ => hwidth.1⟩
  · intro hnone
    have hcanonical := not_canonical_of_ofParts?_eq_none hnone
    have hexp : 971 ≤ e := by
      by_contra hlt
      refine hcanonical ?_
      unfold Canonical
      omega
    exact overflow_le_of_le hexp hlow

end Parts

/-- **A quotient is rounded** as its value demands. -/
theorem isRounding_round? (negative : Bool) (num : Nat) {den : Nat} (hden : 0 < den) :
    IsRounding (round? negative num den) negative (num / den) := by
  rcases Nat.eq_zero_or_pos num with rfl | hnum
  · rw [round?, if_pos rfl, Nat.cast_zero, zero_div]
    exact .of_surrounds (surrounds_zero le_rfl (by positivity))
  obtain ⟨m, e, hround, hnear, hbelow, hmin, hplace⟩ := exists_round?_eq hnum hden negative
  have hv : (0 : ℚ) ≤ num / den := div_nonneg (Nat.cast_nonneg _) (Nat.cast_nonneg _)
  rw [hround]
  split
  · next hcarry =>
    have hlow := hnear.lower
    rw [hcarry] at hlow
    push_cast at hlow
    exact isRounding_carry hv hmin negative hlow hbelow
  · next hcarry =>
    have hm : m ≤ 9007199254740992 := by
      have hlt : (m : ℚ) < 9007199254740992 + 1 := by linarith [hnear.lower]
      exact Nat.lt_succ_iff.mp (by exact_mod_cast hlt)
    refine isRounding_ofParts? hv hmin negative hnear (by omega) (hplace.imp_right fun hge => ?_)
    have hlt : (4503599627370496 : ℚ) < m + 1 := by linarith [hnear.upper]
    exact ⟨Nat.lt_succ_iff.mp (by exact_mod_cast hlt), hge⟩

theorem isRounding_ofInt? (i : Int) : IsRounding (ofInt? i) (decide (i < 0)) (i.natAbs : ℚ) := by
  have h := isRounding_round? (decide (i < 0)) i.natAbs (by decide : 0 < 1)
  rwa [Nat.cast_one, div_one] at h

/-! ### Decimals -/

theorem two_pow_le_ten_pow (n : Nat) : (2 : ℚ) ^ (3 * n) ≤ 10 ^ n := by
  rw [pow_mul]
  exact pow_le_pow_left₀ (by norm_num) (by norm_num) n

section Digits

variable {digits : Nat} {exponent : Int}

/-- A decimal with more than 400 zeros behind its digits is too large. -/
theorem overflow_le_decimal (hdigits : 0 < digits) (hlarge : 400 < exponent) :
    overflow ≤ digits * 10 ^ exponent :=
  calc overflow ≤ 2 ^ 1024 := by
        rw [overflow]
        exact sub_le_self _ (by positivity)
    _ ≤ 2 ^ (3 * 401) := pow_le_pow_right₀ (by norm_num) (by decide)
    _ ≤ 1 * 10 ^ (401 : Int) := by
        rw [one_mul]
        exact two_pow_le_ten_pow 401
    _ ≤ digits * 10 ^ exponent := by
        refine mul_le_mul (by exact_mod_cast hdigits) ?_ (by positivity) (Nat.cast_nonneg _)
        exact zpow_le_zpow_right₀ (by norm_num) (by omega)

/-- A decimal whose first digit is more than 400 places behind the point is next to zero. -/
theorem decimal_le_zero_upperEnd (hsmall : exponent < -400 - (digits.log2 : Int)) :
    (digits : ℚ) * 10 ^ exponent ≤ 2 * 2 ^ (-1076 : Int) := by
  have hdigits : (digits : ℚ) ≤ 10 ^ ((digits.log2 : Int) + 1) := by
    have hbits : digits ≤ 10 ^ (digits.log2 + 1) :=
      (Nat.lt_log2_self (n := digits)).le.trans (Nat.pow_le_pow_left (by decide) _)
    exact_mod_cast hbits
  calc (digits : ℚ) * 10 ^ exponent
      ≤ 10 ^ ((digits.log2 : Int) + 1) * 10 ^ (-401 - (digits.log2 : Int)) :=
        mul_le_mul hdigits (zpow_le_zpow_right₀ (by norm_num) (by omega)) (by positivity)
          (by positivity)
    _ = (10 ^ 400)⁻¹ := by
        rw [← zpow_add₀ (by norm_num), ← zpow_natCast, ← zpow_neg]
        congr 1
        push_cast
        omega
    _ ≤ (2 ^ (3 * 400))⁻¹ := inv_anti₀ (by positivity) (two_pow_le_ten_pow 400)
    _ ≤ (2 ^ 1075)⁻¹ := inv_anti₀ (by positivity) (pow_le_pow_right₀ (by norm_num) (by decide))
    _ = 2 * 2 ^ (-1076 : Int) := by
        rw [← zpow_natCast, ← zpow_neg, ← zpow_one_add₀ (by norm_num)]
        rfl

end Digits

/-- **A decimal is rounded** as its value demands, also where it is settled by its size alone. -/
theorem isRounding_ofDecimal? (negative : Bool) (digits : Nat) (exponent : Int) :
    IsRounding (ofDecimal? negative digits exponent) negative (digits * 10 ^ exponent) := by
  rw [ofDecimal?]
  rcases Nat.eq_zero_or_pos digits with rfl | hpos
  · rw [if_pos rfl, Nat.cast_zero, zero_mul]
    exact .of_surrounds (surrounds_zero le_rfl (by positivity))
  rw [if_neg hpos.ne']
  split
  · next hlarge => exact ⟨fun x hx => absurd hx (by simp), fun _ => overflow_le_decimal hpos hlarge⟩
  split
  · next hsmall =>
    exact .of_surrounds (surrounds_zero (by positivity) (decimal_le_zero_upperEnd hsmall))
  · have hten := zpow_eq_powerOver_div 10 (by decide) exponent
    have hround := isRounding_round? negative (digits * powerOver 10 exponent)
      (powerUnder_pos (by decide : 0 < 10) exponent)
    push_cast at hten hround
    rw [hten, ← mul_div_assoc]
    exact hround

end Binary64

end Docstore
