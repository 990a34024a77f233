import Mathlib.Data.List.Induction
import Docstore.Proofs.Decimal.Reading
import Docstore.Term.Literal

/-!
# Strings that are numbers

A string in the place of data goes into a query as a number when it spells a plain
decimal.  `SpellsInteger` and `SpellsDecimal` say which strings do, and which value
they have: an optional minus, digits without a needless zero in front, and for a
decimal a point with more digits behind it.  Neither knows how a string is read.

`numericString?_iff_spells` says that the strings that are taken for numbers are
these, as long as their values fit.  An integer has the text that it was spelt with,
so a string is never changed on its way into a query, but for `-0`.

The reader is opened twice, once for each form (`numericString?_of_whole`,
`numericString?_of_decimal`); that a text has one of them if anything is read is
`spells_of_numericString?`.  A plain decimal is one of those that `Numeral.decimal?` reads
(`SpellsDecimal.spellsNumber`), so how it is rounded is known from there.
-/

namespace Docstore

open Numeral

/-! ### Plain decimals -/

/-- The digits in front of a point: a single zero, or digits that start with another one. -/
inductive IsWhole : List Char → Prop where
  | zero : IsWhole ['0']
  | digits {first : Char} {more : List Char} (hfirst : first.isDigit = true)
      (hnonzero : first ≠ '0') (hmore : ∀ c ∈ more, c.isDigit = true) : IsWhole (first :: more)

structure IsFraction (cs : List Char) : Prop where
  ne_nil : cs ≠ []
  digits : ∀ c ∈ cs, c.isDigit = true

/-- The text is an integer in digits, perhaps with a minus. -/
def SpellsInteger (s : String) (i : Int) : Prop :=
  ∃ negative whole, s.toList = signChars negative ++ whole ∧ IsWhole whole ∧
    i = if negative then -(Nat.ofDigitChars 10 whole 0 : Int) else Nat.ofDigitChars 10 whole 0

/-- The text is a decimal with a point, of this sign and magnitude. -/
def SpellsDecimal (s : String) (negative : Bool) (v : ℚ) : Prop :=
  ∃ whole fraction, s.toList = signChars negative ++ (whole ++ '.' :: fraction) ∧
    IsWhole whole ∧ IsFraction fraction ∧
      v = Nat.ofDigitChars 10 (whole ++ fraction) 0 / 10 ^ fraction.length

namespace IsWhole

variable {whole : List Char}

theorem isDigit_of_mem (h : IsWhole whole) : ∀ c ∈ whole, c.isDigit = true := by
  cases h with
  | zero => exact List.forall_mem_singleton.mpr rfl
  | digits hfirst _ hmore => exact List.forall_mem_cons.mpr ⟨hfirst, hmore⟩

theorem ne_nil (h : IsWhole whole) : whole ≠ [] := by
  cases h <;> exact List.cons_ne_nil _ _

theorem not_mem_point (h : IsWhole whole) : '.' ∉ whole := fun hp =>
  absurd (h.isDigit_of_mem '.' hp) (by decide)

theorem exists_append_eq_cons (h : IsWhole whole) (rest : List Char) :
    ∃ c cs, whole ++ rest = c :: cs ∧ c.isDigit = true := by
  obtain ⟨c, cs, rfl⟩ := List.exists_cons_of_ne_nil h.ne_nil
  exact ⟨c, cs ++ rest, rfl, h.isDigit_of_mem c List.mem_cons_self⟩

/-- **Without a needless zero, digits are those of their value.** -/
theorem toDigits_ofDigitChars (h : IsWhole whole) :
    Nat.toDigits 10 (Nat.ofDigitChars 10 whole 0) = whole := by
  have hdigit {c : Char} (hc : c.isDigit = true) :
      c.toNat - 48 < 10 ∧ Nat.digitChar (c.toNat - 48) = c := by
    rw [Char.isDigit_iff_toNat] at hc
    change 48 ≤ c.toNat ∧ c.toNat ≤ 57 at hc
    refine ⟨by omega, Char.toNat_inj.mp ?_⟩
    rw [Nat.toNat_digitChar_of_lt_ten (by omega)]
    omega
  cases h with
  | zero => rfl
  | @digits first more hfirst hnonzero hmore =>
    obtain ⟨hlt, hchar⟩ := hdigit hfirst
    -- the value is positive from the first digit on, so each digit is appended to those before
    suffices hall : 0 < Nat.ofDigitChars 10 (first :: more) 0 ∧
        Nat.toDigits 10 (Nat.ofDigitChars 10 (first :: more) 0) = first :: more from hall.2
    induction more using List.reverseRecOn with
    | nil =>
      have hvalue : Nat.ofDigitChars 10 [first] 0 = first.toNat - 48 := by
        rw [Nat.ofDigitChars_cons, Nat.ofDigitChars_nil, Nat.mul_zero, Nat.zero_add]
        rfl
      rw [hvalue, Nat.toDigits_of_lt_base hlt, hchar]
      refine ⟨Nat.pos_of_ne_zero fun hz => hnonzero ?_, rfl⟩
      rw [← hchar, hz]
      rfl
    | append_singleton more c ih =>
      obtain ⟨hpos, hdigits⟩ := ih fun d hd => hmore d (List.mem_append_left _ hd)
      obtain ⟨hclt, hcchar⟩ := hdigit (hmore c (by simp))
      have hvalue : Nat.ofDigitChars 10 (first :: (more ++ [c])) 0 =
          10 * Nat.ofDigitChars 10 (first :: more) 0 + (c.toNat - 48) := by
        rw [← List.cons_append, Nat.ofDigitChars_append, Nat.ofDigitChars_cons,
          Nat.ofDigitChars_nil]
        rfl
      rw [hvalue, ← Nat.toDigits_append_toDigits (by decide) hpos hclt, hdigits,
        Nat.toDigits_of_lt_base hclt, hcchar]
      exact ⟨by omega, rfl⟩

end IsWhole

theorem isWholePart_iff {cs : List Char} : isWholePart cs = true ↔ IsWhole cs := by
  constructor
  · intro h
    cases cs with
    | nil => exact absurd h (by decide)
    | cons first more =>
      simp only [isWholePart, List.isEmpty_cons, Bool.not_false, Bool.true_and, List.all_cons,
        Bool.and_eq_true, List.all_eq_true, List.length_cons, List.head?_cons, Bool.not_eq_true',
        Bool.and_eq_false_iff, decide_eq_false_iff_not, beq_eq_false_iff_ne] at h
      obtain ⟨⟨hfirst, hmore⟩, hone | hnonzero⟩ := h
      · obtain rfl : more = [] := List.eq_nil_of_length_eq_zero (by omega)
        by_cases hzero : first = '0'
        · rw [hzero]
          exact .zero
        · exact .digits hfirst hzero hmore
      · exact .digits hfirst (fun hzero => hnonzero (by rw [hzero])) hmore
  · intro h
    cases h with
    | zero => rfl
    | digits hfirst hnonzero hmore =>
      have hall : (List.all _ Char.isDigit) = true := List.all_eq_true.mpr hmore
      simp [isWholePart, hfirst, hall, hnonzero]

theorem isFractionPart_iff {cs : List Char} : isFractionPart cs = true ↔ IsFraction cs := by
  rw [isFractionPart, Bool.and_eq_true, List.all_eq_true, Bool.not_eq_true',
    List.isEmpty_eq_false_iff]
  exact ⟨fun h => ⟨h.1, h.2⟩, fun h => ⟨h.ne_nil, h.digits⟩⟩

/-- The text of an integer is the string that spells it, but for a negative zero. -/
theorem SpellsInteger.toString_eq {s : String} {i : Int} (h : SpellsInteger s i) :
    toString i = if s = "-0" then "0" else s := by
  obtain ⟨negative, whole, hs, hwhole, rfl⟩ := h
  obtain ⟨n, hn⟩ : ∃ n, n = Nat.ofDigitChars 10 whole 0 := ⟨_, rfl⟩
  have hdigits : whole = Nat.toDigits 10 n := by rw [hn, hwhole.toDigits_ofDigitChars]
  rw [← hn]
  cases negative with
  | false =>
    have hne : s ≠ "-0" := by
      rintro rfl
      have hmem : '-' ∈ whole := by rw [← show _ = whole from hs]; decide
      exact absurd (hwhole.isDigit_of_mem '-' hmem) (by decide)
    rw [if_neg hne, ← String.toList_inj, hs, hdigits]
    exact Nat.toList_repr
  | true =>
    cases n with
    | zero =>
      have hzero : s = "-0" := by
        rw [← String.toList_inj, hs, hdigits]
        rfl
      rw [if_pos hzero]
      rfl
    | succ k =>
      have hne : s ≠ "-0" := by
        rintro rfl
        have hchars : '-' :: whole = ['-', '0'] := hs.symm
        have hwhole0 : whole = ['0'] := (List.cons.inj hchars).2
        have hvalue : Nat.ofDigitChars 10 ['0'] 0 = 0 := rfl
        rw [hwhole0, hvalue] at hn
        exact absurd hn (Nat.succ_ne_zero k)
      have htext : toString (-((k + 1 : Nat) : Int)) = "-" ++ (k + 1).repr := rfl
      rw [if_neg hne, ← String.toList_inj, hs, hdigits]
      show (toString (-((k + 1 : Nat) : Int))).toList = _
      rw [htext, String.toList_append, Nat.toList_repr]
      rfl

/-! ### The reader -/

theorem isSign_signChars (negative : Bool) : IsSign (signChars negative) negative := by
  cases negative with
  | false => exact .none
  | true => exact .minus

/-- What is made of a text without a sign: `integer` or `decimal`, by whether it has a point. -/
def ofUnsigned (integer decimal : Option Number) (cs : List Char) : Option Number :=
  (Text.cutChars? '.' cs).elim (if isWholePart cs then integer else none) fun parts =>
    if isWholePart parts.1 && isFractionPart parts.2 then decimal else none

/-- Behind a minus, or from the start when there is none, the reader looks for a point. -/
theorem numericString?_eq {s : String} {negative : Bool} {cs : List Char}
    (hs : s.toList = signChars negative ++ cs)
    (hcs : negative = false → ∀ rest, cs ≠ '-' :: rest) :
    numericString? s =
      ofUnsigned ((signed64? s).bind Number.ofInt?) ((decimal? s).map .float) cs := by
  cases negative with
  | true => cases h : Text.cutChars? '.' cs <;> simp [numericString?, ofUnsigned, hs, signChars, h]
  | false =>
    cases cs with
    | nil => simp [numericString?, ofUnsigned, hs, signChars, Text.cutChars?]
    | cons c rest =>
      have hc : c ≠ '-' := fun hc => hcs rfl rest (by rw [hc])
      cases h : Text.cutChars? '.' (c :: rest) with
      | none => simp [numericString?, ofUnsigned, hs, signChars, hc, h]
      | some parts => simp [numericString?, ofUnsigned, hs, signChars, hc, h]

theorem ne_cons_of_isDigit {cs : List Char} (hcs : ∃ c rest, cs = c :: rest ∧ c.isDigit = true)
    (rest : List Char) : cs ≠ '-' :: rest := by
  obtain ⟨c, more, rfl, hc⟩ := hcs
  intro h
  rw [(List.cons.inj h).1] at hc
  exact absurd hc (by decide)

theorem numericString?_of_whole {s : String} {negative : Bool} {whole : List Char}
    (hs : s.toList = signChars negative ++ whole) (hwhole : IsWhole whole) {i : Int}
    (hi : i = if negative then -(Nat.ofDigitChars 10 whole 0 : Int)
      else Nat.ofDigitChars 10 whole 0) :
    numericString? s =
      if -9223372036854775808 ≤ i ∧ i < 9223372036854775808 then Number.ofInt? i else none := by
  have hfirst : ∃ c rest, whole = c :: rest ∧ c.isDigit = true := by
    simpa using hwhole.exists_append_eq_cons []
  have hcut : Text.cutChars? '.' whole = none :=
    Text.cutChars?_eq_none_iff.mpr hwhole.not_mem_point
  have hvalue : nat? whole = some (Nat.ofDigitChars 10 whole 0) :=
    nat?_eq_some_iff.mpr ⟨hwhole.ne_nil, hwhole.isDigit_of_mem, rfl⟩
  have hsigned : signed (signChars negative ++ whole) = (negative, whole) :=
    (isSign_signChars negative).signed_append fun c hc =>
      ne_sign_of_isDigit (hwhole.isDigit_of_mem c (List.mem_of_mem_head? hc))
  have hread : signed64? s =
      if -9223372036854775808 ≤ i ∧ i < 9223372036854775808 then some i else none := by
    rw [signed64?, hs, hsigned]
    simp only [hvalue]
    show Option.filter _ (some (if negative then _ else _)) = _
    rw [← hi, Option.filter_some]
    simp only [decide_eq_true_eq]
  rw [numericString?_eq hs fun _ => ne_cons_of_isDigit hfirst, ofUnsigned, hcut]
  simp only [Option.elim_none, isWholePart_iff.mpr hwhole, if_true, hread]
  split <;> rfl

theorem numericString?_of_decimal {s : String} {negative : Bool} {whole fraction : List Char}
    (hs : s.toList = signChars negative ++ (whole ++ '.' :: fraction)) (hwhole : IsWhole whole)
    (hfraction : IsFraction fraction) : numericString? s = (decimal? s).map .float := by
  have hcut : Text.cutChars? '.' (whole ++ '.' :: fraction) = some (whole, fraction) :=
    Text.cutChars?_eq_some_iff.mpr ⟨rfl, hwhole.not_mem_point⟩
  rw [numericString?_eq hs fun _ => ne_cons_of_isDigit (hwhole.exists_append_eq_cons _),
    ofUnsigned, hcut]
  simp only [Option.elim_some, isWholePart_iff.mpr hwhole, isFractionPart_iff.mpr hfraction,
    Bool.and_self, if_true]

theorem SpellsDecimal.spellsNumber {s : String} {negative : Bool} {v : ℚ}
    (h : SpellsDecimal s negative v) : SpellsNumber s negative v := by
  obtain ⟨whole, fraction, hs, hwhole, hfraction, rfl⟩ := h
  refine ⟨signChars negative, whole ++ '.' :: fraction, [], whole, fraction, 0, ?_,
    isSign_signChars negative, ?_, .none, ?_⟩
  · rw [List.append_nil, hs]
  · exact .point (fun h => hwhole.ne_nil h.1) hwhole.isDigit_of_mem hfraction.digits
  · rw [zero_sub, zpow_neg, zpow_natCast, ← div_eq_mul_inv]

/-- What the reader takes behind a sign, whatever it makes of it, is digits or digits around a
point. -/
theorem spells_of_ofUnsigned {s : String} {negative : Bool} {cs : List Char}
    (hs : s.toList = signChars negative ++ cs) {integer decimal : Option Number} {n : Number}
    (h : ofUnsigned integer decimal cs = some n) :
    (∃ i, SpellsInteger s i) ∨ ∃ negative v, SpellsDecimal s negative v := by
  rw [ofUnsigned] at h
  cases hcut : Text.cutChars? '.' cs with
  | none =>
    rw [hcut, Option.elim_none] at h
    split at h
    · next hwhole => exact .inl ⟨_, negative, cs, hs, isWholePart_iff.mp hwhole, rfl⟩
    · exact absurd h (by simp)
  | some parts =>
    obtain ⟨whole, fraction⟩ := parts
    rw [hcut, Option.elim_some] at h
    obtain ⟨rfl, -⟩ := Text.cutChars?_eq_some_iff.mp hcut
    split at h
    · next hparts =>
      rw [Bool.and_eq_true] at hparts
      exact .inr ⟨negative, _, whole, fraction, hs, isWholePart_iff.mp hparts.1,
        isFractionPart_iff.mp hparts.2, rfl⟩
    · exact absurd h (by simp)

/-- **Whatever is read is spelt** in one of the two forms. -/
theorem spells_of_numericString? {s : String} {n : Number} (h : numericString? s = some n) :
    (∃ i, SpellsInteger s i) ∨ ∃ negative v, SpellsDecimal s negative v := by
  by_cases hsign : ∃ cs, s.toList = '-' :: cs
  · obtain ⟨cs, hs⟩ := hsign
    have hs' : s.toList = signChars true ++ cs := hs
    rw [numericString?_eq hs' (by simp)] at h
    exact spells_of_ofUnsigned hs' h
  · have hs : s.toList = signChars false ++ s.toList := rfl
    rw [numericString?_eq hs fun _ rest hrest => hsign ⟨rest, hrest⟩] at h
    exact spells_of_ofUnsigned hs h

/-! ### Which strings are numbers -/

/-- The integers that a string may spell: those of 64 bits with sign. -/
abbrev FitsSigned (i : Int) : Prop := -9223372036854775808 ≤ i ∧ i < 9223372036854775808

theorem FitsSigned.fitsInteger {i : Int} (h : FitsSigned i) : FitsInteger i := ⟨h.1, by omega⟩

/-- **An integer is read** as itself, unless it does not fit. -/
theorem SpellsInteger.numericString?_eq {s : String} {i : Int} (h : SpellsInteger s i) :
    numericString? s =
      if hfits : FitsSigned i then some (.int i hfits.fitsInteger) else none := by
  obtain ⟨negative, whole, hs, hwhole, hi⟩ := h
  rw [numericString?_of_whole hs hwhole hi]
  split
  · next hfits => exact Number.ofInt?_eq_some (FitsSigned.fitsInteger hfits)
  · rfl

/-- **A decimal is read** as the number of its sign in whose interval the value lies, unless the
value is too large. -/
theorem SpellsDecimal.exists_isRounding {s : String} {negative : Bool} {v : ℚ}
    (h : SpellsDecimal s negative v) :
    ∃ rounded, numericString? s = rounded.map .float ∧
      Binary64.IsRounding rounded negative v := by
  have hround := h.spellsNumber.isRounding
  obtain ⟨whole, fraction, hs, hwhole, hfraction, -⟩ := h
  exact ⟨decimal? s, numericString?_of_decimal hs hwhole hfraction, hround⟩

theorem numericString?_eq_some_int_iff {s : String} {i : Int} {fits : FitsInteger i} :
    numericString? s = some (.int i fits) ↔ SpellsInteger s i ∧ FitsSigned i := by
  constructor
  · intro h
    rcases spells_of_numericString? h with ⟨j, hj⟩ | ⟨negative, v, hv⟩
    · rw [hj.numericString?_eq] at h
      split at h
      · next hfits =>
        obtain rfl : j = i := Number.int.inj (Option.some.inj h)
        exact ⟨hj, hfits⟩
      · exact absurd h (by simp)
    · obtain ⟨rounded, hread, -⟩ := hv.exists_isRounding
      rw [hread] at h
      obtain ⟨x, -, hx⟩ := Option.map_eq_some_iff.mp h
      exact Number.noConfusion hx
  · rintro ⟨h, hfits⟩
    rw [h.numericString?_eq, dif_pos hfits]

theorem numericString?_eq_some_float_iff {s : String} {x : Binary64} :
    numericString? s = some (.float x) ↔ ∃ v, SpellsDecimal s x.negative v ∧ x.Surrounds v := by
  constructor
  · intro h
    rcases spells_of_numericString? h with ⟨j, hj⟩ | ⟨negative, v, hv⟩
    · rw [hj.numericString?_eq] at h
      split at h
      · exact Number.noConfusion (Option.some.inj h)
      · exact absurd h (by simp)
    · obtain ⟨rounded, hread, hround⟩ := hv.exists_isRounding
      rw [hread] at h
      obtain ⟨y, hy, hx⟩ := Option.map_eq_some_iff.mp h
      obtain rfl : y = x := Number.float.inj hx
      obtain ⟨rfl, hsurrounds⟩ := hround.surrounds y hy
      exact ⟨v, hv, hsurrounds⟩
  · rintro ⟨v, hv, hsurrounds⟩
    obtain ⟨rounded, hread, hround⟩ := hv.exists_isRounding
    rw [hread, hround.eq_some_iff.mpr ⟨rfl, hsurrounds⟩]
    rfl

theorem exists_numericString?_eq_float_iff {s : String} :
    (∃ x, numericString? s = some (.float x)) ↔
      ∃ negative v, SpellsDecimal s negative v ∧ v < Binary64.overflow := by
  constructor
  · rintro ⟨x, hx⟩
    obtain ⟨v, hv, hsurrounds⟩ := numericString?_eq_some_float_iff.mp hx
    exact ⟨x.negative, v, hv, hsurrounds.lt_overflow⟩
  · rintro ⟨negative, v, hv, hlt⟩
    obtain ⟨rounded, hread, hround⟩ := hv.exists_isRounding
    obtain ⟨x, rfl⟩ := hround.exists_iff.mpr hlt
    exact ⟨x, hread⟩

theorem numericString?_eq_none_iff {s : String} :
    numericString? s = none ↔
      (∀ i, SpellsInteger s i → ¬FitsSigned i) ∧
        ∀ negative v, SpellsDecimal s negative v → Binary64.overflow ≤ v := by
  constructor
  · intro h
    constructor
    · intro i hi hfits
      rw [hi.numericString?_eq, dif_pos hfits] at h
      exact absurd h (by simp)
    · intro negative v hv
      by_contra hlt
      obtain ⟨x, hx⟩ := exists_numericString?_eq_float_iff.mpr ⟨negative, v, hv, not_le.mp hlt⟩
      rw [h] at hx
      exact absurd hx (by simp)
  · rintro ⟨hint, hdecimal⟩
    cases h : numericString? s with
    | none => rfl
    | some n =>
      cases n with
      | int i fits =>
        obtain ⟨hi, hfits⟩ := numericString?_eq_some_int_iff.mp h
        exact absurd hfits (hint i hi)
      | float x =>
        obtain ⟨negative, v, hv, hlt⟩ := exists_numericString?_eq_float_iff.mp ⟨x, h⟩
        exact absurd hlt (not_lt.mpr (hdecimal negative v hv))

/-- **The strings that are taken for numbers are the plain decimals.**  A string is an
integer exactly when it spells one that fits 64 bits with sign, and then its text is the
string itself, but for a negative zero.  It is a floating-point number exactly when it
spells a decimal with a point; the number has the sign and is nearest to the value, and
there is one for the values below `Binary64.overflow`.  Every other string is none, so
an integer that does not fit stays a quoted string. -/
theorem numericString?_iff_spells (s : String) :
    (∀ i fits, numericString? s = some (.int i fits) ↔ SpellsInteger s i ∧ FitsSigned i) ∧
      (∀ i fits, numericString? s = some (.int i fits) →
        (Number.int i fits).text = if s = "-0" then "0" else s) ∧
      (∀ x, numericString? s = some (.float x) ↔
        ∃ v, SpellsDecimal s x.negative v ∧ x.Surrounds v) ∧
      ((∃ x, numericString? s = some (.float x)) ↔
        ∃ negative v, SpellsDecimal s negative v ∧ v < Binary64.overflow) ∧
      (numericString? s = none ↔ (∀ i, SpellsInteger s i → ¬FitsSigned i) ∧
        ∀ negative v, SpellsDecimal s negative v → Binary64.overflow ≤ v) ∧
      ∀ i, SpellsInteger s i → ¬FitsSigned i →
        (Json.string s).literalText = Json.quote s := by
  refine ⟨fun i fits => numericString?_eq_some_int_iff, fun i fits h => ?_,
    fun x => numericString?_eq_some_float_iff, exists_numericString?_eq_float_iff,
    numericString?_eq_none_iff, fun i hi hfits => ?_⟩
  · exact (numericString?_eq_some_int_iff.mp h).1.toString_eq
  · have hnone : numericString? s = none := by rw [hi.numericString?_eq, dif_neg hfits]
    simp only [Json.literalText, hnone]

/-- A negative zero is written without its sign, the first integer that does not fit stays
a string, and zeros behind the point do no harm. -/
theorem numericString?_iff_spells_boundary :
    SpellsInteger "-0" 0 ∧ FitsSigned 0 ∧ numericString? "-0" = some (.int 0) ∧
      (Number.int 0).text = "0" ∧
      SpellsInteger "9223372036854775808" 9223372036854775808 ∧
      ¬FitsSigned 9223372036854775808 ∧
      (Json.string "9223372036854775808").literalText = Json.quote "9223372036854775808" ∧
      SpellsDecimal "2.50" false (250 / 100) ∧ ∃ x, numericString? "2.50" = some (.float x) := by
  have hzero : SpellsInteger "-0" 0 := ⟨true, ['0'], rfl, .zero, rfl⟩
  have hlarge : SpellsInteger "9223372036854775808" 9223372036854775808 :=
    ⟨false, "9223372036854775808".toList, rfl, isWholePart_iff.mp rfl, rfl⟩
  have hdecimal : SpellsDecimal "2.50" false (250 / 100) := by
    refine ⟨['2'], ['5', '0'], rfl, isWholePart_iff.mp rfl, isFractionPart_iff.mp rfl, ?_⟩
    show (250 / 100 : ℚ) = (250 : Nat) / 10 ^ 2
    norm_num
  have hread : numericString? "-0" = some (.int 0) :=
    ((numericString?_iff_spells "-0").1 0 (by decide)).mpr ⟨hzero, by decide⟩
  have hsmall : (250 / 100 : ℚ) < Binary64.overflow := by
    have hunit : (1 : ℚ) ≤ 2 ^ (969 : Int) := one_le_zpow₀ (by norm_num) (by decide)
    rw [Binary64.overflow_eq]
    exact lt_of_lt_of_le (by norm_num) (mul_le_mul_of_nonneg_left hunit (Nat.cast_nonneg _))
  exact ⟨hzero, by decide, hread, (numericString?_iff_spells "-0").2.1 0 _ hread, hlarge,
    by decide, (numericString?_iff_spells _).2.2.2.2.2 _ hlarge (by decide), hdecimal,
    (numericString?_iff_spells _).2.2.2.1.mpr ⟨false, _, hdecimal, hsmall⟩⟩

end Docstore
