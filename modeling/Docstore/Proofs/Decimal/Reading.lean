import Mathlib.Data.List.TakeWhile
import Docstore.Proofs.Decimal.Rounding
import Docstore.Proofs.Decimal.Spelling

/-!
# Decimals in plain text

A decimal that stands alone in a text has a sign or none, digits with or without a point,
and perhaps an exponent.  `SpellsNumber` says which texts are of this form and which value
they have, whatever its size; words for an infinity or for no number at all are not.

The parts come one after the other, and there is one lemma for the reader of each: the
sign (`exists_isSign`, `IsSign.signed_append`), the digits and the exponent
(`exponent?_eq_some_iff`).  Put together they say that the reader takes the texts of this
form whose value is not too large, each as the nearest number (`decimal?_eq_some_iff`,
`exists_decimal?_iff`).
-/

namespace Docstore

namespace Numeral

/-! ### The parts of a decimal -/

/-- A sign or none, and whether it is a minus. -/
inductive IsSign : List Char → Bool → Prop where
  | none : IsSign [] false
  | plus : IsSign ['+'] false
  | minus : IsSign ['-'] true

/-- Digits with or without a point: those in front of the point, and those behind it.  There is
at least one. -/
inductive IsMantissa : List Char → List Char → List Char → Prop where
  | whole {whole : List Char} (hne : whole ≠ []) (hwhole : ∀ c ∈ whole, c.isDigit = true) :
      IsMantissa whole whole []
  | point {whole fraction : List Char} (hne : ¬(whole = [] ∧ fraction = []))
      (hwhole : ∀ c ∈ whole, c.isDigit = true) (hfraction : ∀ c ∈ fraction, c.isDigit = true) :
      IsMantissa (whole ++ '.' :: fraction) whole fraction

/-- Nothing, or a mark and an integer with a sign or none. -/
inductive IsExponent : List Char → Int → Prop where
  | none : IsExponent [] 0
  | some {mark : Char} {sign digits : List Char} {negative : Bool}
      (hmark : mark = 'e' ∨ mark = 'E') (hsign : IsSign sign negative) (hne : digits ≠ [])
      (hdigits : ∀ c ∈ digits, c.isDigit = true) :
      IsExponent (mark :: (sign ++ digits))
        (if negative then -(Nat.ofDigitChars 10 digits 0 : Int) else Nat.ofDigitChars 10 digits 0)

/-- The text is a decimal of this sign and magnitude. -/
def SpellsNumber (s : String) (negative : Bool) (v : ℚ) : Prop :=
  ∃ sign mantissa exponent whole fraction e, s.toList = sign ++ (mantissa ++ exponent) ∧
    IsSign sign negative ∧ IsMantissa mantissa whole fraction ∧ IsExponent exponent e ∧
      v = Nat.ofDigitChars 10 (whole ++ fraction) 0 * 10 ^ (e - fraction.length)

/-! ### The reader of each part -/

theorem exists_isSign (cs : List Char) :
    ∃ sign, IsSign sign (signed cs).1 ∧ cs = sign ++ (signed cs).2 := by
  rw [signed.eq_def]
  split
  · exact ⟨['-'], .minus, rfl⟩
  · exact ⟨['+'], .plus, rfl⟩
  · exact ⟨[], .none, rfl⟩

theorem IsSign.signed_append {sign rest : List Char} {negative : Bool} (h : IsSign sign negative)
    (hrest : ∀ c ∈ rest.head?, c ≠ '-' ∧ c ≠ '+') : signed (sign ++ rest) = (negative, rest) := by
  cases h with
  | plus => rfl
  | minus => rfl
  | none =>
    rw [List.nil_append, signed.eq_def]
    split
    · exact absurd rfl (hrest '-' rfl).1
    · exact absurd rfl (hrest '+' rfl).2
    · rfl

theorem ne_sign_of_isDigit {c : Char} (h : c.isDigit = true) : c ≠ '-' ∧ c ≠ '+' := by
  constructor
  · rintro rfl
    exact absurd h (by decide)
  · rintro rfl
    exact absurd h (by decide)

theorem exponent?_cons_eq_some_iff {mark : Char} {cs : List Char} {e : Int} :
    exponent? (mark :: cs) = some e ↔
      (mark = 'e' ∨ mark = 'E') ∧ ∃ n, nat? (signed cs).2 = some n ∧
        e = if (signed cs).1 then -(n : Int) else n := by
  rw [exponent?, Option.ite_none_right_eq_some]
  refine and_congr_right fun _ => ?_
  cases hread : nat? (signed cs).2 with
  | none =>
    simp [hread]
  | some n =>
    simp [hread, eq_comm (a := e)]

/-- **The reader of exponents** takes an exponent and nothing else. -/
theorem exponent?_eq_some_iff {cs : List Char} {e : Int} :
    exponent? cs = some e ↔ IsExponent cs e := by
  constructor
  · intro h
    cases cs with
    | nil =>
      obtain rfl : 0 = e := Option.some.inj h
      exact .none
    | cons mark cs =>
      obtain ⟨hmark, n, hread, rfl⟩ := exponent?_cons_eq_some_iff.mp h
      obtain ⟨sign, hsign, hcs⟩ := exists_isSign cs
      obtain ⟨hne, hdigits, rfl⟩ := nat?_eq_some_iff.mp hread
      generalize signed cs = parts at hsign hcs hne hdigits
      rw [hcs]
      exact .some hmark hsign hne hdigits
  · intro h
    cases h with
    | none => rfl
    | @some mark sign digits negative hmark hsign hne hdigits =>
      have hsplit : signed (sign ++ digits) = (negative, digits) :=
        hsign.signed_append fun c hc => ne_sign_of_isDigit (hdigits c (List.mem_of_mem_head? hc))
      rw [exponent?_cons_eq_some_iff, hsplit]
      exact ⟨hmark, _, nat?_eq_some_iff.mpr ⟨hne, hdigits, rfl⟩, rfl⟩

theorem IsExponent.head {cs : List Char} {e : Int} (h : IsExponent cs e) :
    ∀ c ∈ cs.head?, c = 'e' ∨ c = 'E' := by
  cases h with
  | none => exact fun c hc => absurd hc (by simp)
  | some hmark => exact fun c hc => Option.some.inj hc ▸ hmark

theorem IsExponent.not_isDigit_head {cs : List Char} {e : Int} (h : IsExponent cs e) :
    ∀ c ∈ cs.head?, c.isDigit = false := by
  intro c hc
  rcases h.head c hc with rfl | rfl <;> decide

/-- The digits behind a point, if there is one, and what follows them. -/
def cutFraction : List Char → List Char × List Char
  | '.' :: ds => (ds.takeWhile Char.isDigit, ds.dropWhile Char.isDigit)
  | cs => ([], cs)

/-- The reader of decimals, part by part. -/
theorem decimal?_eq (s : String) :
    decimal? s =
      let cs := (signed s.toList).2
      let whole := cs.takeWhile Char.isDigit
      let fraction := (cutFraction (cs.dropWhile Char.isDigit)).1
      let rest := (cutFraction (cs.dropWhile Char.isDigit)).2
      if whole = [] ∧ fraction = [] then none
      else (exponent? rest).bind fun e =>
        Binary64.ofDecimal? (signed s.toList).1 (Nat.ofDigitChars 10 (whole ++ fraction) 0)
          (e - fraction.length) := rfl

section Mantissa

variable {mantissa whole fraction : List Char}

theorem IsMantissa.parts_append (h : IsMantissa mantissa whole fraction) {exponent : List Char}
    {e : Int} (hexponent : IsExponent exponent e) :
    (mantissa ++ exponent).takeWhile Char.isDigit = whole ∧
      cutFraction ((mantissa ++ exponent).dropWhile Char.isDigit) = (fraction, exponent) := by
  have hhead := hexponent.not_isDigit_head
  cases h with
  | whole _ hwhole =>
    refine ⟨takeWhile_isDigit_append hwhole hhead, ?_⟩
    rw [dropWhile_isDigit_append hwhole hhead]
    cases hexponent with
    | none => rfl
    | some hmark => rcases hmark with rfl | rfl <;> rfl
  | point _ hwhole hfraction =>
    have hpoint := not_isDigit_head_point (fraction ++ exponent)
    rw [List.append_assoc, List.cons_append, dropWhile_isDigit_append hwhole hpoint]
    refine ⟨takeWhile_isDigit_append hwhole hpoint, ?_⟩
    rw [cutFraction, takeWhile_isDigit_append hfraction hhead,
      dropWhile_isDigit_append hfraction hhead]

theorem exists_isMantissa {cs : List Char}
    (hne : ¬(cs.takeWhile Char.isDigit = [] ∧ (cutFraction (cs.dropWhile Char.isDigit)).1 = [])) :
    ∃ mantissa, IsMantissa mantissa (cs.takeWhile Char.isDigit)
        (cutFraction (cs.dropWhile Char.isDigit)).1 ∧
      cs = mantissa ++ (cutFraction (cs.dropWhile Char.isDigit)).2 := by
  have hdigits (ds : List Char) : ∀ c ∈ ds.takeWhile Char.isDigit, c.isDigit = true :=
    fun c hc => List.mem_takeWhile_imp hc
  have hsplit := List.takeWhile_append_dropWhile (p := Char.isDigit) (l := cs)
  have hwhole := hdigits cs
  generalize cs.takeWhile Char.isDigit = whole at hne hsplit hwhole ⊢
  generalize cs.dropWhile Char.isDigit = rest at hne hsplit ⊢
  rw [cutFraction.eq_def] at hne ⊢
  split
  · next ds =>
    refine ⟨_, .point hne hwhole (hdigits ds), ?_⟩
    rw [← hsplit, List.append_assoc, List.cons_append, List.takeWhile_append_dropWhile]
  · next hpoint =>
    refine ⟨whole, .whole (fun hnil => ?_) hwhole, hsplit.symm⟩
    split at hne
    · exact hpoint _ rfl
    · exact hne ⟨hnil, rfl⟩

theorem IsMantissa.ne_sign_head (h : IsMantissa mantissa whole fraction) (rest : List Char) :
    ∀ c ∈ (mantissa ++ rest).head?, c ≠ '-' ∧ c ≠ '+' := by
  have hdigits {ds : List Char} (hds : ∀ c ∈ ds, c.isDigit = true) (hne : ds ≠ [])
      (more : List Char) : ∀ c ∈ (ds ++ more).head?, c ≠ '-' ∧ c ≠ '+' := by
    intro c hc
    rw [List.head?_append_of_ne_nil _ hne] at hc
    exact ne_sign_of_isDigit (hds c (List.mem_of_mem_head? hc))
  cases h with
  | whole hne hwhole => exact hdigits hwhole hne rest
  | point hne hwhole =>
    rw [List.append_assoc]
    by_cases hnil : whole = []
    · rw [hnil]
      intro c hc
      obtain rfl : '.' = c := Option.some.inj hc
      decide
    · exact hdigits hwhole hnil _

end Mantissa

/-! ### The reader of decimals -/

section

variable {s : String} {negative : Bool} {v : ℚ} {x : Binary64}

/-- **A text that spells a decimal** is read as its rounding. -/
theorem SpellsNumber.isRounding (h : SpellsNumber s negative v) :
    Binary64.IsRounding (decimal? s) negative v := by
  obtain ⟨sign, mantissa, exponent, whole, fraction, e, hs, hsign, hmantissa, hexponent, rfl⟩ := h
  obtain ⟨hwhole, hparts⟩ := hmantissa.parts_append hexponent
  have hsigned : signed s.toList = (negative, mantissa ++ exponent) := by
    rw [hs]
    exact hsign.signed_append (hmantissa.ne_sign_head exponent)
  have hne : ¬(whole = [] ∧ fraction = []) := by
    cases hmantissa with
    | whole hne => exact fun h => hne h.1
    | point hne => exact hne
  rw [decimal?_eq]
  simp only [hsigned, hwhole, hparts, if_neg hne, exponent?_eq_some_iff.mpr hexponent]
  exact Binary64.isRounding_ofDecimal? negative _ _

theorem exists_spellsNumber (h : decimal? s = some x) :
    ∃ negative v, SpellsNumber s negative v := by
  rw [decimal?_eq] at h
  simp only at h
  split at h
  · exact absurd h (by simp)
  · next hne =>
    obtain ⟨e, he, -⟩ := Option.bind_eq_some_iff.mp h
    obtain ⟨sign, hsign, hs⟩ := exists_isSign s.toList
    obtain ⟨mantissa, hmantissa, hcs⟩ := exists_isMantissa hne
    refine ⟨_, _, sign, mantissa, _, _, _, e, ?_, hsign, hmantissa, exponent?_eq_some_iff.mp he,
      rfl⟩
    rw [← hcs]
    exact hs

/-- **The reader of decimals** takes a text as the number of its sign that is nearest to its
value. -/
theorem decimal?_eq_some_iff :
    decimal? s = some x ↔ ∃ v, SpellsNumber s x.negative v ∧ x.Surrounds v := by
  constructor
  · intro h
    obtain ⟨negative, v, hv⟩ := exists_spellsNumber h
    obtain ⟨rfl, hx⟩ := hv.isRounding.eq_some_iff.mp h
    exact ⟨v, hv, hx⟩
  · rintro ⟨v, hv, hx⟩
    exact hv.isRounding.eq_some_iff.mpr ⟨rfl, hx⟩

theorem exists_decimal?_iff :
    (∃ x, decimal? s = some x) ↔
      ∃ negative v, SpellsNumber s negative v ∧ v < Binary64.overflow := by
  constructor
  · rintro ⟨x, h⟩
    obtain ⟨v, hv, hx⟩ := decimal?_eq_some_iff.mp h
    exact ⟨x.negative, v, hv, hx.lt_overflow⟩
  · rintro ⟨negative, v, hv, hlt⟩
    exact hv.isRounding.exists_iff.mpr hlt

theorem SpellsNumber.not_mem_comma (h : SpellsNumber s negative v) : ',' ∉ s.toList := by
  obtain ⟨sign, mantissa, exponent, whole, fraction, e, hs, hsign, hmantissa, hexponent, -⟩ := h
  have hdigits {ds : List Char} (hds : ∀ c ∈ ds, c.isDigit = true) : ',' ∉ ds :=
    fun hc => absurd (hds ',' hc) (by decide)
  have hnosign {ds : List Char} {minus : Bool} (hds : IsSign ds minus) : ',' ∉ ds := by
    cases hds <;> decide
  have hbefore : ',' ∉ mantissa := by
    cases hmantissa with
    | whole _ hwhole => exact hdigits hwhole
    | point _ hwhole hfraction =>
      rw [List.mem_append, List.mem_cons]
      exact not_or.mpr ⟨hdigits hwhole, not_or.mpr ⟨by decide, hdigits hfraction⟩⟩
  have hbehind : ',' ∉ exponent := by
    cases hexponent with
    | none => exact List.not_mem_nil
    | some hmark hsign _ hds =>
      rw [List.mem_cons, List.mem_append]
      refine not_or.mpr ⟨?_, not_or.mpr ⟨hnosign hsign, hdigits hds⟩⟩
      rcases hmark with rfl | rfl <;> decide
  rw [hs, List.mem_append, List.mem_append]
  exact not_or.mpr ⟨hnosign hsign, not_or.mpr ⟨hbefore, hbehind⟩⟩

theorem decimal?_eq_none_of_mem_comma (h : ',' ∈ s.toList) : decimal? s = none := by
  refine Option.eq_none_iff_forall_ne_some.mpr fun x hx => ?_
  obtain ⟨negative, v, hv⟩ := exists_spellsNumber hx
  exact hv.not_mem_comma h

end

end Numeral

end Docstore
