import Docstore.Decimal.Numeral
import Docstore.Json.Number
import Docstore.Proofs.Decimal.Interval

/-!
# Numbers by their texts

A magnitude is written as digits with a point among them, an exponent behind
them, or both.  `decimalForm` reads such a text back as digits and an exponent,
and the value it finds is the one that was laid out, whichever way that was
(`isDecimalText_positional`, `isDecimalText_scientific`).  That value lies in the
interval of the number, and intervals have no value in common.  So numbers with
one text are one number (`Number.text_inj`).
-/

namespace Docstore

namespace Numeral

def decimalForm (cs : List Char) : DecimalForm :=
  let whole := cs.takeWhile Char.isDigit
  match cs.dropWhile Char.isDigit with
  | '.' :: ds =>
      let fraction := ds.takeWhile Char.isDigit
      ⟨natOfDigits (whole ++ fraction),
        (exponent? (ds.dropWhile Char.isDigit)).getD 0 - fraction.length⟩
  | rest => ⟨natOfDigits whole, (exponent? rest).getD 0⟩

theorem natOfDigits_eq (cs : List Char) : natOfDigits cs = Nat.ofDigitChars 10 cs 0 := rfl

theorem natOfDigits_toDigits (n : Nat) : natOfDigits (Nat.toDigits 10 n) = n :=
  Nat.ofDigitChars_ten_toDigits

theorem natOfDigits_append_zeros (cs : List Char) (n : Nat) :
    natOfDigits (cs ++ List.replicate n '0') = natOfDigits cs * 10 ^ n := by
  rw [natOfDigits_eq, Nat.ofDigitChars_append, Nat.ofDigitChars_replicate_zero, natOfDigits_eq,
    Nat.mul_comm]

theorem natOfDigits_zeros_append (n : Nat) (cs : List Char) :
    natOfDigits (List.replicate n '0' ++ cs) = natOfDigits cs := by
  rw [natOfDigits_eq, Nat.ofDigitChars_append, Nat.ofDigitChars_replicate_zero, Nat.mul_zero,
    natOfDigits_eq]

theorem isDigit_of_mem_digits {n : Nat} : ∀ c ∈ Nat.toDigits 10 n, c.isDigit = true :=
  fun _ hc => Nat.isDigit_of_mem_toDigits (by decide) (by decide) hc

theorem nat?_eq_some_iff {cs : List Char} {n : Nat} :
    nat? cs = some n ↔
      cs ≠ [] ∧ (∀ c ∈ cs, c.isDigit = true) ∧ n = Nat.ofDigitChars 10 cs 0 := by
  rw [nat?, Option.ite_none_right_eq_some, List.all_eq_true, natOfDigits_eq, and_assoc,
    Option.some.injEq, eq_comm (b := n)]

theorem nat?_toDigits (n : Nat) : nat? (Nat.toDigits 10 n) = some n := by
  have hdigits : (Nat.toDigits 10 n).all Char.isDigit = true :=
    List.all_eq_true.mpr isDigit_of_mem_digits
  rw [nat?, if_pos ⟨Nat.toDigits_ne_nil, hdigits⟩, natOfDigits_toDigits]

theorem exponent?_of_nonneg (n : Nat) :
    exponent? ('e' :: '+' :: Nat.toDigits 10 n) = some (n : Int) := by
  simp [exponent?, signed, nat?_toDigits]

theorem exponent?_of_neg (n : Nat) :
    exponent? ('e' :: '-' :: Nat.toDigits 10 n) = some (-(n : Int)) := by
  simp [exponent?, signed, nat?_toDigits]

section

variable {digits rest : List Char} (hdigits : ∀ c ∈ digits, c.isDigit = true)
  (hrest : ∀ c ∈ rest.head?, c.isDigit = false)

include hdigits hrest

theorem takeWhile_isDigit_append : (digits ++ rest).takeWhile Char.isDigit = digits := by
  rw [List.takeWhile_append_of_pos hdigits]
  cases rest with
  | nil => exact List.append_nil digits
  | cons c cs => rw [List.takeWhile_cons_of_neg (by simp [hrest c rfl]), List.append_nil]

theorem dropWhile_isDigit_append : (digits ++ rest).dropWhile Char.isDigit = rest := by
  rw [List.dropWhile_append_of_pos hdigits]
  cases rest with
  | nil => rfl
  | cons c cs => exact List.dropWhile_cons_of_neg (by simp [hrest c rfl])

end

theorem not_isDigit_head_point (cs : List Char) :
    ∀ c ∈ ('.' :: cs).head?, c.isDigit = false := by
  simp

theorem decimalForm_point {whole fraction : List Char} (rest : List Char)
    (hwhole : ∀ c ∈ whole, c.isDigit = true) (hfraction : ∀ c ∈ fraction, c.isDigit = true)
    (hrest : ∀ c ∈ rest.head?, c.isDigit = false) :
    decimalForm (whole ++ '.' :: (fraction ++ rest)) =
      ⟨natOfDigits (whole ++ fraction), (exponent? rest).getD 0 - fraction.length⟩ := by
  have hpoint := not_isDigit_head_point (fraction ++ rest)
  rw [decimalForm, takeWhile_isDigit_append hwhole hpoint, dropWhile_isDigit_append hwhole hpoint]
  simp only [takeWhile_isDigit_append hfraction hrest, dropWhile_isDigit_append hfraction hrest]

theorem decimalForm_exponent {whole : List Char} (rest : List Char)
    (hwhole : ∀ c ∈ whole, c.isDigit = true) :
    decimalForm (whole ++ 'e' :: rest) =
      ⟨natOfDigits whole, (exponent? ('e' :: rest)).getD 0⟩ := by
  have hmark : ∀ c ∈ ('e' :: rest).head?, c.isDigit = false := by simp
  rw [decimalForm, takeWhile_isDigit_append hwhole hmark, dropWhile_isDigit_append hwhole hmark]
  rfl

def isTextChar (c : Char) : Bool := c.isDigit || c == '-' || c == '+' || c == '.' || c == 'e'

/-- Text that spells a value as a decimal and not as an integer. -/
structure IsDecimalText (cs : List Char) (v : ℚ) : Prop where
  digit : ∃ c rest, cs = c :: rest ∧ c.isDigit = true
  chars : ∀ c ∈ cs, isTextChar c = true
  marked : '.' ∈ cs ∨ 'e' ∈ cs
  value : (decimalForm cs).value = v

theorem isTextChar_of_isDigit {c : Char} (h : c.isDigit = true) : isTextChar c = true := by
  simp [isTextChar, h]

theorem isDecimalText_point {whole fraction : List Char} {v : ℚ} (hne : whole ≠ [])
    (hwhole : ∀ c ∈ whole, c.isDigit = true) (hfraction : ∀ c ∈ fraction, c.isDigit = true)
    (hvalue : (natOfDigits (whole ++ fraction) : ℚ) * 10 ^ (-(fraction.length : Int)) = v) :
    IsDecimalText (whole ++ '.' :: fraction) v := by
  refine ⟨?_, ?_, .inl (by simp), ?_⟩
  · obtain ⟨c, cs, rfl⟩ := List.exists_cons_of_ne_nil hne
    exact ⟨c, cs ++ '.' :: fraction, rfl, hwhole c List.mem_cons_self⟩
  · intro c hc
    rcases List.mem_append.mp hc with hc | hc
    · exact isTextChar_of_isDigit (hwhole c hc)
    · rcases List.mem_cons.mp hc with rfl | hc
      · decide
      · exact isTextChar_of_isDigit (hfraction c hc)
  · have hform := decimalForm_point [] hwhole hfraction (by simp)
    rw [List.append_nil] at hform
    rw [hform, DecimalForm.value]
    simpa [exponent?] using hvalue

theorem isDecimalText_exponent {first : Char} {fraction rest : List Char} {e : Int} {v : ℚ}
    (hfirst : first.isDigit = true) (hfraction : ∀ c ∈ fraction, c.isDigit = true)
    (hrest : ∀ c ∈ rest, isTextChar c = true) (he : exponent? ('e' :: rest) = some e)
    (hvalue : (natOfDigits (first :: fraction) : ℚ) * 10 ^ (e - fraction.length) = v) :
    IsDecimalText
      (first :: ((if fraction = [] then [] else '.' :: fraction) ++ 'e' :: rest)) v := by
  refine ⟨⟨first, _, rfl, hfirst⟩, ?_, .inr (by simp), ?_⟩
  · intro c hc
    rcases List.mem_cons.mp hc with rfl | hc
    · exact isTextChar_of_isDigit hfirst
    rcases List.mem_append.mp hc with hc | hc
    · split at hc
      · exact absurd hc (by simp)
      · rcases List.mem_cons.mp hc with rfl | hc
        · decide
        · exact isTextChar_of_isDigit (hfraction c hc)
    · rcases List.mem_cons.mp hc with rfl | hc
      · decide
      · exact hrest c hc
  · have hwhole : ∀ c ∈ [first], c.isDigit = true := by simpa using hfirst
    split
    · next hnil =>
      subst hnil
      have hform := decimalForm_exponent rest hwhole
      rw [List.singleton_append] at hform
      rw [List.nil_append, hform, DecimalForm.value, he]
      simpa using hvalue
    · have hmark : ∀ c ∈ ('e' :: rest).head?, c.isDigit = false := by simp
      have hform := decimalForm_point ('e' :: rest) hwhole hfraction hmark
      rw [List.singleton_append, List.singleton_append] at hform
      rw [List.cons_append, hform, DecimalForm.value, he]
      exact hvalue

theorem IsDecimalText.ne_digits {cs : List Char} {v : ℚ} (h : IsDecimalText cs v) (n : Nat) :
    cs ≠ Nat.toDigits 10 n := by
  rintro rfl
  rcases h.marked with hm | hm
  · exact absurd (isDigit_of_mem_digits _ hm) (by decide)
  · exact absurd (isDigit_of_mem_digits _ hm) (by decide)

def signChars (negative : Bool) : List Char := if negative then ['-'] else []

/-- A minus is no digit, so the sign can be told from what follows it. -/
theorem signChars_append_inj {m n : Bool} {cs ds : List Char}
    (hcs : ∃ c rest, cs = c :: rest ∧ c.isDigit = true)
    (hds : ∃ d rest, ds = d :: rest ∧ d.isDigit = true)
    (h : signChars m ++ cs = signChars n ++ ds) : m = n ∧ cs = ds := by
  obtain ⟨c, cs, rfl, hc⟩ := hcs
  obtain ⟨d, ds, rfl, hd⟩ := hds
  have hminus : ('-' : Char).isDigit = false := by decide
  cases m <;> cases n
  · exact ⟨rfl, h⟩
  · have hhead := (List.cons.inj h).1
    rw [hhead, hminus] at hc
    exact absurd hc (by simp)
  · have hhead := (List.cons.inj h).1
    rw [← hhead, hminus] at hd
    exact absurd hd (by simp)
  · exact ⟨rfl, (List.cons.inj h).2⟩

end Numeral

/-! ### Layouts -/

namespace Layout

open Numeral

theorem isDigit_of_mem_zeros {n : Nat} : ∀ c ∈ List.replicate n '0', c.isDigit = true := by
  intro c hc
  rw [(List.mem_replicate.mp hc).2]
  decide

section Digits

variable {digits : List Char} (hdigits : ∀ c ∈ digits, c.isDigit = true)

include hdigits

/-- Zeros stand behind the digits, as many as the exponent says, and then an empty fraction. -/
theorem isDecimalText_zerosBehind (hne : digits ≠ []) (n : Nat) :
    IsDecimalText (digits ++ List.replicate n '0' ++ '.' :: ['0'])
      (natOfDigits digits * 10 ^ (n : Int)) := by
  have hzeros : digits ++ List.replicate n '0' ++ ['0'] = digits ++ List.replicate (n + 1) '0' := by
    rw [List.append_assoc, List.replicate_succ']
  refine isDecimalText_point (by simp [hne])
    (List.forall_mem_append.mpr ⟨hdigits, isDigit_of_mem_zeros⟩) (by simp) ?_
  rw [hzeros, natOfDigits_append_zeros]
  push_cast
  simp only [zpow_natCast, pow_succ, List.length_singleton, Nat.cast_one, zpow_neg, zpow_one]
  field_simp

theorem isDecimalText_pointInside (hne : digits ≠ []) {n : Nat} (hn : 0 < n) {e : Int}
    (he : (digits.length : Int) + e = n) (hneg : e < 0) :
    IsDecimalText (digits.take n ++ '.' :: digits.drop n) (natOfDigits digits * 10 ^ e) := by
  have hlength : -((digits.drop n).length : Int) = e := by
    rw [List.length_drop]
    omega
  refine isDecimalText_point ?_ (fun c hc => hdigits c (List.mem_of_mem_take hc))
    (fun c hc => hdigits c (List.mem_of_mem_drop hc)) ?_
  · intro hnil
    rcases List.take_eq_nil_iff.mp hnil with h | h
    · omega
    · exact hne h
  · rw [List.take_append_drop, hlength]

theorem isDecimalText_zerosInFront {n : Nat} {e : Int} (he : (digits.length : Int) + e = -n) :
    IsDecimalText (['0'] ++ '.' :: (List.replicate n '0' ++ digits))
      (natOfDigits digits * 10 ^ e) := by
  have hlength : -((List.replicate n '0' ++ digits).length : Int) = e := by
    rw [List.length_append, List.length_replicate]
    omega
  have hlead : ['0'] ++ (List.replicate n '0' ++ digits) =
      List.replicate (n + 1) '0' ++ digits := by
    rw [List.replicate_succ]
    rfl
  refine isDecimalText_point (by simp) (by simp)
    (List.forall_mem_append.mpr ⟨isDigit_of_mem_zeros, hdigits⟩) ?_
  rw [hlead, natOfDigits_zeros_append, hlength]

/-- **Digits laid out with a point keep their value.** -/
theorem isDecimalText_positional (hne : digits ≠ []) (e : Int) :
    IsDecimalText (json.positionalText digits e).toList (natOfDigits digits * 10 ^ e) := by
  rw [positionalText]
  simp only
  split
  · next he =>
    obtain ⟨n, rfl⟩ := Int.eq_ofNat_of_zero_le he
    have htext : (String.ofList (digits ++ List.replicate n '0') ++ ".0").toList =
        digits ++ List.replicate n '0' ++ '.' :: ['0'] := by
      simp
    exact htext ▸ isDecimalText_zerosBehind hdigits hne n
  · next he =>
    split
    · next hpoint =>
      obtain ⟨n, hn⟩ := Int.eq_ofNat_of_zero_le hpoint.le
      have htext : (String.ofList (digits.take n) ++ "." ++ String.ofList (digits.drop n)).toList =
          digits.take n ++ '.' :: digits.drop n := by
        simp
      rw [hn, Int.toNat_natCast, htext]
      exact isDecimalText_pointInside hdigits hne (by omega) hn (by omega)
    · next hpoint =>
      obtain ⟨n, hn⟩ := Int.eq_ofNat_of_zero_le (show 0 ≤ -((digits.length : Int) + e) by omega)
      have htext : ("0." ++ String.ofList (List.replicate n '0' ++ digits)).toList =
          ['0'] ++ '.' :: (List.replicate n '0' ++ digits) := by
        simp
      rw [hn, Int.toNat_natCast, htext]
      exact isDecimalText_zerosInFront hdigits (by omega)

/-- **Digits laid out with an exponent keep their value.** -/
theorem isDecimalText_scientific (hne : digits ≠ []) (place : Int) :
    IsDecimalText (scientificText digits place).toList
      (natOfDigits digits * 10 ^ (place - (digits.length - 1 : Nat))) := by
  obtain ⟨first, fraction, rfl⟩ := List.exists_cons_of_ne_nil hne
  have hfirst : first.isDigit = true := hdigits first List.mem_cons_self
  have hfraction : ∀ c ∈ fraction, c.isDigit = true :=
    fun c hc => hdigits c (List.mem_cons_of_mem _ hc)
  have htext : (scientificText (first :: fraction) place).toList =
      first :: ((if fraction = [] then [] else '.' :: fraction) ++
        'e' :: ((if place < 0 then '-' else '+') :: Nat.toDigits 10 place.natAbs)) := by
    have hsign : (if place < 0 then "-" else "+").toList = [if place < 0 then '-' else '+'] := by
      split <;> rfl
    have hpoint : (if fraction = [] then "" else "." ++ String.ofList fraction).toList =
        if fraction = [] then [] else '.' :: fraction := by
      split <;> simp
    simp [scientificText, hsign, hpoint, Nat.toString_eq_repr, Nat.toList_repr]
  have hexponent : exponent? ('e' :: ((if place < 0 then '-' else '+') ::
      Nat.toDigits 10 place.natAbs)) = some place := by
    split
    · rw [exponent?_of_neg]
      exact congrArg some (by omega)
    · rw [exponent?_of_nonneg]
      exact congrArg some (by omega)
  rw [htext]
  refine isDecimalText_exponent hfirst hfraction ?_ hexponent rfl
  intro c hc
  rcases List.mem_cons.mp hc with rfl | hc
  · split <;> decide
  · exact isTextChar_of_isDigit (isDigit_of_mem_digits c hc)

end Digits

theorem isDecimalText_laidOut (d : DecimalForm) :
    let digits := Nat.toDigits 10 d.digits
    let place := (digits.length : Int) + d.exponent - 1
    IsDecimalText (if json.isPositional place then json.positionalText digits d.exponent
      else scientificText digits place).toList d.value := by
  intro digits place
  have hne : digits ≠ [] := Nat.toDigits_ne_nil
  have hdigits : ∀ c ∈ digits, c.isDigit = true := isDigit_of_mem_digits
  have hvalue : d.value = natOfDigits digits * 10 ^ d.exponent := by
    rw [natOfDigits_toDigits, DecimalForm.value]
  split
  · rw [hvalue]
    exact isDecimalText_positional hdigits hne d.exponent
  · have hpos := List.length_pos_of_ne_nil hne
    have hplace : d.exponent = place - (digits.length - 1 : Nat) := by omega
    rw [hvalue, hplace]
    exact isDecimalText_scientific hdigits hne place

/-- **The text of a floating-point number spells a value in its interval**, behind the sign. -/
theorem exists_isDecimalText (x : Binary64) :
    ∃ cs v, (json.render x).toList = signChars x.negative ++ cs ∧
      IsDecimalText cs v ∧ x.Surrounds v := by
  have hsign : (if x.negative then "-" else "").toList = signChars x.negative := by
    cases x.negative <;> rfl
  by_cases hz : x.isZero = true
  · have hzero : x.significand = 0 := by rwa [Binary64.isZero, beq_iff_eq] at hz
    refine ⟨['0', '.', '0'], 0, ?_, ?_, ?_⟩
    · rw [render, if_pos hz, String.append_assoc, String.toList_append, hsign]
      rfl
    · have hvalue : (natOfDigits (['0'] ++ ['0']) : ℚ) * 10 ^ (-(['0'].length : Int)) = 0 := by
        simp [natOfDigits, digitValue]
      exact isDecimalText_point (by simp) (by simp) (by simp) hvalue
    · have h := x.surrounds_exactDecimal
      rwa [Binary64.value_exactDecimal, hzero, Nat.cast_zero, zero_mul] at h
  · refine ⟨_, _, ?_, isDecimalText_laidOut (x.shortest json.tie), x.surrounds_shortest json.tie⟩
    rw [render, if_neg hz, String.toList_append, hsign]

end Layout

/-! ### Numbers -/

namespace Number

open Numeral

def isNegative : Number → Bool
  | .int i _ => i < 0
  | .float x => x.negative

inductive IsMagnitude : Number → List Char → Prop where
  | int {i : Int} (fits : FitsInteger i) : IsMagnitude (.int i fits) (Nat.toDigits 10 i.natAbs)
  | float {x : Binary64} {cs : List Char} {v : ℚ} (htext : IsDecimalText cs v)
      (hv : x.Surrounds v) : IsMagnitude (.float x) cs

theorem exists_isMagnitude (n : Number) :
    ∃ cs, n.text.toList = signChars n.isNegative ++ cs ∧ IsMagnitude n cs := by
  cases n with
  | int i fits =>
    refine ⟨_, ?_, .int fits⟩
    cases i with
    | ofNat k =>
      have hneg : isNegative (.int (Int.ofNat k) fits) = false :=
        decide_eq_false (Int.not_lt.mpr (Int.natCast_nonneg k))
      rw [hneg]
      exact Nat.toList_repr
    | negSucc k =>
      have hneg : isNegative (.int (Int.negSucc k) fits) = true :=
        decide_eq_true (Int.negSucc_lt_zero k)
      have htext : text (.int (Int.negSucc k) fits) = "-" ++ (k + 1).repr := rfl
      rw [hneg, htext, String.toList_append, Nat.toList_repr]
      rfl
  | float x =>
    obtain ⟨cs, v, htext, hcs, hv⟩ := Layout.exists_isDecimalText x
    exact ⟨cs, htext, .float hcs hv⟩

theorem IsMagnitude.digit {n : Number} {cs : List Char} (h : IsMagnitude n cs) :
    ∃ c rest, cs = c :: rest ∧ c.isDigit = true := by
  cases h with
  | int fits =>
    rename_i i
    obtain ⟨c, rest, hcs⟩ := List.exists_cons_of_ne_nil (Nat.toDigits_ne_nil (n := i.natAbs) (b := 10))
    exact ⟨c, rest, hcs, isDigit_of_mem_digits c (by rw [hcs]; exact List.mem_cons_self)⟩
  | float htext _ => exact htext.digit

theorem IsMagnitude.chars {n : Number} {cs : List Char} (h : IsMagnitude n cs) :
    ∀ c ∈ cs, isTextChar c = true := by
  cases h with
  | int fits => exact fun c hc => isTextChar_of_isDigit (isDigit_of_mem_digits c hc)
  | float htext _ => exact htext.chars

theorem IsMagnitude.eq {m n : Number} {cs : List Char} (hm : IsMagnitude m cs)
    (hn : IsMagnitude n cs) (hsign : m.isNegative = n.isNegative) : m = n := by
  generalize hds : cs = ds at hn
  cases hm with
  | int fits =>
    rename_i i
    cases hn with
    | int fits' =>
      rename_i j
      have habs : i.natAbs = j.natAbs := by
        rw [← natOfDigits_toDigits i.natAbs, hds, natOfDigits_toDigits]
      have hlt : (i < 0) ↔ (j < 0) := decide_eq_decide.mp hsign
      obtain rfl : i = j := by omega
      rfl
    | float htext _ => exact absurd hds.symm (htext.ne_digits _)
  | float htext hv =>
    cases hn with
    | int fits => exact absurd hds (htext.ne_digits _)
    | float htext' hv' =>
      subst hds
      obtain rfl : _ = _ := htext.value.symm.trans htext'.value
      obtain ⟨hs, he⟩ := Binary64.eq_of_surrounds hv hv'
      exact congrArg Number.float (Binary64.ext_parts hsign hs he)

theorem exists_text_eq_cons (n : Number) :
    ∃ c rest, n.text.toList = c :: rest ∧ (c.isDigit = true ∨ c = '-') := by
  obtain ⟨cs, htext, hcs⟩ := n.exists_isMagnitude
  obtain ⟨c, rest, rfl, hc⟩ := hcs.digit
  rw [htext]
  cases n.isNegative
  · exact ⟨c, rest, rfl, .inl hc⟩
  · exact ⟨'-', c :: rest, rfl, .inr rfl⟩

theorem isTextChar_of_mem_text {n : Number} : ∀ c ∈ n.text.toList, isTextChar c = true := by
  obtain ⟨cs, htext, hcs⟩ := n.exists_isMagnitude
  rw [htext]
  intro c hc
  rcases List.mem_append.mp hc with hc | hc
  · rw [signChars] at hc
    split at hc
    · rw [List.mem_singleton.mp hc]
      decide
    · exact absurd hc (by simp)
  · exact hcs.chars c hc

/-- **Numbers with one text are one number.** -/
theorem text_inj {m n : Number} : m.text = n.text ↔ m = n := by
  refine ⟨fun h => ?_, fun h => by rw [h]⟩
  obtain ⟨cs, hm, hcs⟩ := m.exists_isMagnitude
  obtain ⟨ds, hn, hds⟩ := n.exists_isMagnitude
  have htext := h ▸ hm
  rw [hn] at htext
  obtain ⟨hsign, rfl⟩ := signChars_append_inj hds.digit hcs.digit htext
  exact hcs.eq hds hsign.symm

end Number

end Docstore
