import Mathlib.Data.List.TakeWhile
import Docstore.Json.Parser
import Docstore.Proofs.Decimal.Spelling
import Docstore.Proofs.Text.Boundary

/-!
# Numbers are read back

The reader of numbers stops at what cannot be in a number, so what stands behind one
makes no difference (`readNumber_append`).  Hence a number that is read back from its
text alone is read back wherever a text goes on with one of `tokenEnds`
(`readNumber_text`).

Integers are read back from their texts (`readsBack_int`).  Of a floating-point number
this cannot be said in general, since the reader rounds in two steps.
-/

namespace Docstore

open Text (StopsAt)

namespace Draft

/-- What may stand behind a value inside a text. -/
def tokenEnds : List Char := [' ', '\n', '\t', '\r', ',', ']', '\x7d']

/-! ### What stands behind a number -/

section Behind

variable {r : List Char} (hr : StopsAt tokenEnds r)

include hr

theorem ne_cons_of_stopsAt {c : Char} (hc : c ∉ tokenEnds) (cs : List Char) : r ≠ c :: cs := by
  rintro rfl
  exact hc hr

theorem readDigits_append (cs : List Char) :
    readDigits (cs ++ r) = ((readDigits cs).1, (readDigits cs).2 ++ r) := by
  induction cs with
  | nil =>
    cases r with
    | nil => rfl
    | cons c r =>
      have hends : tokenEnds.all (!Char.isDigit ·) = true := by decide
      have hc : c.isDigit = false := by simpa using List.all_eq_true.mp hends c hr
      simp [readDigits, hc]
  | cons c cs ih =>
    obtain ⟨htake, hdrop⟩ := Prod.mk.inj ih
    by_cases hc : c.isDigit = true
    · simp only [readDigits, List.cons_append, List.takeWhile_cons, List.dropWhile_cons, hc,
        if_true, List.map_cons, htake, hdrop]
    · simp [readDigits, hc]

theorem readFraction_append (cs : List Char) :
    readFraction (cs ++ r) = (readFraction cs).map fun p => (p.1, p.2 ++ r) := by
  have hother : ∀ {ds : List Char}, (∀ es, ds ≠ '.' :: es) → readFraction ds = some (none, ds) :=
    fun h => readFraction.eq_2 _ h
  cases cs with
  | nil => exact hother (ne_cons_of_stopsAt hr (by decide))
  | cons c cs =>
    by_cases hc : c = '.'
    · subst hc
      rw [List.cons_append, readFraction, readFraction, readDigits_append hr cs]
      simp only
      split <;> rfl
    · have hne : ∀ ds es, c :: ds ≠ '.' :: es := fun _ _ h => hc (List.cons.inj h).1
      rw [List.cons_append, hother (hne _), hother (hne _)]
      rfl

theorem readSign_append (cs : List Char) :
    readSign (cs ++ r) = ((readSign cs).1, (readSign cs).2 ++ r) := by
  have hother : ∀ {ds : List Char}, (∀ es, ds ≠ '-' :: es) → (∀ es, ds ≠ '+' :: es) →
      readSign ds = (false, ds) := fun hminus hplus => readSign.eq_3 _ hminus hplus
  cases cs with
  | nil => exact hother (ne_cons_of_stopsAt hr (by decide)) (ne_cons_of_stopsAt hr (by decide))
  | cons c cs =>
    by_cases hminus : c = '-'
    · subst hminus
      rfl
    by_cases hplus : c = '+'
    · subst hplus
      rfl
    · have hne (ds : List Char) : readSign (c :: ds) = (false, c :: ds) :=
        hother (fun _ h => hminus (List.cons.inj h).1) fun _ h => hplus (List.cons.inj h).1
      rw [List.cons_append, hne, hne]
      rfl

theorem readExponent_append (cs : List Char) :
    readExponent (cs ++ r) = (readExponent cs).map fun p => (p.1, p.2 ++ r) := by
  cases cs with
  | nil =>
    cases r with
    | nil => rfl
    | cons c r =>
      have hmark : ¬(c = 'e' ∨ c = 'E') := by
        rintro (rfl | rfl)
        · exact ne_cons_of_stopsAt hr (by decide) r rfl
        · exact ne_cons_of_stopsAt hr (by decide) r rfl
      rw [List.nil_append, readExponent.eq_2, if_neg hmark]
      rfl
  | cons c cs =>
    rw [List.cons_append, readExponent, readExponent]
    split
    · rw [readSign_append hr cs]
      simp only [readDigits_append hr]
      split <;> rfl
    · rfl

theorem readMagnitude_append (negative : Bool) (cs : List Char) :
    readMagnitude negative (cs ++ r) =
      (readMagnitude negative cs).map fun p => (p.1, p.2 ++ r) := by
  rw [readMagnitude, readMagnitude, readDigits_append hr cs]
  simp only
  split
  · rfl
  · rw [readFraction_append hr]
    cases readFraction (readDigits cs).2 with
    | none => rfl
    | some p =>
      simp only [Option.map_some, Option.bind_eq_bind, Option.bind_some]
      rw [readExponent_append hr]
      cases readExponent p.2 <;> rfl

/-- **What stands behind a number is left as it is.** -/
theorem readNumber_append (cs : List Char) :
    readNumber (cs ++ r) = (readNumber cs).map fun p => (p.1, p.2 ++ r) := by
  have hother : ∀ {ds : List Char}, (∀ es, ds ≠ '-' :: es) →
      readNumber ds = readMagnitude false ds := fun h => readNumber.eq_2 _ h
  cases cs with
  | nil =>
    rw [List.nil_append, hother (ne_cons_of_stopsAt hr (by decide))]
    exact readMagnitude_append hr false []
  | cons c cs =>
    by_cases hc : c = '-'
    · subst hc
      exact readMagnitude_append hr true cs
    · have hne : ∀ ds es, c :: ds ≠ '-' :: es := fun _ _ h => hc (List.cons.inj h).1
      rw [List.cons_append, hother (hne _), hother (hne _)]
      exact readMagnitude_append hr false (c :: cs)

end Behind

/-! ### What is left of a text -/

theorem suffix_of_readFraction {cs rest : List Char} {o : Option (List Nat)}
    (h : readFraction cs = some (o, rest)) : rest <:+ cs := by
  rw [readFraction.eq_def] at h
  split at h
  · simp only at h
    split at h
    · exact absurd h (by simp)
    · obtain ⟨-, rfl⟩ := Prod.mk.inj (Option.some.inj h)
      exact (List.dropWhile_suffix _).trans (List.suffix_cons _ _)
  · obtain ⟨-, rfl⟩ := Prod.mk.inj (Option.some.inj h)
    exact List.suffix_rfl

theorem readSign_suffix (cs : List Char) : (readSign cs).2 <:+ cs := by
  rw [readSign.eq_def]
  split
  · exact List.suffix_cons _ _
  · exact List.suffix_cons _ _
  · exact List.suffix_rfl

theorem suffix_of_readExponent {cs rest : List Char} {o : Option Int}
    (h : readExponent cs = some (o, rest)) : rest <:+ cs := by
  cases cs with
  | nil =>
    obtain ⟨-, rfl⟩ := Prod.mk.inj (Option.some.inj h)
    exact List.suffix_rfl
  | cons c cs =>
    rw [readExponent] at h
    split at h
    · simp only at h
      split at h
      · exact absurd h (by simp)
      · obtain ⟨-, rfl⟩ := Prod.mk.inj (Option.some.inj h)
        exact ((List.dropWhile_suffix _).trans (readSign_suffix cs)).trans (List.suffix_cons _ _)
    · obtain ⟨-, rfl⟩ := Prod.mk.inj (Option.some.inj h)
      exact List.suffix_rfl

theorem suffix_of_readMagnitude {negative : Bool} {cs rest : List Char} {o : Option Number}
    (h : readMagnitude negative cs = some (o, rest)) : rest <:+ cs := by
  rw [readMagnitude] at h
  simp only at h
  split at h
  · exact absurd h (by simp)
  · obtain ⟨p, hp, h⟩ := Option.bind_eq_some_iff.mp h
    obtain ⟨q, hq, h⟩ := Option.bind_eq_some_iff.mp h
    obtain ⟨-, rfl⟩ := Prod.mk.inj (Option.some.inj h)
    exact ((suffix_of_readExponent hq).trans (suffix_of_readFraction hp)).trans
      (List.dropWhile_suffix _)

theorem suffix_of_readNumber {cs rest : List Char} {o : Option Number}
    (h : readNumber cs = some (o, rest)) : rest <:+ cs := by
  rw [readNumber.eq_def] at h
  split at h
  · exact (suffix_of_readMagnitude h).trans (List.suffix_cons _ _)
  · exact suffix_of_readMagnitude h

/-! ### Values that are numbers -/

theorem isSpace_iff {c : Char} : isSpace c = true ↔ c ∈ [' ', '\n', '\t', '\r'] := by
  simp [isSpace, or_assoc]

/-- What is true of the four blanks is true of a blank. -/
theorem of_isSpace (p : Char → Bool) (h : [' ', '\n', '\t', '\r'].all p = true) {c : Char}
    (hc : isSpace c = true) : p c = true :=
  List.all_eq_true.mp h c (isSpace_iff.mp hc)

theorem skipSpaces_of_not_isSpace {c : Char} (hc : isSpace c = false) (cs : List Char) :
    skipSpaces (c :: cs) = c :: cs := by
  rw [skipSpaces, List.dropWhile_cons_of_neg (by simp [hc])]

theorem readValue_number {c : Char} (hc : c.isDigit = true ∨ c = '-') (steps : Nat)
    (cs : List Char) :
    readValue (steps + 1) (c :: cs) =
      (readNumber (c :: cs)).map fun p => (.number p.1, p.2) := by
  have hne : ∀ {d : Char}, d.isDigit = false → d ≠ '-' → c ≠ d := by
    rintro d hd hminus rfl
    rcases hc with hc | hc
    · exact absurd hc (by simp [hd])
    · exact hminus hc
  have hspace : isSpace c = false := by
    refine Bool.eq_false_iff.mpr fun hspace => ?_
    have hother := of_isSpace (fun d => !d.isDigit && d != '-') (by decide) hspace
    rcases hc with hc | rfl
    · simp [hc] at hother
    · exact absurd hother (by decide)
  rw [readValue, skipSpaces_of_not_isSpace hspace]
  split
  · next h => exact absurd (List.cons.inj h).1 (hne (by decide) (by decide))
  · next h => exact absurd (List.cons.inj h).1 (hne (by decide) (by decide))
  · next h => exact absurd (List.cons.inj h).1 (hne (by decide) (by decide))
  · next h => exact absurd (List.cons.inj h).1 (hne (by decide) (by decide))
  · next h => exact absurd (List.cons.inj h).1 (hne (by decide) (by decide))
  · next h => exact absurd (List.cons.inj h).1 (hne (by decide) (by decide))
  · rfl

theorem isSpace_eq_false_of_isTextChar {c : Char} (hc : Numeral.isTextChar c = true) :
    isSpace c = false := by
  refine Bool.eq_false_iff.mpr fun hspace => ?_
  have hother : (!Numeral.isTextChar c) = true :=
    of_isSpace (fun c => !Numeral.isTextChar c) (by decide) hspace
  rw [hc] at hother
  exact Bool.false_ne_true hother

end Draft

namespace Number

open Draft Numeral

def ReadsBack (n : Number) : Prop := Json.parse? n.text = some (.number n)

instance : DecidablePred ReadsBack := fun n =>
  inferInstanceAs (Decidable (Json.parse? n.text = some (.number n)))

/-- A number is read back as a value exactly when the reader of numbers takes its whole text for
it. -/
theorem readsBack_iff {n : Number} :
    n.ReadsBack ↔ readNumber n.text.toList = some (some n, []) := by
  obtain ⟨c, cs, htext, hc⟩ := n.exists_text_eq_cons
  rw [ReadsBack, Json.parse?, Draft.parse?, parseChars?, htext, readValue_number hc, ← htext]
  cases hread : readNumber n.text.toList with
  | none => simp
  | some p =>
    obtain ⟨o, rest⟩ := p
    have hrest : skipSpaces rest = rest := by
      cases rest with
      | nil => rfl
      | cons d ds =>
        have hd : d ∈ n.text.toList := (suffix_of_readNumber hread).subset List.mem_cons_self
        have hspace := isSpace_eq_false_of_isTextChar (isTextChar_of_mem_text d hd)
        exact skipSpaces_of_not_isSpace hspace ds
    by_cases hnil : rest = []
    · subst hnil
      simp [skipSpaces, value?]
    · simp [hrest, hnil]

/-- **A number that is read back is read back wherever it stands.** -/
theorem readNumber_text {n : Number} (h : n.ReadsBack) {r : List Char}
    (hr : StopsAt tokenEnds r) : readNumber (n.text.toList ++ r) = some (some n, r) := by
  rw [readNumber_append hr, readsBack_iff.mp h]
  rfl

/-! ### Integers -/

/-- What a list of digits adds to the digits in front of it. -/
def appendDigits (n : Nat) (digits : List Nat) : Nat := digits.foldl (fun n d => n * 10 + d) n

theorem le_appendDigits (n : Nat) (digits : List Nat) : n ≤ appendDigits n digits := by
  induction digits generalizing n with
  | nil => exact le_refl n
  | cons d ds ih => exact le_trans (by omega) (ih (n * 10 + d))

/-- As long as the digits fit, none of them is left to the exponent. -/
theorem pushWhole_eq {n : Nat} {e : Int} {digits : List Nat}
    (h : appendDigits n digits < 18446744073709551616) :
    Scaled.pushWhole ⟨n, e⟩ digits = ⟨appendDigits n digits, e⟩ := by
  induction digits generalizing n with
  | nil => rfl
  | cons d ds ih =>
    have htakes : Scaled.takes ⟨n, e⟩ d = true :=
      decide_eq_true (lt_of_le_of_lt (le_appendDigits (n * 10 + d) ds) h)
    rw [Scaled.pushWhole, if_pos htakes]
    exact ih h

def digitValues (n : Nat) : List Nat := (Nat.toDigits 10 n).map digitValue

theorem appendDigits_digitValues (n : Nat) : appendDigits 0 (digitValues n) = n := by
  have hfold (m : Nat) (cs : List Char) :
      appendDigits m (cs.map digitValue) = cs.foldl (fun n c => 10 * n + digitValue c) m := by
    simp only [appendDigits, List.foldl_map, Nat.mul_comm]
  rw [digitValues, hfold]
  exact natOfDigits_toDigits n

theorem head?_digitValues_ne {n : Nat} (hn : n ≠ 0) : (digitValues n).head? ≠ some 0 := by
  induction n using Nat.strong_induction_on with
  | h n ih =>
    rw [digitValues, Nat.toDigits_eq_if (by decide)]
    split
    · next hlt =>
      have hdigit : ∀ m < 10, m ≠ 0 → digitValue (Nat.digitChar m) ≠ 0 := by decide
      simpa using hdigit n hlt hn
    · next hle =>
      have hne : digitValues (n / 10) ≠ [] := mt List.map_eq_nil_iff.mp Nat.toDigits_ne_nil
      rw [List.map_append]
      show (digitValues (n / 10) ++ _).head? ≠ some 0
      rw [List.head?_append_of_ne_nil _ hne]
      exact ih (n / 10) (by omega) (by omega)

theorem readMagnitude_toDigits (negative : Bool) (n : Nat) :
    readMagnitude negative (Nat.toDigits 10 n) =
      some (ofLiteral? negative (digitValues n) none none, []) := by
  have hdigits : ∀ c ∈ Nat.toDigits 10 n, c.isDigit = true := isDigit_of_mem_digits
  have hread : readDigits (Nat.toDigits 10 n) = (digitValues n, []) := by
    rw [readDigits, List.takeWhile_eq_self_iff.mpr hdigits, List.dropWhile_eq_nil_iff.mpr hdigits]
    rfl
  have hlead : ¬(digitValues n = [] ∨
      (digitValues n).head? = some 0 ∧ 1 < (digitValues n).length) := by
    rintro (hnil | ⟨hzero, hlong⟩)
    · exact Nat.toDigits_ne_nil (List.map_eq_nil_iff.mp hnil)
    · by_cases hn : n = 0
      · subst hn
        exact absurd hlong (by decide)
      · exact head?_digitValues_ne hn hzero
  rw [readMagnitude, hread]
  simp only
  rw [if_neg hlead]
  rfl

theorem ofLiteral?_digitValues {i : Int} (fits : FitsInteger i) :
    ofLiteral? (decide (i < 0)) (digitValues i.natAbs) none none = some (.int i fits) := by
  have hvalue := appendDigits_digitValues i.natAbs
  have hpush : Scaled.pushWhole ⟨0, 0⟩ (digitValues i.natAbs) = ⟨i.natAbs, 0⟩ := by
    rw [pushWhole_eq (by omega), hvalue]
  have hsigned : (if decide (i < 0) = true then -(i.natAbs : Int) else i.natAbs) = i := by
    split
    · next h => have := of_decide_eq_true h; omega
    · next h => have := of_decide_eq_false (Bool.eq_false_iff.mpr h); omega
  have hplain : ¬(decide (i < 0) = true ∧ i.natAbs = 0) := by
    rintro ⟨hneg, hzero⟩
    have := of_decide_eq_true hneg
    omega
  rw [ofLiteral?, hpush]
  simp only [hsigned]
  rw [if_pos ⟨trivial, hplain, fits⟩, ofInt?_eq_some fits]

/-- **Integers are read back from their texts.** -/
theorem readsBack_int {i : Int} (fits : FitsInteger i) : ReadsBack (.int i fits) := by
  have hliteral := ofLiteral?_digitValues fits
  rw [readsBack_iff]
  cases i with
  | ofNat n =>
    obtain ⟨c, cs, hcs⟩ := List.exists_cons_of_ne_nil (Nat.toDigits_ne_nil (b := 10) (n := n))
    have htext : (text (.int (Int.ofNat n) fits)).toList = Nat.toDigits 10 n := Nat.toList_repr
    have hminus : ∀ ds, Nat.toDigits 10 n ≠ '-' :: ds := by
      intro ds h
      exact absurd (isDigit_of_mem_digits '-' (h ▸ List.mem_cons_self)) (by decide)
    rw [htext, readNumber.eq_2 _ hminus, readMagnitude_toDigits]
    exact congrArg (fun o => some (o, [])) hliteral
  | negSucc n =>
    have htext : (text (.int (Int.negSucc n) fits)).toList = '-' :: Nat.toDigits 10 (n + 1) := by
      show ("-" ++ (n + 1).repr).toList = _
      rw [String.toList_append, Nat.toList_repr]
      rfl
    rw [decide_eq_true (Int.negSucc_lt_zero n)] at hliteral
    rw [htext, readNumber, readMagnitude_toDigits]
    exact congrArg (fun o => some (o, [])) hliteral

end Number

end Docstore
