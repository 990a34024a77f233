import Docstore.Term.Field

/-!
# Raw text

Two kinds of text reach a query as they are: the text of a key that names an
expression, and a string with the raw mark in the place of an operand.  This file
says of both, in words of the text alone, when this happens.

* `Operand.IsWrittenAs`: a marked string stands for the text behind its mark, and
  every other value is data.
* `Field.IsNamedBy`: a marked key stands for the text behind its mark, a key that
  wraps the record in a call stands for itself, and every other key is the name of
  an attribute.

Both relations are the functions that readers use (`Operand.isWrittenAs_iff`,
`Field.isNamedBy_iff`).
-/

namespace Docstore

open Text

/-! ### The mark -/

/-- The text carries the mark of raw text, which is also that of operators. -/
def HasMark (s : String) : Prop := ∃ text, s = "$" ++ text

theorem rawText?_eq_some_iff {s text : String} : rawText? s = some text ↔ s = "$" ++ text := by
  have hcons : s = "$" ++ text ↔ s.toList = '$' :: text.toList := by
    rw [← String.toList_inj, String.toList_append]
    rfl
  rw [hcons, rawText?]
  cases s.toList with
  | nil => simp
  | cons c cs =>
    by_cases hc : c = rawMark
    · simp [hc, rawMark, ← String.toList_inj, eq_comm]
    · have hc' : c ≠ '$' := hc
      simp [hc, hc']

theorem isMarked_iff {s : String} : isMarked s = true ↔ HasMark s := by
  rw [isMarked, Option.isSome_iff_exists]
  exact exists_congr fun text => rawText?_eq_some_iff

instance : DecidablePred HasMark := fun _ => decidable_of_iff _ isMarked_iff

theorem rawText?_eq_none {s : String} (h : ¬HasMark s) : rawText? s = none := by
  rw [← isMarked_iff, isMarked, Option.not_isSome_iff_eq_none] at h
  exact h

/-! ### Operands -/

namespace Operand

/-- The operand is what the value stands for. -/
inductive IsWrittenAs : Operand → Json → Prop where
  | raw (text : String) : IsWrittenAs (.raw text) (.string ("$" ++ text))
  | literal {v : Json} (h : ∀ text, v ≠ .string ("$" ++ text)) : IsWrittenAs (.literal v) v

theorem ofJson_marked (text : String) : ofJson (.string ("$" ++ text)) = .raw text := by
  simp only [ofJson, rawText?_eq_some_iff.mpr rfl]

theorem ofJson_of_not_marked {v : Json} (h : ∀ text, v ≠ .string ("$" ++ text)) :
    ofJson v = .literal v := by
  cases v with
  | string s =>
    have hs : ¬HasMark s := fun ⟨text, htext⟩ => h text (congrArg Json.string htext)
    simp only [ofJson, rawText?_eq_none hs]
  | _ => rfl

theorem isWrittenAs_iff {operand : Operand} {v : Json} :
    operand.IsWrittenAs v ↔ operand = .ofJson v := by
  constructor
  · intro h
    cases h with
    | raw text => exact (ofJson_marked text).symm
    | literal h => exact (ofJson_of_not_marked h).symm
  · rintro rfl
    by_cases h : ∃ text, v = .string ("$" ++ text)
    · obtain ⟨text, rfl⟩ := h
      rw [ofJson_marked]
      exact .raw text
    · have hall : ∀ text, v ≠ .string ("$" ++ text) := fun text hv => h ⟨text, hv⟩
      rw [ofJson_of_not_marked hall]
      exact .literal hall

end Operand

/-! ### Keys -/

def IsWordChar (c : Char) : Prop :=
  ('A' ≤ c ∧ c ≤ 'Z') ∨ ('a' ≤ c ∧ c ≤ 'z') ∨ ('0' ≤ c ∧ c ≤ '9') ∨ c = '_'

/-- Some opening parenthesis of the key is followed, after blanks, by the variable,
and a character that belongs to no word follows the variable. -/
def WrapsVariable (loopVar key : String) : Prop :=
  ∃ before blanks c after,
    key.toList = before ++ '(' :: (blanks ++ (loopVar.toList ++ c :: after)) ∧
      (∀ b ∈ blanks, isBlank b = true) ∧ ¬IsWordChar c

theorem isNameChar_iff {c : Char} : isNameChar c = true ↔ IsWordChar c := by
  have hupper : c.isUpper = true ↔ 'A' ≤ c ∧ c ≤ 'Z' := decide_eq_true_iff
  have hlower : c.isLower = true ↔ 'a' ≤ c ∧ c ≤ 'z' := by
    show (_ && _) = true ↔ _
    rw [Bool.and_eq_true, decide_eq_true_iff, decide_eq_true_iff]
    rfl
  have hdigit : c.isDigit = true ↔ '0' ≤ c ∧ c ≤ '9' := by
    show (_ && _) = true ↔ _
    rw [Bool.and_eq_true, decide_eq_true_iff, decide_eq_true_iff]
    rfl
  show (((c.isUpper || c.isLower) || c.isDigit) || c == '_') = true ↔ _
  rw [Bool.or_eq_true, Bool.or_eq_true, Bool.or_eq_true, hupper, hlower, hdigit, beq_iff_eq,
    IsWordChar, or_assoc, or_assoc]

namespace Field

/-- The blanks in front of a variable are all there are: a variable starts with none. -/
theorem startsWithVariable_iff {first : Char} (hfirst : isBlank first = false)
    {more cs : List Char} :
    startsWithVariable (first :: more) cs = true ↔
      ∃ blanks c after, cs = blanks ++ (first :: more ++ c :: after) ∧
        (∀ b ∈ blanks, isBlank b = true) ∧ ¬IsWordChar c := by
  constructor
  · intro h
    rw [startsWithVariable] at h
    split at h
    · next c after hfront =>
      refine ⟨cs.takeWhile isBlank, c, after, ?_, List.all_eq_true.mp List.all_takeWhile, ?_⟩
      · rw [← afterFront?_eq_some_iff.mp hfront, trimFront, List.takeWhile_append_dropWhile]
      · rw [← isNameChar_iff]
        simpa using h
    · exact absurd h (by simp)
  · rintro ⟨blanks, c, after, rfl, hblanks, hc⟩
    have htrim : trimFront (blanks ++ (first :: more ++ c :: after)) =
        first :: more ++ c :: after := by
      rw [trimFront, List.dropWhile_append_of_pos hblanks, List.cons_append,
        List.dropWhile_cons_of_neg (by rw [hfirst]; exact Bool.false_ne_true)]
    have hfront : afterFront? (first :: more) (first :: more ++ c :: after) = some (c :: after) :=
      afterFront?_eq_some_iff.mpr rfl
    rw [← isNameChar_iff] at hc
    simp only [startsWithVariable, htrim, hfront]
    simpa using hc

theorem wraps_iff {loopVar cs : List Char} :
    wraps loopVar cs = true ↔
      ∃ before rest, cs = before ++ '(' :: rest ∧ startsWithVariable loopVar rest = true := by
  induction cs with
  | nil => simp [wraps]
  | cons c cs ih =>
    rw [wraps, Bool.or_eq_true, ih, Bool.and_eq_true, beq_iff_eq]
    constructor
    · rintro (⟨rfl, h⟩ | ⟨before, rest, rfl, h⟩)
      · exact ⟨[], cs, rfl, h⟩
      · exact ⟨c :: before, rest, rfl, h⟩
    · rintro ⟨before, rest, heq, h⟩
      cases before with
      | nil =>
        obtain ⟨rfl, rfl⟩ := List.cons.inj heq
        exact Or.inl ⟨rfl, h⟩
      | cons d before =>
        obtain ⟨rfl, rfl⟩ := List.cons.inj heq
        exact Or.inr ⟨before, rest, rfl, h⟩

theorem wraps_record_iff {key : String} :
    wraps recordVariable.toList key.toList = true ↔ WrapsVariable "record" key := by
  have hblank : isBlank 'r' = false := by decide
  rw [wraps_iff]
  constructor
  · rintro ⟨before, rest, hkey, h⟩
    obtain ⟨blanks, c, after, rfl, hblanks, hc⟩ := (startsWithVariable_iff hblank).mp h
    exact ⟨before, blanks, c, after, hkey, hblanks, hc⟩
  · rintro ⟨before, blanks, c, after, hkey, hblanks, hc⟩
    exact ⟨before, _, hkey, (startsWithVariable_iff hblank).mpr
      ⟨blanks, c, after, rfl, hblanks, hc⟩⟩

instance (key : String) : Decidable (WrapsVariable "record" key) :=
  decidable_of_iff _ wraps_record_iff

/-- The field is what the key stands for. -/
inductive IsNamedBy : Field → String → Prop where
  | marked (text : String) : IsNamedBy (.expression text) ("$" ++ text)
  | call {key : String} (hmark : ¬HasMark key) (h : WrapsVariable "record" key) :
      IsNamedBy (.expression key) key
  | name {key : String} (hmark : ¬HasMark key) (h : ¬WrapsVariable "record" key) :
      IsNamedBy (.attribute key) key

theorem ofKey_marked (text : String) : ofKey ("$" ++ text) = .expression text := by
  simp only [ofKey, rawText?_eq_some_iff.mpr rfl]

theorem ofKey_call {key : String} (hmark : ¬HasMark key) (h : WrapsVariable "record" key) :
    ofKey key = .expression key := by
  simp only [ofKey, rawText?_eq_none hmark, wraps_record_iff.mpr h, if_true]

theorem ofKey_name {key : String} (hmark : ¬HasMark key) (h : ¬WrapsVariable "record" key) :
    ofKey key = .attribute key := by
  simp only [ofKey, rawText?_eq_none hmark]
  exact if_neg fun hw => h (wraps_record_iff.mp hw)

theorem isNamedBy_iff {field : Field} {key : String} :
    field.IsNamedBy key ↔ field = .ofKey key := by
  constructor
  · intro h
    cases h with
    | marked text => exact (ofKey_marked text).symm
    | call hmark h => exact (ofKey_call hmark h).symm
    | name hmark h => exact (ofKey_name hmark h).symm
  · rintro rfl
    by_cases hmark : HasMark key
    · obtain ⟨text, rfl⟩ := hmark
      rw [ofKey_marked]
      exact .marked text
    · by_cases h : WrapsVariable "record" key
      · rw [ofKey_call hmark h]
        exact .call hmark h
      · rw [ofKey_name hmark h]
        exact .name hmark h

end Field

end Docstore
