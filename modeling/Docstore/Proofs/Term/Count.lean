import Docstore.Proofs.Decimal.Spelling
import Docstore.Term.Literal

/-!
# Natural numbers of 64 bits

Limits, positions in a log and the like are natural numbers below `2 ^ 64`.  They are
given as JSON numbers or in strings.  `SpellsNatural` says which strings spell a natural
number, and which one: digits, with an optional plus in front, and with as many needless
zeros as one likes.  The readers take the numbers and strings that are one that fits
(`unsigned64?_eq_some_iff`, `Json.toNat64?_eq_some_iff`).

An integer and the string of its digits are the same natural number, or neither is one
(`unsigned64?_toString`).
-/

namespace Docstore

open Numeral

/-- The text is a natural number in digits, perhaps with a plus. -/
def SpellsNatural (s : String) (n : Nat) : Prop :=
  ∃ digits, (s.toList = digits ∨ s.toList = '+' :: digits) ∧ digits ≠ [] ∧
    (∀ c ∈ digits, c.isDigit = true) ∧ n = Nat.ofDigitChars 10 digits 0

/-- **The reader takes the strings that spell a number that fits.** -/
theorem unsigned64?_eq_some_iff {s : String} {n : Nat} :
    unsigned64? s = some n ↔ SpellsNatural s n ∧ n < 18446744073709551616 := by
  have hread : ∀ digits, (nat? digits).filter (· < 18446744073709551616) = some n ↔
      (digits ≠ [] ∧ (∀ c ∈ digits, c.isDigit = true) ∧ n = Nat.ofDigitChars 10 digits 0) ∧
        n < 18446744073709551616 := by
    intro digits
    rw [Option.filter_eq_some_iff, nat?_eq_some_iff, decide_eq_true_iff]
  rw [unsigned64?]
  split
  · next rest hs =>
    rw [hread]
    refine and_congr_left fun _ => ⟨fun h => ⟨rest, Or.inr hs, h⟩, ?_⟩
    rintro ⟨digits, hdigits | hdigits, h⟩
    · -- the plus would be a digit
      rw [hs] at hdigits
      exact absurd (h.2.1 '+' (hdigits ▸ List.mem_cons_self)) (by decide)
    · rw [hs] at hdigits
      rwa [(List.cons.inj hdigits).2]
  · next hplus =>
    rw [hread]
    refine and_congr_left fun _ => ⟨fun h => ⟨s.toList, Or.inl rfl, h⟩, ?_⟩
    rintro ⟨digits, hdigits | hdigits, h⟩
    · rwa [hdigits]
    · exact absurd hdigits (hplus digits)

namespace Json

/-- The value is this natural number, as a number or spelt in a string, and it fits. -/
inductive IsCount : Json → Nat → Prop where
  | number (n : Nat) (fits : FitsInteger n) : IsCount (.number (.int n fits)) n
  | text {s : String} {n : Nat} (h : SpellsNatural s n) (hlt : n < 18446744073709551616) :
      IsCount (.string s) n

theorem toNat64?_eq_some_iff {v : Json} {n : Nat} : v.toNat64? = some n ↔ v.IsCount n := by
  constructor
  · intro h
    cases v with
    | number m =>
      cases m with
      | int i fits =>
        obtain ⟨hpos, hn⟩ := Option.ite_none_right_eq_some.mp h
        obtain rfl : i = n := by
          rw [← Option.some.inj hn]
          exact (Int.toNat_of_nonneg hpos).symm
        exact .number n fits
      | float x => exact absurd h (by simp [toNat64?, Number.toNat64?])
    | string s =>
      obtain ⟨hs, hlt⟩ := unsigned64?_eq_some_iff.mp h
      exact .text hs hlt
    | _ => exact absurd h (by simp [toNat64?])
  · intro h
    cases h with
    | number n fits => simp [toNat64?, Number.toNat64?]
    | text hs hlt => exact unsigned64?_eq_some_iff.mpr ⟨hs, hlt⟩

end Json

/-! ### Integers and their digits -/

theorem spellsNatural_repr (n : Nat) : SpellsNatural n.repr n :=
  ⟨Nat.toDigits 10 n, Or.inl Nat.toList_repr, Nat.toDigits_ne_nil, isDigit_of_mem_digits,
    (natOfDigits_toDigits n).symm⟩

theorem not_spellsNatural_minus (s : String) (n : Nat) : ¬SpellsNatural ("-" ++ s) n := by
  rintro ⟨digits, hdigits | hdigits, -, hall, -⟩
  · rw [String.toList_append] at hdigits
    exact absurd (hall '-' (hdigits ▸ List.mem_cons_self)) (by decide)
  · rw [String.toList_append] at hdigits
    exact absurd (List.cons.inj hdigits).1 (by decide)

/-- **An integer and the string of its digits are the same natural number**, or neither is
one. -/
theorem unsigned64?_toString {i : Int} (fits : FitsInteger i) :
    unsigned64? (toString i) = Number.toNat64? (.int i fits) := by
  cases i with
  | ofNat n =>
    have hlt : n < 18446744073709551616 := Int.ofNat_lt.mp fits.2
    have hread : unsigned64? n.repr = some n :=
      unsigned64?_eq_some_iff.mpr ⟨spellsNatural_repr n, hlt⟩
    have hnumber : Number.toNat64? (.int (Int.ofNat n) fits) = some n := by
      simp [Number.toNat64?]
    rw [hnumber, ← hread]
    rfl
  | negSucc n =>
    have htext : toString (Int.negSucc n) = "-" ++ (n + 1).repr := rfl
    have hnumber : Number.toNat64? (.int (Int.negSucc n) fits) = none := by
      simp [Number.toNat64?]
    rw [hnumber, htext, Option.eq_none_iff_forall_ne_some]
    intro m hm
    exact not_spellsNatural_minus _ m (unsigned64?_eq_some_iff.mp hm).1

end Docstore
