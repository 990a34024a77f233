import Mathlib.Data.List.TakeWhile
import Docstore.Text.Blank
import Docstore.Text.Pieces

/-!
# Trimmed texts, and texts joined by a mark

Trimming takes blanks from the ends and nothing else: a trimmed text is part of the text
that it came from (`trimChars_isInfix`), blanks in front do not matter
(`trimChars_append_of_blank`), nothing is left of blanks alone (`trim_eq_empty_iff`), what is
no blank stays (`mem_trim`), and there is nothing to trim twice (`trim_trim`).

Texts without a mark that are joined by it come apart again at the marks
(`cutAtAll_intercalate`).  One text is always there: a joined empty list is an empty
text, and this is one piece.
-/

namespace Docstore

namespace Text

/-! ### Trimming -/

theorem trimFront_isSuffix (cs : List Char) : trimFront cs <:+ cs := List.dropWhile_suffix isBlank

theorem trimChars_isPrefix (cs : List Char) : trimChars cs <+: trimFront cs := by
  rw [trimChars, ← List.reverse_suffix, List.reverse_reverse]
  exact trimFront_isSuffix _

theorem trimChars_isInfix (cs : List Char) : trimChars cs <:+: cs :=
  (trimChars_isPrefix cs).isInfix.trans (trimFront_isSuffix cs).isInfix

/-- Characters that start with no blank still do so when others behind them are taken away. -/
theorem trimFront_eq_self_of_isPrefix {cs ds : List Char} (h : ds <+: trimFront cs) :
    trimFront ds = ds := by
  cases ds with
  | nil => rfl
  | cons c ds =>
    obtain ⟨rest, hrest⟩ := h
    have hc : isBlank c = false := trimFront_head hrest.symm
    exact List.dropWhile_cons_of_neg (by simp [hc])

theorem trimChars_trimChars (cs : List Char) : trimChars (trimChars cs) = trimChars cs := by
  have hfront : trimFront (trimChars cs) = trimChars cs :=
    trimFront_eq_self_of_isPrefix (trimChars_isPrefix cs)
  have hback : trimFront (trimChars cs).reverse = (trimChars cs).reverse := by
    rw [trimChars, List.reverse_reverse]
    exact trimFront_eq_self_of_isPrefix (List.prefix_refl _)
  rw [trimChars, hfront, hback, List.reverse_reverse]

/-- **There is nothing to trim twice.** -/
theorem trim_trim (s : String) : trim (trim s) = trim s := by
  rw [trim, trim, String.toList_ofList, trimChars_trimChars]

/-- Blanks in front do not matter. -/
theorem trimChars_append_of_blank {front : List Char} (h : ∀ c ∈ front, isBlank c = true)
    (cs : List Char) : trimChars (front ++ cs) = trimChars cs := by
  have hfront : trimFront (front ++ cs) = trimFront cs := List.dropWhile_append_of_pos h
  rw [trimChars, hfront, trimChars]

theorem trim_blank_append (s : String) : trim (" " ++ s) = trim s := by
  have hblank : ∀ c ∈ [' '], isBlank c = true := by
    intro c hc
    rw [List.mem_singleton.mp hc]
    rfl
  rw [trim, String.toList_append]
  exact congrArg String.ofList (trimChars_append_of_blank hblank s.toList)

/-- **Nothing is left of blanks**, and of nothing else. -/
theorem trim_eq_empty_iff {s : String} : trim s = "" ↔ isAllBlank s = true := by
  have hempty : trim s = "" ↔ trimChars s.toList = [] := by
    rw [← String.toList_inj, trim, String.toList_ofList]
    rfl
  have hsplit := List.takeWhile_append_dropWhile (p := isBlank) (l := s.toList)
  rw [hempty, trimChars, List.reverse_eq_nil_iff, trimFront, List.dropWhile_eq_nil_iff, isAllBlank,
    List.all_eq_true]
  constructor
  · intro h
    rw [← hsplit]
    refine List.forall_mem_append.mpr ⟨fun c hc => List.mem_takeWhile_imp hc, fun c hc => ?_⟩
    exact h c (List.mem_reverse.mpr hc)
  · intro h c hc
    exact h c ((trimFront_isSuffix _).mem (List.mem_reverse.mp hc))

theorem mem_of_mem_trim {s : String} {c : Char} (h : c ∈ (trim s).toList) : c ∈ s.toList := by
  rw [trim, String.toList_ofList] at h
  exact (trimChars_isInfix s.toList).mem h

theorem mem_trimFront {cs : List Char} {c : Char} (h : c ∈ cs) (hc : isBlank c = false) :
    c ∈ trimFront cs := by
  rw [← List.takeWhile_append_dropWhile (p := isBlank) (l := cs)] at h
  rcases List.mem_append.mp h with hblank | hrest
  · exact absurd (List.mem_takeWhile_imp hblank) (Bool.eq_false_iff.mp hc)
  · exact hrest

/-- What is no blank stays. -/
theorem mem_trim {s : String} {c : Char} (h : c ∈ s.toList) (hc : isBlank c = false) :
    c ∈ (trim s).toList := by
  rw [trim, String.toList_ofList, trimChars, List.mem_reverse]
  exact mem_trimFront (List.mem_reverse.mpr (mem_trimFront h hc)) hc

/-! ### Joined texts -/

/-- A text with a mark is two texts around its first one. -/
theorem exists_append_of_mem {mark : Char} {s : String} (h : mark ∈ s.toList) :
    ∃ left right, s = left ++ String.singleton mark ++ right ∧ mark ∉ left.toList := by
  obtain ⟨left, right, hs, hleft⟩ := List.eq_append_cons_of_mem h
  refine ⟨String.ofList left, String.ofList right, ?_, by rwa [String.toList_ofList]⟩
  rw [← String.toList_inj, hs]
  simp

theorem piecesOf_of_not_mem {mark : Char} {cs : List Char} (h : mark ∉ cs) :
    piecesOf mark cs = [cs] := by
  induction cs with
  | nil => rfl
  | cons c cs ih =>
    have hc : c ≠ mark := (List.ne_of_not_mem_cons h).symm
    rw [piecesOf, if_neg hc, ih (List.not_mem_of_not_mem_cons h)]

theorem cutAtAll_of_not_mem {mark : Char} {s : String} (h : mark ∉ s.toList) :
    cutAtAll mark s = [s] := by
  rw [cutAtAll, piecesOf_of_not_mem h, List.map_singleton, String.ofList_toList]

/-- **Texts that are joined by a mark come apart at the marks**, when none of them holds it. -/
theorem cutAtAll_intercalate {mark : Char} {texts : List String} (hne : texts ≠ [])
    (h : ∀ s ∈ texts, mark ∉ s.toList) :
    cutAtAll mark (String.intercalate (String.singleton mark) texts) = texts := by
  induction texts with
  | nil => exact absurd rfl hne
  | cons s rest ih =>
    obtain ⟨hs, hrest⟩ := List.forall_mem_cons.mp h
    cases rest with
    | nil => rw [String.intercalate_singleton, cutAtAll_of_not_mem hs]
    | cons t rest =>
      rw [String.intercalate_cons_cons, cutAtAll_append, cutAtAll_of_not_mem hs,
        ih (List.cons_ne_nil t rest) hrest, List.singleton_append]

end Text

end Docstore
