import Docstore.Proofs.Json.Compact
import Docstore.Term.Field

/-!
# Attributes and literals in query text

The text of a literal is the JSON text of a value: of the number that a string
spells, and otherwise of the literal itself (`literalText_eq_compact`).  So it
shows that value and its own end (`agreeOnlyIf_literalText`).

The path to an attribute shows the attribute's name and its own end
(`agreeOnlyIf_attributePath`), whatever quotes and blanks are in the name, so
long as there is no backslash: between backticks only the backtick is escaped.
-/

namespace Docstore

open Text

/-! ### Literals -/

namespace Json

/-- The value as it is written in query text: a string that spells a number is that number. -/
def written : Json → Json
  | .string s =>
      match numericString? s with
      | some n => .number n
      | none => .string s
  | v => v

theorem literalText_eq_compact (v : Json) : v.literalText = v.written.compact := by
  cases v with
  | string s =>
    cases h : numericString? s with
    | some n => simp only [literalText, written, h, compact]
    | none => simp only [literalText, written, h, compact]
  | _ => rfl

/-- **The text of a literal determines the value that is written.** -/
theorem agreeOnlyIf_literalText (v w : Json) :
    AgreeOnlyIf valueEnds (v.written = w.written) v.literalText.toList w.literalText.toList := by
  rw [literalText_eq_compact, literalText_eq_compact]
  exact agreeOnlyIf_compact v.written w.written

theorem literalText_ne_cons {c : Char} (hc : typeOfFirst c = "") (v : Json) :
    ∃ d rest, v.literalText.toList = d :: rest ∧ d ≠ c := by
  rw [literalText_eq_compact]
  exact compact_ne_cons hc v.written

end Json

/-! ### Attributes -/

def pathEnds : List Char := [' ', ')']

/-- A name between backticks shows where it ends when there is no backslash in it. -/
theorem flatMap_escapeInBackticks_append_inj {cs ds r s : List Char} (hcs : '\\' ∉ cs)
    (hds : '\\' ∉ ds)
    (h : cs.flatMap escapeInBackticks ++ backtick :: r =
      ds.flatMap escapeInBackticks ++ backtick :: s) : cs = ds ∧ r = s := by
  have hescape {c : Char} (hc : c ≠ '\\') : ∃ d rest, escapeInBackticks c = d :: rest ∧
      d ≠ backtick := by
    rw [escapeInBackticks]
    split
    · exact ⟨'\\', _, rfl, by decide⟩
    · next hb => exact ⟨c, [], rfl, hb⟩
  induction cs generalizing ds with
  | nil =>
    cases ds with
    | nil => exact ⟨rfl, (List.cons.inj h).2⟩
    | cons d ds =>
      obtain ⟨e, rest, hd, he⟩ := hescape (List.ne_of_not_mem_cons hds).symm
      rw [List.flatMap_cons, hd] at h
      exact absurd (List.cons.inj h).1.symm he
  | cons c cs ih =>
    have hc : c ≠ '\\' := (List.ne_of_not_mem_cons hcs).symm
    cases ds with
    | nil =>
      obtain ⟨e, rest, hce, he⟩ := hescape hc
      rw [List.flatMap_cons, hce] at h
      exact absurd (List.cons.inj h).1 he
    | cons d ds =>
      have hd : d ≠ '\\' := (List.ne_of_not_mem_cons hds).symm
      have hfirst : c = d ∧ cs.flatMap escapeInBackticks ++ backtick :: r =
          ds.flatMap escapeInBackticks ++ backtick :: s := by
        rw [List.flatMap_cons, List.flatMap_cons, List.append_assoc, List.append_assoc] at h
        by_cases hcb : c = backtick <;> by_cases hdb : d = backtick
        · subst hcb hdb
          exact ⟨rfl, List.append_cancel_left h⟩
        · rw [escapeInBackticks, if_pos hcb, escapeInBackticks, if_neg hdb] at h
          exact absurd (List.cons.inj h).1.symm hd
        · rw [escapeInBackticks, if_neg hcb, escapeInBackticks, if_pos hdb] at h
          exact absurd (List.cons.inj h).1 hc
        · rw [escapeInBackticks, if_neg hcb, escapeInBackticks, if_neg hdb] at h
          exact List.cons.inj h
      obtain ⟨rfl, hrest⟩ := hfirst
      obtain ⟨rfl, hrs⟩ := ih (List.not_mem_of_not_mem_cons hcs) (List.not_mem_of_not_mem_cons hds)
        hrest
      exact ⟨rfl, hrs⟩

theorem isNameChar_of_isIdentifierChars {cs : List Char} (h : isIdentifierChars cs = true) :
    ∀ c ∈ cs, isNameChar c = true := by
  cases cs with
  | nil => exact fun c hc => absurd hc (by simp)
  | cons first rest =>
    rw [isIdentifierChars, Bool.and_eq_true] at h
    intro c hc
    rcases List.mem_cons.mp hc with rfl | hc
    · have hstart := h.1
      rw [isNameStart, Bool.or_eq_true] at hstart
      rw [isNameChar, Char.isAlphanum, Bool.or_eq_true, Bool.or_eq_true]
      exact hstart.imp_left .inl
    · exact List.all_eq_true.mp h.2 c hc

/-- **The text of a name of a path determines the name.** -/
theorem agreeOnlyIf_pathSegment {cs ds : List Char} (hcs : '\\' ∉ cs) (hds : '\\' ∉ ds) :
    AgreeOnlyIf ('.' :: pathEnds) (cs = ds) (pathSegment cs) (pathSegment ds) := by
  have hmixed {as bs : List Char} (has : isIdentifierChars as = true) {claim : Prop} :
      AgreeOnlyIf ('.' :: pathEnds) claim as (backtick :: bs) := by
    cases as with
    | nil => exact absurd has (by simp [isIdentifierChars])
    | cons c as =>
      refine agreeOnlyIf_of_head_ne ?_
      rintro rfl
      have := isNameChar_of_isIdentifierChars has backtick List.mem_cons_self
      exact absurd this (by decide)
  rw [pathSegment, pathSegment]
  split
  · next hc =>
    split
    · next hd =>
      exact agreeOnlyIf_of_class isNameChar (isNameChar_of_isIdentifierChars hc)
        (isNameChar_of_isIdentifierChars hd) (by decide)
    · exact hmixed hc
  · split
    · next hd => exact (hmixed hd).symm
    · intro r s _ _ h
      refine flatMap_escapeInBackticks_append_inj hcs hds ?_
      simpa using h

/-- **The path to an attribute determines its name**, if there is no backslash in it. -/
theorem agreeOnlyIf_attributePath (loopVar : String) {p q : String} (hp : '\\' ∉ p.toList)
    (hq : '\\' ∉ q.toList) :
    AgreeOnlyIf pathEnds (p = q) (attributePath loopVar p).toList
      (attributePath loopVar q).toList := by
  have hpieces : AgreeOnlyIf pathEnds
      ((piecesOf '.' p.toList).map id = (piecesOf '.' q.toList).map id) _ _ :=
    agreeOnlyIf_flatMap pathSegment id [] (show '.' ∉ pathEnds by decide) fun a ha b hb =>
      agreeOnlyIf_pathSegment (fun h => hp (mem_of_mem_piecesOf ha _ h))
        fun h => hq (mem_of_mem_piecesOf hb _ h)
  rw [attributePath, attributePath, String.toList_append, String.toList_append,
    String.toList_ofList, String.toList_ofList]
  refine (hpieces.prepend loopVar.toList).imp fun h => ?_
  rw [List.map_id, List.map_id] at h
  rw [← String.toList_inj, ← intercalate_piecesOf '.' p.toList, h, intercalate_piecesOf]

end Docstore
