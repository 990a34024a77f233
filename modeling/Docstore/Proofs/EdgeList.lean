import Docstore.EdgeList
import Docstore.Proofs.Text.Trimming

/-!
# Edge collections, listed and joined

Names of edge collections come in a list or in one text with commas between them.  As
long as no name holds a comma, both say the same: what counts are the names that are left
when all are trimmed and the blank ones are taken out (`kept`), and an input in which no
name counts is refused in both forms (`ofJson_listed`, `ofJson_joined`).

The text that is made of the names that count is in its final form.  Reading it cuts it at
its commas, and trimming takes away the blank that was put behind each of them
(`ofJson_intercalate_kept`).
-/

namespace Docstore

namespace EdgeList

/-- The names that count: trimmed, and without the blank ones. -/
def kept (names : List String) : List String := (names.map Text.trim).filter fun n => !n.isEmpty

section Kept

variable {names : List String} {n : String}

theorem mem_kept_iff : n ∈ kept names ↔ (∃ m ∈ names, Text.trim m = n) ∧ n ≠ "" := by
  rw [kept, List.mem_filter, List.mem_map, Bool.not_eq_true', ← Bool.not_eq_true,
    String.isEmpty_iff]

theorem trim_of_mem_kept (h : n ∈ kept names) : Text.trim n = n := by
  obtain ⟨⟨m, -, rfl⟩, -⟩ := mem_kept_iff.mp h
  exact Text.trim_trim m

theorem not_mem_comma_of_mem_kept (hcomma : ∀ m ∈ names, ',' ∉ m.toList) (h : n ∈ kept names) :
    ',' ∉ n.toList := by
  obtain ⟨⟨m, hm, rfl⟩, -⟩ := mem_kept_iff.mp h
  exact fun hmem => hcomma m hm (Text.mem_of_mem_trim hmem)

theorem kept_eq_nil_iff : kept names = [] ↔ ∀ m ∈ names, Text.isAllBlank m = true := by
  rw [List.eq_nil_iff_forall_not_mem]
  constructor
  · intro h m hm
    by_contra hblank
    have htrim : Text.trim m ≠ "" := fun he => hblank (Text.trim_eq_empty_iff.mp he)
    exact h (Text.trim m) (mem_kept_iff.mpr ⟨⟨m, hm, rfl⟩, htrim⟩)
  · intro h n hn
    obtain ⟨⟨m, hm, rfl⟩, hne⟩ := mem_kept_iff.mp hn
    exact hne (Text.trim_eq_empty_iff.mpr (h m hm))

end Kept

/-! ### Both forms -/

/-- Names none of which is empty make a text as they are. -/
theorem ofNames_of_forall_ne {names : List String} (hne : names ≠ []) (h : ∀ n ∈ names, n ≠ "") :
    ofNames names = .ok (String.intercalate ", " names) := by
  have hall : names.filter (fun n => !n.isEmpty) = names := by
    refine List.filter_eq_self.mpr fun n hn => ?_
    rw [Bool.not_eq_true', ← Bool.not_eq_true, String.isEmpty_iff]
    exact h n hn
  obtain ⟨n, rest, rfl⟩ := List.exists_cons_of_ne_nil hne
  rw [ofNames, hall]

theorem ofNames_trimmed {names : List String} (hne : kept names ≠ []) :
    ofNames (names.map Text.trim) = .ok (String.intercalate ", " (kept names)) := by
  obtain ⟨n, rest, hkept⟩ := List.exists_cons_of_ne_nil hne
  have hfilter : (names.map Text.trim).filter (fun n => !n.isEmpty) = n :: rest := hkept
  rw [ofNames, hfilter, hkept]

theorem ofNames_trimmed_of_blank {names : List String} (hnil : kept names = []) :
    ofNames (names.map Text.trim) = .error (.invalidCriteria "edge collection list is empty") := by
  have hfilter : (names.map Text.trim).filter (fun n => !n.isEmpty) = [] := hnil
  rw [ofNames, hfilter]

theorem readNames_listed (names : List String) :
    readNames (.array (names.map .string)) = .ok (names.map Text.trim) := by
  show (names.map Json.string).mapM readName = .ok (names.map Text.trim)
  induction names with
  | nil => rfl
  | cons n rest ih =>
    rw [List.map_cons, List.mapM_cons, ih]
    rfl

theorem ofJson_listed (names : List String) :
    ofJson (.array (names.map .string)) = ofNames (names.map Text.trim) := by
  rw [ofJson, readNames_listed]
  rfl

theorem ofJson_joined {names : List String} (hcomma : ∀ n ∈ names, ',' ∉ n.toList) :
    ofJson (.string (String.intercalate "," names)) = ofNames (names.map Text.trim) := by
  cases names with
  | nil => rfl
  | cons n rest =>
    have hcut : Text.cutAtAll ',' (String.intercalate "," (n :: rest)) = n :: rest :=
      Text.cutAtAll_intercalate (List.cons_ne_nil n rest) hcomma
    show ofNames ((Text.cutAtAll ',' (String.intercalate "," (n :: rest))).map Text.trim) = _
    rw [hcut]

/-! ### The final form -/

/-- A comma and a blank between texts is a comma between them and a blank in front of each but
the first. -/
theorem intercalate_comma_blank (n : String) (rest : List String) :
    String.intercalate ", " (n :: rest) =
      String.intercalate "," (n :: rest.map fun m => " " ++ m) := by
  induction rest generalizing n with
  | nil => rw [List.map_nil, String.intercalate_singleton, String.intercalate_singleton]
  | cons m rest ih =>
    have hblank : String.intercalate "," ((" " ++ m) :: rest.map fun m => " " ++ m) =
        " " ++ String.intercalate "," (m :: rest.map fun m => " " ++ m) :=
      String.intercalate_cons_append
    have hsep : ", " = "," ++ " " := rfl
    rw [List.map_cons, String.intercalate_cons_cons, String.intercalate_cons_cons, ih, hblank]
    simp only [hsep, String.append_assoc]

/-- **The text of the names that count is read as itself.** -/
theorem ofJson_intercalate_kept {names : List String} (hcomma : ∀ n ∈ names, ',' ∉ n.toList)
    (hne : kept names ≠ []) :
    ofJson (.string (String.intercalate ", " (kept names))) =
      .ok (String.intercalate ", " (kept names)) := by
  have hmem : ∀ n ∈ kept names, ',' ∉ n.toList ∧ Text.trim n = n ∧ n ≠ "" := fun n hn =>
    ⟨not_mem_comma_of_mem_kept hcomma hn, trim_of_mem_kept hn, (mem_kept_iff.mp hn).2⟩
  generalize kept names = ns at hne hmem
  obtain ⟨n, rest, rfl⟩ := List.exists_cons_of_ne_nil hne
  obtain ⟨hn, hrest⟩ := List.forall_mem_cons.mp hmem
  have hcommas : ∀ m ∈ n :: rest.map (fun m => " " ++ m), ',' ∉ m.toList := by
    refine List.forall_mem_cons.mpr ⟨hn.1, List.forall_mem_map.mpr fun m hm => ?_⟩
    rw [String.toList_append, List.mem_append, not_or]
    exact ⟨by decide, (hrest m hm).1⟩
  have htrim : (n :: rest.map fun m => " " ++ m).map Text.trim = n :: rest := by
    rw [List.map_cons, hn.2.1, List.map_map]
    refine congrArg (n :: ·) ((List.map_congr_left fun m hm => ?_).trans (List.map_id rest))
    exact (Text.trim_blank_append m).trans (hrest m hm).2.1
  rw [intercalate_comma_blank n rest, ofJson_joined hcommas, htrim,
    ofNames_of_forall_ne hne fun m hm => (hmem m hm).2.2, intercalate_comma_blank n rest]

/-- **A list of names and the text that joins them by commas are the same edge collections.**
Without a name that counts both are refused as empty.  Otherwise both give the names that
count with a comma and a blank between them, and this text gives itself. -/
theorem joined_reads_as_listed {names : List String} (hcomma : ∀ n ∈ names, ',' ∉ n.toList) :
    ofJson (.array (names.map .string)) = ofJson (.string (String.intercalate "," names)) ∧
      ((∀ n ∈ names, Text.isAllBlank n = true) →
        ofJson (.array (names.map .string)) =
          .error (.invalidCriteria "edge collection list is empty")) ∧
      ((∃ n ∈ names, Text.isAllBlank n = false) →
        ∃ text, text = String.intercalate ", " (kept names) ∧
          ofJson (.array (names.map .string)) = .ok text ∧ ofJson (.string text) = .ok text) := by
  rw [ofJson_joined hcomma, ofJson_listed]
  refine ⟨rfl, ?_, ?_⟩
  · intro hblank
    exact ofNames_trimmed_of_blank (kept_eq_nil_iff.mpr hblank)
  · rintro ⟨n, hn, htext⟩
    have hne : kept names ≠ [] := by
      intro hnil
      rw [kept_eq_nil_iff.mp hnil n hn] at htext
      exact absurd htext (by simp)
    exact ⟨_, rfl, ofNames_trimmed hne, ofJson_intercalate_kept hcomma hne⟩

/-- Padded names with blank ones among them, and the empty list beside the empty text. -/
theorem joined_reads_as_listed_padded :
    let names := [" knows", "\u3000", "l\u00e4uft ab\u00a0\t", ""]
    (∀ n ∈ names, ',' ∉ n.toList) ∧ (∃ n ∈ names, Text.isAllBlank n = false) ∧
      ofJson (.array (names.map .string)) = .ok "knows, l\u00e4uft ab" ∧
      ofJson (.string " knows,\u3000,l\u00e4uft ab\u00a0\t,") = .ok "knows, l\u00e4uft ab" ∧
      ofJson (.string "knows, l\u00e4uft ab") = .ok "knows, l\u00e4uft ab" ∧
      ofJson (.array []) = .error (.invalidCriteria "edge collection list is empty") ∧
      ofJson (.array []) = ofJson (.string "") := by
  intro names
  have hcomma : ∀ n ∈ names, ',' ∉ n.toList := by decide
  have hsome : ∃ n ∈ names, Text.isAllBlank n = false := ⟨" knows", by decide, by decide⟩
  obtain ⟨hforms, -, hread⟩ := joined_reads_as_listed hcomma
  obtain ⟨text, htext, hlisted, hself⟩ := hread hsome
  obtain rfl : text = "knows, l\u00e4uft ab" := by rw [htext]; decide +kernel
  have hnone : ∀ n ∈ ([] : List String), ',' ∉ n.toList := by simp
  obtain ⟨hempty, hblank, -⟩ := joined_reads_as_listed hnone
  exact ⟨hcomma, hsome, hlisted, hforms ▸ hlisted, hself, hblank (by simp), hempty⟩

end EdgeList

end Docstore
