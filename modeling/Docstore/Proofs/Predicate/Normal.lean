import Docstore.Predicate.Text
import Docstore.Proofs.Predicate.Reading

/-!
# The form of the trees that are read

What is always true never stands directly in a conjunction, conjunctions and
disjunctions have two members at least, and lists of operands are not empty.
`IsNormal` says so at every depth, and `isNormal_of_ofJson` says that every tree
that is read has this form.

The text of a tree in this form is never empty (`render_ne_empty`); so an empty
filter stands for the predicate that is always true and for no other
(`filterText_eq_empty_iff`).
-/

namespace Docstore

/-- A comparison with a list has an operand to compare with. -/
def Comparison.HasOperand : Comparison → Prop
  | .list _ operands => operands ≠ []
  | .single _ _ => True
  | .between _ _ => True

namespace Predicate

/-- Nothing always true directly in a conjunction, no combination of fewer than two
members, no comparison with an empty list. -/
inductive IsNormal : Predicate → Prop where
  | always : IsNormal .always
  | all {members : List Predicate} (htwo : 2 ≤ members.length)
      (hproper : ∀ p ∈ members, p ≠ .always) (hmembers : ∀ p ∈ members, IsNormal p) :
      IsNormal (.all members)
  | any {members : List Predicate} (htwo : 2 ≤ members.length)
      (hmembers : ∀ p ∈ members, IsNormal p) : IsNormal (.any members)
  | compare (field : Field) {comparison : Comparison} (h : comparison.HasOperand) :
      IsNormal (.compare field comparison)

/-- A conjunction of normal predicates is normal: what is always true is left out,
and a single member stands for itself. -/
theorem isNormal_conjunction {parts : List Predicate} (h : ∀ p ∈ parts, p.IsNormal) :
    (conjunction parts).IsNormal := by
  have hfilter : ∀ p ∈ parts.filter fun p => !p.isAlways, p.IsNormal ∧ p ≠ .always := by
    intro p hp
    obtain ⟨hmem, hproper⟩ := List.mem_filter.mp hp
    refine ⟨h p hmem, fun heq => ?_⟩
    rw [isAlways_iff.mpr heq] at hproper
    exact absurd hproper (by simp)
  rw [conjunction]
  split
  · exact .always
  · next p heq =>
    rw [heq] at hfilter
    exact (hfilter p List.mem_cons_self).1
  · next ps hnil hone =>
    refine .all ?_ (fun p hp => (hfilter p hp).2) fun p hp => (hfilter p hp).1
    rcases hps : parts.filter fun p => !p.isAlways with _ | ⟨p, _ | ⟨q, ps⟩⟩
    · exact absurd hps hnil
    · exact absurd hps (hone p)
    · rw [hps]
      exact Nat.le_add_left 2 ps.length

theorem hasOperand_of_readOperator {operator : String} {v : Json} {c : Comparison}
    (h : readOperator operator v = .ok c) : c.HasOperand := by
  rcases readOperator_eq_ok h with ⟨relation, -, rfl⟩ | ⟨relation, text, -, -, rfl⟩ |
    ⟨relation, items, -, -, hne, rfl⟩ | ⟨low, high, -, -, rfl⟩
  · exact trivial
  · exact trivial
  · exact fun hnil => hne (List.map_eq_nil_iff.mp hnil)
  · exact trivial

theorem hasOperand_of_readComparisons {v : Json} {comparisons : List Comparison}
    (h : readComparisons v = .ok comparisons) : ∀ c ∈ comparisons, c.HasOperand := by
  rcases readComparisons_eq_ok h with ⟨members, rfl, -, hread⟩ | ⟨-, rfl⟩
  · intro c hc
    obtain ⟨m, -, hm⟩ := exists_of_mem_of_mapM_eq_ok hread hc
    exact hasOperand_of_readOperator hm
  · intro c hc
    rw [List.mem_singleton.mp hc]
    exact trivial

mutual

theorem Reads.isNormal : ∀ {v : Json} {p : Predicate}, Reads v p → p.IsNormal
  | _, _, .object hmembers => isNormal_conjunction hmembers.isNormal

theorem ReadsMembers.isNormal : ∀ {members : List (String × Json)} {parts : List Predicate},
    ReadsMembers members parts → ∀ p ∈ parts, p.IsNormal
  | _, _, .nil => fun p hp => absurd hp (by simp)
  | _, _, .all _ hitems hrest => fun p hp => by
    rcases List.mem_cons.mp hp with rfl | hp
    · exact isNormal_conjunction hitems.isNormal
    · exact hrest.isNormal p hp
  | _, _, .any _ hitems htwo hrest => fun p hp => by
    rcases List.mem_cons.mp hp with rfl | hp
    · exact .any htwo hitems.isNormal
    · exact hrest.isNormal p hp
  | _, _, .field _ _ hv hrest => fun p hp => by
    rcases List.mem_append.mp hp with hp | hp
    · obtain ⟨c, hc, rfl⟩ := List.mem_map.mp hp
      exact .compare _ (hasOperand_of_readComparisons hv c hc)
    · exact hrest.isNormal p hp

theorem ReadsItems.isNormal : ∀ {vs : List Json} {ps : List Predicate},
    ReadsItems vs ps → ∀ p ∈ ps, p.IsNormal
  | _, _, .nil => fun p hp => absurd hp (by simp)
  | _, _, .cons hv hvs => fun p hp => by
    rcases List.mem_cons.mp hp with rfl | hp
    · exact hv.isNormal
    · exact hvs.isNormal p hp

end

/-- **Every tree that is read is in normal form.** -/
theorem isNormal_of_ofJson {v : Json} {p : Predicate} (h : ofJson v = .ok p) : p.IsNormal :=
  (ofJson_eq_ok_iff.mp h).isNormal

/-! ### Empty filters -/

theorem render_ne_empty_of_comparison (left : String) (c : Comparison) : c.render left ≠ "" := by
  have hsingle : ∀ (r : SingleRelation) (right : String), r.render left right ≠ "" := by
    intro r right
    cases r <;> simp [SingleRelation.render, String.append_eq_empty_iff]
  cases c with
  | single relation operand => exact hsingle relation operand.render
  | list relation operands =>
    cases relation with
    | isIn =>
      unfold Comparison.render ListRelation.render
      simp only
      split
      · next only => exact hsingle .equal only.render
      · simp [String.append_eq_empty_iff]
    | notIn =>
      unfold Comparison.render ListRelation.render
      simp only
      split
      · next only => exact hsingle .notEqual only.render
      · simp [String.append_eq_empty_iff]
    | allIn => simp [Comparison.render, ListRelation.render, String.append_eq_empty_iff]
    | anyIn => simp [Comparison.render, ListRelation.render, String.append_eq_empty_iff]
  | between low high => simp [Comparison.render, String.append_eq_empty_iff]

theorem intercalate_ne_empty {sep : String} (hsep : sep ≠ "") {texts : List String}
    (htwo : 2 ≤ texts.length) : sep.intercalate texts ≠ "" := by
  match texts with
  | [] => exact absurd htwo (by simp)
  | [_] => exact absurd htwo (by simp)
  | s :: t :: rest =>
    rw [String.intercalate_cons_cons]
    intro h
    exact hsep (String.append_eq_empty_iff.mp (String.append_eq_empty_iff.mp h).1).2

theorem render_ne_empty (loopVar : String) {p : Predicate} (h : p.IsNormal) :
    p.render loopVar ≠ "" := by
  cases h with
  | always => rw [render]; decide
  | all htwo _ _ =>
    rw [render]
    exact intercalate_ne_empty (by decide) (by rw [renderMembers_eq_map, List.length_map]; exact htwo)
  | any htwo _ =>
    rw [render]
    exact intercalate_ne_empty (by decide) (by rw [renderMembers_eq_map, List.length_map]; exact htwo)
  | compare field _ =>
    rw [render]
    exact render_ne_empty_of_comparison _ _

theorem filterText_eq_empty_iff (loopVar : String) {p : Predicate} (h : p.IsNormal) :
    p.filterText loopVar = "" ↔ p = .always := by
  rw [filterText]
  split
  · next ha => exact ⟨fun _ => isAlways_iff.mp ha, fun _ => rfl⟩
  · next ha =>
    exact ⟨fun he => absurd he (render_ne_empty loopVar h), fun he => absurd (isAlways_iff.mpr he) ha⟩

end Predicate

end Docstore
