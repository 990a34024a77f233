import Mathlib.Data.List.Forall2
import Docstore.Pipeline.Text
import Docstore.Proofs.Failure

/-!
# The stages of a pipeline

A pipeline is read from the five keys that name its stages.  What else its object holds
and how the keys are ordered makes no difference, not even to the failure that is
reported when several stages are malformed (`ofJson_eq_of_perm`).

It is written with one line per stage that it has, in the order of execution
(`forall₂_isLine`).  `IsLine` says what stands on the line of a stage.  How a field is
written there is left open: in groups and aggregates it is the text of the field, while
a sort key of a grouped pipeline is a variable.  Later files ask more of these texts.
-/

namespace Docstore

namespace Pipeline

/-! ### The keys of stages -/

/-- The keys that name a stage. -/
def stageKeys : List String := ["$filter", "$collect", "$aggregate", "$sort", "$return"]

def recognised (members : Dictionary Json) : Dictionary Json :=
  members.filter fun m => m.1 ∈ stageKeys

theorem ofMembers_congr {members members' : Dictionary Json}
    (h : ∀ key ∈ stageKeys, members.get? key = members'.get? key) :
    ofMembers members = ofMembers members' := by
  simp only [stageKeys, List.forall_mem_cons] at h
  obtain ⟨hfilter, hcollect, haggregate, hsort, hreturn, -⟩ := h
  rw [ofMembers, ofMembers, hfilter, hcollect, haggregate, hsort, hreturn]

theorem ofJson_eq_of_perm {members members' : Dictionary Json}
    (hkeys : (recognised members).keys.Nodup)
    (hperm : (recognised members).Perm (recognised members')) :
    ofJson (.object members) = ofJson (.object members') := by
  apply ofMembers_congr
  intro key hkey
  exact Dictionary.get?_eq_of_perm_filter (fun k => k ∈ stageKeys) hkeys hperm (decide_eq_true hkey)

/-! ### Stages and their lines -/

inductive Stage where
  | loop
  | filter
  | collect
  | aggregate
  | sort
  | result
  deriving DecidableEq, Repr

/-- The stages in the order of execution. -/
def Stage.order : List Stage := [.loop, .filter, .collect, .aggregate, .sort, .result]

theorem Stage.mem_order (s : Stage) : s ∈ Stage.order := by
  cases s <;> decide

def HasStage (p : Pipeline) : Stage → Prop
  | .loop => True
  | .filter => ∃ f, p.filter = some f ∧ f ≠ .always
  | .collect => p.groups ≠ []
  | .aggregate => p.aggregates ≠ []
  | .sort => p.sort ≠ []
  | .result => True

/-- A filter that is always true is no stage. -/
theorem hasStage_filter_iff {p : Pipeline} :
    p.HasStage .filter ↔ (p.filter.any fun f => !f.isAlways) = true := by
  cases hf : p.filter with
  | none => simp [HasStage, hf]
  | some f => simp [HasStage, hf, ← Predicate.isAlways_iff]

instance (p : Pipeline) : DecidablePred p.HasStage := fun s =>
  match s with
  | .loop => isTrue trivial
  | .filter => decidable_of_iff' _ hasStage_filter_iff
  | .collect => inferInstanceAs (Decidable (p.groups ≠ []))
  | .aggregate => inferInstanceAs (Decidable (p.aggregates ≠ []))
  | .sort => inferInstanceAs (Decidable (p.sort ≠ []))
  | .result => isTrue trivial

/-- The text is made of texts of the items, with commas between them. -/
def IsListing {α : Type} (written : α → String → Prop) (items : List α) (text : String) : Prop :=
  ∃ texts, List.Forall₂ written items texts ∧ text = String.intercalate ", " texts

theorem isListing_map {α : Type} {written : α → String → Prop} {items : List α}
    {write : α → String} (h : ∀ x ∈ items, written x (write x)) :
    IsListing written items (String.intercalate ", " (items.map write)) :=
  ⟨_, List.forall₂_map_right_iff.mpr (List.forall₂_same.mpr h), rfl⟩

/-- How a sort key is written: in a grouped pipeline an attribute is a variable. -/
def sortFieldText (p : Pipeline) : Field → String
  | .attribute name => if p.isGrouped then name else attributePath recordVariable name
  | .expression text => text

theorem sortKeyText_eq (p : Pipeline) (k : Field × Direction) :
    p.sortKeyText k = p.sortFieldText k.1 ++ " " ++ k.2.keyword := by
  obtain ⟨field, direction⟩ := k
  cases field <;> rfl

section Lines

variable (inGroups inSort : Field → String → Prop) (p : Pipeline) (key collection : String)

/-- A group: its variable and what is written for its field. -/
def IsGroupText (g : String × Field) (line : String) : Prop :=
  ∃ text, inGroups g.2 text ∧ line = g.1 ++ " = " ++ text

/-- An aggregate: its variable, and the function on what is written for its field. -/
def IsAggregateText (a : Aggregate) (line : String) : Prop :=
  ∃ text, inGroups a.operand text ∧
    line = a.name ++ " = " ++ a.function.keyword ++ "(" ++ text ++ ")"

/-- A sort key: what is written for its field, and the direction. -/
def IsSortText (k : Field × Direction) (line : String) : Prop :=
  ∃ text, inSort k.1 text ∧ line = text ++ " " ++ k.2.keyword

/-- The line of a stage.  The first of `inGroups` and `inSort` says how fields are written in
groups and aggregates, and the second how they are written in sort keys. -/
inductive IsLine : Stage → String → Prop where
  | loop : IsLine .loop ("FOR " ++ recordVariable ++ " IN " ++ collectionName collection)
  | filter {f : Predicate} (h : p.filter = some f) :
      IsLine .filter ("FILTER " ++ f.render recordVariable)
  | collect {groups : String} (h : IsListing (IsGroupText inGroups) p.groups groups) :
      IsLine .collect ("COLLECT " ++ groups ++ if p.aggregates.isEmpty then p.intoClause else "")
  | aggregate {aggregates : String}
      (h : IsListing (IsAggregateText inGroups) p.aggregates aggregates) :
      IsLine .aggregate ((if p.groups.isEmpty then "COLLECT " else "") ++ "AGGREGATE " ++ aggregates
        ++ p.intoClause)
  | sort {keys : String} (h : IsListing (IsSortText inSort) p.sort keys) :
      IsLine .sort ("SORT " ++ keys)
  | result : IsLine .result ("RETURN " ++ p.resultText key)

end Lines

section Order

variable {inGroups inSort : Field → String → Prop} {p : Pipeline} {key collection : String}

theorem forall₂_isLine_stage {s : Stage} {lines : List String} (hno : ¬p.HasStage s → lines = [])
    (hyes : p.HasStage s →
      ∃ line, lines = [line] ∧ IsLine inGroups inSort p key collection s line) :
    List.Forall₂ (IsLine inGroups inSort p key collection)
      ([s].filter fun s => p.HasStage s) lines := by
  by_cases hs : p.HasStage s
  · obtain ⟨line, rfl, hline⟩ := hyes hs
    rw [List.filter_cons_of_pos (by simpa using hs)]
    exact .cons hline .nil
  · obtain rfl := hno hs
    rw [List.filter_cons_of_neg (by simpa using hs)]
    exact .nil

theorem forall₂_isLine_items {α : Type} {items : List α} {s : Stage} {line : String}
    (hs : p.HasStage s ↔ items ≠ []) (hline : IsLine inGroups inSort p key collection s line) :
    List.Forall₂ (IsLine inGroups inSort p key collection)
      ([s].filter fun s => p.HasStage s) (if items.isEmpty then [] else [line]) := by
  apply forall₂_isLine_stage
  · intro hno
    exact if_pos (List.isEmpty_iff.mpr (Classical.not_not.mp (mt hs.mpr hno)))
  · intro hyes
    exact ⟨line, if_neg (mt List.isEmpty_iff.mp (hs.mp hyes)), hline⟩

theorem forall₂_filterStage :
    List.Forall₂ (IsLine inGroups inSort p key collection)
      ([.filter].filter fun s => p.HasStage s) p.filterStage := by
  apply forall₂_isLine_stage
  · intro hno
    cases hf : p.filter with
    | none => rw [filterStage, hf]
    | some f =>
      have halways : f = .always := Classical.not_not.mp fun h => hno ⟨f, hf, h⟩
      rw [filterStage, hf, halways]
      rfl
  · rintro ⟨f, hf, hne⟩
    refine ⟨_, ?_, .filter hf⟩
    rw [filterStage, hf]
    exact if_neg (mt Predicate.isAlways_iff.mp hne)

theorem forall₂_collectStage
    (hgroups : ∀ g ∈ p.groups, inGroups g.2 (g.2.render recordVariable)) :
    List.Forall₂ (IsLine inGroups inSort p key collection)
      ([.collect].filter fun s => p.HasStage s) p.collectStage := by
  have hlisting : IsListing (IsGroupText inGroups) p.groups
      (String.intercalate ", " (p.groups.map groupText)) :=
    isListing_map fun g hg => ⟨_, hgroups g hg, rfl⟩
  exact forall₂_isLine_items Iff.rfl (.collect hlisting)

theorem forall₂_aggregateStage
    (haggregates : ∀ a ∈ p.aggregates, inGroups a.operand (a.operand.render recordVariable)) :
    List.Forall₂ (IsLine inGroups inSort p key collection)
      ([.aggregate].filter fun s => p.HasStage s) p.aggregateStage := by
  have hlisting : IsListing (IsAggregateText inGroups) p.aggregates
      (String.intercalate ", " (p.aggregates.map aggregateText)) :=
    isListing_map fun a ha => ⟨_, haggregates a ha, rfl⟩
  exact forall₂_isLine_items Iff.rfl (.aggregate hlisting)

theorem forall₂_sortStage (hsort : ∀ k ∈ p.sort, inSort k.1 (p.sortFieldText k.1)) :
    List.Forall₂ (IsLine inGroups inSort p key collection)
      ([.sort].filter fun s => p.HasStage s) p.sortStage := by
  have hlisting : IsListing (IsSortText inSort) p.sort
      (String.intercalate ", " (p.sort.map p.sortKeyText)) :=
    isListing_map fun k hk => ⟨_, hsort k hk, p.sortKeyText_eq k⟩
  exact forall₂_isLine_items Iff.rfl (.sort hlisting)

/-- **One line per stage that the pipeline has, in the order of execution.** -/
theorem forall₂_isLine
    (hgroups : ∀ g ∈ p.groups, inGroups g.2 (g.2.render recordVariable))
    (haggregates : ∀ a ∈ p.aggregates, inGroups a.operand (a.operand.render recordVariable))
    (hsort : ∀ k ∈ p.sort, inSort k.1 (p.sortFieldText k.1)) :
    List.Forall₂ (IsLine inGroups inSort p key collection)
      (Stage.order.filter fun s => p.HasStage s) (p.stages key collection) := by
  have horder : Stage.order = [Stage.loop] ++ ([Stage.filter] ++ [Stage.collect]
      ++ [Stage.aggregate] ++ [Stage.sort] ++ [Stage.result]) := rfl
  have hstages : p.stages key collection = [forStage collection] ++ (p.filterStage ++ p.collectStage
      ++ p.aggregateStage ++ p.sortStage ++ ["RETURN " ++ p.resultText key]) := rfl
  rw [horder, hstages]
  simp only [List.filter_append]
  have hloop : List.Forall₂ (IsLine inGroups inSort p key collection)
      ([.loop].filter fun s => p.HasStage s) [forStage collection] :=
    forall₂_isLine_stage (fun hno => absurd trivial hno) fun _ => ⟨_, rfl, .loop⟩
  have hresult : List.Forall₂ (IsLine inGroups inSort p key collection)
      ([.result].filter fun s => p.HasStage s) ["RETURN " ++ p.resultText key] :=
    forall₂_isLine_stage (fun hno => absurd trivial hno) fun _ => ⟨_, rfl, .result⟩
  refine List.rel_append hloop (List.rel_append ?_ hresult)
  refine List.rel_append (List.rel_append (List.rel_append ?_ ?_) ?_) ?_
  · exact forall₂_filterStage
  · exact forall₂_collectStage hgroups
  · exact forall₂_aggregateStage haggregates
  · exact forall₂_sortStage hsort

end Order

/-- **Neither what a pipeline is read as nor the order of its lines depends on the order of its
keys.**  Objects with the same members for stages, in any order and among any other members, are
read and written alike, failures included.  A pipeline is written with one line for each of its
stages, in the order of execution. -/
theorem stages_of_any_order :
    (∀ members members' : Dictionary Json, (recognised members).keys.Nodup →
      (recognised members).Perm (recognised members') →
        ofJson (.object members) = ofJson (.object members') ∧
          ∀ key collection,
            renderJson (.object members) key collection =
              renderJson (.object members') key collection) ∧
      ∀ v p, ofJson v = .ok p → ∀ key collection,
        renderJson v key collection = .ok (String.intercalate "\n" (p.stages key collection)) ∧
          List.Forall₂
            (IsLine (fun field text => text = field.render recordVariable)
              (fun field text => text = p.sortFieldText field) p key collection)
            (Stage.order.filter fun s => p.HasStage s) (p.stages key collection) := by
  constructor
  · intro members members' hkeys hperm
    have hread := ofJson_eq_of_perm hkeys hperm
    refine ⟨hread, fun key collection => ?_⟩
    rw [renderJson, renderJson, hread]
  · intro v p hp key collection
    constructor
    · rw [renderJson, hp]
      rfl
    · exact forall₂_isLine (fun _ _ => rfl) (fun _ _ => rfl) (fun _ _ => rfl)

/-- A pipeline that sorts groups, its keys in two orders and once with a key of no stage. -/
theorem stages_of_any_order_groups :
    let collect : String × Json := ("$collect", .object [("city", .string "home.city")])
    let sort : String × Json := ("$sort", .object [("city", .string "DESC")])
    let p : Pipeline :=
      { groups := [("city", .attribute "home.city")], sort := [(.attribute "city", .descending)] }
    ofJson (.object [sort, ("note", .null), collect]) = ofJson (.object [collect, sort]) ∧
      List.Forall₂
        (IsLine (fun field text => text = field.render recordVariable)
          (fun field text => text = p.sortFieldText field) p "id" "users")
        [.loop, .collect, .sort, .result]
        ["FOR record IN users", "COLLECT city = record.home.city", "SORT city DESC",
          "RETURN \x7b \"city\": city \x7d"] := by
  intro collect sort p
  have hkeys : (recognised [sort, ("note", .null), collect]).keys.Nodup := by decide
  have hperm : (recognised [sort, ("note", .null), collect]).Perm (recognised [collect, sort]) :=
    List.Perm.swap collect sort []
  have hread : ofJson (.object [collect, sort]) = .ok p := by rfl
  obtain ⟨hsame, -⟩ := stages_of_any_order.1 _ _ hkeys hperm
  obtain ⟨-, hlines⟩ := stages_of_any_order.2 _ p hread "id" "users"
  exact ⟨hsame, hlines⟩

end Pipeline

end Docstore
