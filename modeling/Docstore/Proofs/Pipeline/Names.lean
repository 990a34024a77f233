import Docstore.Proofs.Pipeline.Stages
import Docstore.Proofs.Term.Path

/-!
# Names in the lines of a pipeline

The variables of a pipeline are identifiers, since the reader refuses other aliases
(`isIdentifier_of_mem_boundNames`).  The attributes that groups, aggregates and sort keys
name are written as paths from the record, which are paths as long as their names can be
quoted.

Sort keys of a grouped pipeline are neither checked as aliases nor quoted as attributes:
they go into the query as they are (`isWritten_sortFieldText_iff`).  So there a sort key
must itself be a path; any other text becomes a part of the query
(`sort_key_of_groups_goes_verbatim`).
-/

namespace Docstore

namespace Pipeline

/-! ### Variables -/

theorem readAlias_eq_ok_iff {stage name bound : String} :
    readAlias stage name = .ok bound ↔ isIdentifier name = true ∧ name = bound := by
  rw [readAlias]
  split
  · next h => simp [h]
  · next h => simp [h]

def Grouping.variable : Grouping → String
  | .into name => name
  | .by name _ => name

theorem readGrouping_eq_ok {m : String × Json} {entry : Grouping}
    (h : readGrouping m = .ok entry) :
    ∃ source, m.2 = .string source ∧
      (m.1 = intoKey ∧ isIdentifier source = true ∧ entry = .into source ∨
        m.1 ≠ intoKey ∧ isIdentifier m.1 = true ∧ entry = .by m.1 (.ofKey source)) := by
  rw [readGrouping] at h
  split at h
  · next source hsource =>
    refine ⟨source, hsource, ?_⟩
    split at h
    · next hkey =>
      split at h
      · next hidentifier => exact Or.inl ⟨hkey, hidentifier, (Except.ok.inj h).symm⟩
      · exact absurd h (by simp)
    · next hkey =>
      obtain ⟨name, hname, rfl⟩ := map_eq_ok_iff.mp h
      obtain ⟨hidentifier, rfl⟩ := readAlias_eq_ok_iff.mp hname
      exact Or.inr ⟨hkey, hidentifier, rfl⟩
  · exact absurd h (by simp)

theorem isIdentifier_of_readGrouping {m : String × Json} {entry : Grouping}
    (h : readGrouping m = .ok entry) : isIdentifier entry.variable = true := by
  obtain ⟨_, -, ⟨-, hidentifier, rfl⟩ | ⟨-, hidentifier, rfl⟩⟩ := readGrouping_eq_ok h
  · exact hidentifier
  · exact hidentifier

theorem name_of_readAggregate {m : String × Json} {a : Aggregate}
    (h : readAggregate m = .ok a) : isIdentifier m.1 = true ∧ m.1 = a.name := by
  rw [readAggregate] at h
  split at h
  · split at h
    · exact absurd h (by simp)
    · split at h
      · obtain ⟨name, hname, rfl⟩ := map_eq_ok_iff.mp h
        exact readAlias_eq_ok_iff.mp hname
      · exact absurd h (by simp)
  · exact absurd h (by simp)
  · exact absurd h (by simp)

theorem isIdentifier_of_readAggregate {m : String × Json} {a : Aggregate}
    (h : readAggregate m = .ok a) : isIdentifier a.name = true := by
  obtain ⟨hidentifier, hname⟩ := name_of_readAggregate h
  rwa [← hname]

/-- What comes out of a stage was read from one of its members. -/
theorem exists_of_mem_of_stage {α : Type} {stage : String} {v : Json}
    {read : String × Json → Except Failure α} {entries : List α}
    (h : (stageMembers stage v >>= fun members => members.mapM read) = .ok entries) {entry : α}
    (hentry : entry ∈ entries) : ∃ m, read m = .ok entry := by
  obtain ⟨members, -, hread⟩ := bind_eq_ok_iff.mp h
  obtain ⟨m, -, hm⟩ := exists_of_mem_of_mapM_eq_ok hread hentry
  exact ⟨m, hm⟩

theorem isIdentifier_of_readCollect {o : Option Json} {entries : List Grouping}
    (h : readCollect o = .ok entries) : ∀ entry ∈ entries, isIdentifier entry.variable = true := by
  intro entry hentry
  cases o with
  | none =>
    obtain rfl := Except.ok.inj h
    exact absurd hentry (by simp)
  | some v =>
    obtain ⟨m, hm⟩ := exists_of_mem_of_stage h hentry
    exact isIdentifier_of_readGrouping hm

theorem isIdentifier_of_readAggregates {o : Option Json} {aggregates : List Aggregate}
    (h : readAggregates o = .ok aggregates) : ∀ a ∈ aggregates, isIdentifier a.name = true := by
  intro a ha
  cases o with
  | none =>
    obtain rfl := Except.ok.inj h
    exact absurd ha (by simp)
  | some v =>
    obtain ⟨m, hm⟩ := exists_of_mem_of_stage h ha
    exact isIdentifier_of_readAggregate hm

theorem by_mem_of_mem_groupsOf {entries : List Grouping} {g : String × Field}
    (h : g ∈ groupsOf entries) : .by g.1 g.2 ∈ entries := by
  obtain ⟨entry, hentry, heq⟩ := List.mem_filterMap.mp h
  cases entry with
  | into name => exact absurd heq (by simp)
  | «by» name source =>
    obtain rfl := Option.some.inj heq
    exact hentry

theorem into_mem_of_intoOf_eq_some {entries : List Grouping} {name : String}
    (h : intoOf entries = some name) : .into name ∈ entries := by
  obtain ⟨entry, hentry, heq⟩ := List.exists_of_findSome?_eq_some h
  cases entry with
  | into other =>
    obtain rfl := Option.some.inj heq
    exact hentry
  | «by» other source => exact absurd heq (by simp)

theorem isIdentifier_of_mem_boundNames {v : Json} {p : Pipeline} (h : ofJson v = .ok p) :
    ∀ name ∈ p.boundNames, isIdentifier name = true := by
  cases v with
  | object members =>
    rw [ofJson, ofMembers] at h
    simp only [bind_eq_ok_iff] at h
    obtain ⟨_, -, entries, hcollect, aggregates, haggregate, _, -, _, -, h⟩ := h
    obtain rfl := Except.ok.inj h
    have hentries := isIdentifier_of_readCollect hcollect
    intro name hname
    rcases List.mem_append.mp hname with hname | hinto
    · rcases List.mem_append.mp hname with hgroup | haggregated
      · obtain ⟨g, hg, rfl⟩ := List.mem_map.mp hgroup
        exact hentries _ (by_mem_of_mem_groupsOf hg)
      · obtain ⟨a, ha, rfl⟩ := List.mem_map.mp haggregated
        exact isIdentifier_of_readAggregates haggregate a ha
    · exact hentries _ (into_mem_of_intoOf_eq_some (Option.mem_toList.mp hinto))
  | _ => exact absurd h (by simp [ofJson])

/-! ### Attributes -/

/-- The text stands for a field: it is what `write` makes of it and, if the field is an attribute,
a path. -/
def IsWritten (write : Field → String) (field : Field) (text : String) : Prop :=
  text = write field ∧ ∀ name, field = .attribute name → IsPath text

/-- The field can be written in groups and aggregates, and in sort keys of records. -/
def IsWritableField (field : Field) : Prop :=
  ∀ name, field = .attribute name → HasQuotableNames name

theorem isWritten_render_iff {field : Field} :
    IsWritten (Field.render recordVariable) field (field.render recordVariable) ↔
      IsWritableField field := by
  have hpath := isPath_attributePath_iff (show isIdentifier recordVariable = true by decide)
  constructor
  · rintro ⟨-, h⟩ name rfl
    exact (hpath name).mp (h name rfl)
  · intro h
    refine ⟨rfl, ?_⟩
    rintro name rfl
    exact (hpath name).mpr (h name rfl)

/-- The field can be written in sort keys: in a grouped pipeline an attribute is written as it
is. -/
def IsSortableField (p : Pipeline) (field : Field) : Prop :=
  if p.isGrouped then ∀ name, field = .attribute name → IsPath name else IsWritableField field

theorem isWritten_sortFieldText_iff {p : Pipeline} {field : Field} :
    IsWritten p.sortFieldText field (p.sortFieldText field) ↔ p.IsSortableField field := by
  cases hgrouped : p.isGrouped with
  | false =>
    have htext : ∀ f, p.sortFieldText f = f.render recordVariable := by
      intro f
      cases f <;> simp [sortFieldText, hgrouped, Field.render]
    rw [IsSortableField, hgrouped, IsWritten, htext field]
    exact isWritten_render_iff
  | true =>
    have htext : ∀ name, p.sortFieldText (.attribute name) = name := by
      intro name
      simp [sortFieldText, hgrouped]
    rw [IsSortableField, hgrouped, if_pos rfl, IsWritten, and_iff_right rfl]
    constructor
    · rintro h name rfl
      exact htext name ▸ h name rfl
    · rintro h name rfl
      rw [htext]
      exact h name rfl

theorem IsWritten.self {write : Field → String} {field : Field} {text : String}
    (h : IsWritten write field text) : IsWritten write field (write field) := by
  obtain ⟨rfl, hpath⟩ := h
  exact ⟨rfl, hpath⟩

/-- All fields can be written where they stand. -/
structure HasWritableFields (p : Pipeline) : Prop where
  groups : ∀ g ∈ p.groups, IsWritableField g.2
  aggregates : ∀ a ∈ p.aggregates, IsWritableField a.operand
  sort : ∀ k ∈ p.sort, p.IsSortableField k.1

/-- The lines of the stages, in which attributes stand as paths. -/
def HasPathLines (p : Pipeline) (key collection : String) : Prop :=
  List.Forall₂
    (IsLine (IsWritten (Field.render recordVariable)) (IsWritten p.sortFieldText) p key collection)
    (Stage.order.filter fun s => p.HasStage s) (p.stages key collection)

theorem exists_of_forall₂_of_mem {α β : Type} {R : α → β → Prop} {xs : List α} {ys : List β}
    (h : List.Forall₂ R xs ys) {x : α} (hx : x ∈ xs) : ∃ y, R x y := by
  induction h with
  | nil => exact absurd hx (by simp)
  | @cons a b _ _ hab _ ih =>
    rcases List.mem_cons.mp hx with rfl | hx
    · exact ⟨b, hab⟩
    · exact ih hx

theorem IsListing.exists_of_mem {α : Type} {written : α → String → Prop} {items : List α}
    {text : String} (h : IsListing written items text) {x : α} (hx : x ∈ items) :
    ∃ line, written x line := by
  obtain ⟨texts, htexts, -⟩ := h
  exact exists_of_forall₂_of_mem htexts hx

/-- **Attributes stand as paths in the lines of a pipeline exactly when they can be written.** -/
theorem hasPathLines_iff {p : Pipeline} {key collection : String} :
    p.HasPathLines key collection ↔ p.HasWritableFields := by
  constructor
  · intro h
    have hline : ∀ s, p.HasStage s → ∃ line,
        IsLine (IsWritten (Field.render recordVariable)) (IsWritten p.sortFieldText) p key
          collection s line := by
      intro s hs
      exact exists_of_forall₂_of_mem h (List.mem_filter.mpr ⟨s.mem_order, decide_eq_true hs⟩)
    constructor
    · intro g hg
      obtain ⟨_, hcollect⟩ := hline .collect (List.ne_nil_of_mem hg)
      cases hcollect with
      | collect hlisting =>
        obtain ⟨_, _, hwritten, -⟩ := hlisting.exists_of_mem hg
        exact isWritten_render_iff.mp hwritten.self
    · intro a ha
      obtain ⟨_, haggregate⟩ := hline .aggregate (List.ne_nil_of_mem ha)
      cases haggregate with
      | aggregate hlisting =>
        obtain ⟨_, _, hwritten, -⟩ := hlisting.exists_of_mem ha
        exact isWritten_render_iff.mp hwritten.self
    · intro k hk
      obtain ⟨_, hsort⟩ := hline .sort (List.ne_nil_of_mem hk)
      cases hsort with
      | sort hlisting =>
        obtain ⟨_, _, hwritten, -⟩ := hlisting.exists_of_mem hk
        exact isWritten_sortFieldText_iff.mp hwritten.self
  · intro h
    apply forall₂_isLine
    · exact fun g hg => isWritten_render_iff.mpr (h.groups g hg)
    · exact fun a ha => isWritten_render_iff.mpr (h.aggregates a ha)
    · exact fun k hk => isWritten_sortFieldText_iff.mpr (h.sort k hk)

/-- **In the lines of a pipeline, names are paths as far as they can be quoted.**  All variables
are identifiers.  The attributes in groups, aggregates and sort keys stand as paths exactly when
their names can be quoted, and when the sort keys of a grouped pipeline, which nothing quotes, are
paths already. -/
theorem names_are_paths_iff {v : Json} {p : Pipeline} (h : ofJson v = .ok p)
    (key collection : String) :
    (∀ name ∈ p.boundNames, isIdentifier name = true) ∧
      (p.HasPathLines key collection ↔ p.HasWritableFields) :=
  ⟨isIdentifier_of_mem_boundNames h, hasPathLines_iff⟩

/-- Names with blanks and backticks in a grouped pipeline, sorted by one of its variables. -/
theorem names_are_paths_iff_town :
    let p : Pipeline :=
      { groups := [("town", .attribute "home address.city")]
        into := some "members"
        aggregates := [⟨"total", .sum, .attribute "n\x60s"⟩]
        sort := [(.attribute "town", .descending)] }
    (∀ name ∈ ["town", "total", "members"], isIdentifier name = true) ∧
      p.HasPathLines "id" "users" ∧
      p.stages "id" "users" =
        ["FOR record IN users", "COLLECT town = record.\x60home address\x60.city",
          "AGGREGATE total = SUM(record.\x60n\\\x60s\x60) INTO members", "SORT town DESC",
          "RETURN \x7b \"town\": town, \"total\": total, \"members\": members \x7d"] := by
  intro p
  have hread : ofJson (.object
      [("$collect",
          .object [("town", .string "home address.city"), ("$into", .string "members")]),
        ("$aggregate", .object [("total", .object [("$sum", .string "n\x60s")])]),
        ("$sort", .object [("town", .string "DESC")])]) = .ok p := by rfl
  obtain ⟨hbound, hiff⟩ := names_are_paths_iff hread "id" "users"
  refine ⟨hbound, hiff.mpr ⟨?_, ?_, ?_⟩, by rfl⟩
  · intro g hg name hname
    obtain rfl := List.mem_singleton.mp hg
    obtain rfl := Field.attribute.inj hname
    exact hasQuotableNames_of_not_mem (by decide)
  · intro a ha name hname
    obtain rfl := List.mem_singleton.mp ha
    obtain rfl := Field.attribute.inj hname
    exact hasQuotableNames_of_not_mem (by decide)
  · intro k hk name hname
    obtain rfl := List.mem_singleton.mp hk
    obtain rfl := Field.attribute.inj hname
    exact isPath_of_isIdentifier (by decide)

/-- A sort key of groups that is no path: it closes its stage and brings a result of its own. -/
theorem sort_key_of_groups_goes_verbatim :
    let p : Pipeline :=
      { groups := [("city", .attribute "city")]
        sort := [(.attribute "city RETURN 1 //", .ascending)] }
    ofJson (.object
        [("$collect", .object [("city", .string "city")]),
          ("$sort", .object [("city RETURN 1 //", .string "ASC")])]) = .ok p ∧
      isIdentifier "users" = true ∧
      p.stages "id" "users" =
        ["FOR record IN users", "COLLECT city = record.city", "SORT city RETURN 1 // ASC",
          "RETURN \x7b \"city\": city \x7d"] ∧
      ¬IsPath "city RETURN 1 //" ∧ ¬p.HasPathLines "id" "users" := by
  intro p
  have hpath : ¬IsPath "city RETURN 1 //" := by
    intro h
    exact absurd (h.chars (by decide) ' ' (by decide)) (by decide)
  refine ⟨by rfl, by decide, by rfl, hpath, ?_⟩
  intro h
  have hsort : p.IsSortableField (.attribute "city RETURN 1 //") :=
    (hasPathLines_iff.mp h).sort _ List.mem_cons_self
  exact hpath (hsort _ rfl)

end Pipeline

end Docstore
