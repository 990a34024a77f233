import Docstore.Proofs.Pipeline.Names

/-!
# Variables of a pipeline

Without a shape a grouped pipeline returns its variables.  Which they are can be told
from its object: the keys of `$collect`, those of `$aggregate`, and the name under `$into`
(`variableNames`).  The lines that bind them are written apart from the line that lists
them.  `Binding` says what such a line binds, and `IsBoundBy` that lines bind just these
variables: groups and aggregates are assigned on the lines of their stages, and the
variable for the members of a group stands on the last of these lines and on no other.

So the result of a pipeline names nothing that is not bound on a line before it
(`result_is_bound`).
-/

namespace Docstore

namespace Pipeline

/-! ### The names in the object -/

def stageEntries (stage : String) (v : Json) : Dictionary Json :=
  ((v.member? stage).bind Json.object?).getD []

/-- The names of groups: the keys of `$collect` but `$into`. -/
def groupNames (v : Json) : List String :=
  (stageEntries "$collect" v).keys.filter fun name => name ≠ intoKey

/-- The names of aggregates: the keys of `$aggregate`. -/
def aggregateNames (v : Json) : List String := (stageEntries "$aggregate" v).keys

def intoName? (v : Json) : Option String :=
  ((stageEntries "$collect" v).get? intoKey).bind Json.string?

def variableNames (v : Json) : List String :=
  groupNames v ++ aggregateNames v ++ (intoName? v).toList

theorem names_of_mapM_readGrouping {members : Dictionary Json} {entries : List Grouping}
    (h : members.mapM readGrouping = .ok entries) :
    (groupsOf entries).map Prod.fst = members.keys.filter (fun name => name ≠ intoKey) ∧
      intoOf entries = (members.get? intoKey).bind Json.string? ∧
      members.has intoKey = (intoOf entries).isSome := by
  induction members generalizing entries with
  | nil =>
    obtain rfl := Except.ok.inj h
    exact ⟨rfl, rfl, rfl⟩
  | cons m members ih =>
    obtain ⟨key, value⟩ := m
    obtain ⟨first, more, hfirst, hmore, rfl⟩ := mapM_cons_eq_ok_iff.mp h
    obtain ⟨hgroups, hinto, hgiven⟩ := ih hmore
    obtain ⟨source, hsource, ⟨hkey, -, rfl⟩ | ⟨hkey, -, rfl⟩⟩ := readGrouping_eq_ok hfirst
    · obtain rfl : key = intoKey := hkey
      obtain rfl : value = .string source := hsource
      refine ⟨?_, ?_, ?_⟩
      · simpa [groupsOf, Dictionary.keys] using hgroups
      · simp [intoOf, Dictionary.get?, Json.string?]
      · simp [intoOf, Dictionary.has, Dictionary.get?]
    · replace hkey : key ≠ intoKey := hkey
      refine ⟨?_, ?_, ?_⟩
      · simpa [groupsOf, Dictionary.keys, hkey] using hgroups
      · simpa [intoOf, Dictionary.get?, hkey] using hinto
      · simpa [intoOf, Dictionary.has, Dictionary.get?, hkey] using hgiven

theorem mapM_stageEntries {α : Type} {stage : String} {v : Json}
    {read : String × Json → Except Failure α} {entries : List α}
    (h : (match v.member? stage with
      | none => Except.ok []
      | some w => stageMembers stage w >>= fun members => members.mapM read) = .ok entries) :
    (stageEntries stage v).mapM read = .ok entries := by
  rw [stageEntries]
  cases hstage : v.member? stage with
  | none => rwa [hstage] at h
  | some w =>
    rw [hstage] at h
    obtain ⟨members, hmembers, hread⟩ := bind_eq_ok_iff.mp h
    cases w with
    | object _ =>
      obtain rfl := Except.ok.inj hmembers
      exact hread
    | _ => exact absurd hmembers (by simp [stageMembers])

theorem readShape_eq_ok {o shape : Option Json} (h : readShape o = .ok shape) : shape = o := by
  cases o with
  | none => exact (Except.ok.inj h).symm
  | some v =>
    obtain ⟨_, -, hshape⟩ := bind_eq_ok_iff.mp h
    exact (Except.ok.inj hshape).symm

/-- What an accepted object says of the variables and the shape of its pipeline. -/
structure NamesVariables (v : Json) (p : Pipeline) : Prop where
  groups : p.groups.map Prod.fst = groupNames v
  aggregates : p.aggregates.map Aggregate.name = aggregateNames v
  into : p.into = intoName? v
  /-- Under `$into` stands a name. -/
  given : intoKey ∈ (stageEntries "$collect" v).keys ↔ (intoName? v).isSome = true
  shape : p.shape = v.member? "$return"

theorem namesVariables_of_ofJson {v : Json} {p : Pipeline} (h : ofJson v = .ok p) :
    NamesVariables v p := by
  cases v with
  | object members =>
    rw [ofJson, ofMembers] at h
    simp only [bind_eq_ok_iff] at h
    obtain ⟨_, -, entries, hcollect, aggregates, haggregate, _, -, shape, hshape, h⟩ := h
    obtain rfl := Except.ok.inj h
    have hcollected : (stageEntries "$collect" (.object members)).mapM readGrouping = .ok entries :=
      mapM_stageEntries hcollect
    have haggregated :
        (stageEntries "$aggregate" (.object members)).mapM readAggregate = .ok aggregates :=
      mapM_stageEntries haggregate
    obtain ⟨hgroups, hinto, hgiven⟩ := names_of_mapM_readGrouping hcollected
    refine ⟨hgroups, ?_, hinto, ?_, readShape_eq_ok hshape⟩
    · exact map_eq_map_of_mapM_eq_ok (fun m a hm => (name_of_readAggregate hm).2.symm) haggregated
    · rw [← Dictionary.get?_isSome_iff, ← Dictionary.has, hgiven, hinto]
      rfl
  | _ => exact absurd h (by simp [ofJson])

/-! ### The lines that bind them -/

/-- A line that binds variables: its stage, the words that open it, what is assigned to which
variables, and the variable for the members of a group. -/
structure Binding where
  stage : Stage
  opening : String
  assigned : List (String × String)
  into : Option String

namespace Binding

def intoText : Option String → String
  | none => ""
  | some name => " INTO " ++ name

def text (b : Binding) : String :=
  b.opening ++ String.intercalate ", " (b.assigned.map fun a => a.1 ++ " = " ++ a.2)
    ++ intoText b.into

/-- The variables that are known behind the line. -/
def bound (b : Binding) : List String := b.assigned.map Prod.fst ++ b.into.toList

end Binding

def grouping (p : Pipeline) : Binding where
  stage := .collect
  opening := "COLLECT "
  assigned := p.groups.map fun g => (g.1, g.2.render recordVariable)
  into := if p.aggregates.isEmpty then p.into else none

def aggregation (p : Pipeline) : Binding where
  stage := .aggregate
  opening := (if p.groups.isEmpty then "COLLECT " else "") ++ "AGGREGATE "
  assigned := p.aggregates.map fun a =>
    (a.name, a.function.keyword ++ "(" ++ a.operand.render recordVariable ++ ")")
  into := p.into

def bindings (p : Pipeline) : List Binding :=
  (if p.groups.isEmpty then [] else [p.grouping]) ++
    if p.aggregates.isEmpty then [] else [p.aggregation]

theorem text_grouping (p : Pipeline) :
    p.grouping.text = "COLLECT " ++ String.intercalate ", " (p.groups.map groupText)
      ++ if p.aggregates.isEmpty then p.intoClause else "" := by
  rw [Binding.text, grouping, List.map_map]
  simp only
  split <;> rfl

theorem text_aggregation (p : Pipeline) :
    p.aggregation.text = (if p.groups.isEmpty then "COLLECT " else "") ++ "AGGREGATE "
      ++ String.intercalate ", " (p.aggregates.map aggregateText) ++ p.intoClause := by
  have hassigned : (p.aggregation.assigned.map fun a => a.1 ++ " = " ++ a.2) =
      p.aggregates.map aggregateText := by
    rw [aggregation, List.map_map]
    refine List.map_congr_left fun a _ => ?_
    simp [aggregateText, String.append_assoc]
  rw [Binding.text, hassigned]
  rfl

/-- **The lines that bind variables stand between the filter and the order.** -/
theorem stages_eq (p : Pipeline) (key collection : String) :
    p.stages key collection =
      forStage collection :: (p.filterStage ++ p.bindings.map Binding.text ++ p.sortStage
        ++ ["RETURN " ++ p.resultText key]) := by
  have hlines : p.collectStage ++ p.aggregateStage = p.bindings.map Binding.text := by
    rw [collectStage, aggregateStage, ← text_grouping, ← text_aggregation, bindings,
      List.map_append]
    split <;> split <;> rfl
  rw [stages, ← hlines, List.append_assoc p.filterStage]

/-! ### The result -/

/-- The names that the object gives to what a stage binds. -/
def namesOf (v : Json) : Stage → List String
  | .collect => groupNames v
  | .aggregate => aggregateNames v
  | _ => []

/-- The stage that the variable for members goes with: the last of those that bind variables. -/
def lastBinder (v : Json) : Stage := if aggregateNames v = [] then .collect else .aggregate

/-- The lines bind the variables that the object names. -/
structure IsBoundBy (v : Json) (bindings : List Binding) : Prop where
  /-- There is a line for each stage with names, in their order. -/
  stages : bindings.map Binding.stage =
    [Stage.collect, Stage.aggregate].filter fun s => namesOf v s ≠ []
  /-- On the line of a stage its names are assigned, in their order. -/
  assigned : ∀ b ∈ bindings, b.assigned.map Prod.fst = namesOf v b.stage
  /-- The variable for members stands on the last line and no other. -/
  into : ∀ b ∈ bindings, b.into = if b.stage = lastBinder v then intoName? v else none
  intoOnce : bindings.filterMap Binding.into = (intoName? v).toList
  /-- Under `$into` stands a name. -/
  given : intoKey ∈ (stageEntries "$collect" v).keys ↔ (intoName? v).isSome = true
  /-- Every name is bound on some line, and it is an identifier. -/
  bound : ∀ name ∈ variableNames v,
    isIdentifier name = true ∧ ∃ b ∈ bindings, name ∈ b.bound

namespace NamesVariables

variable {v : Json} {p : Pipeline} (h : NamesVariables v p)

include h

theorem boundNames_eq : p.boundNames = variableNames v := by
  rw [boundNames, h.groups, h.aggregates, h.into, variableNames]

theorem isEmpty_groups : p.groups.isEmpty = true ↔ groupNames v = [] := by
  rw [← h.groups, List.map_eq_nil_iff, List.isEmpty_iff]

theorem isEmpty_aggregates : p.aggregates.isEmpty = true ↔ aggregateNames v = [] := by
  rw [← h.aggregates, List.map_eq_nil_iff, List.isEmpty_iff]

theorem bindings_eq :
    p.bindings = (if groupNames v = [] then [] else [p.grouping]) ++
      if aggregateNames v = [] then [] else [p.aggregation] := by
  simp only [bindings, h.isEmpty_groups, h.isEmpty_aggregates]

theorem assigned_grouping : p.grouping.assigned.map Prod.fst = groupNames v := by
  rw [grouping, List.map_map, ← h.groups]
  rfl

theorem assigned_aggregation : p.aggregation.assigned.map Prod.fst = aggregateNames v := by
  rw [aggregation, List.map_map, ← h.aggregates]
  rfl

theorem into_grouping :
    p.grouping.into = if aggregateNames v = [] then intoName? v else none := by
  simp only [grouping, h.isEmpty_aggregates, h.into]

theorem mem_bindings_iff {b : Binding} :
    b ∈ p.bindings ↔
      groupNames v ≠ [] ∧ b = p.grouping ∨ aggregateNames v ≠ [] ∧ b = p.aggregation := by
  rw [h.bindings_eq, List.mem_append]
  split <;> split <;> simp [*]

/-- **What the lines of a grouped pipeline bind.** -/
theorem isBoundBy (hgrouped : groupNames v ≠ [] ∨ aggregateNames v ≠ [])
    (hidentifier : ∀ name ∈ variableNames v, isIdentifier name = true) :
    IsBoundBy v p.bindings where
  stages := by
    rw [h.bindings_eq]
    by_cases hg : groupNames v = [] <;> by_cases ha : aggregateNames v = [] <;>
      simp [hg, ha, namesOf, grouping, aggregation]
  assigned := by
    intro b hb
    rcases h.mem_bindings_iff.mp hb with ⟨-, rfl⟩ | ⟨-, rfl⟩
    · exact h.assigned_grouping
    · exact h.assigned_aggregation
  into := by
    intro b hb
    rcases h.mem_bindings_iff.mp hb with ⟨-, rfl⟩ | ⟨ha, rfl⟩
    · rw [h.into_grouping, lastBinder]
      by_cases ha : aggregateNames v = []
      · rw [if_pos ha, if_pos ha]
        rfl
      · rw [if_neg ha, if_neg ha]
        rfl
    · rw [lastBinder, if_neg ha]
      exact h.into
  intoOnce := by
    have hone (b : Binding) : [b].filterMap Binding.into = b.into.toList := by
      rw [List.filterMap_cons]
      cases b.into <;> rfl
    have hlast : p.aggregation.into = intoName? v := h.into
    rw [h.bindings_eq]
    by_cases ha : aggregateNames v = []
    · have hg : groupNames v ≠ [] := hgrouped.resolve_right (absurd ha)
      rw [if_neg hg, if_pos ha, List.append_nil, hone, h.into_grouping, if_pos ha]
    · -- With aggregates the line of groups leaves the name to the line behind it.
      have hfirst :
          (if groupNames v = [] then [] else [p.grouping]).filterMap Binding.into = [] := by
        split
        · rfl
        · rw [hone, h.into_grouping, if_neg ha]
          rfl
      rw [if_neg ha, List.filterMap_append, hfirst, hone, hlast, List.nil_append]
  given := h.given
  bound := by
    intro name hname
    refine ⟨hidentifier name hname, ?_⟩
    rw [variableNames, List.mem_append, List.mem_append] at hname
    obtain (hgroup | haggregate) | hinto := hname
    · refine ⟨p.grouping, h.mem_bindings_iff.mpr (Or.inl ⟨List.ne_nil_of_mem hgroup, rfl⟩), ?_⟩
      exact List.mem_append_left _ (h.assigned_grouping ▸ hgroup)
    · refine ⟨p.aggregation,
        h.mem_bindings_iff.mpr (Or.inr ⟨List.ne_nil_of_mem haggregate, rfl⟩), ?_⟩
      exact List.mem_append_left _ (h.assigned_aggregation ▸ haggregate)
    · by_cases ha : aggregateNames v = []
      · have hg : groupNames v ≠ [] := hgrouped.resolve_right (absurd ha)
        have hlast : p.grouping.into = intoName? v := by rw [h.into_grouping, if_pos ha]
        exact ⟨p.grouping, h.mem_bindings_iff.mpr (Or.inl ⟨hg, rfl⟩),
          List.mem_append_right _ (hlast ▸ hinto)⟩
      · have hlast : p.aggregation.into = intoName? v := h.into
        exact ⟨p.aggregation, h.mem_bindings_iff.mpr (Or.inr ⟨ha, rfl⟩),
          List.mem_append_right _ (hlast ▸ hinto)⟩

end NamesVariables

/-- An object with an entry for each name: the name as a quoted key, and the variable. -/
def objectOf (names : List String) : String :=
  "\x7b " ++ String.intercalate ", " (names.map fun n => Json.quote n ++ ": " ++ n) ++ " \x7d"

/-- **Without a shape the result of a grouped pipeline lists its variables**, and each of them is
bound on a line before it. -/
theorem result_is_bound {v : Json} {p : Pipeline} (h : ofJson v = .ok p)
    (hgrouped : groupNames v ≠ [] ∨ aggregateNames v ≠ []) (hreturn : v.member? "$return" = none)
    (key collection : String) :
    renderJson v key collection = .ok (String.intercalate "\n"
        (forStage collection :: (p.filterStage ++ p.bindings.map Binding.text ++ p.sortStage
          ++ ["RETURN " ++ objectOf (variableNames v)]))) ∧
      IsBoundBy v p.bindings := by
  have hnames := namesVariables_of_ofJson h
  have hidentifier := isIdentifier_of_mem_boundNames h
  rw [hnames.boundNames_eq] at hidentifier
  refine ⟨?_, hnames.isBoundBy hgrouped hidentifier⟩
  have hshape : p.shape = none := hnames.shape.trans hreturn
  have hgroups : p.isGrouped = true := by
    rw [isGrouped, Bool.or_eq_true, Bool.not_eq_true', Bool.not_eq_true', ← Bool.not_eq_true,
      ← Bool.not_eq_true, hnames.isEmpty_groups, hnames.isEmpty_aggregates]
    exact hgrouped
  have hresult : p.resultText key = objectOf (variableNames v) := by
    simp only [resultText, hshape, hgroups, if_true, hnames.boundNames_eq, objectOf]
  rw [renderJson, h, ← hresult]
  exact congrArg Except.ok (congrArg (String.intercalate "\n") (p.stages_eq key collection))

/-- Two groups around the name for members, and two aggregates behind them. -/
theorem result_is_bound_members :
    let v : Json := .object [
      ("$aggregate", .object [("total", .object [("$sum", .string "price")]),
        ("most", .object [("$max", .string "price")])]),
      ("$collect", .object [("city", .string "home.city"), ("$into", .string "members"),
        ("year", .string "$DATE_YEAR(record.at)")]),
      ("$sort", .object [("total", .string "DESC")])]
    ∃ p, ofJson v = .ok p ∧ (groupNames v ≠ [] ∨ aggregateNames v ≠ []) ∧
      v.member? "$return" = none ∧
      variableNames v = ["city", "year", "total", "most", "members"] ∧
      p.bindings.map Binding.text =
        ["COLLECT city = record.home.city, year = DATE_YEAR(record.at)",
          "AGGREGATE total = SUM(record.price), most = MAX(record.price) INTO members"] ∧
      renderJson v "id" "users" = .ok (String.intercalate "\n"
        (forStage "users" :: (p.filterStage ++ p.bindings.map Binding.text ++ p.sortStage
          ++ ["RETURN " ++ objectOf (variableNames v)]))) ∧
      IsBoundBy v p.bindings := by
  intro v
  obtain ⟨p, hp, hlines⟩ : ∃ p, ofJson v = .ok p ∧ p.bindings.map Binding.text =
      ["COLLECT city = record.home.city, year = DATE_YEAR(record.at)",
        "AGGREGATE total = SUM(record.price), most = MAX(record.price) INTO members"] :=
    ⟨_, rfl, by decide +kernel⟩
  have hgrouped : groupNames v ≠ [] ∨ aggregateNames v ≠ [] := Or.inl (by decide)
  have hreturn : v.member? "$return" = none := rfl
  exact ⟨p, hp, hgrouped, hreturn, by decide, hlines,
    result_is_bound hp hgrouped hreturn "id" "users"⟩

end Pipeline

end Docstore
