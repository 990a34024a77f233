import Docstore.Proofs.Json.Numbers

/-!
# Values that a text can hold

A text does not hold every value.  The reader refuses texts that nest too deep, of a key
that stands twice in an object only one entry is left, and some floating-point numbers
come back as a neighbour.  `IsLegible` keeps all three out, everywhere inside the value
(`parts`).  Then the draft of the value denotes the value again (`value?_draft`).

What a printer writes is looked at part by part: a property that goes from the children
of a value to the value holds of the value (`parts_induction`).
-/

namespace Docstore

namespace Json

mutual

/-- A value and all the values inside it. -/
def parts : Json → List Json
  | .array items => .array items :: partsOfItems items
  | .object members => .object members :: partsOfMembers members
  | v => [v]

def partsOfItems : List Json → List Json
  | [] => []
  | v :: vs => parts v ++ partsOfItems vs

def partsOfMembers : List (String × Json) → List Json
  | [] => []
  | (_, v) :: ms => parts v ++ partsOfMembers ms

end

mutual

/-- How many arrays and objects are nested in one another. -/
def depth : Json → Nat
  | .array items => depthOfItems items + 1
  | .object members => depthOfMembers members + 1
  | _ => 0

def depthOfItems : List Json → Nat
  | [] => 0
  | v :: vs => max (depth v) (depthOfItems vs)

def depthOfMembers : List (String × Json) → Nat
  | [] => 0
  | (_, v) :: ms => max (depth v) (depthOfMembers ms)

end

theorem mem_parts_self (v : Json) : v ∈ v.parts := by
  cases v with
  | array _ | object _ => exact List.mem_cons_self
  | _ => exact List.mem_singleton_self _

def children : Json → List Json
  | .array items => items
  | .object members => members.map Prod.snd
  | _ => []

section Induction

variable {P : Json → Prop}

mutual

/-- **What passes from the children to a value holds of the value**, if it does so at each of
its parts. -/
theorem parts_induction : ∀ (v : Json),
    (∀ w ∈ v.parts, (∀ u ∈ w.children, P u) → P w) → P v
  | .null, step | .bool _, step | .number _, step | .string _, step =>
    step _ (mem_parts_self _) fun _ h => absurd h List.not_mem_nil
  | .array items, step =>
    step _ (mem_parts_self _) (items_induction items fun w hw => step w (List.mem_cons_of_mem _ hw))
  | .object members, step =>
    step _ (mem_parts_self _)
      (members_induction members fun w hw => step w (List.mem_cons_of_mem _ hw))

theorem items_induction : ∀ (items : List Json),
    (∀ w ∈ partsOfItems items, (∀ u ∈ w.children, P u) → P w) → ∀ u ∈ items, P u
  | [], _ => fun _ h => absurd h List.not_mem_nil
  | v :: vs, step =>
    List.forall_mem_cons.mpr
      ⟨parts_induction v fun w hw => step w (List.mem_append_left _ hw),
        items_induction vs fun w hw => step w (List.mem_append_right _ hw)⟩

theorem members_induction : ∀ (members : List (String × Json)),
    (∀ w ∈ partsOfMembers members, (∀ u ∈ w.children, P u) → P w) →
      ∀ u ∈ members.map Prod.snd, P u
  | [], _ => fun _ h => absurd h List.not_mem_nil
  | (_, v) :: ms, step =>
    List.forall_mem_cons.mpr
      ⟨parts_induction v fun w hw => step w (List.mem_append_left _ hw),
        members_induction ms fun w hw => step w (List.mem_append_right _ hw)⟩

end

end Induction

/-- If the value is an object, no key stands in it twice. -/
def HasDistinctKeys : Json → Prop
  | .object members => (Dictionary.keys members).Nodup
  | _ => True

instance : DecidablePred HasDistinctKeys
  | .object members => inferInstanceAs (Decidable (Dictionary.keys members).Nodup)
  | .null | .bool _ | .number _ | .string _ | .array _ => isTrue trivial

/-- A text can hold the value: it nests at most so deep, no object has a key twice, and its
floating-point numbers are read back from their own texts. -/
structure IsLegible (limit : Nat) (v : Json) : Prop where
  depth : v.depth ≤ limit
  keys : ∀ w ∈ v.parts, w.HasDistinctKeys
  floats : ∀ x, .number (.float x) ∈ v.parts → (Number.float x).ReadsBack

def float? : Json → Option Binary64
  | .number (.float x) => some x
  | _ => none

theorem float?_eq_some_iff {v : Json} {x : Binary64} :
    v.float? = some x ↔ v = .number (.float x) := by
  rw [float?.eq_def]
  split <;> simp_all

theorem isLegible_iff {limit : Nat} {v : Json} :
    v.IsLegible limit ↔ v.depth ≤ limit ∧ (∀ w ∈ v.parts, w.HasDistinctKeys) ∧
      ∀ w ∈ v.parts, ∀ x ∈ w.float?, (Number.float x).ReadsBack := by
  constructor
  · intro h
    refine ⟨h.depth, h.keys, fun w hw x hx => h.floats x ?_⟩
    rwa [← float?_eq_some_iff.mp hx]
  · rintro ⟨hdepth, hkeys, hfloats⟩
    exact ⟨hdepth, hkeys, fun x hx => hfloats _ hx x rfl⟩

instance (limit : Nat) (v : Json) : Decidable (v.IsLegible limit) :=
  decidable_of_iff' _ isLegible_iff

theorem IsLegible.readsBack {limit : Nat} {v : Json} (h : v.IsLegible limit) {n : Number}
    (hn : .number n ∈ v.parts) : n.ReadsBack := by
  cases n with
  | int i fits => exact Number.readsBack_int fits
  | float x => exact h.floats x hn

theorem mem_partsOfMembers_iff {w : Json} {members : List (String × Json)} :
    w ∈ partsOfMembers members ↔ ∃ m ∈ members, w ∈ m.2.parts := by
  induction members with
  | nil => simp [partsOfMembers]
  | cons m ms ih => simp [partsOfMembers, ih]

theorem depthOfMembers_le {limit : Nat} {members : List (String × Json)}
    (h : ∀ m ∈ members, m.2.depth ≤ limit) : depthOfMembers members ≤ limit := by
  induction members with
  | nil => exact Nat.zero_le limit
  | cons m ms ih =>
    obtain ⟨hfirst, hrest⟩ := List.forall_mem_cons.mp h
    exact Nat.max_le.mpr ⟨hfirst, ih hrest⟩

theorem isLegible_object {limit : Nat} {members : List (String × Json)}
    (hkeys : (Dictionary.keys members).Nodup) (h : ∀ m ∈ members, m.2.IsLegible limit) :
    (object members).IsLegible (limit + 1) := by
  refine ⟨Nat.succ_le_succ (depthOfMembers_le fun m hm => (h m hm).depth), ?_, ?_⟩
  · rw [parts, List.forall_mem_cons]
    refine ⟨hkeys, fun w hw => ?_⟩
    obtain ⟨m, hm, hw⟩ := mem_partsOfMembers_iff.mp hw
    exact (h m hm).keys w hw
  · intro x hx
    rw [parts, List.mem_cons, mem_partsOfMembers_iff] at hx
    obtain hx | ⟨m, hm, hx⟩ := hx
    · exact Json.noConfusion hx
    · exact (h m hm).floats x hx

mutual

/-- **The draft of a value denotes it again.** -/
theorem value?_draft : ∀ (v : Json) {limit : Nat}, v.depth ≤ limit →
    (∀ w ∈ v.parts, w.HasDistinctKeys) → v.draft.value? limit = some v
  | .null, _, _, _ | .bool _, _, _, _ | .number _, _, _, _ | .string _, _, _, _ => by
    simp [draft, Draft.value?]
  | .array items, limit, hdepth, hkeys => by
    rw [depth] at hdepth
    obtain ⟨limit, rfl⟩ := Nat.exists_eq_add_of_le' (Nat.le_of_add_left_le hdepth)
    rw [parts, List.forall_mem_cons] at hkeys
    rw [draft, Draft.value?, itemValues?_draft items (by omega) hkeys.2]
    rfl
  | .object members, limit, hdepth, hkeys => by
    rw [depth] at hdepth
    obtain ⟨limit, rfl⟩ := Nat.exists_eq_add_of_le' (Nat.le_of_add_left_le hdepth)
    rw [parts, List.forall_mem_cons] at hkeys
    rw [draft, Draft.value?, memberValues?_draft members (by omega) hkeys.2, Option.map_some,
      Dictionary.ofEntries_eq_self hkeys.1]

theorem itemValues?_draft : ∀ (items : List Json) {limit : Nat}, depthOfItems items ≤ limit →
    (∀ w ∈ partsOfItems items, w.HasDistinctKeys) →
      Draft.itemValues? limit (draftItems items) = some items
  | [], _, _, _ => rfl
  | v :: vs, limit, hdepth, hkeys => by
    rw [depthOfItems, Nat.max_le] at hdepth
    rw [partsOfItems, List.forall_mem_append] at hkeys
    rw [draftItems, Draft.itemValues?, value?_draft v hdepth.1 hkeys.1,
      itemValues?_draft vs hdepth.2 hkeys.2]
    rfl

theorem memberValues?_draft : ∀ (members : List (String × Json)) {limit : Nat},
    depthOfMembers members ≤ limit → (∀ w ∈ partsOfMembers members, w.HasDistinctKeys) →
      Draft.memberValues? limit (draftMembers members) = some members
  | [], _, _, _ => rfl
  | (key, v) :: ms, limit, hdepth, hkeys => by
    rw [depthOfMembers, Nat.max_le] at hdepth
    rw [partsOfMembers, List.forall_mem_append] at hkeys
    rw [draftMembers, Draft.memberValues?, value?_draft v hdepth.1 hkeys.1,
      memberValues?_draft ms hdepth.2 hkeys.2]
    rfl

end

theorem eq_draft_of_value? {depth : Nat} {d : Draft} {v : Json} (h : d.value? depth = some v)
    (harray : ∀ items, v ≠ .array items) (hobject : ∀ members, v ≠ .object members) :
    d = v.draft := by
  cases d with
  | null => rw [← Option.some.inj h, draft]
  | bool b => rw [← Option.some.inj h, draft]
  | number o =>
    obtain ⟨n, rfl, hn⟩ := Option.map_eq_some_iff.mp h
    rw [← hn, draft]
  | string o =>
    obtain ⟨s, rfl, hs⟩ := Option.map_eq_some_iff.mp h
    rw [← hs, draft]
  | array items =>
    cases depth with
    | zero => exact absurd h (by simp [Draft.value?])
    | succ depth =>
      obtain ⟨items, -, hitems⟩ := Option.map_eq_some_iff.mp h
      exact absurd hitems.symm (harray items)
  | object members =>
    cases depth with
    | zero => exact absurd h (by simp [Draft.value?])
    | succ depth =>
      obtain ⟨members, -, hmembers⟩ := Option.map_eq_some_iff.mp h
      exact absurd hmembers.symm (hobject _)

end Json

end Docstore
