import Docstore.Proofs.Predicate.Grammar
import Docstore.Proofs.Statement.Parts
import Docstore.Proofs.Term.Count

/-!
# The format of criteria

`IsCriteria` is the format of criteria.  They may be `null` or an empty object; any other
object must have the key `where`, and what stands under the known keys must be of a form
that goes with the key, or `null`.  The format knows neither the order of the keys nor the
order in which a reader looks at them.

* `exists_ofJson_eq_ok`: the reader takes exactly the values of the format.
* `ofJson_eq_of_perm`: of an object with the key `where`, the reader sees the known keys
  only, in whatever order they stand, even when it reports a fault.
* `ofJson_singles`: an order of sorting may be an object of directions or a list of
  objects with one direction each; both are the same, even when a direction is none.
-/

namespace Docstore

namespace Criteria

/-! ### The format -/

/-- The value is a direction: one of two words in any case, or one of two numbers. -/
inductive IsDirection : Json → Prop where
  | word {word s : String} (hword : word = "asc" ∨ word = "desc")
      (h : s.toList.map Char.toLower = word.toList) : IsDirection (.string s)
  | up : IsDirection (.int 1)
  | down : IsDirection (.int (-1))

inductive HasDirections : Json → Prop where
  | object {members : Dictionary Json} (h : ∀ m ∈ members, IsDirection m.2) :
      HasDirections (.object members)

/-- The value is an order of sorting: an object of directions, or a list of such objects. -/
inductive IsSort : Json → Prop where
  | one {v : Json} (h : HasDirections v) : IsSort v
  | list {items : List Json} (h : ∀ v ∈ items, HasDirections v) : IsSort (.array items)

inductive IsSelection : Json → Prop where
  | names (names : List String) : IsSelection (.array (names.map .string))

/-- The member is absent, or `null`, or of the form. -/
def IsOptional (form : Json → Prop) (member : Option Json) : Prop :=
  ∀ v, member = some v → v = .null ∨ form v

/-- The members are those of criteria that ask for something. -/
structure IsDemand (members : Dictionary Json) : Prop where
  named : members.has "where" = true
  filter : IsOptional Predicate.IsPredicate (members.get? "where")
  select : IsOptional IsSelection (members.get? "select")
  sort : IsOptional IsSort (members.get? "sort")
  limit : IsOptional (fun v => ∃ n, v.IsCount n) (members.get? "limit")
  skip : IsOptional (fun v => ∃ n, v.IsCount n) (members.get? "skip")

inductive IsCriteria : Json → Prop where
  | null : IsCriteria .null
  | empty : IsCriteria (.object [])
  | object {members : Dictionary Json} (h : IsDemand members) : IsCriteria (.object members)

/-! ### Readers of the parts -/

theorem exists_direction_iff {v : Json} : (∃ d, Direction.ofJson? v = some d) ↔ IsDirection v := by
  constructor
  · rintro ⟨d, h⟩
    cases v with
    | string s =>
      rw [Direction.ofJson?, Direction.isWord, Direction.isWord] at h
      split at h
      · next hasc => exact .word (Or.inl rfl) (beq_iff_eq.mp hasc)
      split at h
      · next hdesc => exact .word (Or.inr rfl) (beq_iff_eq.mp hdesc)
      · exact absurd h (by simp)
    | number n =>
      cases n with
      | int i fits =>
        rw [Direction.ofJson?, Number.toInt64?] at h
        split at h
        · next hone =>
          obtain rfl : i = 1 := Option.some.inj (Option.ite_none_right_eq_some.mp hone).2
          exact .up
        · next hone =>
          obtain rfl : i = -1 := Option.some.inj (Option.ite_none_right_eq_some.mp hone).2
          exact .down
        · exact absurd h (by simp)
      | float x => exact absurd h (by simp [Direction.ofJson?, Number.toInt64?])
    | _ => exact absurd h (by simp [Direction.ofJson?])
  · intro h
    cases h with
    | @word word s hword h =>
      rw [Direction.ofJson?, Direction.isWord, Direction.isWord, h]
      rcases hword with rfl | rfl
      · exact ⟨.ascending, rfl⟩
      · exact ⟨.descending, rfl⟩
    | up => exact ⟨.ascending, rfl⟩
    | down => exact ⟨.descending, rfl⟩

theorem exists_readSortKey_eq_ok {m : String × Json} :
    (∃ k, readSortKey m = .ok k) ↔ IsDirection m.2 := by
  rw [← exists_direction_iff, readSortKey]
  cases Direction.ofJson? m.2 with
  | none => simp
  | some d => simp

theorem exists_readSortKeys_eq_ok {members : Dictionary Json} :
    (∃ ks, readSortKeys members = .ok ks) ↔ ∀ m ∈ members, IsDirection m.2 := by
  rw [readSortKeys, exists_mapM_eq_ok_iff]
  exact forall₂_congr fun m _ => exists_readSortKey_eq_ok

theorem exists_readSortItem_eq_ok {v : Json} :
    (∃ ks, readSortItem v = .ok ks) ↔ HasDirections v := by
  cases v with
  | object members =>
    rw [readSortItem, exists_readSortKeys_eq_ok]
    refine ⟨.object, ?_⟩
    rintro ⟨h⟩
    exact h
  | _ =>
    constructor
    · rintro ⟨ks, h⟩
      exact absurd h (by simp [readSortItem])
    · rintro ⟨⟩

theorem exists_readSort_some {v : Json} : (∃ ks, readSort (some v) = .ok ks) ↔ IsSort v := by
  cases v with
  | object members =>
    rw [readSort, exists_readSortKeys_eq_ok]
    refine ⟨fun h => .one (.object h), ?_⟩
    rintro ⟨⟨h⟩⟩
    exact h
  | array items =>
    rw [readSort, exists_map_eq_ok_iff, exists_mapM_eq_ok_iff]
    have hitem : ∀ v ∈ items, (∃ ks, readSortItem v = .ok ks) ↔ HasDirections v :=
      fun v _ => exists_readSortItem_eq_ok
    rw [forall₂_congr hitem]
    constructor
    · exact .list
    · rintro (⟨⟨⟩⟩ | h)
      exact h
  | _ =>
    constructor
    · rintro ⟨ks, h⟩
      exact absurd h (by simp [readSort])
    · rintro ⟨⟨⟩⟩

theorem exists_readSelect_some {v : Json} :
    (∃ names, readSelect (some v) = .ok names) ↔ IsSelection v := by
  cases v with
  | array items =>
    have hread : ∀ v s, readSelected v = .ok s ↔ v = .string s := by
      intro v s
      cases v <;> simp [readSelected]
    constructor
    · rintro ⟨names, h⟩
      have hnames : names.map Json.string = items.map id :=
        map_eq_map_of_mapM_eq_ok (fun v s hs => ((hread v s).mp hs).symm) h
      rw [← List.map_id items, ← hnames]
      exact .names names
    · intro h
      cases h with
      | names names =>
        refine exists_mapM_eq_ok_iff.mpr fun v hv => ?_
        obtain ⟨s, -, rfl⟩ := List.mem_map.mp hv
        exact ⟨s, rfl⟩
  | _ =>
    constructor
    · rintro ⟨names, h⟩
      exact absurd h (by simp [readSelect])
    · rintro ⟨⟩

theorem exists_readCount_some {key : String} {v : Json} :
    (∃ n, readCount key (some v) = .ok n) ↔ ∃ n, v.IsCount n := by
  have hcount : (∃ n, v.IsCount n) ↔ ∃ n, v.toNat64? = some n :=
    exists_congr fun n => Json.toNat64?_eq_some_iff.symm
  rw [hcount, readCount]
  cases v.toNat64? with
  | none => simp
  | some n => simp

/-- A reader takes a member that may be missing when it takes what is of the form. -/
theorem exists_readGiven_eq_ok {α : Type} (read : Option Json → Except Failure α)
    {form : Json → Prop} (hnone : ∃ a, read none = .ok a)
    (hsome : ∀ v, (∃ a, read (some v) = .ok a) ↔ form v) (key : String)
    (members : Dictionary Json) :
    (∃ a, read (given? key members) = .ok a) ↔ IsOptional form (members.get? key) := by
  cases hgiven : given? key members with
  | none =>
    refine ⟨fun _ v hv => Or.inl ?_, fun _ => hnone⟩
    by_contra hnull
    rw [given?_eq_some_iff.mpr ⟨hv, hnull⟩] at hgiven
    exact absurd hgiven (by simp)
  | some v =>
    obtain ⟨hmember, hnull⟩ := given?_eq_some_iff.mp hgiven
    rw [hsome, hmember]
    constructor
    · intro h w hw
      obtain rfl := Option.some.inj hw
      exact Or.inr h
    · intro h
      exact (h v rfl).resolve_left hnull

/-! ### The reader takes what is in the format -/

/-- The parts are read one after the other, and no part depends on another. -/
theorem exists_ofMembers_eq_ok {members : Dictionary Json} :
    (∃ c, ofMembers members = .ok c) ↔
      (∃ p, readFilter (given? "where" members) = .ok p) ∧
        (∃ names, readSelect (given? "select" members) = .ok names) ∧
        (∃ ks, readSort (given? "sort" members) = .ok ks) ∧
        (∃ n, readCount "limit" (given? "limit" members) = .ok n) ∧
        ∃ n, readCount "skip" (given? "skip" members) = .ok n := by
  simp only [ofMembers, exists_bind_eq_ok_iff, exists_and_right, Except.ok.injEq, exists_eq',
    and_true]

theorem isDemand_iff {members : Dictionary Json} (hnamed : members.has "where" = true) :
    (∃ c, ofMembers members = .ok c) ↔ IsDemand members := by
  rw [exists_ofMembers_eq_ok,
    exists_readGiven_eq_ok readFilter ⟨_, rfl⟩ Predicate.exists_ofJson_eq_ok,
    exists_readGiven_eq_ok readSelect ⟨_, rfl⟩ fun _ => exists_readSelect_some,
    exists_readGiven_eq_ok readSort ⟨_, rfl⟩ fun _ => exists_readSort_some,
    exists_readGiven_eq_ok (readCount "limit") ⟨_, rfl⟩ fun _ => exists_readCount_some,
    exists_readGiven_eq_ok (readCount "skip") ⟨_, rfl⟩ fun _ => exists_readCount_some]
  constructor
  · rintro ⟨hfilter, hselect, hsort, hlimit, hskip⟩
    exact ⟨hnamed, hfilter, hselect, hsort, hlimit, hskip⟩
  · intro h
    exact ⟨h.filter, h.select, h.sort, h.limit, h.skip⟩

theorem ofJson_object {members : Dictionary Json} (hne : members ≠ []) :
    ofJson (.object members) =
      if members.has "where" then ofMembers members
      else .error (.invalidCriteria "criteria with top-level keys must include a \x60where\x60 key") := by
  obtain ⟨m, rest, rfl⟩ := List.exists_cons_of_ne_nil hne
  rfl

theorem ne_nil_of_has {members : Dictionary Json} (h : members.has "where" = true) :
    members ≠ [] := by
  rintro rfl
  exact absurd h (by decide)

/-- **The reader takes exactly the values of the format.** -/
theorem exists_ofJson_eq_ok (v : Json) : (∃ c, ofJson v = .ok c) ↔ IsCriteria v := by
  cases v with
  | null => exact ⟨fun _ => .null, fun _ => ⟨_, rfl⟩⟩
  | object members =>
    by_cases hnil : members = []
    · subst hnil
      exact ⟨fun _ => .empty, fun _ => ⟨_, rfl⟩⟩
    rw [ofJson_object hnil]
    by_cases hnamed : Dictionary.has "where" members = true
    · rw [if_pos hnamed, isDemand_iff hnamed]
      refine ⟨.object, fun h => ?_⟩
      cases h with
      | empty => exact absurd rfl hnil
      | object h => exact h
    · rw [if_neg hnamed]
      constructor
      · rintro ⟨c, h⟩
        exact absurd h (by simp)
      · intro h
        cases h with
        | empty => exact absurd rfl hnil
        | object h => exact absurd h.named hnamed
  | _ =>
    constructor
    · rintro ⟨c, h⟩
      exact absurd h (by simp [ofJson])
    · rintro ⟨⟩

/-! ### The order of the keys -/

def knownKeys : List String :=
  ["where", "select", "sort", "limit", "skip", "whereVertex", "whereEdge"]

def known (members : Dictionary Json) : Dictionary Json := members.filter fun m => m.1 ∈ knownKeys

theorem ofMembers_congr {members members' : Dictionary Json}
    (h : ∀ key ∈ knownKeys, key ≠ "sort" → members.get? key = members'.get? key)
    (hsort : readSort (given? "sort" members) = readSort (given? "sort" members')) :
    ofMembers members = ofMembers members' := by
  have hwhere := h "where" (by decide) (by decide)
  have hselect := h "select" (by decide) (by decide)
  have hlimit := h "limit" (by decide) (by decide)
  have hskip := h "skip" (by decide) (by decide)
  have hvertices := h "whereVertex" (by decide) (by decide)
  have hedges := h "whereEdge" (by decide) (by decide)
  rw [ofMembers, ofMembers, hsort]
  simp only [given?, hwhere, hselect, hlimit, hskip, hvertices, hedges]

theorem ofJson_object_congr {members members' : Dictionary Json} (hne : members ≠ [])
    (hne' : members' ≠ []) (hwhere : members.get? "where" = members'.get? "where")
    (h : ofMembers members = ofMembers members') :
    ofJson (.object members) = ofJson (.object members') := by
  rw [ofJson_object hne, ofJson_object hne', Dictionary.has, Dictionary.has, hwhere, h]

theorem ofJson_eq_of_perm {members members' : Dictionary Json}
    (hnamed : members.has "where" = true) (hkeys : (known members).keys.Nodup)
    (hperm : (known members).Perm (known members')) :
    ofJson (.object members) = ofJson (.object members') := by
  have hget : ∀ key ∈ knownKeys, members.get? key = members'.get? key := fun key hkey =>
    Dictionary.get?_eq_of_perm_filter (fun k => k ∈ knownKeys) hkeys hperm (decide_eq_true hkey)
  have hwhere := hget "where" (by decide)
  have hnamed' : members'.has "where" = true := by
    rw [Dictionary.has, ← hwhere]
    exact hnamed
  have hsort : given? "sort" members = given? "sort" members' := by
    rw [given?, given?, hget "sort" (by decide)]
  refine ofJson_object_congr (ne_nil_of_has hnamed) (ne_nil_of_has hnamed') hwhere ?_
  exact ofMembers_congr (fun key hkey _ => hget key hkey) (by rw [hsort])

/-! ### Two forms of an order -/

/-- The members of an object as a list of objects with one member each. -/
def singles (members : Dictionary Json) : Json := .array (members.map fun m => .object [m])

/-- **An object of directions is the list of its directions**, and the first that is none is
reported in both forms. -/
theorem readSort_singles (members : Dictionary Json) :
    readSort (some (singles members)) = readSort (some (.object members)) := by
  show ((members.map fun m => Json.object [m]).mapM readSortItem).map List.flatten =
    members.mapM readSortKey
  induction members with
  | nil => rfl
  | cons m rest ih =>
    have hone : readSortItem (.object [m]) = (readSortKey m).map fun k => [k] := by
      show [m].mapM readSortKey = _
      rw [List.mapM_cons]
      cases readSortKey m <;> rfl
    rw [List.map_cons, List.mapM_cons, List.mapM_cons, hone, ← ih]
    cases readSortKey m with
    | error f => rfl
    | ok k =>
      cases (rest.map fun m => Json.object [m]).mapM readSortItem with
      | error f => rfl
      | ok ks => rfl

/-- The order of a request may be given in either form, wherever it stands. -/
theorem ofJson_singles (before directions after : Dictionary Json) :
    ofJson (.object (before ++ ("sort", .object directions) :: after)) =
      ofJson (.object (before ++ ("sort", singles directions) :: after)) := by
  have hget : ∀ v, Dictionary.get? "sort" (before ++ ("sort", v) :: after) =
      (before.get? "sort").or (some v) := by
    intro v
    rw [Dictionary.get?_append, Dictionary.get?, if_pos rfl]
  have hother : ∀ key, key ≠ "sort" → ∀ v, Dictionary.get? key (before ++ ("sort", v) :: after) =
      (before.get? key).or (after.get? key) := by
    intro key hkey v
    rw [Dictionary.get?_append, Dictionary.get?, if_neg hkey.symm]
  have hsort : readSort (given? "sort" (before ++ ("sort", .object directions) :: after)) =
      readSort (given? "sort" (before ++ ("sort", singles directions) :: after)) := by
    rw [given?, given?, hget, hget]
    cases before.get? "sort" with
    | some v => rfl
    | none => exact (readSort_singles directions).symm
  refine ofJson_object_congr (by simp) (by simp) ?_ (ofMembers_congr (fun key _ hkey => ?_) hsort)
  · rw [hother "where" (by decide), hother "where" (by decide)]
  · rw [hother key hkey, hother key hkey]

/-- **Criteria are accepted exactly in their format, and the order of their keys does not
matter.**  Of an object with the key `where`, neither the order of the known keys nor
unknown keys change the criteria that are read, or the fault that is reported.  An order
of sorting gives the same as an object of directions and as the list of its directions,
again with the fault. -/
theorem format_of_any_order :
    (∀ v, (∃ c, ofJson v = .ok c) ↔ IsCriteria v) ∧
      (∀ members members' : Dictionary Json, members.has "where" = true →
        (known members).keys.Nodup → (known members).Perm (known members') →
          ofJson (.object members) = ofJson (.object members')) ∧
      ∀ before directions after : Dictionary Json,
        ofJson (.object (before ++ ("sort", .object directions) :: after)) =
          ofJson (.object (before ++ ("sort", singles directions) :: after)) :=
  ⟨exists_ofJson_eq_ok, fun _ _ => ofJson_eq_of_perm, ofJson_singles⟩

/-- Two faults under keys in two orders, beside an unknown key: the order of sorting is blamed,
not the limit, in either form and wherever it stands. -/
theorem format_of_any_order_faults :
    let limit : String × Json := ("limit", .int (-1))
    let directions : Dictionary Json := [("a", .int 1), ("b", .string "up")]
    let sort : String × Json := ("sort", .object directions)
    let f : Failure := .invalidCriteria "invalid sort direction for \x60b\x60: \"up\""
    let members : Dictionary Json := [limit, ("note", .null), sort, ("where", .null)]
    let members' : Dictionary Json := [("where", .null), sort, limit]
    members.has "where" = true ∧ (known members).keys.Nodup ∧
      (known members).Perm (known members') ∧ ofJson (.object members') = .error f ∧
      ofJson (.object members) = .error f ∧
      ofJson (.object [("where", .null), ("sort", singles directions), limit]) = .error f ∧
      ¬IsCriteria (.object members) := by
  intro limit directions sort f members members'
  have hnamed : members.has "where" = true := by decide
  have hkeys : (known members).keys.Nodup := by decide
  have hperm : (known members).Perm (known members') := List.reverse_perm members'
  have hfault : ofJson (.object members') = .error f := by rfl
  obtain ⟨hformat, horder, hsingles⟩ := format_of_any_order
  have hsame := horder members members' hnamed hkeys hperm
  have hforms := hsingles [("where", .null)] directions [limit]
  refine ⟨hnamed, hkeys, hperm, hfault, hsame.trans hfault, hforms.symm.trans hfault, fun h => ?_⟩
  obtain ⟨c, hc⟩ := (hformat _).mpr h
  rw [hsame, hfault] at hc
  exact absurd hc (by simp)

end Criteria

end Docstore
