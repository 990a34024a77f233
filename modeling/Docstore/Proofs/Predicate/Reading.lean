import Docstore.Predicate.Reader
import Docstore.Proofs.Failure

/-!
# Reading a predicate, as a relation

`Predicate.ofJson` reads an object entry by entry and may fail anywhere below.
`Reads v p` says without failures that the value `v` reads as the predicate `p`;
its three parts go with the three kinds of text there are: a predicate, the
entries of an object, and the members of a combinator.  `ofJson_eq_ok_iff` says
that the reader succeeds exactly along this relation, so that a fact about
accepted values is proved by recursion on a derivation of `Reads`.
-/

namespace Docstore

namespace Predicate

mutual

/-- The value reads as the predicate. -/
inductive Reads : Json → Predicate → Prop where
  | object {members : List (String × Json)} {parts : List Predicate}
      (hmembers : ReadsMembers members parts) : Reads (.object members) (conjunction parts)

inductive ReadsMembers : List (String × Json) → List Predicate → Prop where
  | nil : ReadsMembers [] []
  | all {key : String} {items : List Json} {members : List Predicate}
      {rest : List (String × Json)} {parts : List Predicate}
      (hkey : isConjunctionKey key = true) (hitems : ReadsItems items members)
      (hrest : ReadsMembers rest parts) :
      ReadsMembers ((key, .array items) :: rest) (conjunction members :: parts)
  | any {key : String} {items : List Json} {members : List Predicate}
      {rest : List (String × Json)} {parts : List Predicate}
      (hkey : isDisjunctionKey key = true) (hitems : ReadsItems items members)
      (htwo : 2 ≤ members.length) (hrest : ReadsMembers rest parts) :
      ReadsMembers ((key, .array items) :: rest) (.any members :: parts)
  | field {key : String} {v : Json} {comparisons : List Comparison}
      {rest : List (String × Json)} {parts : List Predicate}
      (hall : isConjunctionKey key = false) (hany : isDisjunctionKey key = false)
      (hv : readComparisons v = .ok comparisons) (hrest : ReadsMembers rest parts) :
      ReadsMembers ((key, v) :: rest) (comparisons.map (.compare (.ofKey key)) ++ parts)

inductive ReadsItems : List Json → List Predicate → Prop where
  | nil : ReadsItems [] []
  | cons {v : Json} {p : Predicate} {vs : List Json} {ps : List Predicate}
      (hv : Reads v p) (hvs : ReadsItems vs ps) : ReadsItems (v :: vs) (p :: ps)

end

/-! ### Operators -/

theorem mem_of_lookup {β : Type} {key : String} {b : β} {table : List (String × β)}
    (h : table.lookup key = some b) : (key, b) ∈ table := by
  obtain ⟨before, after, rfl, -⟩ := List.lookup_eq_some_iff.mp h
  exact List.mem_append_right before List.mem_cons_self

theorem readPattern_eq_ok {operator : String} {v : Json} {operand : Operand}
    (h : readPattern operator v = .ok operand) : ∃ text, v = .string text ∧ operand = .ofJson v := by
  cases v with
  | string text => exact ⟨text, rfl, (Except.ok.inj h).symm⟩
  | _ => exact absurd h (by simp [readPattern])

theorem readList_eq_ok {operator : String} {v : Json} {operands : List Operand}
    (h : readList operator v = .ok operands) :
    ∃ items, v = .array items ∧ items ≠ [] ∧ operands = items.map .ofJson := by
  cases v with
  | array items =>
    cases items with
    | nil => exact absurd h (by simp [readList])
    | cons item items =>
      exact ⟨item :: items, rfl, List.cons_ne_nil item items, (Except.ok.inj h).symm⟩
  | _ => exact absurd h (by simp [readList])

theorem readRange_eq_ok {v : Json} {c : Comparison} (h : readRange v = .ok c) :
    ∃ low high, v = .array [low, high] ∧ c = .between (.ofJson low) (.ofJson high) := by
  unfold readRange at h
  split at h
  · next low high => exact ⟨low, high, rfl, (Except.ok.inj h).symm⟩
  · exact absurd h (by simp)

theorem readOperator_eq_ok {operator : String} {v : Json} {c : Comparison}
    (h : readOperator operator v = .ok c) :
    (∃ relation, (operator, relation) ∈ singleOperators ∧ c = .single relation (.ofJson v)) ∨
      (∃ relation text, (operator, relation) ∈ patternOperators ∧ v = .string text ∧
        c = .single relation (.ofJson v)) ∨
      (∃ relation items, (operator, relation) ∈ listOperators ∧ v = .array items ∧ items ≠ [] ∧
        c = .list relation (items.map .ofJson)) ∨
      ∃ low high, operator = rangeOperator ∧ v = .array [low, high] ∧
        c = .between (.ofJson low) (.ofJson high) := by
  rw [readOperator] at h
  split at h
  · next relation hl => exact Or.inl ⟨relation, mem_of_lookup hl, (Except.ok.inj h).symm⟩
  split at h
  · next relation hl =>
    obtain ⟨operand, hp, rfl⟩ := map_eq_ok_iff.mp h
    obtain ⟨text, rfl, rfl⟩ := readPattern_eq_ok hp
    exact Or.inr (Or.inl ⟨relation, text, mem_of_lookup hl, rfl, rfl⟩)
  split at h
  · next relation hl =>
    obtain ⟨operands, hp, rfl⟩ := map_eq_ok_iff.mp h
    obtain ⟨items, rfl, hne, rfl⟩ := readList_eq_ok hp
    exact Or.inr (Or.inr (Or.inl ⟨relation, items, mem_of_lookup hl, rfl, hne, rfl⟩))
  split at h
  · next hrange =>
    obtain ⟨low, high, rfl, rfl⟩ := readRange_eq_ok h
    exact Or.inr (Or.inr (Or.inr ⟨low, high, hrange, rfl, rfl⟩))
  · exact absurd h (by simp)

/-- What a value says of a field: its operators one by one, for an object with a
marked key, and an equality otherwise. -/
theorem readComparisons_eq_ok {v : Json} {comparisons : List Comparison}
    (h : readComparisons v = .ok comparisons) :
    (∃ members, v = .object members ∧ areOperators members = true ∧
        members.mapM (fun m => readOperator m.1 m.2) = .ok comparisons) ∨
      ((∀ members, v = .object members → areOperators members = false) ∧
        comparisons = [.single .equal (.ofJson v)]) := by
  cases v with
  | object members =>
    rw [readComparisons] at h
    split at h
    · next hops => exact Or.inl ⟨members, rfl, hops, h⟩
    · next hops =>
      refine Or.inr ⟨fun ms hms => ?_, (Except.ok.inj h).symm⟩
      obtain rfl := Json.object.inj hms
      exact Bool.eq_false_iff.mpr hops
  | _ => exact Or.inr ⟨fun ms hms => absurd hms (by simp), (Except.ok.inj h).symm⟩

/-! ### The reader, one entry at a time -/

theorem isConjunctionKey_iff {key : String} :
    isConjunctionKey key = true ↔ key = "$and" ∨ key = "and" := by
  rw [isConjunctionKey, Bool.or_eq_true, beq_iff_eq, beq_iff_eq]

theorem isDisjunctionKey_iff {key : String} :
    isDisjunctionKey key = true ↔ key = "$or" ∨ key = "or" := by
  rw [isDisjunctionKey, Bool.or_eq_true, beq_iff_eq, beq_iff_eq]

theorem not_isDisjunctionKey {key : String} (h : isConjunctionKey key = true) :
    isDisjunctionKey key = false := by
  rcases isConjunctionKey_iff.mp h with rfl | rfl <;> decide

theorem ofMembers_cons_eq_ok_iff {key : String} {v : Json} {rest : List (String × Json)}
    {parts : List Predicate} :
    ofMembers ((key, v) :: rest) = .ok parts ↔
      ∃ first more, ofMember key v = .ok first ∧ ofMembers rest = .ok more ∧
        parts = first ++ more := by
  rw [ofMembers]
  exact both_eq_ok_iff

theorem ofItems_cons_eq_ok_iff {v : Json} {vs : List Json} {ps : List Predicate} :
    ofItems (v :: vs) = .ok ps ↔
      ∃ first more, ofJson v = .ok first ∧ ofItems vs = .ok more ∧ ps = first :: more := by
  rw [ofItems]
  exact both_eq_ok_iff

theorem ofMember_conjunction_eq_ok_iff {key : String} (h : isConjunctionKey key = true) {v : Json}
    {parts : List Predicate} :
    ofMember key v = .ok parts ↔
      ∃ items members, v = .array items ∧ ofItems items = .ok members ∧
        parts = [conjunction members] := by
  cases v with
  | array items =>
    rw [ofMember, if_pos h, bind_eq_ok_iff]
    simp [eq_comm]
  | _ => simp [ofMember, h]

theorem ofMember_disjunction_eq_ok_iff {key : String} (h : isDisjunctionKey key = true) {v : Json}
    {parts : List Predicate} :
    ofMember key v = .ok parts ↔
      ∃ items members, v = .array items ∧ ofItems items = .ok members ∧ 2 ≤ members.length ∧
        parts = [.any members] := by
  have hall : isConjunctionKey key = false := by
    refine Bool.eq_false_iff.mpr fun hc => ?_
    rw [not_isDisjunctionKey hc] at h
    exact Bool.false_ne_true h
  cases v with
  | array items =>
    rw [ofMember, if_neg (by rw [hall]; exact Bool.false_ne_true), if_pos h, bind_eq_ok_iff]
    simp only [ite_error_eq_ok_iff, Nat.not_lt, Except.ok.injEq]
    simp [eq_comm]
  | _ => simp [ofMember, h]

theorem ofMember_field_eq_ok_iff {key : String} (hall : isConjunctionKey key = false)
    (hany : isDisjunctionKey key = false) {v : Json} {parts : List Predicate} :
    ofMember key v = .ok parts ↔
      ∃ comparisons, readComparisons v = .ok comparisons ∧
        parts = comparisons.map (.compare (.ofKey key)) := by
  have hread : ofMember key v = (readComparisons v).map (·.map (.compare (.ofKey key))) := by
    cases v <;> simp [ofMember, hall, hany]
  rw [hread, map_eq_ok_iff]
  exact exists_congr fun comparisons => and_congr_right fun _ => eq_comm

/-! ### The reader follows the relation -/

mutual

theorem reads_of_ofJson : ∀ {v : Json} {p : Predicate}, ofJson v = .ok p → Reads v p
  | .object members, p, h => by
    rw [ofJson] at h
    obtain ⟨parts, hparts, rfl⟩ := map_eq_ok_iff.mp h
    exact .object (readsMembers_of_ofMembers hparts)
  | .null, p, h | .bool _, p, h | .number _, p, h | .string _, p, h | .array _, p, h => by
    simp [ofJson] at h

theorem readsMembers_of_ofMembers : ∀ {members : List (String × Json)} {parts : List Predicate},
    ofMembers members = .ok parts → ReadsMembers members parts
  | [], parts, h => by
    rw [ofMembers] at h
    obtain rfl := Except.ok.inj h
    exact .nil
  | (key, v) :: rest, parts, h => by
    obtain ⟨first, more, hfirst, hmore, rfl⟩ := ofMembers_cons_eq_ok_iff.mp h
    have hrest := readsMembers_of_ofMembers hmore
    cases hall : isConjunctionKey key with
    | true =>
      obtain ⟨items, members, rfl, hitems, rfl⟩ := (ofMember_conjunction_eq_ok_iff hall).mp hfirst
      exact .all hall (readsItems_of_ofItems hitems) hrest
    | false =>
      cases hany : isDisjunctionKey key with
      | true =>
        obtain ⟨items, members, rfl, hitems, htwo, rfl⟩ :=
          (ofMember_disjunction_eq_ok_iff hany).mp hfirst
        exact .any hany (readsItems_of_ofItems hitems) htwo hrest
      | false =>
        obtain ⟨comparisons, hv, rfl⟩ := (ofMember_field_eq_ok_iff hall hany).mp hfirst
        exact .field hall hany hv hrest

theorem readsItems_of_ofItems : ∀ {vs : List Json} {ps : List Predicate},
    ofItems vs = .ok ps → ReadsItems vs ps
  | [], ps, h => by
    rw [ofItems] at h
    obtain rfl := Except.ok.inj h
    exact .nil
  | v :: vs, ps, h => by
    obtain ⟨first, more, hfirst, hmore, rfl⟩ := ofItems_cons_eq_ok_iff.mp h
    exact .cons (reads_of_ofJson hfirst) (readsItems_of_ofItems hmore)

end

mutual

theorem Reads.ofJson_eq_ok : ∀ {v : Json} {p : Predicate}, Reads v p → ofJson v = .ok p
  | _, _, .object hmembers => by
    rw [ofJson, hmembers.ofMembers_eq_ok]; rfl

theorem ReadsMembers.ofMembers_eq_ok : ∀ {members : List (String × Json)}
    {parts : List Predicate}, ReadsMembers members parts → ofMembers members = .ok parts
  | _, _, .nil => rfl
  | _, _, .all hkey hitems hrest => ofMembers_cons_eq_ok_iff.mpr
      ⟨_, _, (ofMember_conjunction_eq_ok_iff hkey).mpr ⟨_, _, rfl, hitems.ofItems_eq_ok, rfl⟩,
        hrest.ofMembers_eq_ok, rfl⟩
  | _, _, .any hkey hitems htwo hrest => ofMembers_cons_eq_ok_iff.mpr
      ⟨_, _, (ofMember_disjunction_eq_ok_iff hkey).mpr
        ⟨_, _, rfl, hitems.ofItems_eq_ok, htwo, rfl⟩, hrest.ofMembers_eq_ok, rfl⟩
  | _, _, .field hall hany hv hrest => ofMembers_cons_eq_ok_iff.mpr
      ⟨_, _, (ofMember_field_eq_ok_iff hall hany).mpr ⟨_, hv, rfl⟩, hrest.ofMembers_eq_ok, rfl⟩

theorem ReadsItems.ofItems_eq_ok : ∀ {vs : List Json} {ps : List Predicate},
    ReadsItems vs ps → ofItems vs = .ok ps
  | _, _, .nil => rfl
  | _, _, .cons hv hvs => ofItems_cons_eq_ok_iff.mpr
      ⟨_, _, hv.ofJson_eq_ok, hvs.ofItems_eq_ok, rfl⟩

end

/-- **The reader succeeds exactly along the relation.** -/
theorem ofJson_eq_ok_iff {v : Json} {p : Predicate} : ofJson v = .ok p ↔ Reads v p :=
  ⟨reads_of_ofJson, Reads.ofJson_eq_ok⟩

end Predicate

end Docstore
