import Docstore.Proofs.Predicate.Reading
import Docstore.Proofs.Term.Raw

/-!
# Which values are predicates

`IsPredicate` is the grammar of predicates.  It has a rule for each kind of entry: a
conjunction, a disjunction of two members at least, an equality, and a set of
operators, each with an operand of the right shape (`IsOperator`).  It knows nothing
of the order in which a reader looks at things.

The reader takes exactly the values of the grammar (`exists_ofJson_eq_ok`), and when
it refuses one it says that a criterion or an operator is wrong, and nothing else
(`failsOnly_ofJson`).  Both go by recursion on the value, a predicate, its entries
and the items of a combinator in turn, as the reader does.
-/

namespace Docstore

def Failure.BlamesPredicate (f : Failure) : Prop :=
  (∃ reason, f = .invalidCriteria reason) ∨ ∃ operator reason, f = .invalidOperator operator reason

namespace Predicate

/-! ### The grammar -/

inductive IsOperator : String → Json → Prop where
  | any {operator : String}
      (h : operator ∈ ["$gt", "$gte", "$lt", "$lte", "$ne", "$has", "$nothas"]) (v : Json) :
      IsOperator operator v
  | pattern {operator : String} (h : operator ∈ ["$like", "$notlike"]) (text : String) :
      IsOperator operator (.string text)
  | list {operator : String} (h : operator ∈ ["$in", "$nin", "$allin", "$anyin"])
      {items : List Json} (hitems : items ≠ []) : IsOperator operator (.array items)
  | range (low high : Json) : IsOperator "$between" (.array [low, high])

def combinatorKeys : List String := ["$and", "and", "$or", "or"]

mutual

/-- The value is a predicate: an object whose entries are all in order. -/
inductive IsPredicate : Json → Prop where
  | object {members : List (String × Json)} (h : ∀ m ∈ members, IsEntry m.1 m.2) :
      IsPredicate (.object members)

/-- The value may stand under the key in a predicate. -/
inductive IsEntry : String → Json → Prop where
  | all {key : String} (hkey : key = "$and" ∨ key = "and") {items : List Json}
      (h : ∀ v ∈ items, IsPredicate v) : IsEntry key (.array items)
  | any {key : String} (hkey : key = "$or" ∨ key = "or") {items : List Json}
      (htwo : 2 ≤ items.length) (h : ∀ v ∈ items, IsPredicate v) : IsEntry key (.array items)
  | equality {key : String} (hkey : key ∉ combinatorKeys) {v : Json}
      (h : ∀ members, v = .object members → ∀ m ∈ members, ¬HasMark m.1) : IsEntry key v
  | operators {key : String} (hkey : key ∉ combinatorKeys) {members : List (String × Json)}
      (hmark : ∃ m ∈ members, HasMark m.1) (h : ∀ m ∈ members, IsOperator m.1 m.2) :
      IsEntry key (.object members)

end

/-! ### What is said of a field -/

/-- **An operator is read exactly when the grammar has it.** -/
theorem exists_readOperator_eq_ok {operator : String} {v : Json} :
    (∃ c, readOperator operator v = .ok c) ↔ IsOperator operator v := by
  have hname {β : Type} {b : β} {table : List (String × β)} (h : (operator, b) ∈ table) :
      operator ∈ table.map Prod.fst := List.mem_map_of_mem h
  constructor
  · rintro ⟨c, h⟩
    rcases readOperator_eq_ok h with ⟨relation, hmem, -⟩ | ⟨relation, text, hmem, rfl, -⟩ |
      ⟨relation, items, hmem, rfl, hitems, -⟩ | ⟨low, high, rfl, rfl, -⟩
    · exact .any (hname hmem) v
    · exact .pattern (hname hmem) text
    · exact .list (hname hmem) hitems
    · exact .range low high
  · intro h
    cases h with
    | any h v =>
      simp only [List.mem_cons, List.not_mem_nil, or_false] at h
      rcases h with rfl | rfl | rfl | rfl | rfl | rfl | rfl <;> exact ⟨_, rfl⟩
    | pattern h text =>
      simp only [List.mem_cons, List.not_mem_nil, or_false] at h
      rcases h with rfl | rfl <;> exact ⟨_, rfl⟩
    | list h hitems =>
      obtain ⟨item, items, rfl⟩ := List.exists_cons_of_ne_nil hitems
      simp only [List.mem_cons, List.not_mem_nil, or_false] at h
      rcases h with rfl | rfl | rfl | rfl <;> exact ⟨_, rfl⟩
    | range low high => exact ⟨_, rfl⟩

theorem areOperators_iff {members : List (String × Json)} :
    areOperators members = true ↔ ∃ m ∈ members, HasMark m.1 := by
  rw [areOperators, List.any_eq_true]
  exact exists_congr fun m => and_congr_right fun _ => isMarked_iff

theorem areOperators_eq_false_iff {members : List (String × Json)} :
    areOperators members = false ↔ ∀ m ∈ members, ¬HasMark m.1 := by
  rw [← Bool.not_eq_true, areOperators_iff]
  exact ⟨fun h m hm hmark => h ⟨m, hm, hmark⟩, fun h ⟨m, hm, hmark⟩ => h m hm hmark⟩

theorem mem_combinatorKeys_iff {key : String} :
    key ∈ combinatorKeys ↔ (key = "$and" ∨ key = "and") ∨ key = "$or" ∨ key = "or" := by
  simp only [combinatorKeys, List.mem_cons, List.not_mem_nil, or_false, or_assoc]

theorem not_mem_combinatorKeys {key : String} (hall : isConjunctionKey key = false)
    (hany : isDisjunctionKey key = false) : key ∉ combinatorKeys := by
  rw [← Bool.not_eq_true, isConjunctionKey_iff] at hall
  rw [← Bool.not_eq_true, isDisjunctionKey_iff] at hany
  rw [mem_combinatorKeys_iff]
  exact fun h => h.elim hall hany

/-- Under a key that is no combinator, an entry is in order exactly when what it says
of the field can be read. -/
theorem exists_readComparisons_eq_ok {key : String} (hkey : key ∉ combinatorKeys) {v : Json} :
    (∃ comparisons, readComparisons v = .ok comparisons) ↔ IsEntry key v := by
  constructor
  · rintro ⟨comparisons, h⟩
    rcases readComparisons_eq_ok h with ⟨members, rfl, hops, hread⟩ | ⟨hplain, -⟩
    · refine .operators hkey (areOperators_iff.mp hops) fun m hm => ?_
      exact exists_readOperator_eq_ok.mp (exists_mapM_eq_ok_iff.mp ⟨comparisons, hread⟩ m hm)
    · exact .equality hkey fun members hv => areOperators_eq_false_iff.mp (hplain members hv)
  · intro h
    cases h with
    | all hall _ => exact absurd (mem_combinatorKeys_iff.mpr (Or.inl hall)) hkey
    | any hany _ _ => exact absurd (mem_combinatorKeys_iff.mpr (Or.inr hany)) hkey
    | equality _ hplain =>
      cases v with
      | object members =>
        have hops := areOperators_eq_false_iff.mpr (hplain members rfl)
        exact ⟨_, by rw [readComparisons, hops]; rfl⟩
      | _ => exact ⟨_, rfl⟩
    | operators _ hmark hoperators =>
      rw [readComparisons, if_pos (areOperators_iff.mpr hmark)]
      exact exists_mapM_eq_ok_iff.mpr fun m hm => exists_readOperator_eq_ok.mpr (hoperators m hm)

/-! ### The reader takes what the grammar has -/

theorem length_ofItems {items : List Json} {members : List Predicate}
    (h : ofItems items = .ok members) : members.length = items.length := by
  induction items generalizing members with
  | nil =>
    rw [ofItems] at h
    obtain rfl := Except.ok.inj h
    rfl
  | cons v vs ih =>
    obtain ⟨first, more, -, hmore, rfl⟩ := ofItems_cons_eq_ok_iff.mp h
    rw [List.length_cons, List.length_cons, ih hmore]

theorem exists_ofMember_conjunction {key : String} (hall : isConjunctionKey key = true) {v : Json} :
    (∃ parts, ofMember key v = .ok parts) ↔
      ∃ items, v = .array items ∧ ∃ members, ofItems items = .ok members := by
  simp only [ofMember_conjunction_eq_ok_iff hall]
  constructor
  · rintro ⟨_, items, members, hv, h, -⟩
    exact ⟨items, hv, members, h⟩
  · rintro ⟨items, hv, members, h⟩
    exact ⟨_, items, members, hv, h, rfl⟩

theorem exists_ofMember_disjunction {key : String} (hany : isDisjunctionKey key = true) {v : Json} :
    (∃ parts, ofMember key v = .ok parts) ↔
      ∃ items, v = .array items ∧ 2 ≤ items.length ∧ ∃ members, ofItems items = .ok members := by
  simp only [ofMember_disjunction_eq_ok_iff hany]
  constructor
  · rintro ⟨_, items, members, hv, h, htwo, -⟩
    exact ⟨items, hv, length_ofItems h ▸ htwo, members, h⟩
  · rintro ⟨items, hv, htwo, members, h⟩
    exact ⟨_, items, members, hv, h, length_ofItems h ▸ htwo, rfl⟩

theorem exists_ofMember_field {key : String} (hall : isConjunctionKey key = false)
    (hany : isDisjunctionKey key = false) {v : Json} :
    (∃ parts, ofMember key v = .ok parts) ↔ ∃ comparisons, readComparisons v = .ok comparisons := by
  simp only [ofMember_field_eq_ok_iff hall hany]
  constructor
  · rintro ⟨_, comparisons, h, -⟩
    exact ⟨comparisons, h⟩
  · rintro ⟨comparisons, h⟩
    exact ⟨_, comparisons, h, rfl⟩

theorem isEntry_conjunction_iff {key : String} (hkey : key = "$and" ∨ key = "and") {v : Json} :
    IsEntry key v ↔ ∃ items, v = .array items ∧ ∀ w ∈ items, IsPredicate w := by
  have hmem : key ∈ combinatorKeys := mem_combinatorKeys_iff.mpr (Or.inl hkey)
  constructor
  · intro h
    cases h with
    | all _ h => exact ⟨_, rfl, h⟩
    | any _ _ h => exact ⟨_, rfl, h⟩
    | equality hn _ => exact absurd hmem hn
    | operators hn _ _ => exact absurd hmem hn
  · rintro ⟨items, rfl, h⟩
    exact .all hkey h

theorem isEntry_disjunction_iff {key : String} (hkey : key = "$or" ∨ key = "or") {v : Json} :
    IsEntry key v ↔ ∃ items, v = .array items ∧ 2 ≤ items.length ∧ ∀ w ∈ items, IsPredicate w := by
  have hmem : key ∈ combinatorKeys := mem_combinatorKeys_iff.mpr (Or.inr hkey)
  constructor
  · intro h
    cases h with
    | all hall _ => rcases hall with rfl | rfl <;> exact absurd hkey (by decide)
    | any _ htwo h => exact ⟨_, rfl, htwo, h⟩
    | equality hn _ => exact absurd hmem hn
    | operators hn _ _ => exact absurd hmem hn
  · rintro ⟨items, rfl, htwo, h⟩
    exact .any hkey htwo h

theorem exists_ofMember_of_ofItems (key : String) {v : Json}
    (hitems : ∀ items, v = .array items →
      ((∃ members, ofItems items = .ok members) ↔ ∀ w ∈ items, IsPredicate w)) :
    (∃ parts, ofMember key v = .ok parts) ↔ IsEntry key v := by
  -- the reader asks for a conjunction first, then for a disjunction; no key is both
  cases hall : isConjunctionKey key with
  | true =>
    rw [exists_ofMember_conjunction hall, isEntry_conjunction_iff (isConjunctionKey_iff.mp hall)]
    exact exists_congr fun items => and_congr_right fun hv => hitems items hv
  | false =>
    cases hany : isDisjunctionKey key with
    | true =>
      rw [exists_ofMember_disjunction hany, isEntry_disjunction_iff (isDisjunctionKey_iff.mp hany)]
      exact exists_congr fun items => and_congr_right fun hv => and_congr_right fun _ =>
        hitems items hv
    | false =>
      rw [exists_ofMember_field hall hany]
      exact exists_readComparisons_eq_ok (not_mem_combinatorKeys hall hany)

mutual

theorem exists_ofJson_eq_ok : ∀ v : Json, (∃ p, ofJson v = .ok p) ↔ IsPredicate v
  | .object members => by
    rw [ofJson, exists_map_eq_ok_iff, exists_ofMembers_eq_ok members]
    exact ⟨.object, fun | .object h => h⟩
  | .null | .bool _ | .number _ | .string _ | .array _ => by
    constructor
    · rintro ⟨p, h⟩
      exact absurd h (by simp [ofJson])
    · intro h
      cases h

theorem exists_ofMembers_eq_ok : ∀ members : List (String × Json),
    (∃ parts, ofMembers members = .ok parts) ↔ ∀ m ∈ members, IsEntry m.1 m.2
  | [] => ⟨fun _ m hm => absurd hm (by simp), fun _ => ⟨[], rfl⟩⟩
  | (key, v) :: rest => by
    simp only [ofMembers_cons_eq_ok_iff]
    rw [List.forall_mem_cons, ← exists_ofMember_eq_ok key v, ← exists_ofMembers_eq_ok rest,
      exists_both_eq_ok_iff]

theorem exists_ofMember_eq_ok (key : String) : ∀ v : Json,
    (∃ parts, ofMember key v = .ok parts) ↔ IsEntry key v
  | .array items => exists_ofMember_of_ofItems key fun items' h =>
    Json.array.inj h ▸ exists_ofItems_eq_ok items
  | .null | .bool _ | .number _ | .string _ | .object _ =>
    exists_ofMember_of_ofItems key fun _ h => absurd h (by simp)

theorem exists_ofItems_eq_ok : ∀ items : List Json,
    (∃ members, ofItems items = .ok members) ↔ ∀ v ∈ items, IsPredicate v
  | [] => ⟨fun _ v hv => absurd hv (by simp), fun _ => ⟨[], rfl⟩⟩
  | v :: vs => by
    simp only [ofItems_cons_eq_ok_iff]
    rw [List.forall_mem_cons, ← exists_ofJson_eq_ok v, ← exists_ofItems_eq_ok vs,
      exists_both_eq_ok_iff]

end

/-! ### What is blamed -/

theorem failsOnly_readOperator (operator : String) (v : Json) :
    FailsOnly Failure.BlamesPredicate (readOperator operator v) := by
  have hoperator (reason : String) : (Failure.invalidOperator operator reason).BlamesPredicate :=
    Or.inr ⟨operator, reason, rfl⟩
  rw [readOperator]
  split
  · exact .ok _
  split
  · refine FailsOnly.map ?_ _
    rw [readPattern.eq_def]
    split
    · exact .ok _
    · exact .error (hoperator _)
  split
  · refine FailsOnly.map ?_ _
    rw [readList.eq_def]
    split
    · exact .error (hoperator _)
    · exact .ok _
    · exact .error (hoperator _)
  split
  · rw [readRange.eq_def]
    split
    · exact .ok _
    · exact .error (Or.inr ⟨_, _, rfl⟩)
  · exact .error (hoperator _)

theorem failsOnly_readComparisons (v : Json) :
    FailsOnly Failure.BlamesPredicate (readComparisons v) := by
  rw [readComparisons.eq_def]
  split
  · split
    · exact .mapM fun m _ => failsOnly_readOperator m.1 m.2
    · exact .ok _
  · exact .ok _

mutual

theorem failsOnly_ofJson : ∀ v : Json, FailsOnly Failure.BlamesPredicate (ofJson v)
  | .object members => by
    rw [ofJson]
    exact (failsOnly_ofMembers members).map conjunction
  | .null | .bool _ | .number _ | .string _ | .array _ => by
    rw [ofJson]
    · exact .error (Or.inl ⟨_, rfl⟩)
    · simp

theorem failsOnly_ofMembers : ∀ members : List (String × Json),
    FailsOnly Failure.BlamesPredicate (ofMembers members)
  | [] => .ok []
  | (key, v) :: rest => by
    rw [ofMembers]
    exact (failsOnly_ofMember key v).bind fun _ => (failsOnly_ofMembers rest).bind fun _ => .ok _

theorem failsOnly_ofMember (key : String) : ∀ v : Json,
    FailsOnly Failure.BlamesPredicate (ofMember key v)
  | .array items => by
    rw [ofMember]
    split
    · exact (failsOnly_ofItems items).bind fun _ => .ok _
    split
    · refine (failsOnly_ofItems items).bind fun members => ?_
      split
      · exact .error (Or.inr ⟨_, _, rfl⟩)
      · exact .ok _
    · exact (failsOnly_readComparisons _).map _
  | .null | .bool _ | .number _ | .string _ | .object _ => by
    rw [ofMember]
    · split
      · exact .error (Or.inr ⟨_, _, rfl⟩)
      · exact (failsOnly_readComparisons _).map _
    · simp

theorem failsOnly_ofItems : ∀ items : List Json,
    FailsOnly Failure.BlamesPredicate (ofItems items)
  | [] => .ok []
  | v :: vs => by
    rw [ofItems]
    exact (failsOnly_ofJson v).bind fun _ => (failsOnly_ofItems vs).bind fun _ => .ok _

end

/-! ### Acceptance and refusal -/

/-- **The reader accepts exactly the grammar of predicates**, and whenever it refuses a
value it says that a criterion or an operator is wrong. -/
theorem exists_ofJson_iff_isPredicate (v : Json) :
    ((∃ p, ofJson v = .ok p) ↔ IsPredicate v) ∧
      ∀ f, ofJson v = .error f → f.BlamesPredicate :=
  ⟨exists_ofJson_eq_ok v, failsOnly_ofJson v⟩

/-- A fault deep inside a disjunction of one: the fault is found before the members are
counted. -/
theorem exists_ofJson_iff_isPredicate_nested :
    let v : Json := .object [
      ("a", .object [("b", .int 1)]),
      ("$or", .array [.object [("$and", .array [.object [("c", .object [("$in", .array [])])]])]])]
    let f : Failure := .invalidOperator "$in" "requires a non-empty array"
    ofJson v = .error f ∧ f.BlamesPredicate ∧ ¬IsPredicate v := by
  intro v f
  have hv : ofJson v = .error f := rfl
  obtain ⟨haccepts, hblames⟩ := exists_ofJson_iff_isPredicate v
  refine ⟨hv, hblames f hv, fun h => ?_⟩
  obtain ⟨p, hp⟩ := haccepts.mpr h
  rw [hv] at hp
  exact absurd hp (by simp)

end Predicate

end Docstore
