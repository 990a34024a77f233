import Docstore.Proofs.Failure
import Docstore.Statement.Compile

/-!
# The parts of a statement

A request compiles to a statement part by part, and each part may be refused.
`Request.IsMadeInto` lists the parts of a statement with where each comes from, so
that `compile_eq_statement_iff` says at once all that compiling does when it gives a
statement.  Later files take from it the parts that they need and never open the
compiler again.

Criteria may be absent, `null`, an empty object or an object with the key `where`.
In all cases they are what is read from their members, if there are any
(`Criteria.ofMembers_of_ofJson`).
-/

namespace Docstore

/-! ### Criteria and their members -/

namespace Json

/-- The members of an object; any other value has none. -/
def members (v : Json) : Dictionary Json := v.object?.getD []

end Json

namespace Criteria

theorem ofMembers_of_ofJson {v : Json} {c : Criteria} (h : ofJson v = .ok c) :
    ofMembers v.members = .ok c := by
  cases v with
  | null =>
    obtain rfl := Except.ok.inj h
    rfl
  | object members =>
    cases members with
    | nil =>
      obtain rfl := Except.ok.inj h
      rfl
    | cons m rest =>
      rw [ofJson] at h
      · split at h
        · exact h
        · exact absurd h (by simp)
      · simp
  | _ => exact absurd h (by simp [ofJson])

/-- The filter is read first, and the filters of a traversal are kept as they are given. -/
theorem parts_of_ofMembers {members : Dictionary Json} {c : Criteria}
    (h : ofMembers members = .ok c) :
    readFilter (given? "where" members) = .ok c.filter ∧
      c.vertices = given? "whereVertex" members ∧ c.edges = given? "whereEdge" members := by
  simp only [ofMembers, bind_eq_ok_iff] at h
  obtain ⟨filter, hfilter, select, -, sort, -, limit, -, skip, -, h⟩ := h
  obtain rfl := Except.ok.inj h
  exact ⟨hfilter, rfl, rfl⟩

theorem given?_eq_some_iff {key : String} {members : Dictionary Json} {v : Json} :
    given? key members = some v ↔ members.get? key = some v ∧ v ≠ .null := by
  have hnull : (!v.isNull) = true ↔ v ≠ .null := by cases v <;> simp [Json.isNull]
  rw [given?, Option.filter_eq_some_iff, hnull]

theorem given?_eq_none_iff {key : String} {members : Dictionary Json} :
    given? key members = none ↔ Json.orNull (members.get? key) = .null := by
  rw [given?]
  cases members.get? key with
  | none => simp [Json.orNull]
  | some v => cases v <;> simp [Json.orNull, Json.isNull]

end Criteria

namespace Request

/-! ### What must be there -/

theorem need_eq_ok_iff {α : Type} {name : String} {o : Option α} {a : α} :
    need name o = .ok a ↔ o = some a := by
  cases o <;> simp [need]

/-- The text has a character that is not blank. -/
def HasText (s : String) : Prop := ∃ c ∈ s.toList, Text.isBlank c = false

theorem needText_eq_ok_iff {name : String} {s : Option String} {t : String} :
    needText name s = .ok t ↔ s = some t ∧ HasText t := by
  have hblank : (!Text.isAllBlank t) = true ↔ HasText t := by
    rw [Bool.not_eq_true', Text.isAllBlank, List.all_eq_false]
    simp only [Bool.not_eq_true]
    rfl
  rw [needText, need_eq_ok_iff, Option.filter_eq_some_iff, hblank]

/-! ### Parts and wholes -/

/-- The members of the criteria; there are none without criteria. -/
def criteriaMembers (r : Request) : Dictionary Json := (Json.orNull r.criteria).members

/-- The condition on records; `null` where there is none. -/
def condition (r : Request) : Json := Json.orNull (r.criteriaMembers.get? "where")

/-- The request is made into the statement, with these criteria and this primary key. -/
structure IsMadeInto (now : String) (r : Request) (s : Statement) (criteria : Criteria)
    (key : String) : Prop where
  model : r.model = some s.model
  modelText : HasText s.model
  method : r.method = some s.method
  /-- An aggregate request is made into a pipeline. -/
  notAggregate : s.method ≠ .aggregate
  primaryKey : r.primaryKey = some key
  keyText : HasText key
  readCriteria : Criteria.ofJson (Json.orNull r.criteria) = .ok criteria
  select : s.select = criteria.select
  selectClause : s.selectClause = Request.selectClause criteria.select key
  filter : s.filter = criteria.filter.filterText recordVariable
  primaryId : s.primaryId = primaryId? criteria.filter s.model key
  vertexFilter : traversalFilter key vertexVariable criteria.vertices = .ok s.vertexFilter
  edgeFilter : traversalFilter key edgeVariable criteria.edges = .ok s.edgeFilter
  sortClauses : s.sortClauses = criteria.sort.map sortClause
  limit : s.limit = criteria.limit
  skip : s.skip = criteria.skip
  numericAttribute : s.numericAttribute = r.numericAttribute
  edgeCollections : readOptional EdgeList.ofJson r.edgeCollections = .ok s.edgeCollections
  distance : readOptional Distance.ofJson r.distance = .ok s.distance
  needs : checkNeeds r s.method s.edgeCollections s.distance = .ok ()
  payload : compilePayload now r s.method criteria.filter = .ok s.payload

namespace IsMadeInto

variable {now : String} {r : Request} {s : Statement} {criteria : Criteria} {key : String}

theorem readFilter (h : r.IsMadeInto now s criteria key) :
    Criteria.readFilter (Criteria.given? "where" r.criteriaMembers) = .ok criteria.filter :=
  (Criteria.parts_of_ofMembers (Criteria.ofMembers_of_ofJson h.readCriteria)).1

theorem filter_cases (h : r.IsMadeInto now s criteria key) :
    (r.condition = .null ∧ criteria.filter = .always) ∨
      Predicate.ofJson r.condition = .ok criteria.filter := by
  have hread := h.readFilter
  cases hgiven : Criteria.given? "where" r.criteriaMembers with
  | none =>
    rw [hgiven] at hread
    exact Or.inl ⟨Criteria.given?_eq_none_iff.mp hgiven, (Except.ok.inj hread).symm⟩
  | some v =>
    rw [hgiven] at hread
    rw [condition, (Criteria.given?_eq_some_iff.mp hgiven).1]
    exact Or.inr hread

theorem vertices (h : r.IsMadeInto now s criteria key) :
    criteria.vertices = Criteria.given? "whereVertex" r.criteriaMembers :=
  (Criteria.parts_of_ofMembers (Criteria.ofMembers_of_ofJson h.readCriteria)).2.1

theorem edges (h : r.IsMadeInto now s criteria key) :
    criteria.edges = Criteria.given? "whereEdge" r.criteriaMembers :=
  (Criteria.parts_of_ofMembers (Criteria.ofMembers_of_ofJson h.readCriteria)).2.2

theorem payload_update (h : r.IsMadeInto now s criteria key)
    (hmethod : s.method = .update ∨ s.method = .upsert) :
    ∃ values mutations, r.values = some values ∧ mutationsOf values = .ok mutations ∧
      s.payload =
        .update (searchDocument criteria.filter)
          (insertionDocument now (searchDocument criteria.filter)
            (NormalUpdate.ofFields .insertion (.ofEntries mutations)).assigned)
          (NormalUpdate.ofFields .value (.ofEntries mutations)).assigned
          (NormalUpdate.ofFields .setExpression (.ofEntries mutations)).objectText := by
  have hpayload := h.payload
  rw [compilePayload, if_pos (Method.isUpdate_iff.mpr hmethod)] at hpayload
  simp only [bind_eq_ok_iff, need_eq_ok_iff, fieldMutations, map_eq_ok_iff] at hpayload
  obtain ⟨values, hvalues, fields, ⟨mutations, hmutations, rfl⟩, hpayload⟩ := hpayload
  exact ⟨values, mutations, hvalues, hmutations, (Except.ok.inj hpayload).symm⟩

end IsMadeInto

/-- What compiling does: the texts and the method must be there, and the method decides
between a pipeline and a statement. -/
theorem compile_eq_ok_iff {now : String} {r : Request} {c : Compiled} :
    r.compile now = .ok c ↔
      ∃ model method key,
        (r.model = some model ∧ HasText model) ∧ r.method = some method ∧
        (r.primaryKey = some key ∧ HasText key) ∧
        ((method = .aggregate ∧ ∃ v text, r.aggregate = some v ∧
            Pipeline.renderJson v key model = .ok text ∧ c = .pipeline text) ∨
          (method ≠ .aggregate ∧ ∃ s, compileStatement now r model method key = .ok s ∧
            c = .statement s)) := by
  simp only [compile, bind_eq_ok_iff, needText_eq_ok_iff, need_eq_ok_iff]
  constructor
  · rintro ⟨model, hmodel, method, hmethod, key, hkey, h⟩
    refine ⟨model, method, key, hmodel, hmethod, hkey, ?_⟩
    split at h
    · next hm =>
      simp only [bind_eq_ok_iff, need_eq_ok_iff] at h
      obtain ⟨v, hv, text, htext, h⟩ := h
      exact Or.inl ⟨hm, v, text, hv, htext, (Except.ok.inj h).symm⟩
    · next hm =>
      obtain ⟨s, hs, h⟩ := bind_eq_ok_iff.mp h
      exact Or.inr ⟨hm, s, hs, (Except.ok.inj h).symm⟩
  · rintro ⟨model, method, key, hmodel, hmethod, hkey, h⟩
    refine ⟨model, hmodel, method, hmethod, key, hkey, ?_⟩
    rcases h with ⟨hm, v, text, hv, htext, rfl⟩ | ⟨hm, s, hs, rfl⟩
    · rw [if_pos hm]
      exact bind_eq_ok_iff.mpr ⟨v, need_eq_ok_iff.mpr hv,
        bind_eq_ok_iff.mpr ⟨text, htext, rfl⟩⟩
    · rw [if_neg hm]
      exact bind_eq_ok_iff.mpr ⟨s, hs, rfl⟩

/-- **A request compiles to a statement exactly when it is made into it.** -/
theorem compile_eq_statement_iff {now : String} {r : Request} {s : Statement} :
    r.compile now = .ok (.statement s) ↔ ∃ criteria key, r.IsMadeInto now s criteria key := by
  rw [compile_eq_ok_iff]
  simp only [compileStatement, bind_eq_ok_iff]
  constructor
  · rintro ⟨model, method, key, ⟨hmodel, hmodelText⟩, hmethod, ⟨hkey, hkeyText⟩, h⟩
    rcases h with ⟨-, v, text, -, -, h⟩ | ⟨hne, s', hs, h⟩
    · exact Compiled.noConfusion h
    obtain rfl := Compiled.statement.inj h
    obtain ⟨criteria, hcriteria, vertexFilter, hvertices, edgeFilter, hedges, edgeCollections,
      hcollections, distance, hdistance, _, hneeds, payload, hpayload, hs⟩ := hs
    obtain rfl := Except.ok.inj hs
    exact ⟨criteria, key, hmodel, hmodelText, hmethod, hne, hkey, hkeyText, hcriteria, rfl, rfl, rfl,
      rfl, hvertices, hedges, rfl, rfl, rfl, rfl, hcollections, hdistance, hneeds, hpayload⟩
  · rintro ⟨criteria, key, h⟩
    refine ⟨s.model, s.method, key, ⟨h.model, h.modelText⟩, h.method,
      ⟨h.primaryKey, h.keyText⟩, Or.inr ⟨h.notAggregate, s, ⟨criteria, h.readCriteria,
      s.vertexFilter, h.vertexFilter, s.edgeFilter, h.edgeFilter, s.edgeCollections,
      h.edgeCollections, s.distance, h.distance, (), h.needs, s.payload, h.payload, ?_⟩, rfl⟩⟩
    rw [← h.selectClause, ← h.select, ← h.filter, ← h.primaryId, ← h.sortClauses, ← h.limit,
      ← h.skip, ← h.numericAttribute]

end Request

end Docstore
