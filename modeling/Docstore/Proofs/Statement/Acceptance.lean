import Docstore.Proofs.Statement.Parts
import Docstore.Proofs.Statement.Refusals

/-!
# Which requests compile

`Request.IsWellFormed` says what a request must have, without an order in which its
parts are looked at: a model and a primary key that are not blank, a method, and what
goes with the method.  A pipeline is all that an aggregate request needs.  Any other
request must have its optional parts readable, also those its method does not use
(`HasReadableParts`), and what its method works with (`IsEquipped`).

`exists_compile_iff_isWellFormed`: the compiler accepts exactly these requests, and
whatever it refuses it refuses for its shape.
-/

namespace Docstore

def Accepts {α : Type} (read : Json → Except Failure α) (v : Json) : Prop := ∃ a, read v = .ok a

namespace Request

/-! ### Well-formed requests -/

/-- What criteria may have for the vertices or the edges of a traversal: nothing, `null`,
a text, or a predicate. -/
inductive IsTraversalFilter : Option Json → Prop where
  | absent : IsTraversalFilter none
  | null : IsTraversalFilter (some .null)
  | key (text : String) : IsTraversalFilter (some (.string text))
  | predicate {v : Json} (h : Accepts Predicate.ofJson v) : IsTraversalFilter (some v)

/-- The optional parts can be read where they are there. -/
structure HasReadableParts (r : Request) : Prop where
  criteria : ∀ v, r.criteria = some v → Accepts Criteria.ofJson v
  vertices : IsTraversalFilter (r.criteriaMembers.get? "whereVertex")
  edges : IsTraversalFilter (r.criteriaMembers.get? "whereEdge")
  edgeCollections : ∀ v, r.edgeCollections = some v → Accepts EdgeList.ofJson v
  distance : ∀ v, r.distance = some v → Accepts Distance.ofJson v

/-- The request has what the method works with. -/
structure IsEquipped (r : Request) (method : Method) : Prop where
  edges : method = .findOutbound ∨ method = .getOutboundVertices → ∃ v, r.edgeCollections = some v
  distance : method = .findNear → ∃ v, r.distance = some v
  numeric : method = .sum ∨ method = .average → ∃ a, r.numericAttribute = some a ∧ a ≠ ""
  update : method = .update ∨ method = .upsert →
    ∃ v, r.values = some v ∧ ∀ mode, Accepts (NormalUpdate.ofJson mode) v
  document : method = .create ∨ method = .replace ∨ method = .createEdge →
    ∃ members, r.values = some (.object members)
  documents : method = .createEach →
    ∃ items, r.values = some (.array items) ∧ ∀ v ∈ items, ∃ members, v = .object members

structure IsWellFormed (r : Request) : Prop where
  model : ∃ model, r.model = some model ∧ HasText model
  primaryKey : ∃ key, r.primaryKey = some key ∧ HasText key
  rest : (r.method = some .aggregate ∧ ∃ v, r.aggregate = some v ∧ Accepts Pipeline.ofJson v) ∨
    ∃ method, r.method = some method ∧ method ≠ .aggregate ∧ r.HasReadableParts ∧
      r.IsEquipped method

/-! ### Optional parts -/

theorem exists_readOptional_eq_ok {α : Type} {read : Json → Except Failure α} {o : Option Json} :
    (∃ a, readOptional read o = .ok a) ↔ ∀ v, o = some v → Accepts read v := by
  cases o with
  | none => exact ⟨fun _ v hv => absurd hv (by simp), fun _ => ⟨none, rfl⟩⟩
  | some v =>
    rw [readOptional, exists_map_eq_ok_iff]
    exact ⟨fun h w hw => Option.some.inj hw ▸ h, fun h => h v rfl⟩

theorem isSome_of_readOptional {α : Type} {read : Json → Except Failure α} {o : Option Json}
    {a : Option α} (h : readOptional read o = .ok a) : a.isSome = o.isSome := by
  cases o with
  | none =>
    obtain rfl := Except.ok.inj h
    rfl
  | some v =>
    obtain ⟨b, -, rfl⟩ := map_eq_ok_iff.mp h
    rfl

theorem exists_traversalFilter_some {primaryKey loopVar : String} {v : Json} (hv : v ≠ .null) :
    (∃ text, traversalFilter primaryKey loopVar (some v) = .ok text) ↔
      IsTraversalFilter (some v) := by
  have hpredicate : traversalFilter primaryKey loopVar (some v) =
        Predicate.filterTextOfJson loopVar v →
      ((∃ text, traversalFilter primaryKey loopVar (some v) = .ok text) ↔
        Accepts Predicate.ofJson v) := by
    intro h
    rw [h, Predicate.filterTextOfJson, exists_map_eq_ok_iff]
    rfl
  cases v with
  | null => exact absurd rfl hv
  | string text => exact ⟨fun _ => .key text, fun _ => ⟨_, rfl⟩⟩
  | _ =>
    rw [hpredicate rfl]
    exact ⟨.predicate, fun | .predicate h => h⟩

theorem exists_traversalFilter_eq_ok {primaryKey loopVar : String} {members : Dictionary Json}
    {key : String} :
    (∃ text, traversalFilter primaryKey loopVar (Criteria.given? key members) = .ok text) ↔
      IsTraversalFilter (members.get? key) := by
  cases hgiven : Criteria.given? key members with
  | some v =>
    obtain ⟨hmember, hv⟩ := Criteria.given?_eq_some_iff.mp hgiven
    rw [hmember, exists_traversalFilter_some hv]
  | none =>
    refine ⟨fun _ => ?_, fun _ => ⟨"", rfl⟩⟩
    have hnull := Criteria.given?_eq_none_iff.mp hgiven
    cases hmember : members.get? key with
    | none => exact .absent
    | some v =>
      rw [hmember] at hnull
      obtain rfl : v = .null := hnull
      exact .null

/-! ### What the method works with -/

theorem checkNeeds_eq_ok_iff {r : Request} {method : Method} {edges : Option String}
    {distance : Option Distance} :
    checkNeeds r method edges distance = .ok () ↔
      (method = .findOutbound ∨ method = .getOutboundVertices → edges.isSome = true) ∧
      (method = .findNear → distance.isSome = true) ∧
      (method = .sum ∨ method = .average → ∃ a, r.numericAttribute = some a ∧ a ≠ "") := by
  have hnumeric : (r.numericAttribute.getD "").isEmpty = false ↔
      ∃ a, r.numericAttribute = some a ∧ a ≠ "" := by
    cases r.numericAttribute with
    | none => simp
    | some a => simp
  rw [checkNeeds, ite_error_eq_ok_iff, ite_error_eq_ok_iff, ite_error_eq_ok_iff,
    ← Method.needsEdges_iff, ← Method.needsNumericAttribute_iff, ← hnumeric]
  simp [Option.isSome_iff_ne_none]

theorem isObject_iff {v : Json} : v.isObject = true ↔ ∃ members, v = .object members := by
  cases v <;> simp [Json.isObject]

theorem checkDocuments_createEach_eq_ok_iff {v : Json} :
    checkDocuments .createEach v = .ok () ↔
      ∃ items, v = .array items ∧ ∀ w ∈ items, ∃ members, w = .object members := by
  cases v with
  | array items =>
    have hfind : (items.find? fun w => !w.isObject) = none ↔
        ∀ w ∈ items, ∃ members, w = .object members := by
      rw [List.find?_eq_none]
      refine forall_congr' fun w => forall_congr' fun _ => ?_
      rw [← isObject_iff]
      simp
    rw [checkDocuments]
    split
    · next hnone => exact ⟨fun _ => ⟨items, rfl, hfind.mp hnone⟩, fun _ => rfl⟩
    · next w hsome =>
      refine ⟨fun h => absurd h (by simp), ?_⟩
      rintro ⟨items', heq, hall⟩
      obtain rfl := Json.array.inj heq
      rw [hfind.mpr hall] at hsome
      exact absurd hsome (by simp)
  | _ => exact ⟨fun h => absurd h (by simp [checkDocuments]), fun ⟨_, h, _⟩ => Json.noConfusion h⟩

theorem checkDocuments_eq_ok_iff {method : Method} (hmethod : method ≠ .createEach) {v : Json} :
    checkDocuments method v = .ok () ↔ ∃ members, v = .object members := by
  rw [checkDocuments.eq_def]
  split
  · exact absurd rfl hmethod
  · exact absurd rfl hmethod
  · next members _ => exact ⟨fun _ => ⟨members, rfl⟩, fun _ => rfl⟩
  · next _ hobject _ =>
    refine ⟨fun h => absurd h (by simp), ?_⟩
    rintro ⟨members, h⟩
    exact (hobject members h).elim

theorem forall_accepts_ofJson_iff {v : Json} :
    (∀ mode, Accepts (NormalUpdate.ofJson mode) v) ↔ ∃ fields, fieldMutations v = .ok fields := by
  simp only [Accepts, NormalUpdate.ofJson, exists_map_eq_ok_iff]
  exact ⟨fun h => h .value, fun h _ => h⟩

theorem exists_compilePayload_update {now : String} {r : Request} {method : Method}
    (hupdate : method.isUpdate = true) {filter : Predicate} :
    (∃ p, compilePayload now r method filter = .ok p) ↔
      ∃ v, r.values = some v ∧ ∀ mode, Accepts (NormalUpdate.ofJson mode) v := by
  rw [compilePayload, if_pos hupdate]
  simp only [exists_bind_eq_ok_iff, need_eq_ok_iff, forall_accepts_ofJson_iff, Except.ok.injEq,
    exists_eq', and_true]

theorem exists_compilePayload_insert {now : String} {r : Request} {method : Method}
    (hinsert : method.isInsert = true) {filter : Predicate} :
    (∃ p, compilePayload now r method filter = .ok p) ↔
      ∃ v, r.values = some v ∧ checkDocuments method v = .ok () := by
  have hupdate : method.isUpdate = false := by
    rcases Method.isInsert_iff.mp hinsert with rfl | rfl | rfl | rfl <;> rfl
  rw [compilePayload, hupdate, if_neg Bool.false_ne_true, if_pos hinsert]
  simp only [exists_bind_eq_ok_iff, need_eq_ok_iff, Except.ok.injEq, exists_eq', and_true]
  refine exists_congr fun v => and_congr_right fun _ => ?_
  constructor
  · rintro ⟨_, h⟩
    exact h
  · intro h
    exact ⟨(), h⟩

theorem exists_compilePayload_document {now : String} {r : Request} {method : Method}
    (hmethod : method = .create ∨ method = .replace ∨ method = .createEdge) {filter : Predicate} :
    (∃ p, compilePayload now r method filter = .ok p) ↔
      ∃ members, r.values = some (.object members) := by
  have hone : method ≠ .createEach := by
    rcases hmethod with rfl | rfl | rfl <;> exact Method.noConfusion
  simp only [exists_compilePayload_insert (Method.isInsert_iff.mpr (Or.inr hmethod)),
    checkDocuments_eq_ok_iff hone]
  constructor
  · rintro ⟨v, hv, members, rfl⟩
    exact ⟨members, hv⟩
  · rintro ⟨members, hv⟩
    exact ⟨_, hv, members, rfl⟩

theorem exists_compilePayload_documents {now : String} {r : Request} {filter : Predicate} :
    (∃ p, compilePayload now r .createEach filter = .ok p) ↔
      ∃ items, r.values = some (.array items) ∧ ∀ v ∈ items, ∃ members, v = .object members := by
  have hinsert : Method.createEach.isInsert = true := rfl
  simp only [exists_compilePayload_insert hinsert, checkDocuments_createEach_eq_ok_iff]
  constructor
  · rintro ⟨v, hv, items, rfl, hitems⟩
    exact ⟨items, hv, hitems⟩
  · rintro ⟨items, hv, hitems⟩
    exact ⟨_, hv, items, rfl, hitems⟩

theorem compilePayload_nothing {now : String} {r : Request} {method : Method}
    (hupdate : method.isUpdate = false) (hinsert : method.isInsert = false) {filter : Predicate} :
    compilePayload now r method filter = .ok .nothing := by
  rw [compilePayload, hupdate, hinsert]
  rfl

theorem exists_compilePayload_eq_ok {now : String} {r : Request} {method : Method}
    {filter : Predicate} :
    (∃ p, compilePayload now r method filter = .ok p) ↔
      (method = .update ∨ method = .upsert →
        ∃ v, r.values = some v ∧ ∀ mode, Accepts (NormalUpdate.ofJson mode) v) ∧
      (method = .create ∨ method = .replace ∨ method = .createEdge →
        ∃ members, r.values = some (.object members)) ∧
      (method = .createEach →
        ∃ items, r.values = some (.array items) ∧ ∀ v ∈ items, ∃ members, v = .object members) := by
  -- no method is of two kinds, so only one of the three parts says anything
  by_cases hupdate : method = .update ∨ method = .upsert
  · rw [exists_compilePayload_update (Method.isUpdate_iff.mpr hupdate)]
    rcases hupdate with rfl | rfl <;> simp
  by_cases hone : method = .create ∨ method = .replace ∨ method = .createEdge
  · rw [exists_compilePayload_document hone]
    rcases hone with rfl | rfl | rfl <;> simp
  by_cases heach : method = .createEach
  · subst heach
    rw [exists_compilePayload_documents]
    simp
  · have hnothing : compilePayload now r method filter = .ok .nothing := compilePayload_nothing
      (Bool.eq_false_iff.mpr fun h => hupdate (Method.isUpdate_iff.mp h))
      (Bool.eq_false_iff.mpr fun h => (Method.isInsert_iff.mp h).elim heach hone)
    simp [hnothing, hupdate, hone, heach]

/-! ### Requests -/

/-- The parts that an accepted request is made of. -/
theorem IsMadeInto.hasReadableParts {now : String} {r : Request} {s : Statement}
    {criteria : Criteria} {key : String} (h : r.IsMadeInto now s criteria key) :
    r.HasReadableParts where
  criteria v hv := by
    have hread := h.readCriteria
    rw [hv] at hread
    exact ⟨criteria, hread⟩
  vertices := by
    rw [← exists_traversalFilter_eq_ok, ← h.vertices]
    exact ⟨_, h.vertexFilter⟩
  edges := by
    rw [← exists_traversalFilter_eq_ok, ← h.edges]
    exact ⟨_, h.edgeFilter⟩
  edgeCollections := exists_readOptional_eq_ok.mp ⟨_, h.edgeCollections⟩
  distance := exists_readOptional_eq_ok.mp ⟨_, h.distance⟩

theorem IsMadeInto.isEquipped {now : String} {r : Request} {s : Statement}
    {criteria : Criteria} {key : String} (h : r.IsMadeInto now s criteria key) :
    r.IsEquipped s.method := by
  obtain ⟨hedges, hdistance, hnumeric⟩ := checkNeeds_eq_ok_iff.mp h.needs
  obtain ⟨hupdate, hdocument, hdocuments⟩ := exists_compilePayload_eq_ok.mp ⟨_, h.payload⟩
  rw [isSome_of_readOptional h.edgeCollections, Option.isSome_iff_exists] at hedges
  rw [isSome_of_readOptional h.distance, Option.isSome_iff_exists] at hdistance
  exact ⟨hedges, hdistance, hnumeric, hupdate, hdocument, hdocuments⟩

theorem exists_readCriteria {r : Request} (h : r.HasReadableParts) :
    ∃ criteria, Criteria.ofJson (Json.orNull r.criteria) = .ok criteria := by
  cases hcriteria : r.criteria with
  | none => exact ⟨{}, rfl⟩
  | some v => exact h.criteria v hcriteria

theorem exists_compileStatement_eq_ok {now : String} {r : Request} {model key : String}
    {method : Method} (hparts : r.HasReadableParts) (hequipped : r.IsEquipped method) :
    ∃ s, compileStatement now r model method key = .ok s := by
  obtain ⟨criteria, hcriteria⟩ := exists_readCriteria hparts
  obtain ⟨-, hvertices, hedges⟩ :=
    Criteria.parts_of_ofMembers (Criteria.ofMembers_of_ofJson hcriteria)
  obtain ⟨vertexFilter, hvertexFilter⟩ : ∃ text,
      traversalFilter key vertexVariable criteria.vertices = .ok text := by
    rw [hvertices]
    exact exists_traversalFilter_eq_ok.mpr hparts.vertices
  obtain ⟨edgeFilter, hedgeFilter⟩ : ∃ text,
      traversalFilter key edgeVariable criteria.edges = .ok text := by
    rw [hedges]
    exact exists_traversalFilter_eq_ok.mpr hparts.edges
  obtain ⟨edgeCollections, hcollections⟩ := exists_readOptional_eq_ok.mpr hparts.edgeCollections
  obtain ⟨distance, hdistance⟩ := exists_readOptional_eq_ok.mpr hparts.distance
  have hneeds : checkNeeds r method edgeCollections distance = .ok () := by
    rw [checkNeeds_eq_ok_iff, isSome_of_readOptional hcollections, isSome_of_readOptional hdistance,
      Option.isSome_iff_exists, Option.isSome_iff_exists]
    exact ⟨hequipped.edges, hequipped.distance, hequipped.numeric⟩
  obtain ⟨payload, hpayload⟩ : ∃ p, compilePayload now r method criteria.filter = .ok p :=
    exists_compilePayload_eq_ok.mpr ⟨hequipped.update, hequipped.document, hequipped.documents⟩
  simp only [compileStatement, exists_bind_eq_ok_iff]
  exact ⟨criteria, hcriteria, vertexFilter, hvertexFilter, edgeFilter, hedgeFilter,
    edgeCollections, hcollections, distance, hdistance, (), hneeds, payload, hpayload, _, rfl⟩

theorem isWellFormed_of_compile {now : String} {r : Request} {c : Compiled}
    (h : r.compile now = .ok c) : r.IsWellFormed := by
  cases c with
  | statement s =>
    obtain ⟨criteria, key, h⟩ := compile_eq_statement_iff.mp h
    exact ⟨⟨s.model, h.model, h.modelText⟩, ⟨key, h.primaryKey, h.keyText⟩,
      Or.inr ⟨s.method, h.method, h.notAggregate, h.hasReadableParts, h.isEquipped⟩⟩
  | pipeline text =>
    obtain ⟨model, method, key, hmodel, hmethod, hkey, h⟩ := compile_eq_ok_iff.mp h
    rcases h with ⟨rfl, v, text, hv, htext, -⟩ | ⟨-, s, -, h⟩
    · obtain ⟨p, hp, -⟩ := map_eq_ok_iff.mp htext
      exact ⟨⟨model, hmodel⟩, ⟨key, hkey⟩, Or.inl ⟨hmethod, v, hv, p, hp⟩⟩
    · exact Compiled.noConfusion h

theorem exists_compile_of_isWellFormed {now : String} {r : Request} (h : r.IsWellFormed) :
    ∃ c, r.compile now = .ok c := by
  obtain ⟨⟨model, hmodel, hmodelText⟩, ⟨key, hkey, hkeyText⟩, h⟩ := h
  rcases h with ⟨hmethod, v, hv, p, hp⟩ | ⟨method, hmethod, hne, hparts, hequipped⟩
  · have htext : Pipeline.renderJson v key model = .ok (p.render key model) :=
      map_eq_ok_iff.mpr ⟨p, hp, rfl⟩
    exact ⟨.pipeline (p.render key model), compile_eq_ok_iff.mpr
      ⟨model, .aggregate, key, ⟨hmodel, hmodelText⟩, hmethod, ⟨hkey, hkeyText⟩,
        Or.inl ⟨rfl, v, _, hv, htext, rfl⟩⟩⟩
  · obtain ⟨s, hs⟩ : ∃ s, compileStatement now r model method key = .ok s :=
      exists_compileStatement_eq_ok hparts hequipped
    exact ⟨.statement s, compile_eq_ok_iff.mpr
      ⟨model, method, key, ⟨hmodel, hmodelText⟩, hmethod, ⟨hkey, hkeyText⟩,
        Or.inr ⟨hne, s, hs, rfl⟩⟩⟩

/-- **The compiler accepts exactly the well-formed requests**, and whatever it refuses it
refuses for its shape. -/
theorem exists_compile_iff_isWellFormed (now : String) (r : Request) :
    ((∃ c, r.compile now = .ok c) ↔ r.IsWellFormed) ∧
      ∀ f, r.compile now = .error f → f.isValidation = true :=
  ⟨⟨fun ⟨_, h⟩ => isWellFormed_of_compile h, exists_compile_of_isWellFormed⟩,
    failsOnly_compile now r⟩

/-- Edges that the method does not use are read all the same, so an empty list of them
spoils a request that is well-formed without them. -/
theorem exists_compile_iff_isWellFormed_unused :
    let r : Request := {
      model := some "person", method := some .upsert, primaryKey := some "id"
      criteria := some (.object [("where", .null), ("whereVertex", .string "p1"),
        ("whereEdge", .object [("weight", .object [("$gt", .int 2)])])])
      values := some (.object [("$inc", .object [("visits", .int 1)])]) }
    let spoilt : Request := { r with edgeCollections := some (.array []) }
    let f : Failure := .invalidCriteria "edge collection list is empty"
    r.IsWellFormed ∧ spoilt.compile "" = .error f ∧ f.isValidation = true ∧
      ¬spoilt.IsWellFormed := by
  intro r spoilt f
  have hcompiles : ∃ c, r.compile "" = .ok c := ⟨_, rfl⟩
  have hrefused : spoilt.compile "" = .error f := rfl
  obtain ⟨haccepts, hrefusal⟩ := exists_compile_iff_isWellFormed "" spoilt
  refine ⟨(exists_compile_iff_isWellFormed "" r).1.mp hcompiles, hrefused, hrefusal f hrefused,
    fun h => ?_⟩
  obtain ⟨c, hc⟩ := haccepts.mpr h
  rw [hrefused] at hc
  exact absurd hc (by simp)

end Request

end Docstore
