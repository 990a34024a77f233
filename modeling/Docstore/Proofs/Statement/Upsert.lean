import Docstore.Proofs.Predicate.Equalities
import Docstore.Proofs.Statement.Parts
import Docstore.Proofs.Update.Forms

/-!
# What an update writes

An update has three sets of values: the document that it searches for, the one that
it stores when there is none, and what it assigns to the one that is there.  All come
from two lists, the data that the condition demands of attributes and the mutations
of the values, in each of which a later entry for a field replaces an earlier one.
`ValueSets` says field by field which of the two lists a value comes from, and
`valueSets_of_compile` that an update is compiled to such sets.
-/

namespace Docstore

open Dictionary (last?)

namespace Request

/-! ### The search document -/

theorem IsMadeInto.literalEqualities {now : String} {r : Request} {s : Statement}
    {criteria : Criteria} {key : String} (h : r.IsMadeInto now s criteria key) :
    criteria.filter.literalEqualities = r.condition.demands := by
  rcases h.filter_cases with ⟨hcondition, hfilter⟩ | hread
  · rw [hcondition, hfilter]
    rfl
  · exact Predicate.literalEqualities_ofJson hread

theorem get?_searchDocument (filter : Predicate) (f : String) :
    (searchDocument filter).get? f = last? f filter.literalEqualities :=
  Dictionary.get?_ofEntries _ f

theorem nodup_keys_searchDocument (filter : Predicate) : (searchDocument filter).keys.Nodup :=
  Dictionary.nodup_keys_ofEntries _

/-! ### The inserted document -/

/-- A field of the inserted document is assigned, or else searched for, or else the time of
creation. -/
theorem get?_insertionDocument (now : String) (search : Dictionary Json)
    {fields : Dictionary Mutation} (hfields : fields.keys.Nodup) (f : String) :
    (insertionDocument now search (NormalUpdate.ofFields .insertion fields).assigned).get? f =
      (((fields.get? f).map Mutation.initialValue).or (search.get? f)).or
        (if f = createdAt then some (.string now) else none) := by
  -- each field stands once, so the last entry under it is the one that is found
  have hkeys : (Dictionary.keys (fields.map fun e => (e.1, e.2.initialValue))).Nodup := by
    rw [Dictionary.keys_map fun _ => Mutation.initialValue]
    exact hfields
  rw [insertionDocument, NormalUpdate.literals_insertion]
  show Dictionary.get? f (if _ then _ else _) = _
  rw [Dictionary.get?_put_unless_has, Dictionary.get?_putAll, Dictionary.last?_eq_get? hkeys,
    Dictionary.get?_map fun _ => Mutation.initialValue]

theorem nodup_keys_insertionDocument (now : String) {search : Dictionary Json}
    (hsearch : search.keys.Nodup) (assigned : Assignments) :
    (insertionDocument now search assigned).keys.Nodup := by
  have hfilled := Dictionary.nodup_keys_putAll hsearch
    (assigned.filterMap fun e => e.2.literal?.map fun v => (e.1, v))
  rw [insertionDocument]
  show (Dictionary.keys (if _ then _ else _)).Nodup
  split
  · exact hfilled
  · exact Dictionary.nodup_keys_put hfilled createdAt _

/-! ### The three sets -/

/-- The three sets of values of an update, made from the data that its condition demands and
from its mutations, in order. -/
structure ValueSets (now : String) (demands : List (String × Json))
    (mutations : List (String × Mutation)) (search insertion : Dictionary Json)
    (assigned : Assignments) (expression : String) : Prop where
  searchKeys : search.keys.Nodup
  /-- The search document has the last data demanded of an attribute, and nothing else. -/
  searched : ∀ f, search.get? f = last? f demands
  insertionKeys : insertion.keys.Nodup
  /-- A field that is mutated starts with the value that its last mutation comes to. -/
  insertionMutated : ∀ f m, last? f mutations = some m → insertion.get? f = some m.initialValue
  /-- Any other field is searched for; only the time of creation is added. -/
  insertionOther : ∀ f, last? f mutations = none →
    insertion.get? f = (search.get? f).or (if f = createdAt then some (.string now) else none)
  /-- The assigned fields are the mutated ones, in the order in which they come first. -/
  fields : Dictionary.keys assigned = (mutations.map Prod.fst).eraseDups
  fieldsOnce : (Dictionary.keys assigned).Nodup
  operands : ∀ f, Dictionary.get? f assigned = (last? f mutations).map (Mutation.operand f)
  /-- The expression lists the assignments in their order. -/
  expression : expression = assigned.objectText
  /-- A plain assignment gives the same data in both. -/
  plain : ∀ f v, last? f mutations = some (.assign v) →
    Dictionary.get? f assigned = some (.literal v) ∧ insertion.get? f = some v

theorem valueSets_ofEntries (now : String) (filter : Predicate)
    (mutations : List (String × Mutation)) :
    ValueSets now filter.literalEqualities mutations (searchDocument filter)
      (insertionDocument now (searchDocument filter)
        (NormalUpdate.ofFields .insertion (.ofEntries mutations)).assigned)
      (NormalUpdate.ofFields .value (.ofEntries mutations)).assigned
      (NormalUpdate.ofFields .setExpression (.ofEntries mutations)).objectText := by
  have hnodup : (Dictionary.ofEntries mutations).keys.Nodup :=
    Dictionary.nodup_keys_ofEntries mutations
  have hinsertion := get?_insertionDocument now (searchDocument filter) hnodup
  have hassigned := NormalUpdate.get?_value (.ofEntries mutations)
  simp only [Dictionary.get?_ofEntries] at hinsertion hassigned
  have hmutated : ∀ f m, last? f mutations = some m →
      (insertionDocument now (searchDocument filter)
        (NormalUpdate.ofFields .insertion (.ofEntries mutations)).assigned).get? f =
          some m.initialValue := by
    intro f m hm
    rw [hinsertion, hm]
    rfl
  exact {
    searchKeys := nodup_keys_searchDocument filter
    searched := get?_searchDocument filter
    insertionKeys := nodup_keys_insertionDocument now (nodup_keys_searchDocument filter) _
    insertionMutated := hmutated
    insertionOther := fun f hnone => by
      rw [hinsertion, hnone]
      rfl
    fields := by rw [NormalUpdate.keys_value, Dictionary.keys_ofEntries]
    fieldsOnce := by rw [NormalUpdate.keys_value]; exact hnodup
    operands := hassigned
    expression := NormalUpdate.objectText_ofFields _
    plain := fun f v hv => ⟨by rw [hassigned, hv]; rfl, hmutated f _ hv⟩ }

/-- **An update is compiled to its three sets of values.** -/
theorem valueSets_of_compile {now : String} {r : Request} {s : Statement}
    (h : r.compile now = .ok (.statement s)) (hmethod : s.method = .update ∨ s.method = .upsert) :
    ∃ values mutations search insertion assigned expression,
      r.values = some values ∧ mutationsOf values = .ok mutations ∧
      s.payload = .update search insertion assigned expression ∧
      ValueSets now r.condition.demands mutations search insertion assigned expression := by
  obtain ⟨criteria, key, h⟩ := compile_eq_statement_iff.mp h
  obtain ⟨values, mutations, hvalues, hmutations, hpayload⟩ := h.payload_update hmethod
  refine ⟨values, mutations, _, _, _, _, hvalues, hmutations, hpayload, ?_⟩
  rw [← h.literalEqualities]
  exact valueSets_ofEntries now criteria.filter mutations

/-- The name is demanded twice and assigned once, the number of visits is first counted up and
then assigned, and raw text is demanded of the tag. -/
theorem valueSets_of_compile_colliding :
    let r : Request := {
      model := some "user", method := some .upsert, primaryKey := some "id"
      criteria := some (.object [("where", .object [
        ("id", .string "5"), ("$and", .array [.object [("name", .string "a")],
          .object [("name", .string "b"), ("tag", .string "$t")]]),
        ("age", .object [("$gt", .int 1)])])])
      values := some (.object [
        ("$inc", .object [("visits", .int 1)]), ("name", .string "x"),
        ("$and", .array [.object [("visits", .int 7)],
          .object [("$push", .object [("tags", .string "a")])]])]) }
    ∃ s mutations search insertion assigned expression,
      r.compile "now" = .ok (.statement s) ∧ s.method = .upsert ∧
      s.payload = .update search insertion assigned expression ∧
      search = [("id", .string "5"), ("name", .string "b")] ∧
      insertion = [("id", .string "5"), ("name", .string "x"), ("visits", .int 7),
        ("tags", .array [.string "a"]), ("createdAt", .string "now")] ∧
      assigned = [("visits", .literal (.int 7)), ("name", .literal (.string "x")),
        ("tags", .raw "PUSH(OLD.tags, \"a\", false)")] ∧
      ValueSets "now" r.condition.demands mutations search insertion assigned expression := by
  intro r
  obtain ⟨s, search, insertion, assigned, expression, hs, hmethod, hpayload, hsets⟩ :
      ∃ s search insertion assigned expression,
        r.compile "now" = .ok (.statement s) ∧ s.method = .upsert ∧
        s.payload = .update search insertion assigned expression ∧
        search = [("id", .string "5"), ("name", .string "b")] ∧
        insertion = [("id", .string "5"), ("name", .string "x"), ("visits", .int 7),
          ("tags", .array [.string "a"]), ("createdAt", .string "now")] ∧
        assigned = [("visits", .literal (.int 7)), ("name", .literal (.string "x")),
          ("tags", .raw "PUSH(OLD.tags, \"a\", false)")] :=
    ⟨_, _, _, _, _, rfl, rfl, rfl, rfl, rfl, rfl⟩
  obtain ⟨values, mutations, search', insertion', assigned', expression', -, -, hpayload', h⟩ :=
    valueSets_of_compile hs (Or.inr hmethod)
  obtain ⟨rfl, rfl, rfl, rfl⟩ := Payload.update.inj (hpayload.symm.trans hpayload')
  exact ⟨s, mutations, search, insertion, assigned, expression, hs, hmethod, hpayload, hsets.1,
    hsets.2.1, hsets.2.2, h⟩

end Request

end Docstore
