import Docstore.Proofs.Predicate.Equalities
import Docstore.Proofs.Statement.Parts

/-!
# What the filter of a statement pins down

A statement carries two things that stand for its filter further on: the id of the
one document, and the document that an update searches for.  Both are harvested from
the equalities of the filter, so every record that satisfies the filter satisfies
them too (`pinned_by_filter`).  A record is given by the comparisons that are true of
it, a `Valuation`.
-/

namespace Docstore

namespace Predicate

theorem mem_literalEqualities_iff {p : Predicate} {path : String} {v : Json} :
    (path, v) ∈ p.literalEqualities ↔ (path, .literal v) ∈ p.equalities := by
  rw [literalEqualities, List.mem_filterMap]
  constructor
  · rintro ⟨⟨path', operand⟩, he, h⟩
    obtain ⟨w, hw, heq⟩ := Option.map_eq_some_iff.mp h
    obtain ⟨rfl, rfl⟩ := Prod.mk.inj heq
    cases operand with
    | literal u =>
      obtain rfl := Option.some.inj hw
      exact he
    | raw text => exact absurd hw (by simp [Operand.literal?])
  · intro he
    exact ⟨_, he, rfl⟩

end Predicate

namespace Request

/-- The data can be the key of a document, and the text is that key: a string that is not
empty, or the text of a number. -/
inductive IsDocumentKey : Json → String → Prop where
  | text {k : String} (h : k ≠ "") : IsDocumentKey (.string k) k
  | number (n : Number) : IsDocumentKey (.number n) n.text

theorem documentKey?_eq_some_iff {v : Json} {k : String} :
    documentKey? v = some k ↔ IsDocumentKey v k := by
  constructor
  · intro h
    cases v with
    | string s =>
      rw [documentKey?] at h
      split at h
      · exact absurd h (by simp)
      · next hs =>
        obtain rfl := Option.some.inj h
        exact .text fun hnil => hs (by rw [hnil]; rfl)
    | number n =>
      obtain rfl := Option.some.inj h
      exact .number n
    | _ => exact absurd h (by simp [documentKey?])
  · intro h
    cases h with
    | text h => rw [documentKey?, if_neg (by simpa using h)]
    | number n => rfl

theorem primaryId?_eq_some_iff {filter : Predicate} {model key id : String} :
    primaryId? filter model key = some id ↔
      ∃ v k, filter.equalities.lookup key = some (.literal v) ∧ IsDocumentKey v k ∧
        id = model ++ "/" ++ k := by
  rw [primaryId?]
  constructor
  · intro h
    obtain ⟨operand, hlookup, h⟩ := Option.bind_eq_some_iff.mp h
    obtain ⟨v, hv, h⟩ := Option.bind_eq_some_iff.mp h
    obtain ⟨k, hk, hid⟩ := Option.bind_eq_some_iff.mp h
    cases operand with
    | literal w =>
      obtain rfl := Option.some.inj hv
      exact ⟨w, k, hlookup, documentKey?_eq_some_iff.mp hk, (Option.some.inj hid).symm⟩
    | raw text => exact absurd hv (by simp [Operand.literal?])
  · rintro ⟨v, k, hlookup, hk, rfl⟩
    refine Option.bind_eq_some_iff.mpr ⟨_, hlookup, Option.bind_eq_some_iff.mpr ⟨v, rfl, ?_⟩⟩
    exact Option.bind_eq_some_iff.mpr ⟨k, documentKey?_eq_some_iff.mpr hk, rfl⟩

/-- The id is made from an equality between the primary key and data. -/
theorem exists_of_primaryId? {filter : Predicate} {model key id : String}
    (h : primaryId? filter model key = some id) :
    ∃ v k, id = model ++ "/" ++ k ∧ IsDocumentKey v k ∧
      (key, .literal v) ∈ filter.equalities := by
  obtain ⟨v, k, hlookup, hk, hid⟩ := primaryId?_eq_some_iff.mp h
  exact ⟨v, k, hid, hk, Predicate.mem_of_lookup hlookup⟩

theorem mem_equalities_of_mem_searchDocument {filter : Predicate} {e : String × Json}
    (h : e ∈ searchDocument filter) : (e.1, .literal e.2) ∈ filter.equalities := by
  have hget := (Dictionary.mem_iff_get?_eq_some (Dictionary.nodup_keys_ofEntries _)).mp h
  rw [Dictionary.get?_ofEntries] at hget
  exact Predicate.mem_literalEqualities_iff.mp (Dictionary.mem_of_last?_eq_some hget)

/-- **The filter implies what is pinned down.**  Whenever a predicate is true, so are its
equalities.  Hence of every record that satisfies the filter of a statement: when there
is an id, the primary key equals data of the filter from which the id is made; and the
document that an update searches for holds of the record, field by field. -/
theorem pinned_by_filter :
    (∀ (val : Valuation) (p : Predicate), p.holds val = true →
      ∀ e ∈ p.equalities, val (.attribute e.1) (.single .equal e.2) = true) ∧
    ∀ (now : String) (r : Request) (s : Statement), r.compile now = .ok (.statement s) →
      ∃ criteria key, Criteria.ofJson (Json.orNull r.criteria) = .ok criteria ∧
        s.filter = criteria.filter.filterText recordVariable ∧ r.primaryKey = some key ∧
        (∀ id, s.primaryId = some id →
          ∃ v k, id = s.model ++ "/" ++ k ∧ IsDocumentKey v k ∧
            (.attribute key, .single .equal (.literal v)) ∈ criteria.filter.comparisons ∧
            ∀ val, criteria.filter.holds val = true →
              val (.attribute key) (.single .equal (.literal v)) = true) ∧
        (s.method = .update ∨ s.method = .upsert →
          ∃ search insertion assigned expression,
            s.payload = .update search insertion assigned expression ∧
            ∀ val, criteria.filter.holds val = true →
              ∀ e ∈ search, val (.attribute e.1) (.single .equal (.literal e.2)) = true) := by
  refine ⟨fun val p => Predicate.holds_equality val, fun now r s h => ?_⟩
  obtain ⟨criteria, key, h⟩ := compile_eq_statement_iff.mp h
  refine ⟨criteria, key, h.readCriteria, h.filter, h.primaryKey, fun id hid => ?_, fun hm => ?_⟩
  · rw [h.primaryId] at hid
    obtain ⟨v, k, hform, hk, hmem⟩ := exists_of_primaryId? hid
    exact ⟨v, k, hform, hk, Predicate.mem_comparisons_of_mem_equalities hmem,
      fun val hval => Predicate.holds_equality val hval _ hmem⟩
  · obtain ⟨values, mutations, -, -, hpayload⟩ := h.payload_update hm
    refine ⟨_, _, _, _, hpayload, fun val hval e he => ?_⟩
    exact Predicate.holds_equality val hval _ (mem_equalities_of_mem_searchDocument he)

/-- A key inside a conjunction is pinned down, and the other one inside a disjunction is
not: a record with the id 5 satisfies the filter and has what was pinned down. -/
theorem pinned_by_filter_nested :
    let r : Request := {
      model := some "user", method := some .upsert, primaryKey := some "id"
      criteria := some (.object [("where", .object [
        ("$or", .array [.object [("id", .string "a")], .object [("name", .string "x")]]),
        ("$and", .array [.object [("id", .int 5), ("age", .object [("$gt", .int 1)])]])])])
      values := some (.object [("seen", .bool true)]) }
    let record : Valuation := fun field comparison => decide ((field, comparison) ∈ [
      (.attribute "id", .single .equal (.literal (.int 5))),
      (.attribute "age", .single .greater (.literal (.int 1))),
      (.attribute "name", .single .equal (.literal (.string "x")))])
    ∃ criteria s search insertion assigned expression,
      Criteria.ofJson (Json.orNull r.criteria) = .ok criteria ∧
      criteria.filter.holds record = true ∧ r.compile "" = .ok (.statement s) ∧
      s.primaryId = some "user/5" ∧ s.payload = .update search insertion assigned expression ∧
      search = [("id", .int 5)] ∧
      (∃ v k, "user/5" = "user" ++ "/" ++ k ∧ IsDocumentKey v k ∧
        record (.attribute "id") (.single .equal (.literal v)) = true) ∧
      ∀ e ∈ search, record (.attribute e.1) (.single .equal (.literal e.2)) = true := by
  intro r record
  obtain ⟨s, hs, hid, hmodel, hmethod, hpayload⟩ : ∃ s, r.compile "" = .ok (.statement s) ∧
      s.primaryId = some "user/5" ∧ s.model = "user" ∧ s.method = .upsert ∧
      ∃ insertion assigned expression,
        s.payload = .update [("id", .int 5)] insertion assigned expression :=
    ⟨_, rfl, rfl, rfl, rfl, _, _, _, rfl⟩
  obtain ⟨c, hc, hholds⟩ : ∃ c, Criteria.ofJson (Json.orNull r.criteria) = .ok c ∧
      c.filter.holds record = true := ⟨_, rfl, by decide⟩
  obtain ⟨criteria, key, hcriteria, -, hkey, hpinned, hsearch⟩ := pinned_by_filter.2 "" r s hs
  obtain rfl : c = criteria := Except.ok.inj (hc.symm.trans hcriteria)
  obtain rfl : "id" = key := Option.some.inj hkey
  obtain ⟨v, k, hform, hk, -, hv⟩ := hpinned "user/5" hid
  obtain ⟨search, insertion, assigned, expression, hwritten, hfields⟩ := hsearch (Or.inr hmethod)
  obtain ⟨insertion', assigned', expression', hpayload⟩ := hpayload
  obtain ⟨rfl, -, -, -⟩ := Payload.update.inj (hwritten.symm.trans hpayload)
  rw [hmodel] at hform
  exact ⟨c, s, _, _, _, _, hcriteria, hholds, hs, hid, hwritten, rfl,
    ⟨v, k, hform, hk, hv record hholds⟩, hfields record hholds⟩

end Request

end Docstore
