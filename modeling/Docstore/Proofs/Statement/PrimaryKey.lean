import Docstore.Proofs.Statement.Pinned
import Docstore.Proofs.Statement.ReadBack
import Docstore.Proofs.Statement.Upsert

/-!
# The key of an update, twice

An update has its document by its id and by the document that it searches for.  Both
take the primary key from the data that the condition demands of it, the id from what is
demanded first and the search document from what is demanded last (`PicksKey`).  So
there is a key in the search document whenever there is an id, and it is the same key
exactly when the last demand names the same document as the first
(`picksKey_of_compile`).

A condition can demand two keys of a record.  No record has them both, but the id is
that of the first and the search goes for the second
(`search_names_another_document`).
-/

namespace Docstore

open Dictionary (last?)

namespace Dictionary

variable {β : Type _}

theorem exists_last?_of_mem {entries : List (String × β)} {key : String} {value : β}
    (h : (key, value) ∈ entries) : ∃ last, last? key entries = some last := by
  have hget : (get? key (ofEntries entries)).isSome = true := by
    rw [get?_isSome_iff, keys_ofEntries, List.mem_eraseDups]
    exact List.mem_map_of_mem h
  rw [get?_ofEntries] at hget
  exact Option.isSome_iff_exists.mp hget

theorem mem_of_get?_eq_some {entries : List (String × β)} {key : String} {value : β}
    (h : get? key entries = some value) : (key, value) ∈ entries := by
  induction entries with
  | nil => exact absurd h (by simp [get?])
  | cons e rest ih =>
    obtain ⟨k, v⟩ := e
    rw [get?] at h
    split at h
    · next hk =>
      rw [← hk, Option.some.inj h]
      exact List.mem_cons_self
    · exact List.mem_cons_of_mem _ (ih h)

end Dictionary

/-- An equality with data that comes first among the equalities of an attribute does so among
those with data. -/
theorem Predicate.get?_literalEqualities {p : Predicate} {path : String} {v : Json}
    (h : p.equalities.lookup path = some (.literal v)) :
    Dictionary.get? path p.literalEqualities = some v := by
  rw [literalEqualities]
  generalize p.equalities = entries at h ⊢
  induction entries with
  | nil => exact absurd h (by simp)
  | cons e rest ih =>
    obtain ⟨other, operand⟩ := e
    rw [List.lookup_cons] at h
    by_cases hpath : path = other
    · subst hpath
      rw [beq_self_eq_true] at h
      obtain rfl : operand = .literal v := Option.some.inj h
      exact if_pos rfl
    · rw [beq_eq_false_iff_ne.mpr hpath] at h
      rw [List.filterMap_cons]
      cases operand with
      | literal w => exact (if_neg (Ne.symm hpath)).trans (ih h)
      | raw text => exact ih h

namespace Request

/-- How an id and a search document take the key from the data that is demanded. -/
structure PicksKey (demands : List (String × Json)) (key k : String)
    (search : Dictionary Json) : Prop where
  /-- The id is made from what is demanded first. -/
  first : ∃ v, Dictionary.get? key demands = some v ∧ IsDocumentKey v k
  /-- The search document has what is demanded last. -/
  last : ∃ v, last? key demands = some v ∧ search.get? key = some v
  /-- They name the same document exactly when the last demand names that of the first. -/
  agree : (∃ v, search.get? key = some v ∧ IsDocumentKey v k) ↔
    ∃ v, last? key demands = some v ∧ IsDocumentKey v k
  /-- So they do when all that is demanded names one document. -/
  same : (∀ v, (key, v) ∈ demands → IsDocumentKey v k) →
    ∃ v, search.get? key = some v ∧ IsDocumentKey v k

theorem picksKey_of_first {demands : List (String × Json)} {key k : String}
    {search : Dictionary Json} (hsearch : search.get? key = last? key demands)
    (hfirst : ∃ v, Dictionary.get? key demands = some v ∧ IsDocumentKey v k) :
    PicksKey demands key k search := by
  obtain ⟨first, hget, hkey⟩ := hfirst
  obtain ⟨last, hlast⟩ := Dictionary.exists_last?_of_mem (Dictionary.mem_of_get?_eq_some hget)
  refine ⟨⟨first, hget, hkey⟩, ⟨last, hlast, hsearch.trans hlast⟩, by rw [hsearch], fun hall => ?_⟩
  exact ⟨last, hsearch.trans hlast, hall last (Dictionary.mem_of_last?_eq_some hlast)⟩

/-- **The id of an update is the key that is demanded first, and the search is for the one that is
demanded last.** -/
theorem picksKey_of_compile {now : String} {r : Request} {s : Statement} {id : String}
    (h : r.compile now = .ok (.statement s)) (hmethod : s.method = .update ∨ s.method = .upsert)
    (hid : s.primaryId = some id) :
    ∃ key k search insertion assigned expression,
      r.primaryKey = some key ∧ id = s.model ++ "/" ++ k ∧
      s.payload = .update search insertion assigned expression ∧
      s.toJson.member? "criteria" = some (.object search) ∧
      PicksKey r.condition.demands key k search := by
  obtain ⟨criteria, key, h⟩ := compile_eq_statement_iff.mp h
  obtain ⟨values, mutations, -, -, hpayload⟩ := h.payload_update hmethod
  rw [h.primaryId] at hid
  obtain ⟨v, k, hlookup, hk, rfl⟩ := primaryId?_eq_some_iff.mp hid
  have hsearch := get?_searchDocument criteria.filter key
  have hfirst := Predicate.get?_literalEqualities hlookup
  rw [h.literalEqualities] at hsearch hfirst
  refine ⟨key, k, _, _, _, _, h.primaryKey, rfl, hpayload, ?_,
    picksKey_of_first hsearch ⟨v, hfirst, hk⟩⟩
  rw [Statement.toJson, hpayload]
  rfl

/-- A number and the string that spells it are one key, with raw text between them. -/
theorem picksKey_of_compile_spelt :
    let r : Request := {
      model := some "user", method := some .upsert, primaryKey := some "id"
      criteria := some (.object [("where", .object [
        ("id", .int 5), ("name", .string "x"),
        ("$and", .array [.object [("id", .string "$OLD.id")], .object [("id", .string "5")]])])])
      values := some (.object [("seen", .bool true)]) }
    ∃ s search, r.compile "now" = .ok (.statement s) ∧ s.method = .upsert ∧
      s.primaryId = some "user/5" ∧
      s.toJson.member? "criteria" = some (.object search) ∧
      search = [("id", .string "5"), ("name", .string "x")] ∧
      (∃ key k, r.primaryKey = some key ∧ "user/5" = s.model ++ "/" ++ k ∧
        PicksKey r.condition.demands key k search) ∧
      IsDocumentKey (.int 5) "5" ∧ IsDocumentKey (.string "5") "5" := by
  intro r
  obtain ⟨s, hs, hmethod, hid, hcriteria⟩ : ∃ s, r.compile "now" = .ok (.statement s) ∧
      s.method = .upsert ∧ s.primaryId = some "user/5" ∧
      s.toJson.member? "criteria" =
        some (.object [("id", .string "5"), ("name", .string "x")]) :=
    ⟨_, rfl, rfl, rfl, rfl⟩
  obtain ⟨key, k, search, _, _, _, hkey, hform, -, hmember, hpicks⟩ :=
    picksKey_of_compile hs (Or.inr hmethod) hid
  obtain rfl := Json.object.inj (Option.some.inj (hmember.symm.trans hcriteria))
  exact ⟨s, _, hs, hmethod, hid, hcriteria, rfl, ⟨key, k, hkey, hform, hpicks⟩,
    .number _, .text (by decide)⟩

/-- The condition demands two keys of a record: the id is that of one document, and the search is
for the other. -/
theorem search_names_another_document :
    let r : Request := {
      model := some "user", method := some .upsert, primaryKey := some "id"
      criteria := some (.object [("where", .object [
        ("id", .string "a"), ("$and", .array [.object [("id", .string "b")]])])])
      values := some (.object [("name", .string "x")]) }
    ∃ (s : Statement) (search : Dictionary Json),
      r.compile "now" = .ok (.statement s) ∧ s.method = .upsert ∧ s.primaryId = some "user/a" ∧
      s.toJson.member? "criteria" = some (.object search) ∧
      search = [("id", .string "b")] ∧
      ¬∃ k v, "user/a" = s.model ++ "/" ++ k ∧ search.get? "id" = some v ∧ IsDocumentKey v k := by
  intro r
  refine ⟨_, _, rfl, rfl, rfl, rfl, rfl, ?_⟩
  rintro ⟨k, v, hform, hget, hk⟩
  obtain rfl : v = .string "b" := (Option.some.inj hget).symm
  obtain rfl : k = "b" := by
    cases hk
    rfl
  exact absurd hform (by decide)

end Request

end Docstore
