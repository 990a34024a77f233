import Docstore.Proofs.Decimal.Spelling
import Docstore.Proofs.Log.Batches
import Docstore.Proofs.Statement.Pinned

/-!
# Ids of documents, made and taken apart

A compiled request that pins a document down makes its id from the model and the
key; the log takes the id of an entry apart to find the collection.  Both go by the
first slash (`splitDocumentId?_eq_some_iff`), so they agree as long as there is no
slash in the model: the key may hold any number of them.

`LogEntry.toEvent?_eq_some_iff` says what an entry becomes, in terms of its code, its
id, its data and its position.  With it `documentId_agrees` follows the id of a
statement through the log.
-/

namespace Docstore

/-! ### Taking apart -/

/-- **An id splits at its first slash**, into two parts that are not empty. -/
theorem splitDocumentId?_eq_some_iff {id collection key : String} :
    splitDocumentId? id = some (collection, key) ↔
      id = collection ++ "/" ++ key ∧ collection ≠ "" ∧ '/' ∉ collection.toList ∧ key ≠ "" := by
  have hcut : Text.cutAtFirst? '/' id = some (collection, key) ↔
      id = collection ++ "/" ++ key ∧ '/' ∉ collection.toList := Text.cutAtFirst?_eq_some_iff
  rw [splitDocumentId?]
  constructor
  · intro h
    obtain ⟨⟨c, k⟩, hfirst, h⟩ := Option.bind_eq_some_iff.mp h
    dsimp only at h
    split at h
    · exact absurd h (by simp)
    · next hempty =>
      obtain ⟨rfl, rfl⟩ := Prod.mk.inj (Option.some.inj h)
      obtain ⟨hid, hslash⟩ := hcut.mp hfirst
      simp only [Bool.or_eq_true, String.isEmpty_iff, not_or] at hempty
      exact ⟨hid, hempty.1, hslash, hempty.2⟩
  · rintro ⟨hid, hcollection, hslash, hkey⟩
    have hfull : ¬(collection.isEmpty || key.isEmpty) = true := by
      simp only [Bool.or_eq_true, String.isEmpty_iff, not_or]
      exact ⟨hcollection, hkey⟩
    exact Option.bind_eq_some_iff.mpr ⟨_, hcut.mpr ⟨hid, hslash⟩, if_neg hfull⟩

namespace LogEntry

/-- What an entry becomes: the collection comes from its id, the kind from its code, and its
data and its position stay as they are. -/
theorem toEvent?_eq_some_iff {e : LogEntry} {ev : ChangeEvent} :
    e.toEvent? = some ev ↔
      e.change? = some ev.kind ∧
        (∃ id key, e.data.member? "_id" = some (.string id) ∧
          splitDocumentId? id = some (ev.collection, key)) ∧
        ev.document = e.data ∧ ev.tick = e.tick := by
  rw [toEvent?]
  constructor
  · intro h
    obtain ⟨kind, hkind, h⟩ := Option.bind_eq_some_iff.mp h
    obtain ⟨id, hid, h⟩ := Option.bind_eq_some_iff.mp h
    obtain ⟨⟨collection, key⟩, hsplit, h⟩ := Option.bind_eq_some_iff.mp h
    obtain rfl := Option.some.inj h
    obtain ⟨v, hmember, hv⟩ := Option.bind_eq_some_iff.mp hid
    have hstring : v = .string id := by
      cases v with
      | string s => rw [Option.some.inj hv]
      | _ => exact absurd hv (by simp [Json.string?])
    exact ⟨hkind, ⟨id, key, hstring ▸ hmember, hsplit⟩, rfl, rfl⟩
  · rintro ⟨hkind, ⟨id, key, hmember, hsplit⟩, hdocument, htick⟩
    have hid : (e.data.member? "_id").bind Json.string? = some id := by rw [hmember]; rfl
    refine Option.bind_eq_some_iff.mpr ⟨_, hkind, Option.bind_eq_some_iff.mpr ⟨id, hid, ?_⟩⟩
    refine Option.bind_eq_some_iff.mpr ⟨_, hsplit, ?_⟩
    rw [← hdocument, ← htick]

end LogEntry

/-! ### Making -/

namespace Request

theorem IsDocumentKey.ne_empty {v : Json} {k : String} (h : IsDocumentKey v k) : k ≠ "" := by
  cases h with
  | text h => exact h
  | number n =>
    obtain ⟨c, rest, htext, -⟩ := n.exists_text_eq_cons
    intro hempty
    rw [hempty] at htext
    exact absurd htext (by simp)

theorem HasText.ne_empty {s : String} (h : HasText s) : s ≠ "" := by
  rintro rfl
  obtain ⟨c, hc, -⟩ := h
  exact absurd hc (by simp)

/-- **The id that a statement pins down leads the log back to its model.**  An id splits at
its first slash.  Hence the id of a statement splits into the model, if that has no slash,
and the key that the filter demands; and every entry of a document with this id becomes an
event of the model, with its data and its position as they are and the kind of its code. -/
theorem documentId_agrees :
    (∀ id collection key, splitDocumentId? id = some (collection, key) ↔
      id = collection ++ "/" ++ key ∧ collection ≠ "" ∧ '/' ∉ collection.toList ∧ key ≠ "") ∧
    ∀ (now : String) (r : Request) (s : Statement) (id : String),
      r.compile now = .ok (.statement s) → s.primaryId = some id → '/' ∉ s.model.toList →
        ∃ criteria key v k, r.model = some s.model ∧ r.primaryKey = some key ∧
          Criteria.ofJson (Json.orNull r.criteria) = .ok criteria ∧
          criteria.filter.equalities.lookup key = some (.literal v) ∧ IsDocumentKey v k ∧
          splitDocumentId? id = some (s.model, k) ∧
          ∀ e : LogEntry, e.data.member? "_id" = some (.string id) →
            (e.code = 2300 → e.toEvent? = some
              { collection := s.model, document := e.data, kind := .createOrUpdate,
                tick := e.tick }) ∧
            (e.code = 2302 → e.toEvent? = some
              { collection := s.model, document := e.data, kind := .delete, tick := e.tick }) := by
  refine ⟨fun id collection key => splitDocumentId?_eq_some_iff, ?_⟩
  intro now r s id h hid hmodel
  obtain ⟨criteria, key, h⟩ := compile_eq_statement_iff.mp h
  rw [h.primaryId] at hid
  obtain ⟨v, k, hlookup, hk, hform⟩ := primaryId?_eq_some_iff.mp hid
  have hsplit : splitDocumentId? id = some (s.model, k) :=
    splitDocumentId?_eq_some_iff.mpr ⟨hform, h.modelText.ne_empty, hmodel, hk.ne_empty⟩
  refine ⟨criteria, key, v, k, h.model, h.primaryKey, h.readCriteria, hlookup, hk, hsplit, ?_⟩
  intro e hmember
  have hevent : ∀ kind, e.change? = some kind →
      e.toEvent? = some { collection := s.model, document := e.data, kind, tick := e.tick } := by
    intro kind hkind
    exact LogEntry.toEvent?_eq_some_iff.mpr ⟨hkind, ⟨id, k, hmember, hsplit⟩, rfl, rfl⟩
  constructor
  · intro hcode
    exact hevent _ (LogEntry.change?_eq_some_iff.mpr (Or.inl ⟨hcode, rfl⟩))
  · intro hcode
    exact hevent _ (LogEntry.change?_eq_some_iff.mpr (Or.inr ⟨hcode, rfl⟩))

/-- A key with slashes of its own, and the entry that removes its document. -/
theorem documentId_agrees_slashes :
    let r : Request := {
      model := some "user", method := some .destroy, primaryKey := some "id"
      criteria := some (.object [("where", .object [("id", .string "/a/b")])]) }
    let e : LogEntry := {
      tick := some 7, code := 2302, transaction := "12"
      data := .object [("_id", .string "user//a/b"), ("_rev", .string "x")] }
    ∃ s k, r.compile "" = .ok (.statement s) ∧ s.primaryId = some "user//a/b" ∧
      '/' ∉ s.model.toList ∧ s.model = "user" ∧ splitDocumentId? "user//a/b" = some ("user", k) ∧
      e.toEvent? =
        some { collection := "user", document := e.data, kind := .delete, tick := some 7 } := by
  intro r e
  obtain ⟨s, hs, hid, hmodel⟩ : ∃ s, r.compile "" = .ok (.statement s) ∧
      s.primaryId = some "user//a/b" ∧ s.model = "user" := ⟨_, rfl, rfl, rfl⟩
  have hslash : '/' ∉ s.model.toList := by rw [hmodel]; decide
  obtain ⟨criteria, key, v, k, -, -, -, -, -, hsplit, hevent⟩ :=
    documentId_agrees.2 "" r s "user//a/b" hs hid hslash
  rw [hmodel] at hsplit hevent
  exact ⟨s, k, hs, hid, hslash, hmodel, hsplit, (hevent e rfl).2 rfl⟩

end Request

end Docstore
