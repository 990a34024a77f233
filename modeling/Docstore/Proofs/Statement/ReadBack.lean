import Docstore.Proofs.Statement.Parts
import Docstore.Proofs.Term.Raw
import Docstore.Proofs.Update.Forms
import Docstore.Statement.Record

/-!
# Assignments that are read back

The record of an update lists what it assigns, with the mark in front of raw text.
Read back member by member, raw text is raw text again, and data is data again as
long as it carries no mark of its own: a string that was supplied with the mark is
written as it stands and comes back as raw text (`Operand.ofJson_toJson_eq_iff`).

`ReadsBack` says field by field what comes back of the mutations of an update, and
`readsBack_of_compile` that this is so for every update.  The assignments survive
exactly when no field is left with a plain assignment of a marked string.
-/

namespace Docstore

open Dictionary (last?)

/-! ### Operands -/

namespace Operand

theorem toJson_raw (text : String) : (raw text).toJson = .string ("$" ++ text) := rfl

theorem ofJson_toJson_raw (text : String) : ofJson (raw text).toJson = .raw text := by
  rw [toJson_raw, ofJson_marked]

/-- **An operand is read back as it was**, unless it is data that carries the mark. -/
theorem ofJson_toJson_eq_iff {operand : Operand} :
    ofJson operand.toJson = operand ↔ ∀ text, operand ≠ .literal (.string ("$" ++ text)) := by
  cases operand with
  | raw text =>
    rw [ofJson_toJson_raw]
    simp
  | literal v =>
    constructor
    · intro h text heq
      obtain rfl : v = .string ("$" ++ text) := Operand.literal.inj heq
      rw [toJson, ofJson_marked] at h
      exact Operand.noConfusion h
    · intro h
      exact ofJson_of_not_marked fun text hv => h text (congrArg Operand.literal hv)

end Operand

/-! ### Assignments -/

namespace Assignments

/-- The operands that the members of an object stand for. -/
def ofMembers (members : Dictionary Json) : Assignments := members.map fun m => (m.1, .ofJson m.2)

def toMembers (a : Assignments) : Dictionary Json := a.map fun e => (e.1, e.2.toJson)

theorem toJson_eq (a : Assignments) : a.toJson = .object a.toMembers := rfl

theorem ofMembers_toMembers (a : Assignments) :
    ofMembers a.toMembers = a.map fun e => (e.1, .ofJson e.2.toJson) := by
  rw [ofMembers, toMembers, List.map_map]
  rfl

theorem keys_ofMembers_toMembers (a : Assignments) :
    Dictionary.keys (ofMembers a.toMembers) = Dictionary.keys a := by
  rw [ofMembers_toMembers]
  exact Dictionary.keys_map (fun _ operand => Operand.ofJson operand.toJson) a

theorem get?_ofMembers_toMembers (a : Assignments) (f : String) :
    Dictionary.get? f (ofMembers a.toMembers) =
      (Dictionary.get? f a).map fun operand => .ofJson operand.toJson := by
  rw [ofMembers_toMembers]
  exact Dictionary.get?_map (fun _ operand => Operand.ofJson operand.toJson) a f

theorem ofMembers_toMembers_eq_iff {a : Assignments} (hkeys : (Dictionary.keys a).Nodup) :
    ofMembers a.toMembers = a ↔
      ∀ f text, Dictionary.get? f a ≠ some (.literal (.string ("$" ++ text))) := by
  have heach : ofMembers a.toMembers = a ↔ ∀ e ∈ a, Operand.ofJson e.2.toJson = e.2 := by
    rw [ofMembers_toMembers]
    constructor
    · intro h e he
      have hself := List.map_inj_left.mp (h.trans (List.map_id a).symm) e he
      exact congrArg Prod.snd hself
    · intro h
      refine (List.map_congr_left fun e he => ?_).trans (List.map_id a)
      rw [h e he, id]
  rw [heach]
  constructor
  · intro h f text hget
    have hmem := (Dictionary.mem_iff_get?_eq_some hkeys).mpr hget
    exact Operand.ofJson_toJson_eq_iff.mp (h _ hmem) text rfl
  · rintro h ⟨f, operand⟩ he
    refine Operand.ofJson_toJson_eq_iff.mpr fun text hoperand => ?_
    refine h f text ?_
    rw [← hoperand]
    exact (Dictionary.mem_iff_get?_eq_some hkeys).mp he

end Assignments

/-! ### Updates -/

namespace Request

/-- What comes back of assignments that are written as members of an object, by the
mutations that they were made from. -/
structure ReadsBack (mutations : List (String × Mutation)) (assigned : Assignments)
    (members : Dictionary Json) : Prop where
  /-- The same fields, in the same order. -/
  fields : Dictionary.keys (Assignments.ofMembers members) = Dictionary.keys assigned
  /-- What an operator comes to is raw text, and the same raw text comes back. -/
  operators : ∀ f m, last? f mutations = some m → (∀ v, m ≠ .assign v) →
    Dictionary.get? f assigned = some (.raw (m.expression f)) ∧
      Dictionary.get? f (Assignments.ofMembers members) = some (.raw (m.expression f))
  /-- A value is assigned as data, and what comes back is what it stands for in the place of
  an operand. -/
  values : ∀ f v, last? f mutations = some (.assign v) →
    Dictionary.get? f assigned = some (.literal v) ∧
      ∃ operand : Operand, operand.IsWrittenAs v ∧
        Dictionary.get? f (Assignments.ofMembers members) = some operand
  /-- All of it survives exactly when no field is left with a marked string. -/
  survives : Assignments.ofMembers members = assigned ↔
    ∀ f text, last? f mutations ≠ some (.assign (.string ("$" ++ text)))

theorem readsBack_ofEntries (mutations : List (String × Mutation)) :
    ReadsBack mutations (NormalUpdate.ofFields .value (.ofEntries mutations)).assigned
      (Assignments.toMembers (NormalUpdate.ofFields .value (.ofEntries mutations)).assigned) := by
  have hassigned := NormalUpdate.get?_value (.ofEntries mutations)
  simp only [Dictionary.get?_ofEntries] at hassigned
  have hkeys : (Dictionary.keys
      (NormalUpdate.ofFields .value (.ofEntries mutations)).assigned).Nodup := by
    rw [NormalUpdate.keys_value]
    exact Dictionary.nodup_keys_ofEntries mutations
  refine ⟨Assignments.keys_ofMembers_toMembers _, ?_, ?_, ?_⟩
  · intro f m hm hoperator
    have hraw : m.operand f = .raw (m.expression f) := by
      cases m with
      | assign v => exact absurd rfl (hoperator v)
      | _ => rfl
    rw [Assignments.get?_ofMembers_toMembers, hassigned, hm, Option.map_some, hraw,
      Option.map_some, Operand.ofJson_toJson_raw]
    exact ⟨rfl, rfl⟩
  · intro f v hv
    rw [Assignments.get?_ofMembers_toMembers, hassigned, hv]
    exact ⟨rfl, .ofJson v, Operand.isWrittenAs_iff.mpr rfl, rfl⟩
  · rw [Assignments.ofMembers_toMembers_eq_iff hkeys]
    refine forall_congr' fun f => forall_congr' fun text => not_congr ?_
    rw [hassigned, Option.map_eq_some_iff]
    constructor
    · rintro ⟨m, hm, hoperand⟩
      rw [hm, Mutation.operand_eq_literal_iff.mp hoperand]
    · intro hm
      exact ⟨_, hm, rfl⟩

theorem member?_values_toJson (s : Statement) :
    s.toJson.member? "values" = some s.payload.valuesJson := by
  rfl

/-- **What comes back of the assignments of an update**, when the members of its record are
read as operands. -/
theorem readsBack_of_compile {now : String} {r : Request} {s : Statement}
    (h : r.compile now = .ok (.statement s)) (hmethod : s.method = .update ∨ s.method = .upsert) :
    ∃ values mutations search insertion assigned expression members,
      r.values = some values ∧ mutationsOf values = .ok mutations ∧
      s.payload = .update search insertion assigned expression ∧
      s.toJson.member? "values" = some (.object members) ∧
      ReadsBack mutations assigned members := by
  obtain ⟨criteria, key, h⟩ := compile_eq_statement_iff.mp h
  obtain ⟨values, mutations, hvalues, hmutations, hpayload⟩ := h.payload_update hmethod
  refine ⟨values, mutations, _, _, _, _, _, hvalues, hmutations, hpayload, ?_,
    readsBack_ofEntries mutations⟩
  rw [member?_values_toJson, hpayload]
  rfl

/-- Marks inside a list, behind the first character and in a key do no harm, and a marked
string that is overwritten is not there any more. -/
theorem readsBack_of_compile_inside :
    let r : Request := {
      model := some "user", method := some .upsert, primaryKey := some "id"
      values := some (.object [
        ("note", .string "$OLD.n"), ("tags", .array [.string "$x"]), ("price", .string "5$"),
        ("$inc", .object [("n", .int 1)]), ("$rename", .null),
        ("$and", .array [.object [("note", .string "done")]])]) }
    ∃ s mutations search insertion assigned expression members,
      r.compile "" = .ok (.statement s) ∧ s.method = .upsert ∧
      s.payload = .update search insertion assigned expression ∧
      s.toJson.member? "values" = some (.object members) ∧
      members = [("note", .string "done"), ("tags", .array [.string "$x"]),
        ("price", .string "5$"), ("n", .string "$OLD.n+1"), ("$rename", .null)] ∧
      ReadsBack mutations assigned members ∧ Assignments.ofMembers members = assigned := by
  intro r
  obtain ⟨s, search, insertion, assigned, expression, members, hs, hmethod, hpayload, hmember,
      hmembers, hsurvive⟩ : ∃ s search insertion assigned expression members,
      r.compile "" = .ok (.statement s) ∧ s.method = .upsert ∧
      s.payload = .update search insertion assigned expression ∧
      s.toJson.member? "values" = some (.object members) ∧
      members = [("note", .string "done"), ("tags", .array [.string "$x"]),
        ("price", .string "5$"), ("n", .string "$OLD.n+1"), ("$rename", .null)] ∧
      Assignments.ofMembers members = assigned :=
    ⟨_, _, _, _, _, _, rfl, rfl, rfl, rfl, rfl, by decide⟩
  obtain ⟨values, mutations, search', insertion', assigned', expression', members', -, -,
    hpayload', hmember', h⟩ := readsBack_of_compile hs (Or.inr hmethod)
  obtain ⟨rfl, rfl, rfl, rfl⟩ := Payload.update.inj (hpayload.symm.trans hpayload')
  obtain rfl : members = members' := Json.object.inj (Option.some.inj (hmember.symm.trans hmember'))
  exact ⟨s, mutations, search, insertion, assigned, expression, members, hs, hmethod, hpayload,
    hmember, hmembers, h, hsurvive⟩

/-- A marked string that is assigned as data is written like the raw text of an operator, and
both come back as that raw text. -/
theorem marked_value_comes_back_raw :
    let r : Request := {
      model := some "user", method := some .update, primaryKey := some "id"
      values := some (.object [
        ("note", .string "$OLD.n+1"), ("$inc", .object [("n", .int 1)])]) }
    ∃ s search insertion assigned expression members,
      r.compile "" = .ok (.statement s) ∧ s.method = .update ∧
      s.payload = .update search insertion assigned expression ∧
      s.toJson.member? "values" = some (.object members) ∧
      assigned = [("note", .literal (.string "$OLD.n+1")), ("n", .raw "OLD.n+1")] ∧
      members = [("note", .string "$OLD.n+1"), ("n", .string "$OLD.n+1")] ∧
      Assignments.ofMembers members = [("note", .raw "OLD.n+1"), ("n", .raw "OLD.n+1")] ∧
      Assignments.ofMembers members ≠ assigned :=
  ⟨_, _, _, _, _, _, rfl, rfl, rfl, rfl, rfl, rfl, by decide, by decide⟩

end Request

end Docstore
