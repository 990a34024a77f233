import Docstore.Proofs.Json.Grammar
import Docstore.Proofs.Statement.ReadBack
import Docstore.Proofs.Update.NormalForm

/-!
# The expression of plain data

The record of an update says twice what the update writes: as the members of `values` and
as the text `valuesToSet`.  Without operators all that is written is data, each field with
what it was assigned last.  Then the text is JSON, and what it says is the very object
that stands under `values` (`parse?_valuesToSet`).
-/

namespace Docstore

open Dictionary (lastOfEach)
open Mutation (entriesOf operatorKeys)

namespace Assignments

def ofData (members : Dictionary Json) : Assignments := members.map fun m => (m.1, .literal m.2)

theorem toMembers_ofData (members : Dictionary Json) : (ofData members).toMembers = members := by
  rw [toMembers, ofData, List.map_map]
  exact List.map_id members

/-- **The text of assigned data is a text of the object.** -/
theorem isText_objectText_ofData {members : Dictionary Json}
    (h : ∀ m ∈ members, Json.IsText m.2 m.2.compact.toList) :
    Json.IsText (.object members) (ofData members).objectText.toList := by
  cases members with
  | nil => exact Json.IsText.emptyObject Json.areSpaces_nil
  | cons m ms =>
    have htext := @Json.isText_spacedObject (fun m => m.2.compact) (m :: ms) h
    simpa [objectText, ofData, Function.comp_def, Operand.assignedText] using htext

/-- **Assigned data is read back from its text.** -/
theorem parse?_objectText_ofData {members : Dictionary Json} (hkeys : members.keys.Nodup)
    (h : ∀ m ∈ members, m.2.IsLegible 126) :
    Json.parse? (ofData members).objectText = some (.object members) :=
  Json.parse?_of_isText
    (isText_objectText_ofData fun m hm => Json.isText_compact fun _ => (h m hm).readsBack)
    (Json.isLegible_object hkeys h)

end Assignments

namespace NormalUpdate

theorem assigned_of_plain {values : Json} (h : ∀ e ∈ entriesOf values, e.1 ∉ operatorKeys) :
    (ofFields .value (lastOfEach (Mutation.sequence values))).assigned =
      .ofData (lastOfEach (entriesOf values)) := by
  rw [Mutation.sequence_eq_map h, Dictionary.lastOfEach_map, ofFields, List.map_map]
  rfl

end NormalUpdate

theorem Statement.member?_valuesToSet_toJson {s : Statement} {search insertion : Dictionary Json}
    {assigned : Assignments} {text : String}
    (h : s.payload = .update search insertion assigned text) :
    s.toJson.member? "valuesToSet" = some (.string text) := by
  rw [Statement.toJson, h]
  rfl

namespace Request

/-- **Without operators, both outputs of an update say the same.**  The members of `values` are
what the entries assign, each field with its last value, and `valuesToSet` is a text of this
object. -/
theorem parse?_valuesToSet {now : String} {r : Request} {s : Statement} {values : Json}
    (h : r.compile now = .ok (.statement s)) (hmethod : s.method = .update ∨ s.method = .upsert)
    (hvalues : r.values = some values) (hplain : ∀ e ∈ entriesOf values, e.1 ∉ operatorKeys)
    (hlegible : ∀ e ∈ entriesOf values, e.2.IsLegible 126) :
    ∃ members search insertion text,
      members = lastOfEach (entriesOf values) ∧
      s.payload = .update search insertion (.ofData members) text ∧
      s.toJson.member? "values" = some (.object members) ∧
      s.toJson.member? "valuesToSet" = some (.string text) ∧
      Json.parse? text = some (.object members) := by
  obtain ⟨criteria, key, h⟩ := compile_eq_statement_iff.mp h
  obtain ⟨values', mutations, hvalues', hmutations, hpayload⟩ := h.payload_update hmethod
  obtain rfl := Option.some.inj (hvalues.symm.trans hvalues')
  obtain ⟨-, rfl⟩ := mutationsOf_eq_ok_iff.mp hmutations
  rw [NormalUpdate.objectText_ofFields, Dictionary.ofEntries_eq_lastOfEach,
    NormalUpdate.assigned_of_plain hplain] at hpayload
  have hmember := member?_values_toJson s
  rw [hpayload, Payload.valuesJson, Assignments.toJson_eq, Assignments.toMembers_ofData] at hmember
  have hread := Assignments.parse?_objectText_ofData
    (Dictionary.nodup_keys_lastOfEach (entriesOf values))
    fun e he => hlegible e (Dictionary.mem_of_mem_lastOfEach he)
  exact ⟨_, _, _, _, rfl, hpayload, hmember, Statement.member?_valuesToSet_toJson hpayload, hread⟩

/-- Spliced entries, a field that is assigned twice, strings that spell a number or carry a mark,
and a key that needs escapes. -/
theorem parse?_valuesToSet_spliced :
    let values : Json := .object [
      ("n", .string "5"), ("$rename", .object [("a", .array [])]),
      ("$and", .array [.object [("say \"hi\"", .string "$OLD.n"), ("n", .string "$x")],
        .object [("and", .array [
          .object [("deep", .object [("k", .array [.int (-1), .null])])]])]])]
    let r : Request := {
      model := some "user", method := some .upsert, primaryKey := some "id"
      values := some values }
    let members : Dictionary Json := [
      ("n", .string "$x"), ("$rename", .object [("a", .array [])]),
      ("say \"hi\"", .string "$OLD.n"), ("deep", .object [("k", .array [.int (-1), .null])])]
    ∃ s search insertion text,
      r.compile "" = .ok (.statement s) ∧ s.method = .upsert ∧
      (∀ e ∈ entriesOf values, e.1 ∉ operatorKeys) ∧
      (∀ e ∈ entriesOf values, e.2.IsLegible 126) ∧
      s.payload = .update search insertion (.ofData members) text ∧
      text = "\x7b \"n\": \"$x\", \"$rename\": \x7b\"a\":[]\x7d, "
        ++ "\"say \\\"hi\\\"\": \"$OLD.n\", \"deep\": \x7b\"k\":[-1,null]\x7d \x7d" ∧
      s.toJson.member? "values" = some (.object members) ∧
      s.toJson.member? "valuesToSet" = some (.string text) ∧
      Json.parse? text = some (.object members) := by
  intro values r members
  obtain ⟨s, search, insertion, text, hs, hmethod, hpayload, htext⟩ : ∃ s search insertion text,
      r.compile "" = .ok (.statement s) ∧ s.method = .upsert ∧
      s.payload = .update search insertion (.ofData members) text ∧
      text = "\x7b \"n\": \"$x\", \"$rename\": \x7b\"a\":[]\x7d, "
        ++ "\"say \\\"hi\\\"\": \"$OLD.n\", \"deep\": \x7b\"k\":[-1,null]\x7d \x7d" :=
    ⟨_, _, _, _, rfl, rfl, rfl, by decide +kernel⟩
  have hplain : ∀ e ∈ entriesOf values, e.1 ∉ operatorKeys := by decide
  have hlegible : ∀ e ∈ entriesOf values, e.2.IsLegible 126 := by decide +kernel
  obtain ⟨members', search', insertion', text', hmembers, hpayload', hvalues, hset, hread⟩ :=
    parse?_valuesToSet hs (Or.inr hmethod) rfl hplain hlegible
  obtain rfl : members' = members := hmembers
  obtain ⟨-, -, -, rfl⟩ := Payload.update.inj (hpayload.symm.trans hpayload')
  exact ⟨s, search, insertion, text, hs, hmethod, hplain, hlegible, hpayload, htext, hvalues, hset,
    hread⟩

end Request

end Docstore
