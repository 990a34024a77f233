import Docstore.Update.Normal

/-!
# The forms of an update, field by field

The three forms of an update are made from the same fields, each with its last
mutation.  So they have the same keys in the same order, and what stands under a
field is said by its mutation alone: the operand of an assignment, the data of an
insertion, the text of an expression.  The text of the expressions is that of the
operands, data written as JSON (`objectText_ofFields`).

Side by side, a field is the same data in all three forms, or else an expression in
two of them and in an insertion the data that it comes to (`Abreast`).  Whatever is
refused is refused in all three alike (`forms_abreast`).
-/

namespace Docstore

/-- The text of an operand that is assigned: data as JSON, raw text as it is. -/
def Operand.assignedText : Operand → String
  | .literal v => v.compact
  | .raw text => text

def Assignments.objectText (a : Assignments) : String :=
  if a.isEmpty then "\x7b\x7d"
  else
    "\x7b " ++ String.intercalate ", " (a.map fun e => Json.quote e.1 ++ ": " ++ e.2.assignedText)
      ++ " \x7d"

namespace Mutation

theorem expression_eq (field : String) (m : Mutation) :
    m.expression field = (m.operand field).assignedText := by
  cases m <;> rfl

theorem operand_eq_literal_iff {f : String} {m : Mutation} {v : Json} :
    m.operand f = .literal v ↔ m = .assign v := by
  cases m <;> simp [operand]

end Mutation

namespace NormalUpdate

variable (fields : Dictionary Mutation)

theorem keys_value : Dictionary.keys (ofFields .value fields).assigned = fields.keys :=
  Dictionary.keys_map Mutation.operand fields

theorem get?_value (f : String) :
    Dictionary.get? f (ofFields .value fields).assigned =
      (fields.get? f).map (Mutation.operand f) :=
  Dictionary.get?_map Mutation.operand fields f

theorem literals_insertion :
    ((ofFields .insertion fields).assigned.filterMap fun e => e.2.literal?.map fun v => (e.1, v)) =
      fields.map fun e => (e.1, e.2.initialValue) := by
  rw [ofFields, List.filterMap_map, ← List.filterMap_eq_map]
  rfl

/-- **The expressions are the assigned operands**, written out in the same order. -/
theorem objectText_ofFields :
    (ofFields .setExpression fields).objectText =
      Assignments.objectText (ofFields .value fields).assigned := by
  have htexts : ((ofFields .setExpression fields).rendered.map
        fun f => Json.quote f.1 ++ ": " ++ f.2) =
      (ofFields .value fields).assigned.map
        fun e => Json.quote e.1 ++ ": " ++ e.2.assignedText := by
    simp only [ofFields, List.map_map, Function.comp_def, Mutation.expression_eq]
  have hempty : (ofFields .setExpression fields).rendered.isEmpty =
      List.isEmpty (ofFields .value fields).assigned := by
    simp only [ofFields, List.isEmpty_map]
  rw [objectText, Assignments.objectText, htexts, hempty]

/-! ### Side by side -/

/-- What is assigned, the expressions and what an insertion assigns, field by field: the same data
in all three, or an expression for which an insertion has data of its own. -/
inductive Abreast : Assignments → List (String × String) → Assignments → Prop where
  | nil : Abreast [] [] []
  | data (field : String) (v : Json) {assigned inserted : Assignments}
      {rendered : List (String × String)} (h : Abreast assigned rendered inserted) :
      Abreast ((field, .literal v) :: assigned) ((field, v.compact) :: rendered)
        ((field, .literal v) :: inserted)
  | expression (field text : String) (initial : Json) {assigned inserted : Assignments}
      {rendered : List (String × String)} (h : Abreast assigned rendered inserted) :
      Abreast ((field, .raw text) :: assigned) ((field, text) :: rendered)
        ((field, .literal initial) :: inserted)

theorem abreast_ofFields :
    Abreast (ofFields .value fields).assigned (ofFields .setExpression fields).rendered
      (ofFields .insertion fields).assigned := by
  induction fields with
  | nil => exact .nil
  | cons e fields ih =>
    obtain ⟨field, m⟩ := e
    cases m with
    | assign v => exact .data field v ih
    | _ => exact .expression field _ _ ih

theorem assigned_setExpression :
    (ofFields .setExpression fields).assigned =
      (ofFields .value fields).assigned.filter fun e => !e.2.isRaw := by
  induction fields with
  | nil => rfl
  | cons e fields ih =>
    obtain ⟨field, m⟩ := e
    cases m with
    | assign v => exact congrArg ((field, Operand.literal v) :: ·) ih
    | _ => exact ih

/-- **The three forms of an update go side by side**, or the value is refused in all three for the
same reason. -/
theorem forms_abreast (v : Json) :
    (∃ f, ∀ mode, ofJson mode v = .error f) ∨
      ∃ values expressions insertion,
        ofJson .value v = .ok values ∧ ofJson .setExpression v = .ok expressions ∧
        ofJson .insertion v = .ok insertion ∧
        Abreast values.assigned expressions.rendered insertion.assigned ∧
        (Dictionary.keys values.assigned).Nodup ∧
        expressions.assigned = values.assigned.filter fun e => !e.2.isRaw := by
  cases h : mutationsOf v with
  | error f =>
    refine Or.inl ⟨f, fun mode => ?_⟩
    rw [ofJson, fieldMutations, h]
    rfl
  | ok mutations =>
    have hform (mode : UpdateMode) :
        ofJson mode v = .ok (ofFields mode (Dictionary.ofEntries mutations)) := by
      rw [ofJson, fieldMutations, h]
      rfl
    refine Or.inr ⟨_, _, _, hform .value, hform .setExpression, hform .insertion,
      abreast_ofFields _, ?_, assigned_setExpression _⟩
    rw [keys_value]
    exact Dictionary.nodup_keys_ofEntries mutations

end NormalUpdate

end Docstore
