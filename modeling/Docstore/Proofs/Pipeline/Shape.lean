import Docstore.Pipeline.Text
import Docstore.Proofs.Json.Grammar
import Docstore.Proofs.Term.Raw

/-!
# Shapes that are values

In a shape a marked string is a reference and an object with nothing but `$concat` and a
list is a call.  A shape without these (`IsConstantShape`) says what the result is, and
its text is a text of this value: items and members are written with blanks behind the
commas, colons and braces, which the grammar allows (`isText_shapeText`).  So it is read
as the very value, members in order and strings as strings (`parse?_shapeText`).
-/

namespace Docstore

namespace Json

/-- Nothing in the shape is a reference or a call. -/
structure IsConstantShape (v : Json) : Prop where
  strings : ∀ s, .string s ∈ v.parts → ¬HasMark s
  objects : ∀ items, .object [("$concat", .array items)] ∉ v.parts

/-! ### The text of a shape -/

theorem shapeItems_eq_map (items : List Json) : shapeItems items = items.map shapeText := by
  induction items with
  | nil => rw [shapeItems, List.map_nil]
  | cons v vs ih => rw [shapeItems, ih, List.map_cons]

theorem shapeMembers_eq_map (members : List (String × Json)) :
    shapeMembers members = members.map fun m => quote m.1 ++ ": " ++ m.2.shapeText := by
  induction members with
  | nil => rw [shapeMembers, List.map_nil]
  | cons m ms ih => rw [shapeMembers, ih, List.map_cons]

/-- **The text of a constant shape is a text of the value.** -/
theorem isText_shapeText {v : Json} (h : v.IsConstantShape)
    (hnumbers : ∀ n, .number n ∈ v.parts → n.ReadsBack) : IsText v v.shapeText.toList := by
  refine parts_induction (P := fun w => IsText w w.shapeText.toList) v fun w hw ih => ?_
  cases w with
  | null =>
    rw [shapeText]
    exact .null
  | bool b =>
    rw [shapeText]
    cases b
    · exact .no
    · exact .yes
  | number n =>
    rw [shapeText]
    exact .number (hnumbers n hw)
  | string s =>
    simp only [shapeText, rawText?_eq_none (h.strings s hw)]
    rw [toList_quote]
    exact .string s
  | array items =>
    rw [shapeText, shapeItems_eq_map]
    exact isText_spacedArray ih
  | object members =>
    have hcall : ∀ items, members ≠ [("$concat", .array items)] :=
      fun items heq => h.objects items (heq ▸ hw)
    rw [shapeText.eq_4 members hcall, shapeMembers_eq_map]
    exact isText_spacedObject fun m hm => ih m.2 (List.mem_map_of_mem hm)

/-- **A constant shape is read back from its text.** -/
theorem parse?_shapeText {v : Json} (h : v.IsConstantShape) (hlegible : v.IsLegible 127) :
    parse? v.shapeText = some v :=
  parse?_of_isText (isText_shapeText h fun _ => hlegible.readsBack) hlegible

/-- Keys of operators, strings that spell numbers or need escapes, and containers of every
size. -/
theorem parse?_shapeText_hostile :
    let rate : Binary64 := ⟨false, 5629499534213120, -51, by decide⟩
    let v : Json := .object
      [("$concat", .array [.string "5", .array [], .object []]),
        ("$key \"\n", .object [("$concat", .string "a$")]), ("rate", .number (.float rate)),
        ("n", Json.int (-7)), ("on", .array [.bool true, .null])]
    v.IsConstantShape ∧ v.IsLegible 127 ∧
      v.shapeText =
        "\x7b \"$concat\": [\"5\", [], \x7b  \x7d], "
          ++ "\"$key \\\"\\n\": \x7b \"$concat\": \"a$\" \x7d, "
          ++ "\"rate\": 2.5, \"n\": -7, \"on\": [true, null] \x7d" ∧
      parse? v.shapeText = some v := by
  intro rate v
  have hshape : v.IsConstantShape := by
    refine ⟨fun s hs => ?_, fun items hitems => ?_⟩
    · have hcases : s = "5" ∨ s = "a$" := by
        simpa [v, parts, partsOfMembers, partsOfItems, int] using hs
      rcases hcases with rfl | rfl <;> decide
    · simp [v, parts, partsOfMembers, partsOfItems, int] at hitems
  have hlegible : v.IsLegible 127 := by decide +kernel
  exact ⟨hshape, hlegible, by decide +kernel, parse?_shapeText hshape hlegible⟩

end Json

end Docstore
