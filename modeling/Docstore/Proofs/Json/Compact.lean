import Docstore.Proofs.Decimal.Spelling
import Docstore.Proofs.Json.Strings
import Docstore.Proofs.Text.Boundary

/-!
# The text of a value determines it

The first character of a text tells the type of the value
(`exists_compact_eq_cons`).  Within a type the text shows where it ends: a number
and a word stop at what cannot be in them, a string at its quote, an array and an
object at their bracket.  So two values with one text are one value, even with
something behind them that may follow a value (`agreeOnlyIf_compact`).
-/

namespace Docstore

namespace Json

open Text

/-- What may follow a value, in JSON text and in query text. -/
def valueEnds : List Char := [' ', ')', ',', ']', '\x7d']

/-- The type of the values whose texts start with a character; no type for a character that no
text of a value starts with. -/
def typeOfFirst (c : Char) : String :=
  if c = 'n' then "null"
  else if c = 't' ∨ c = 'f' then "boolean"
  else if c = '"' then "string"
  else if c = '[' then "array"
  else if c = '\x7b' then "object"
  else if c.isDigit = true ∨ c = '-' then "number"
  else ""

theorem typeOfFirst_of_isDigit {c : Char} (h : c.isDigit = true) : typeOfFirst c = "number" := by
  have hne (d : Char) (hd : d.isDigit = false) : c ≠ d := by
    rintro rfl
    exact absurd h (by simp [hd])
  rw [typeOfFirst, if_neg (hne 'n' (by decide)), if_neg (by simp [hne 't', hne 'f']),
    if_neg (hne '"' (by decide)), if_neg (hne '[' (by decide)), if_neg (hne '\x7b' (by decide)),
    if_pos (.inl h)]

/-! ### Texts as characters -/

theorem compactItems_eq_map (items : List Json) : compactItems items = items.map compact := by
  induction items with
  | nil => rfl
  | cons v vs ih => rw [compactItems, ih, List.map_cons]

def memberChars (m : String × Json) : List Char :=
  (quote m.1).toList ++ ':' :: m.2.compact.toList

theorem toList_compactMembers (members : List (String × Json)) :
    (compactMembers members).map String.toList = members.map memberChars := by
  induction members with
  | nil => rfl
  | cons m ms ih =>
    rw [compactMembers, List.map_cons, ih, List.map_cons]
    simp [memberChars]

theorem toList_compact_array (items : List Json) :
    (compact (.array items)).toList =
      '[' :: ([','].intercalate (items.map fun v => v.compact.toList) ++ [']']) := by
  rw [compact, String.toList_append, String.toList_append, String.toList_intercalate,
    compactItems_eq_map, List.map_map]
  rfl

theorem toList_compact_object (members : List (String × Json)) :
    (compact (.object members)).toList =
      '\x7b' :: ([','].intercalate (members.map memberChars) ++ ['\x7d']) := by
  rw [compact, String.toList_append, String.toList_append, String.toList_intercalate,
    toList_compactMembers]
  rfl

theorem toList_quote (s : String) : (quote s).toList = quoteChars s.toList :=
  String.toList_ofList

theorem escapeChar_of_isTextChar {c : Char} (hc : Numeral.isTextChar c = true) :
    escapeChar c = [c] := by
  have hdigit : c.isDigit = true → escapeChar c = [c] := by
    intro hc
    have hne (d : Char) (hd : d.isDigit = false) : c ≠ d := by
      rintro rfl
      exact absurd hc (by simp [hd])
    have hcode : 48 ≤ c.toNat := by
      simp only [Char.isDigit, Bool.and_eq_true, decide_eq_true_eq] at hc
      exact hc.1
    rw [escapeChar, if_neg (hne '"' (by decide)), if_neg (hne '\\' (by decide)),
      if_neg (hne '\n' (by decide)), if_neg (hne '\r' (by decide)), if_neg (hne '\t' (by decide)),
      if_neg (by omega), if_neg (by omega), if_neg (by omega)]
  simp only [Numeral.isTextChar, Bool.or_eq_true, beq_iff_eq] at hc
  obtain (((hc | rfl) | rfl) | rfl) | rfl := hc
  · exact hdigit hc
  all_goals rfl

theorem quoteChars_text (n : Number) :
    quoteChars n.text.toList = '"' :: (n.text.toList ++ ['"']) := by
  have hplain : n.text.toList.flatMap escapeChar = n.text.toList := by
    rw [List.flatMap_congr fun c hc => escapeChar_of_isTextChar (Number.isTextChar_of_mem_text c hc)]
    exact List.flatMap_singleton' _
  rw [quoteChars, hplain]

/-- **The first character of a text tells the type of the value.** -/
theorem exists_compact_eq_cons (v : Json) :
    ∃ c rest, v.compact.toList = c :: rest ∧ typeOfFirst c = v.typeName := by
  cases v with
  | null => exact ⟨'n', _, rfl, rfl⟩
  | bool b =>
    cases b
    · exact ⟨'f', _, rfl, rfl⟩
    · exact ⟨'t', _, rfl, rfl⟩
  | number n =>
    obtain ⟨c, rest, htext, hc⟩ := n.exists_text_eq_cons
    refine ⟨c, rest, htext, ?_⟩
    rcases hc with hc | rfl
    · exact typeOfFirst_of_isDigit hc
    · rfl
  | string s => exact ⟨'"', _, toList_quote s, rfl⟩
  | array items => exact ⟨'[', _, toList_compact_array items, rfl⟩
  | object members => exact ⟨'\x7b', _, toList_compact_object members, rfl⟩

theorem typeName_ne_empty (v : Json) : v.typeName ≠ "" := by
  cases v <;> simp [typeName]

theorem compact_ne_cons {c : Char} (hc : typeOfFirst c = "") (v : Json) :
    ∃ d rest, v.compact.toList = d :: rest ∧ d ≠ c := by
  obtain ⟨d, rest, htext, hd⟩ := v.exists_compact_eq_cons
  refine ⟨d, rest, htext, ?_⟩
  rintro rfl
  exact v.typeName_ne_empty (hd.symm.trans hc)

/-! ### Where a text ends -/

variable {ends : List Char}

theorem agreeOnlyIf_of_typeName_ne {claim : Prop} {v w : Json} (h : v.typeName ≠ w.typeName) :
    AgreeOnlyIf ends claim v.compact.toList w.compact.toList := by
  obtain ⟨c, cs, hc, hcv⟩ := v.exists_compact_eq_cons
  obtain ⟨d, ds, hd, hdw⟩ := w.exists_compact_eq_cons
  rw [hc, hd]
  refine agreeOnlyIf_of_head_ne ?_
  rintro rfl
  exact h (hcv.symm.trans hdw)

theorem agreeOnlyIf_number (m n : Number) :
    AgreeOnlyIf valueEnds (m = n) m.text.toList n.text.toList :=
  (agreeOnlyIf_of_class Numeral.isTextChar Number.isTextChar_of_mem_text
    Number.isTextChar_of_mem_text (by decide)).imp
    fun h => Number.text_inj.mp (String.toList_inj.mp h)

theorem agreeOnlyIf_quote (s t : String) :
    AgreeOnlyIf ends (s = t) (quote s).toList (quote t).toList := by
  intro r s' _ _ h
  rw [toList_quote, toList_quote] at h
  obtain ⟨hst, hrest⟩ := quoteChars_append_inj h
  exact ⟨String.toList_inj.mp hst, hrest⟩

theorem agreeOnlyIf_member {m n : String × Json}
    (h : AgreeOnlyIf ends (m.2 = n.2) m.2.compact.toList n.2.compact.toList) :
    AgreeOnlyIf ends (m = n) (memberChars m) (memberChars n) := by
  have hkey : AgreeOnlyIf [':'] (m.1 = n.1) (quote m.1).toList (quote n.1).toList :=
    agreeOnlyIf_quote m.1 n.1
  refine (hkey.append (fun r _ => List.mem_cons_self) (fun r _ => List.mem_cons_self)
    fun _ => h.cons ':').imp ?_
  rintro ⟨hk, hv⟩
  exact Prod.ext hk hv

mutual

/-- **The text of a value, with something behind it, determines the value.** -/
theorem agreeOnlyIf_compact : ∀ v w : Json,
    AgreeOnlyIf valueEnds (v = w) v.compact.toList w.compact.toList
  | .null, w => by
    cases w with
    | null => exact fun r s _ _ h => ⟨rfl, List.append_cancel_left h⟩
    | _ => exact agreeOnlyIf_of_typeName_ne (by simp [typeName])
  | .bool b, w => by
    cases w with
    | bool c =>
      cases b <;> cases c
      · exact fun r s _ _ h => ⟨rfl, List.append_cancel_left h⟩
      · exact agreeOnlyIf_of_head_ne (by decide)
      · exact agreeOnlyIf_of_head_ne (by decide)
      · exact fun r s _ _ h => ⟨rfl, List.append_cancel_left h⟩
    | _ => exact agreeOnlyIf_of_typeName_ne (by simp [typeName])
  | .number m, w => by
    cases w with
    | number n => exact (agreeOnlyIf_number m n).imp fun h => by rw [h]
    | _ => exact agreeOnlyIf_of_typeName_ne (by simp [typeName])
  | .string s, w => by
    cases w with
    | string t => exact (agreeOnlyIf_quote s t).imp fun h => by rw [h]
    | _ => exact agreeOnlyIf_of_typeName_ne (by simp [typeName])
  | .array items, w => by
    cases w with
    | array items' =>
      rw [toList_compact_array, toList_compact_array]
      have hlist : AgreeOnlyIf valueEnds (items.map id = items'.map id) _ _ :=
        agreeOnlyIf_bracketed (fun v : Json => v.compact.toList) id [] (show ',' ≠ ']' by decide)
          (fun v _ => compact_ne_cons (by decide) v)
          fun v hv w (_ : w ∈ items') => (agreeOnlyIf_items items v hv w).mono (by decide)
      refine (hlist.cons '[').imp fun hids => ?_
      rw [List.map_id, List.map_id] at hids
      rw [hids]
    | _ => exact agreeOnlyIf_of_typeName_ne (by simp [typeName])
  | .object members, w => by
    cases w with
    | object members' =>
      rw [toList_compact_object, toList_compact_object]
      have hlist : AgreeOnlyIf valueEnds (members.map id = members'.map id) _ _ :=
        agreeOnlyIf_bracketed memberChars id [] (show ',' ≠ '\x7d' by decide)
          (fun m _ => ⟨'"', _, by rw [memberChars, toList_quote]; rfl, by decide⟩)
          fun m hm n (_ : n ∈ members') => (agreeOnlyIf_members members m hm n).mono (by decide)
      refine (hlist.cons '\x7b').imp fun hids => ?_
      rw [List.map_id, List.map_id] at hids
      rw [hids]
    | _ => exact agreeOnlyIf_of_typeName_ne (by simp [typeName])

theorem agreeOnlyIf_items : ∀ (vs : List Json), ∀ v ∈ vs, ∀ w : Json,
    AgreeOnlyIf valueEnds (v = w) v.compact.toList w.compact.toList
  | [], _, hv, _ => absurd hv (by simp)
  | v :: vs, u, hu, w => by
    rcases List.mem_cons.mp hu with heq | hu
    · rw [heq]
      exact agreeOnlyIf_compact v w
    · exact agreeOnlyIf_items vs u hu w

theorem agreeOnlyIf_members : ∀ (ms : List (String × Json)), ∀ m ∈ ms, ∀ n : String × Json,
    AgreeOnlyIf valueEnds (m = n) (memberChars m) (memberChars n)
  | [], _, hm, _ => absurd hm (by simp)
  | (k, v) :: ms, m, hm, n => by
    rcases List.mem_cons.mp hm with heq | hm
    · rw [heq]
      exact agreeOnlyIf_member (agreeOnlyIf_compact v n.2)
    · exact agreeOnlyIf_members ms m hm n

end

end Json

end Docstore
