import Mathlib.Data.List.Basic
import Docstore.Proofs.Update.Forms
import Docstore.Proofs.Update.Reading

/-!
# The normal form of an update

The normal form has the fields of the sequence of mutations in the order of their
first mentions, each with its last mutation (`ofJson_eq_lastOfEach`).

If all these fields come to data, the normal form can be written down again as an
object, and that object is an update that says the same (`ofJson_again`).  The reason
is in the names.  An operator may change a field of any name, but a plain assignment
never names a key that splices or an operator, since under such a key it would be read
as one (`isFree_of_assign`).  So data in normal form has free names only, each of them
once (`IsPlain`), and an object of such data is its own normal form
(`ofJson_of_isPlain`).
-/

namespace Docstore

/-! ### The last of each -/

namespace Dictionary

variable {β : Type _}

/-- Each key, in the order of the first mentions, with the value that was mentioned last. -/
def lastOfEach (entries : List (String × β)) : Dictionary β :=
  (entries.map Prod.fst).eraseDups.filterMap fun key =>
    (last? key entries).map fun value => (key, value)

/-- A dictionary is made up of its keys and what is found under them. -/
theorem filterMap_keys_eq {d : Dictionary β} (h : d.keys.Nodup) :
    (d.keys.filterMap fun key => (d.get? key).map fun value => (key, value)) = d := by
  induction d with
  | nil => rfl
  | cons e rest ih =>
    obtain ⟨k, v⟩ := e
    obtain ⟨hnew, hrest⟩ := List.nodup_cons.mp h
    have hfirst : get? k ((k, v) :: rest) = some v := by rw [get?, if_pos rfl]
    have hothers : ∀ key ∈ keys rest,
        (get? key ((k, v) :: rest)).map (fun value => (key, value)) =
          (get? key rest).map fun value => (key, value) := by
      intro key hkey
      rw [get?, if_neg fun heq : k = key => hnew (heq.symm ▸ hkey)]
    show List.filterMap _ (k :: keys rest) = _
    rw [List.filterMap_cons, hfirst, Option.map_some, List.filterMap_congr hothers, ih hrest]

/-- What is written is what is mentioned last, in the order of the first mentions. -/
theorem ofEntries_eq_lastOfEach (entries : List (String × β)) :
    ofEntries entries = lastOfEach entries := by
  have h := filterMap_keys_eq (nodup_keys_ofEntries entries)
  simp only [keys_ofEntries, get?_ofEntries] at h
  exact h.symm

theorem nodup_keys_lastOfEach (entries : List (String × β)) : (lastOfEach entries).keys.Nodup :=
  ofEntries_eq_lastOfEach entries ▸ nodup_keys_ofEntries entries

theorem mem_of_mem_lastOfEach {entries : List (String × β)} {e : String × β}
    (h : e ∈ lastOfEach entries) : e ∈ entries := by
  obtain ⟨key, -, hlast⟩ := List.mem_filterMap.mp h
  obtain ⟨value, hvalue, rfl⟩ := Option.map_eq_some_iff.mp hlast
  exact mem_of_last?_eq_some hvalue

theorem last?_map {γ : Type _} (g : β → γ) (key : String) (entries : List (String × β)) :
    last? key (entries.map fun e => (e.1, g e.2)) = (last? key entries).map g := by
  induction entries with
  | nil => rfl
  | cons e rest ih =>
    rw [List.map_cons, last?, last?, ih, Option.map_or]
    split <;> rfl

theorem lastOfEach_map {γ : Type _} (g : β → γ) (entries : List (String × β)) :
    lastOfEach (entries.map fun e => (e.1, g e.2)) =
      (lastOfEach entries).map fun e => (e.1, g e.2) := by
  have hkeys : (entries.map fun e => (e.1, g e.2)).map Prod.fst = entries.map Prod.fst := by
    rw [List.map_map]
    rfl
  rw [lastOfEach, lastOfEach, hkeys, List.map_filterMap]
  refine List.filterMap_congr fun key _ => ?_
  rw [last?_map, Option.map_map, Option.map_map]
  rfl

end Dictionary

/-! ### Normal forms -/

namespace NormalUpdate

open Mutation (IsUpdate sequence)

/-- The fields of a normal form, in the part that its mode fills. -/
def fieldsIn (mode : UpdateMode) (u : NormalUpdate) : List String :=
  match mode with
  | .value | .insertion => Dictionary.keys u.assigned
  | .setExpression => Dictionary.keys u.rendered

theorem fieldsIn_ofFields (mode : UpdateMode) (fields : Dictionary Mutation) :
    (ofFields mode fields).fieldsIn mode = fields.keys := by
  cases mode with
  | value => exact Dictionary.keys_map Mutation.operand fields
  | setExpression => exact Dictionary.keys_map (fun f m => m.expression f) fields
  | insertion => exact Dictionary.keys_map (fun _ m => Operand.literal m.initialValue) fields

theorem ofJson_eq_ok_iff {mode : UpdateMode} {v : Json} {u : NormalUpdate} :
    ofJson mode v = .ok u ↔ IsUpdate v ∧ u = ofFields mode (.lastOfEach (sequence v)) := by
  rw [ofJson, fieldMutations, map_eq_ok_iff]
  simp only [map_eq_ok_iff, mutationsOf_eq_ok_iff, Dictionary.ofEntries_eq_lastOfEach]
  constructor
  · rintro ⟨_, ⟨_, ⟨hv, rfl⟩, rfl⟩, rfl⟩
    exact ⟨hv, rfl⟩
  · rintro ⟨hv, rfl⟩
    exact ⟨_, ⟨_, ⟨hv, rfl⟩, rfl⟩, rfl⟩

/-- **The normal form of an update**: the fields of its sequence in the order of their first
mentions, each with its last mutation.  Any other value is refused as a wrong update. -/
theorem ofJson_eq_lastOfEach (mode : UpdateMode) (v : Json) :
    (∀ u, ofJson mode v = .ok u ↔ IsUpdate v ∧ u = ofFields mode (.lastOfEach (sequence v))) ∧
      (ofFields mode (.lastOfEach (sequence v))).fieldsIn mode =
        ((sequence v).map Prod.fst).eraseDups ∧
      (¬IsUpdate v ↔ ∃ reason, ofJson mode v = .error (.invalidUpdate reason)) := by
  refine ⟨fun u => ofJson_eq_ok_iff, ?_, ?_⟩
  · rw [fieldsIn_ofFields, ← Dictionary.ofEntries_eq_lastOfEach, Dictionary.keys_ofEntries]
  · constructor
    · intro hv
      cases h : ofJson mode v with
      | ok u => exact absurd (ofJson_eq_ok_iff.mp h).1 hv
      | error f =>
        obtain ⟨reason, rfl⟩ := (failsOnly_fieldMutations v).map (ofFields mode) f h
        exact ⟨reason, rfl⟩
    · rintro ⟨reason, h⟩ hv
      rw [ofJson_eq_ok_iff.mpr ⟨hv, rfl⟩] at h
      exact absurd h (by simp)

end NormalUpdate

/-! ### Assignments of data -/

namespace Assignments

theorem plain?_eq_some_iff {a : Assignments} {m : Dictionary Json} :
    plain? a = some m ↔ a = m.map fun e => (e.1, .literal e.2) := by
  induction a generalizing m with
  | nil => cases m <;> simp [plain?]
  | cons e a ih =>
    obtain ⟨field, operand⟩ := e
    have hcons : plain? ((field, operand) :: a) = some m ↔
        ∃ v rest, operand = .literal v ∧ plain? a = some rest ∧ (field, v) :: rest = m := by
      cases operand <;>
        simp [plain?, List.mapM_cons, Operand.literal?, Option.bind_eq_some_iff]
    rw [hcons]
    constructor
    · rintro ⟨v, rest, rfl, hrest, rfl⟩
      rw [ih.mp hrest]
      rfl
    · intro h
      cases m with
      | nil => exact absurd h (by simp)
      | cons e' rest =>
        obtain ⟨hentry, hrest⟩ := List.cons.inj h
        obtain ⟨rfl, rfl⟩ := Prod.mk.inj hentry
        exact ⟨_, rest, rfl, ih.mpr hrest, rfl⟩

end Assignments

namespace Mutation

/-- The name is that of a field, and no key that splices or an operator. -/
def IsFree (name : String) : Prop := name ∉ spliceKeys ∧ name ∉ operatorKeys

/-! ### Names of assigned fields -/

mutual

theorem not_mem_spliceKeys_of_entriesOf : ∀ v : Json, ∀ e ∈ entriesOf v, e.1 ∉ spliceKeys
  | .object members => not_mem_spliceKeys_of_entriesOfMembers members
  | .null | .bool _ | .number _ | .string _ | .array _ => fun _ h => absurd h (by simp [entriesOf])

theorem not_mem_spliceKeys_of_entriesOfMembers : ∀ members : List (String × Json),
    ∀ e ∈ entriesOfMembers members, e.1 ∉ spliceKeys
  | [] => fun _ h => absurd h (by simp [entriesOfMembers])
  | (key, v) :: rest => by
    rw [entriesOfMembers, List.forall_mem_append]
    exact ⟨not_mem_spliceKeys_of_entriesOfMember key v,
      not_mem_spliceKeys_of_entriesOfMembers rest⟩

theorem not_mem_spliceKeys_of_entriesOfMember (key : String) : ∀ v : Json,
    ∀ e ∈ entriesOfMember key v, e.1 ∉ spliceKeys
  | .array parts => by
    rw [entriesOfMember]
    split
    · exact not_mem_spliceKeys_of_entriesOfParts parts
    · next hkey => simpa using hkey
  | .null | .bool _ | .number _ | .string _ | .object _ => by
    rw [entriesOfMember]
    · split
      · simp
      · next hkey => simpa using hkey
    · simp

theorem not_mem_spliceKeys_of_entriesOfParts : ∀ parts : List Json,
    ∀ e ∈ entriesOfParts parts, e.1 ∉ spliceKeys
  | [] => fun _ h => absurd h (by simp [entriesOfParts])
  | part :: parts => by
    rw [entriesOfParts, List.forall_mem_append]
    exact ⟨not_mem_spliceKeys_of_entriesOf part, not_mem_spliceKeys_of_entriesOfParts parts⟩

end

theorem ofKey?_ne_assign (key : String) (v w : Json) : ofKey? key v ≠ some (.assign w) := by
  rw [ofKey?.eq_def]
  split <;> simp

/-- **What is plainly assigned has a free name.** -/
theorem isFree_of_assign {v w : Json} {name : String} (h : (name, .assign w) ∈ sequence v) :
    IsFree name := by
  obtain ⟨⟨key, value⟩, hentry, hchange⟩ := List.mem_flatMap.mp h
  rw [changes] at hchange
  split at hchange
  · -- The field of an operator may have any name, but no operator assigns.
    split at hchange
    · obtain ⟨f, -, hf⟩ := List.mem_filterMap.mp hchange
      obtain ⟨m, hm, heq⟩ := Option.map_eq_some_iff.mp hf
      exact absurd ((Prod.mk.inj heq).2 ▸ hm) (ofKey?_ne_assign key f.2 w)
    · exact absurd hchange (by simp)
  · next hoperator =>
    obtain ⟨rfl, -⟩ := Prod.mk.inj (List.mem_singleton.mp hchange)
    exact ⟨not_mem_spliceKeys_of_entriesOf v _ hentry, hoperator⟩

/-! ### Objects of plain data -/

theorem entriesOfMember_of_not_mem {key : String} (hkey : key ∉ spliceKeys) (v : Json) :
    entriesOfMember key v = [(key, v)] := by
  cases v <;> simp [entriesOfMember, hkey]

theorem entriesOf_object {members : List (String × Json)} (h : ∀ e ∈ members, IsFree e.1) :
    entriesOf (.object members) = members := by
  rw [entriesOf]
  induction members with
  | nil => rfl
  | cons e members ih =>
    obtain ⟨⟨hsplice, -⟩, hrest⟩ := List.forall_mem_cons.mp h
    rw [entriesOfMembers, entriesOfMember_of_not_mem hsplice, ih hrest]
    rfl

theorem sequence_eq_map {v : Json} (h : ∀ e ∈ entriesOf v, e.1 ∉ operatorKeys) :
    sequence v = (entriesOf v).map fun e => (e.1, .assign e.2) := by
  rw [sequence, ← List.flatMap_singleton' ((entriesOf v).map _), List.flatMap_map]
  refine List.flatMap_congr fun e he => ?_
  rw [changes, if_neg (h e he)]

theorem mutationsOf_object {members : List (String × Json)} (h : ∀ e ∈ members, IsFree e.1) :
    mutationsOf (.object members) = .ok (members.map fun e => (e.1, .assign e.2)) := by
  refine mutationsOf_eq_ok_iff.mpr ⟨.object fun e he => .assignment (h e he).1 (h e he).2 e.2, ?_⟩
  have hentries := entriesOf_object h
  rw [sequence_eq_map fun e he => (h e (hentries ▸ he)).2, hentries]

end Mutation

/-- Plain data in normal form: free names, each of them once. -/
structure IsPlain (m : Dictionary Json) : Prop where
  free : ∀ e ∈ m, Mutation.IsFree e.1
  once : m.keys.Nodup

namespace NormalUpdate

open Mutation (sequence)

/-- **Plain data in normal form is its own normal form.** -/
theorem ofJson_of_isPlain {m : Dictionary Json} (h : IsPlain m) (mode : UpdateMode) :
    ofJson mode (.object m) = .ok (ofFields mode (m.map fun e => (e.1, .assign e.2))) := by
  have hkeys : (Dictionary.keys (m.map fun e => (e.1, Mutation.assign e.2))).Nodup := by
    rw [Dictionary.keys_map fun _ => Mutation.assign]
    exact h.once
  rw [ofJson, fieldMutations, Mutation.mutationsOf_object h.free, Except.map, Except.map,
    Dictionary.ofEntries_eq_self hkeys]

theorem fields_of_plain? {fields : Dictionary Mutation} {m : Dictionary Json}
    (h : Assignments.plain? (ofFields .value fields).assigned = some m) :
    fields = m.map fun e => (e.1, .assign e.2) := by
  have hmap : (fields.map fun f => (f.1, f.2.operand f.1)) = m.map fun e => (e.1, .literal e.2) :=
    Assignments.plain?_eq_some_iff.mp h
  clear h
  induction fields generalizing m with
  | nil => rw [List.map_eq_nil_iff.mp hmap.symm]; rfl
  | cons f fields ih =>
    cases m with
    | nil => exact absurd hmap (by simp)
    | cons e m =>
      obtain ⟨hentry, hrest⟩ := List.cons.inj hmap
      obtain ⟨hname, hoperand⟩ := Prod.mk.inj hentry
      rw [List.map_cons, ← ih hrest, ← hname, ← Mutation.operand_eq_literal_iff.mp hoperand]

/-- **A normal form without expressions is plain data.** -/
theorem isPlain_of_lastOfEach {v : Json} {m : Dictionary Json}
    (h : Dictionary.lastOfEach (sequence v) = m.map fun e => (e.1, .assign e.2)) : IsPlain m := by
  rw [← Dictionary.ofEntries_eq_lastOfEach] at h
  have hkeys := Dictionary.nodup_keys_ofEntries (sequence v)
  refine ⟨fun e he => ?_, ?_⟩
  · -- What a field is left with was said somewhere, and it is a plain assignment.
    have hmem : (e.1, .assign e.2) ∈ Dictionary.ofEntries (sequence v) := by
      rw [h]
      exact List.mem_map_of_mem he
    rw [Dictionary.mem_iff_get?_eq_some hkeys, Dictionary.get?_ofEntries] at hmem
    exact Mutation.isFree_of_assign (Dictionary.mem_of_last?_eq_some hmem)
  · rw [h, Dictionary.keys_map fun _ => Mutation.assign] at hkeys
    exact hkeys

/-- **A normal form without expressions is its own normal form.** -/
theorem ofJson_again {v : Json} {u : NormalUpdate} {m : Dictionary Json}
    (h : ofJson .value v = .ok u) (hplain : Assignments.plain? u.assigned = some m) :
    ∃ again, ofJson .value (.object m) = .ok again ∧ again = u ∧
      Assignments.plain? again.assigned = some m := by
  obtain ⟨-, rfl⟩ := ofJson_eq_ok_iff.mp h
  have hfields := fields_of_plain? hplain
  refine ⟨_, ?_, rfl, hplain⟩
  rw [ofJson_of_isPlain (isPlain_of_lastOfEach hfields), ← hfields]

/-- Spliced updates, operators that are overridden and a key that only looks like one. -/
theorem ofJson_again_overridden :
    let v : Json := .object
      [("$inc", .object [("n", .int 1)]), ("$rename", .object [("a", .string "b")]),
        ("$and", .array [.object [("n", .null), ("and", .array [.object
          [("$push", .object [("a", .int 1)])]])], .object [("a", .string "$x")]])]
    let m : Dictionary Json :=
      [("n", .null), ("$rename", .object [("a", .string "b")]), ("a", .string "$x")]
    ∃ u, ofJson .value v = .ok u ∧ Assignments.plain? u.assigned = some m ∧
      ∃ again, ofJson .value (.object m) = .ok again ∧ again = u ∧
        Assignments.plain? again.assigned = some m := by
  intro v m
  obtain ⟨u, hu, hplain⟩ : ∃ u, ofJson .value v = .ok u ∧ Assignments.plain? u.assigned = some m :=
    ⟨_, rfl, rfl⟩
  exact ⟨u, hu, hplain, ofJson_again hu hplain⟩

end NormalUpdate

end Docstore
