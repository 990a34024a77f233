import Docstore.Proofs.Predicate.Reading
import Docstore.Update.Normal

/-!
# Reading an update

An update is an object of three kinds of entries (`IsEntry`): a splice of other
updates, an operator with an operand for each of its fields, and an assignment.  What
it says is found in two steps.  First every splice gives way to the entries of its
members, in their order, which leaves a list of operators and assignments
(`entriesOf`).  Then each of these says what becomes of its fields (`changes`).

The reader succeeds exactly on updates, and what it reads is this sequence of mutations
(`mutationsOf_eq_ok_iff`).  Of any other value it says that the update is wrong
(`failsOnly_mutationsOf`).  Both go by recursion on the value, an update, its entries
and the members of a splice in turn, as the reader does.
-/

namespace Docstore

def Failure.BlamesUpdate (f : Failure) : Prop := ∃ reason, f = .invalidUpdate reason

open Failure (BlamesUpdate)

namespace Mutation

/-! ### Updates -/

def spliceKeys : List String := ["$and", "and"]

def operatorKeys : List String :=
  ["$inc", "$push", "$pushset", "$unshift", "$unshiftset", "$pop", "$shift", "$pull"]

inductive IsOperand : String → Json → Prop where
  | amount (n : Number) : IsOperand "$inc" (.number n)
  | values (vs : List Json) : IsOperand "$pull" (.array vs)
  | any {key : String}
      (h : key ∈ ["$push", "$pushset", "$unshift", "$unshiftset", "$pop", "$shift"]) (v : Json) :
      IsOperand key v

mutual

/-- The value is an update: an object whose entries are all in order. -/
inductive IsUpdate : Json → Prop where
  | object {members : List (String × Json)} (h : ∀ m ∈ members, IsEntry m.1 m.2) :
      IsUpdate (.object members)

inductive IsEntry : String → Json → Prop where
  | splice {key : String} (hkey : key ∈ spliceKeys) {parts : List Json}
      (h : ∀ part ∈ parts, IsUpdate part) : IsEntry key (.array parts)
  | operator {key : String} (hkey : key ∈ operatorKeys) {fields : List (String × Json)}
      (h : ∀ f ∈ fields, IsOperand key f.2) : IsEntry key (.object fields)
  | assignment {key : String} (hsplice : key ∉ spliceKeys) (hoperator : key ∉ operatorKeys)
      (v : Json) : IsEntry key v

end

/-! ### What an update says -/

mutual

/-- The entries of an update, those of spliced updates in the place of the splice. -/
def entriesOf : Json → List (String × Json)
  | .object members => entriesOfMembers members
  | _ => []

def entriesOfMembers : List (String × Json) → List (String × Json)
  | [] => []
  | (key, v) :: rest => entriesOfMember key v ++ entriesOfMembers rest

/-- The entry under a key, or those of the updates that it splices. -/
def entriesOfMember (key : String) : Json → List (String × Json)
  | .array parts => if key ∈ spliceKeys then entriesOfParts parts else [(key, .array parts)]
  | v => if key ∈ spliceKeys then [] else [(key, v)]

def entriesOfParts : List Json → List (String × Json)
  | [] => []
  | part :: parts => entriesOf part ++ entriesOfParts parts

end

/-- What an operator makes of its operand. -/
def ofKey? : String → Json → Option Mutation
  | "$inc", .number n => some (.increment n)
  | "$push", v => some (.push v false)
  | "$pushset", v => some (.push v true)
  | "$unshift", v => some (.unshift v false)
  | "$unshiftset", v => some (.unshift v true)
  | "$pop", _ => some .pop
  | "$shift", _ => some .shift
  | "$pull", .array vs => some (.pull vs)
  | _, _ => none

/-- What an entry says of its fields, one after the other. -/
def changes (e : String × Json) : List (String × Mutation) :=
  if e.1 ∈ operatorKeys then
    match e.2 with
    | .object fields => fields.filterMap fun f => (ofKey? e.1 f.2).map fun m => (f.1, m)
    | _ => []
  else [(e.1, .assign e.2)]

/-- What an update says, field by field in the order of the text. -/
def sequence (v : Json) : List (String × Mutation) := (entriesOf v).flatMap changes

/-! ### The reader of operators -/

theorem isSpliceKey_iff {key : String} : isSpliceKey key = true ↔ key ∈ spliceKeys := by
  simp [isSpliceKey, spliceKeys]

theorem operatorKeys_eq : operatorKeys = operators.map Prod.fst := rfl

theorem mem_operatorKeys_of_lookup {key : String} {operator : Operator}
    (h : operators.lookup key = some operator) : key ∈ operatorKeys :=
  operatorKeys_eq ▸ List.mem_map_of_mem (Predicate.mem_of_lookup h)

theorem not_mem_operatorKeys_of_mem {key : String} (h : key ∈ spliceKeys) : key ∉ operatorKeys := by
  simp only [spliceKeys, List.mem_cons, List.not_mem_nil, or_false] at h
  rcases h with rfl | rfl <;> decide

theorem not_mem_operatorKeys_of_lookup {key : String} (h : operators.lookup key = none) :
    key ∉ operatorKeys := by
  intro hkey
  rw [operatorKeys_eq] at hkey
  obtain ⟨entry, hentry, rfl⟩ := List.mem_map.mp hkey
  simpa using List.lookup_eq_none_iff.mp h entry hentry

theorem isOperand_iff {key : String} {v : Json} : IsOperand key v ↔ ∃ m, ofKey? key v = some m := by
  constructor
  · intro h
    cases h with
    | amount n => exact ⟨_, rfl⟩
    | values vs => exact ⟨_, rfl⟩
    | any h v =>
      simp only [List.mem_cons, List.not_mem_nil, or_false] at h
      rcases h with rfl | rfl | rfl | rfl | rfl | rfl <;> exact ⟨_, rfl⟩
  · rintro ⟨m, h⟩
    rw [ofKey?.eq_def] at h
    split at h
    · exact .amount _
    · exact .any (by decide) _
    · exact .any (by decide) _
    · exact .any (by decide) _
    · exact .any (by decide) _
    · exact .any (by decide) _
    · exact .any (by decide) _
    · exact .values _
    · exact absurd h (by simp)

theorem ofOperator_eq_ok_iff {key : String} {operator : Operator}
    (h : operators.lookup key = some operator) {field : String} {v : Json} {m : Mutation} :
    ofOperator operator field v = .ok m ↔ ofKey? key v = some m := by
  have hmem := Predicate.mem_of_lookup h
  simp only [operators, List.mem_cons, List.not_mem_nil, or_false, Prod.mk.injEq] at hmem
  rcases hmem with ⟨rfl, rfl⟩ | ⟨rfl, rfl⟩ | ⟨rfl, rfl⟩ | ⟨rfl, rfl⟩ | ⟨rfl, rfl⟩ | ⟨rfl, rfl⟩ |
    ⟨rfl, rfl⟩ | ⟨rfl, rfl⟩ <;> cases v <;> simp [ofOperator, ofKey?]

theorem isEntry_operator_iff {key : String} (hkey : key ∈ operatorKeys) {v : Json} :
    IsEntry key v ↔ ∃ fields, v = .object fields ∧ ∀ f ∈ fields, IsOperand key f.2 := by
  constructor
  · intro h
    cases h with
    | splice hsplice _ => exact absurd hkey (not_mem_operatorKeys_of_mem hsplice)
    | operator _ h => exact ⟨_, rfl, h⟩
    | assignment _ hoperator _ => exact absurd hkey hoperator
  · rintro ⟨fields, rfl, h⟩
    exact .operator hkey h

/-- **An entry that splices nothing is read exactly when it is in order**, as what it says. -/
theorem ofEntry_eq_ok_iff {key : String} (hkey : key ∉ spliceKeys) {v : Json}
    {ms : List (String × Mutation)} :
    ofEntry key v = .ok ms ↔ IsEntry key v ∧ ms = changes (key, v) := by
  rw [ofEntry]
  split
  · next operator hlookup =>
    have hmem := mem_operatorKeys_of_lookup hlookup
    rw [changes, if_pos hmem, isEntry_operator_iff hmem]
    cases v with
    | object fields =>
      have hfield : ∀ f ∈ fields, ∀ c : String × Mutation,
          (ofOperator operator f.1 f.2).map (fun m => (f.1, m)) = .ok c ↔
            (ofKey? key f.2).map (fun m => (f.1, m)) = some c := by
        intro f _ c
        rw [map_eq_ok_iff, Option.map_eq_some_iff]
        exact exists_congr fun m => and_congr_left' (ofOperator_eq_ok_iff hlookup)
      have heach : (∀ f ∈ fields, ∃ c, (ofKey? key f.2).map (fun m => (f.1, m)) = some c) ↔
          ∀ f ∈ fields, IsOperand key f.2 := by
        refine forall₂_congr fun f _ => ?_
        rw [isOperand_iff]
        simp
      rw [ofOperand, mapM_eq_ok_iff_filterMap hfield, heach]
      simp
    | _ => simp [ofOperand]
  · next hlookup =>
    have hnone := not_mem_operatorKeys_of_lookup hlookup
    rw [changes, if_neg hnone, and_iff_right (.assignment hkey hnone v), Except.ok.injEq, eq_comm]

/-! ### The reader of updates -/

theorem isUpdate_iff {v : Json} :
    IsUpdate v ↔ ∃ members, v = .object members ∧ ∀ m ∈ members, IsEntry m.1 m.2 := by
  constructor
  · rintro ⟨h⟩
    exact ⟨_, rfl, h⟩
  · rintro ⟨members, rfl, h⟩
    exact .object h

theorem isEntry_splice_iff {key : String} (hkey : key ∈ spliceKeys) {v : Json} :
    IsEntry key v ↔ ∃ parts, v = .array parts ∧ ∀ part ∈ parts, IsUpdate part := by
  constructor
  · intro h
    cases h with
    | splice _ h => exact ⟨_, rfl, h⟩
    | operator hoperator _ => exact absurd hoperator (not_mem_operatorKeys_of_mem hkey)
    | assignment hsplice _ _ => exact absurd hkey hsplice
  · rintro ⟨parts, rfl, h⟩
    exact .splice hkey h

theorem exists_both_append_iff {P Q : Prop} {xs ys zs : List (String × Mutation)} :
    (∃ as bs, (P ∧ as = xs) ∧ (Q ∧ bs = ys) ∧ zs = as ++ bs) ↔ (P ∧ Q) ∧ zs = xs ++ ys := by
  constructor
  · rintro ⟨_, _, ⟨hp, rfl⟩, ⟨hq, rfl⟩, hzs⟩
    exact ⟨⟨hp, hq⟩, hzs⟩
  · rintro ⟨⟨hp, hq⟩, hzs⟩
    exact ⟨xs, ys, ⟨hp, rfl⟩, ⟨hq, rfl⟩, hzs⟩

mutual

theorem ofMembers_eq_ok_iff : ∀ (members : List (String × Json)) (ms : List (String × Mutation)),
    ofMembers members = .ok ms ↔
      (∀ m ∈ members, IsEntry m.1 m.2) ∧ ms = (entriesOfMembers members).flatMap changes
  | [], ms => by simp [ofMembers, entriesOfMembers, eq_comm]
  | (key, v) :: rest, ms => by
    rw [ofMembers, both_eq_ok_iff, entriesOfMembers, List.flatMap_append, List.forall_mem_cons]
    simp only [ofMember_eq_ok_iff key v, ofMembers_eq_ok_iff rest]
    exact exists_both_append_iff

theorem ofMember_eq_ok_iff (key : String) : ∀ (v : Json) (ms : List (String × Mutation)),
    ofMember key v = .ok ms ↔ IsEntry key v ∧ ms = (entriesOfMember key v).flatMap changes
  | .array parts, ms => by
    rw [ofMember, entriesOfMember]
    by_cases hkey : key ∈ spliceKeys
    · rw [if_pos (isSpliceKey_iff.mpr hkey), if_pos hkey, ofParts_eq_ok_iff key parts,
        isEntry_splice_iff hkey]
      simp
    · rw [if_neg (mt isSpliceKey_iff.mp hkey), if_neg hkey, ofEntry_eq_ok_iff hkey,
        List.flatMap_singleton]
  | .null, ms | .bool _, ms | .number _, ms | .string _, ms | .object _, ms => by
    rw [ofMember, entriesOfMember]
    · by_cases hkey : key ∈ spliceKeys
      · rw [if_pos (isSpliceKey_iff.mpr hkey), isEntry_splice_iff hkey]
        simp
      · rw [if_neg (mt isSpliceKey_iff.mp hkey), if_neg hkey, ofEntry_eq_ok_iff hkey,
          List.flatMap_singleton]
    · simp
    · simp

theorem ofParts_eq_ok_iff (key : String) : ∀ (parts : List Json) (ms : List (String × Mutation)),
    ofParts key parts = .ok ms ↔
      (∀ part ∈ parts, IsUpdate part) ∧ ms = (entriesOfParts parts).flatMap changes
  | [], ms => by simp [ofParts, entriesOfParts, eq_comm]
  | part :: parts, ms => by
    rw [ofParts, both_eq_ok_iff, entriesOfParts, List.flatMap_append, List.forall_mem_cons]
    simp only [ofPart_eq_ok_iff key part, ofParts_eq_ok_iff key parts]
    exact exists_both_append_iff

theorem ofPart_eq_ok_iff (key : String) : ∀ (v : Json) (ms : List (String × Mutation)),
    ofPart key v = .ok ms ↔ IsUpdate v ∧ ms = sequence v
  | .object members, ms => by
    rw [ofPart, ofMembers_eq_ok_iff members, isUpdate_iff, sequence, entriesOf]
    simp
  | .null, ms | .bool _, ms | .number _, ms | .string _, ms | .array _, ms => by
    rw [ofPart, isUpdate_iff]
    · simp
    · simp

end

end Mutation

/-- **The reader takes exactly updates**, as what they say. -/
theorem mutationsOf_eq_ok_iff {v : Json} {ms : List (String × Mutation)} :
    mutationsOf v = .ok ms ↔ Mutation.IsUpdate v ∧ ms = Mutation.sequence v := by
  cases v with
  | object members =>
    rw [mutationsOf, Mutation.ofMembers_eq_ok_iff, Mutation.isUpdate_iff, Mutation.sequence,
      Mutation.entriesOf]
    simp
  | _ => simp [mutationsOf, Mutation.isUpdate_iff]

/-! ### Refusals -/

namespace Mutation

theorem failsOnly_ofOperator (operator : Operator) (field : String) (v : Json) :
    FailsOnly BlamesUpdate (ofOperator operator field v) := by
  cases operator with
  | increment =>
    cases v with
    | number n => exact .ok _
    | _ => exact .error ⟨_, rfl⟩
  | pull =>
    cases v with
    | array values => exact .ok _
    | _ => exact .error ⟨_, rfl⟩
  | push unique => exact .ok _
  | unshift unique => exact .ok _
  | pop => exact .ok _
  | shift => exact .ok _

theorem failsOnly_ofEntry (key : String) (v : Json) : FailsOnly BlamesUpdate (ofEntry key v) := by
  rw [ofEntry]
  split
  · rw [ofOperand.eq_def]
    split
    · exact .mapM fun f _ => (failsOnly_ofOperator _ f.1 f.2).map _
    · exact .error ⟨_, rfl⟩
  · exact .ok _

mutual

theorem failsOnly_ofMembers : ∀ members : List (String × Json),
    FailsOnly BlamesUpdate (ofMembers members)
  | [] => .ok []
  | (key, v) :: rest => by
    rw [ofMembers]
    exact (failsOnly_ofMember key v).bind fun _ => (failsOnly_ofMembers rest).bind fun _ => .ok _

theorem failsOnly_ofMember (key : String) : ∀ v : Json, FailsOnly BlamesUpdate (ofMember key v)
  | .array parts => by
    rw [ofMember]
    split
    · exact failsOnly_ofParts key parts
    · exact failsOnly_ofEntry key _
  | .null | .bool _ | .number _ | .string _ | .object _ => by
    rw [ofMember]
    · split
      · exact .error ⟨_, rfl⟩
      · exact failsOnly_ofEntry key _
    · simp

theorem failsOnly_ofParts (key : String) : ∀ parts : List Json,
    FailsOnly BlamesUpdate (ofParts key parts)
  | [] => .ok []
  | part :: parts => by
    rw [ofParts]
    exact (failsOnly_ofPart key part).bind fun _ => (failsOnly_ofParts key parts).bind fun _ => .ok _

theorem failsOnly_ofPart (key : String) : ∀ v : Json, FailsOnly BlamesUpdate (ofPart key v)
  | .object members => by
    rw [ofPart]
    exact failsOnly_ofMembers members
  | .null | .bool _ | .number _ | .string _ | .array _ => by
    rw [ofPart]
    · exact .error ⟨_, rfl⟩
    · simp

end

end Mutation

theorem failsOnly_mutationsOf (v : Json) : FailsOnly BlamesUpdate (mutationsOf v) := by
  rw [mutationsOf.eq_def]
  split
  · exact Mutation.failsOnly_ofMembers _
  · exact .error ⟨_, rfl⟩

theorem failsOnly_fieldMutations (v : Json) : FailsOnly BlamesUpdate (fieldMutations v) :=
  (failsOnly_mutationsOf v).map _

end Docstore
