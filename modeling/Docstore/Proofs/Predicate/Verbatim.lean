import Mathlib.Data.List.Forall2
import Docstore.Proofs.Predicate.Grammar
import Docstore.Proofs.Predicate.Wording

/-!
# What is copied verbatim

A predicate copies text into a query in two places, and only there: the key of a
field that is an expression, and a marked string in the place of an operand.  This
file lists what a value has in these places (`Json.spelledComparisons`), without
reading it, and says that the comparisons of the tree stand for them one by one, in
order (`forall₂_comparisons_ofJson`).  So a string that is marked but stands
elsewhere, as inside an array that is itself an operand, is data.

Building the tree leaves out what is always true and unwraps single members.
Neither touches a comparison (`comparisons_conjunction`).
-/

namespace Docstore

/-! ### The places in a value -/

namespace Json

/-- The operators whose operands are the items of an array. -/
def arrayOperators : List String := ["$in", "$nin", "$allin", "$anyin", "$between"]

/-- The values in the place of operands under an operator. -/
def operandsUnder (operator : String) (v : Json) : List Json :=
  if operator ∈ arrayOperators then v.array?.getD [] else [v]

/-- The values in the place of operands in what a value says of a field, for one
comparison after the other: each operator makes one, and so does an equality. -/
def operandGroups (v : Json) : List (List Json) :=
  match v with
  | .object members =>
      if ∃ m ∈ members, HasMark m.1 then members.map fun m => operandsUnder m.1 m.2 else [[v]]
  | _ => [[v]]

mutual

/-- The entries that say something of a field, in order, also inside combinators. -/
def fieldEntries : Json → List (String × Json)
  | .object members => fieldEntriesOf members
  | _ => []

def fieldEntriesOf : List (String × Json) → List (String × Json)
  | [] => []
  | (key, v) :: rest => fieldEntriesAt key v ++ fieldEntriesOf rest

/-- Those in one entry: itself, or those in the items of a combinator. -/
def fieldEntriesAt (key : String) : Json → List (String × Json)
  | .array items =>
      if key ∈ Predicate.combinatorKeys then fieldEntriesIn items else [(key, .array items)]
  | v => if key ∈ Predicate.combinatorKeys then [] else [(key, v)]

def fieldEntriesIn : List Json → List (String × Json)
  | [] => []
  | v :: vs => fieldEntries v ++ fieldEntriesIn vs

end

/-- The comparisons of an entry, each with its key and its operands. -/
def spelledAt (e : String × Json) : List (String × List Json) :=
  e.2.operandGroups.map fun values => (e.1, values)

/-- The comparisons that a value spells out, in order. -/
def spelledComparisons (v : Json) : List (String × List Json) := v.fieldEntries.flatMap spelledAt

theorem operandGroups_ne_nil (v : Json) : v.operandGroups ≠ [] := by
  rw [operandGroups.eq_def]
  split
  · split
    · next members h =>
      obtain ⟨m, hm, -⟩ := h
      exact fun hnil => List.ne_nil_of_mem hm (List.map_eq_nil_iff.mp hnil)
    · simp
  · simp

end Json

/-! ### The places in a tree -/

namespace Predicate

mutual

def comparisons : Predicate → List (Field × Comparison)
  | .always => []
  | .all members => comparisonsOf members
  | .any members => comparisonsOf members
  | .compare field comparison => [(field, comparison)]

def comparisonsOf : List Predicate → List (Field × Comparison)
  | [] => []
  | p :: ps => comparisons p ++ comparisonsOf ps

end

theorem comparisonsOf_eq_flatMap (ps : List Predicate) :
    comparisonsOf ps = ps.flatMap comparisons := by
  induction ps with
  | nil => rfl
  | cons p ps ih => rw [comparisonsOf, ih, List.flatMap_cons]

theorem comparisonsOf_append (ps qs : List Predicate) :
    comparisonsOf (ps ++ qs) = comparisonsOf ps ++ comparisonsOf qs := by
  rw [comparisonsOf_eq_flatMap, List.flatMap_append, ← comparisonsOf_eq_flatMap,
    ← comparisonsOf_eq_flatMap]

theorem comparisonsOf_compare (field : Field) (cs : List Comparison) :
    comparisonsOf (cs.map (.compare field)) = cs.map fun c => (field, c) := by
  induction cs with
  | nil => rfl
  | cons c cs ih =>
    rw [List.map_cons, comparisonsOf, comparisons, ih, List.map_cons, List.singleton_append]

/-- **Building a conjunction touches no comparison.** -/
theorem comparisons_conjunction (ps : List Predicate) :
    (conjunction ps).comparisons = comparisonsOf ps := by
  rw [comparisonsOf_eq_flatMap]
  exact gather_conjunction rfl comparisonsOf_eq_flatMap ps

/-! ### From the value to the tree -/

/-- The left side of a comparison and the operands on its right. -/
def sides (c : Field × Comparison) : Field × List Operand := (c.1, c.2.operands)

/-- What a key and the values beside it stand for. -/
def readSides (s : String × List Json) : Field × List Operand := (.ofKey s.1, s.2.map .ofJson)

theorem operands_readOperator {operator : String} {v : Json} {c : Comparison}
    (h : readOperator operator v = .ok c) :
    c.operands = (v.operandsUnder operator).map .ofJson := by
  -- the tables say which operators take an array
  have hone : ∀ o ∈ singleOperators.map Prod.fst ++ patternOperators.map Prod.fst,
      o ∉ Json.arrayOperators := by decide
  have hlist : ∀ o ∈ listOperators.map Prod.fst, o ∈ Json.arrayOperators := by decide
  rw [Json.operandsUnder]
  rcases readOperator_eq_ok h with ⟨relation, hmem, rfl⟩ | ⟨relation, text, hmem, rfl, rfl⟩ |
    ⟨relation, items, hmem, rfl, -, rfl⟩ | ⟨low, high, rfl, rfl, rfl⟩
  · rw [if_neg (hone operator (List.mem_append_left _ (List.mem_map_of_mem hmem)))]
    rfl
  · rw [if_neg (hone operator (List.mem_append_right _ (List.mem_map_of_mem hmem)))]
    rfl
  · rw [if_pos (hlist operator (List.mem_map_of_mem hmem))]
    rfl
  · rfl

theorem operands_readComparisons {v : Json} {cs : List Comparison}
    (h : readComparisons v = .ok cs) :
    cs.map Comparison.operands = v.operandGroups.map (List.map .ofJson) := by
  rcases readComparisons_eq_ok h with ⟨members, rfl, hops, hread⟩ | ⟨hplain, rfl⟩
  · have hgroups : Json.operandGroups (.object members) =
        members.map fun m => m.2.operandsUnder m.1 := if_pos (areOperators_iff.mp hops)
    rw [hgroups, List.map_map]
    exact map_eq_map_of_mapM_eq_ok (fun m c hc => operands_readOperator hc) hread
  · have hgroups : v.operandGroups = [[v]] := by
      rw [Json.operandGroups.eq_def]
      split
      · next members =>
        refine if_neg ?_
        rintro ⟨m, hm, hmark⟩
        exact areOperators_eq_false_iff.mp (hplain members rfl) m hm hmark
      · rfl
    rw [hgroups]
    rfl

theorem sides_compare {key : String} {v : Json} {cs : List Comparison}
    (h : readComparisons v = .ok cs) :
    (comparisonsOf (cs.map (.compare (.ofKey key)))).map sides =
      (Json.spelledAt (key, v)).map readSides := by
  have hcs : (cs.map fun c => (Field.ofKey key, c)).map sides =
      (cs.map Comparison.operands).map fun operands => (Field.ofKey key, operands) := by
    rw [List.map_map, List.map_map]
    rfl
  rw [comparisonsOf_compare, hcs, operands_readComparisons h, Json.spelledAt, List.map_map,
    List.map_map]
  rfl

theorem fieldEntriesAt_field {key : String} (hkey : key ∉ combinatorKeys) (v : Json) :
    v.fieldEntriesAt key = [(key, v)] := by
  cases v with
  | array items => rw [Json.fieldEntriesAt, if_neg hkey]
  | _ => exact if_neg hkey

theorem fieldEntriesAt_combinator {key : String} (hkey : key ∈ combinatorKeys)
    (items : List Json) :
    (Json.array items).fieldEntriesAt key = Json.fieldEntriesIn items := by
  rw [Json.fieldEntriesAt, if_pos hkey]

mutual

theorem Reads.sides_eq : ∀ {v : Json} {p : Predicate}, Reads v p →
    p.comparisons.map sides = v.spelledComparisons.map readSides
  | _, _, .object hmembers => by
    rw [comparisons_conjunction, hmembers.sides_eq]
    rfl

theorem ReadsMembers.sides_eq : ∀ {members : List (String × Json)} {parts : List Predicate},
    ReadsMembers members parts →
      (comparisonsOf parts).map sides =
        ((Json.fieldEntriesOf members).flatMap Json.spelledAt).map readSides
  | _, _, .nil => rfl
  | _, _, @ReadsMembers.all key _ _ _ _ hkey hitems hrest => by
    have hmem : key ∈ combinatorKeys :=
      mem_combinatorKeys_iff.mpr (Or.inl (isConjunctionKey_iff.mp hkey))
    rw [comparisonsOf, comparisons_conjunction, Json.fieldEntriesOf,
      fieldEntriesAt_combinator hmem, List.flatMap_append, List.map_append, List.map_append,
      hitems.sides_eq, hrest.sides_eq]
  | _, _, @ReadsMembers.any key _ _ _ _ hkey hitems _ hrest => by
    have hmem : key ∈ combinatorKeys :=
      mem_combinatorKeys_iff.mpr (Or.inr (isDisjunctionKey_iff.mp hkey))
    rw [comparisonsOf, comparisons, Json.fieldEntriesOf, fieldEntriesAt_combinator hmem,
      List.flatMap_append, List.map_append, List.map_append, hitems.sides_eq, hrest.sides_eq]
  | _, _, .field hall hany hv hrest => by
    rw [comparisonsOf_append, List.map_append, sides_compare hv, hrest.sides_eq,
      Json.fieldEntriesOf, fieldEntriesAt_field (not_mem_combinatorKeys hall hany),
      List.flatMap_append, List.map_append, List.flatMap_singleton]

theorem ReadsItems.sides_eq : ∀ {vs : List Json} {ps : List Predicate}, ReadsItems vs ps →
    (comparisonsOf ps).map sides = ((Json.fieldEntriesIn vs).flatMap Json.spelledAt).map readSides
  | _, _, .nil => rfl
  | _, _, .cons hv hvs => by
    rw [comparisonsOf, Json.fieldEntriesIn, List.flatMap_append, List.map_append, List.map_append,
      hv.sides_eq, hvs.sides_eq]
    rfl

end

/-- A comparison stands for what is spelled: its field for the key, and its operands
one by one for the values. -/
def StandsFor (c : Field × Comparison) (s : String × List Json) : Prop :=
  c.1.IsNamedBy s.1 ∧ List.Forall₂ Operand.IsWrittenAs c.2.operands s.2

theorem standsFor_of_sides_eq {c : Field × Comparison} {s : String × List Json}
    (h : sides c = readSides s) : StandsFor c s := by
  obtain ⟨hfield, hoperands⟩ := Prod.mk.inj h
  refine ⟨Field.isNamedBy_iff.mpr hfield, ?_⟩
  rw [hoperands, List.forall₂_map_left_iff, List.forall₂_same]
  exact fun v _ => Operand.isWrittenAs_iff.mpr rfl

/-- Nothing is copied of a comparison whose key and values are not raw. -/
theorem plain_of_sides_eq {c : Field × Comparison} {s : String × List Json}
    (h : sides c = readSides s) (hmark : ¬HasMark s.1) (hcall : ¬WrapsVariable "record" s.1)
    (hvalues : ∀ w ∈ s.2, ∀ text, w ≠ .string ("$" ++ text)) :
    (∃ path, c.1 = .attribute path) ∧ c.2.IsLiteral := by
  obtain ⟨hfield, hoperands⟩ := Prod.mk.inj h
  refine ⟨⟨s.1, hfield.trans (Field.ofKey_name hmark hcall)⟩, fun o ho => ?_⟩
  rw [hoperands] at ho
  obtain ⟨w, hw, rfl⟩ := List.mem_map.mp ho
  exact ⟨w, Operand.ofJson_of_not_marked (hvalues w hw)⟩

/-- **The boundary of raw text.**  The comparisons of a tree that is read stand one by
one, in order, for those that the value spells out: the field is an expression
exactly for a marked key (its text behind the mark) or a key that wraps the record in
a call (itself), and an operand is raw exactly for a marked string in its place.
Every entry that says something of a field has a comparison.  So a tree read from a
value without such keys and strings compares attributes with data. -/
theorem forall₂_comparisons_ofJson {v : Json} {p : Predicate} (h : ofJson v = .ok p) :
    List.Forall₂ StandsFor p.comparisons v.spelledComparisons ∧
      (∀ e ∈ v.fieldEntries, Json.spelledAt e ≠ []) ∧
      ((∀ s ∈ v.spelledComparisons, ¬HasMark s.1 ∧ ¬WrapsVariable "record" s.1 ∧
          ∀ w ∈ s.2, ∀ text, w ≠ .string ("$" ++ text)) →
        ∀ c ∈ p.comparisons, (∃ path, c.1 = .attribute path) ∧ c.2.IsLiteral) := by
  have hsides := (ofJson_eq_ok_iff.mp h).sides_eq
  refine ⟨?_, fun e _ hnil => ?_, fun hplain c hc => ?_⟩
  · have heq : List.Forall₂ (· = ·) (p.comparisons.map sides)
        (v.spelledComparisons.map readSides) := by
      rw [List.forall₂_eq_eq_eq]
      exact hsides
    rw [List.forall₂_map_left_iff, List.forall₂_map_right_iff] at heq
    exact heq.imp fun c s => standsFor_of_sides_eq
  · exact e.2.operandGroups_ne_nil (List.map_eq_nil_iff.mp hnil)
  · have hmem : sides c ∈ v.spelledComparisons.map readSides :=
      hsides ▸ List.mem_map_of_mem hc
    obtain ⟨s, hs, hcs⟩ := List.mem_map.mp hmem
    obtain ⟨hmark, hcall, hvalues⟩ := hplain s hs
    exact plain_of_sides_eq hcs.symm hmark hcall hvalues

/-- A call around the record and a marked key become expressions, and marked operands
raw text; a marked string inside an operand stays data, and so does a key with a longer
word in its parentheses. -/
theorem forall₂_comparisons_ofJson_mixed :
    let mixed : Json := .object [
      ("$and", .array [.object [("LENGTH( record.tags)", .object [
        ("$gt", .string "$limit"), ("$in", .array [.string "$a", .array [.string "$b"]])])]]),
      ("$x.y", .string "z")]
    let plain : Json := .object [("f(recorded)", .array [.string "$a"])]
    (∃ p, ofJson mixed = .ok p ∧
      p.comparisons = [
        (.expression "LENGTH( record.tags)", .single .greater (.raw "limit")),
        (.expression "LENGTH( record.tags)",
          .list .isIn [.raw "a", .literal (.array [.string "$b"])]),
        (.expression "x.y", .single .equal (.literal (.string "z")))] ∧
      List.Forall₂ StandsFor p.comparisons mixed.spelledComparisons) ∧
    ∃ q, ofJson plain = .ok q ∧ q.comparisons.length = 1 ∧
      ∀ c ∈ q.comparisons, (∃ path, c.1 = .attribute path) ∧ c.2.IsLiteral := by
  intro mixed plain
  have hplain : plain.spelledComparisons = [("f(recorded)", [.array [.string "$a"]])] := rfl
  refine ⟨⟨_, rfl, rfl, (forall₂_comparisons_ofJson rfl).1⟩, _, rfl, rfl,
    (forall₂_comparisons_ofJson (v := plain) rfl).2.2 fun s hs => ?_⟩
  rw [hplain] at hs
  obtain rfl := List.mem_singleton.mp hs
  refine ⟨by decide, by decide, fun w hw text => ?_⟩
  rw [List.mem_singleton.mp hw]
  exact Json.noConfusion

end Predicate

end Docstore
