import Docstore.Proofs.Predicate.Normal

/-!
# What a predicate says

A valuation gives every comparison of a field a truth value.  It makes a
predicate tree true or false (`Predicate.holds`), and it also makes the JSON
value true or false from which the tree is read, taken word for word
(`Json.holds`): an object says that all its entries hold, an entry is a
combinator over the items of an array or a field with one or more comparisons.
The second definition knows neither the reader nor its shortcuts; where the two
agree, dropping what is always true and unwrapping single members was sound.
-/

namespace Docstore

/-- A truth value for each comparison of a field. -/
abbrev Valuation := Field → Comparison → Bool

/-! ### Trees -/

namespace Predicate

mutual

def holds (val : Valuation) : Predicate → Bool
  | .always => true
  | .all members => allHold val members
  | .any members => someHolds val members
  | .compare field comparison => val field comparison

def allHold (val : Valuation) : List Predicate → Bool
  | [] => true
  | p :: ps => holds val p && allHold val ps

def someHolds (val : Valuation) : List Predicate → Bool
  | [] => false
  | p :: ps => holds val p || someHolds val ps

end

theorem allHold_append (val : Valuation) (ps qs : List Predicate) :
    allHold val (ps ++ qs) = (allHold val ps && allHold val qs) := by
  induction ps with
  | nil => rfl
  | cons p ps ih => rw [List.cons_append, allHold, allHold, ih, Bool.and_assoc]

theorem allHold_filter (val : Valuation) (ps : List Predicate) :
    allHold val (ps.filter fun p => !p.isAlways) = allHold val ps := by
  induction ps with
  | nil => rfl
  | cons p ps ih =>
    cases h : p.isAlways with
    | true =>
      obtain rfl := isAlways_iff.mp h
      rw [List.filter_cons_of_neg (by simp [h]), ih, allHold, holds, Bool.true_and]
    | false => rw [List.filter_cons_of_pos (by simp [h]), allHold, ih, allHold]

/-- **The conjunction that readers build means all of its members.** -/
theorem holds_conjunction (val : Valuation) (ps : List Predicate) :
    (conjunction ps).holds val = allHold val ps := by
  rw [← allHold_filter, conjunction]
  split
  · next h => rw [h]; rfl
  · next p h => rw [h, allHold, allHold, Bool.and_true]
  · rfl

theorem allHold_compare (val : Valuation) (field : Field) (comparisons : List Comparison) :
    allHold val (comparisons.map (.compare field)) = comparisons.all (val field) := by
  induction comparisons with
  | nil => rfl
  | cons c cs ih => rw [List.map_cons, allHold, holds, ih, List.all_cons]

end Predicate

/-! ### Values taken word for word -/

/-- What an operator says, given its operand. -/
def comparison? (operator : String) (v : Json) : Option Comparison :=
  match operator, v with
  | "$gt", v => some (.single .greater (.ofJson v))
  | "$gte", v => some (.single .greaterOrEqual (.ofJson v))
  | "$lt", v => some (.single .less (.ofJson v))
  | "$lte", v => some (.single .lessOrEqual (.ofJson v))
  | "$ne", v => some (.single .notEqual (.ofJson v))
  | "$like", v => some (.single .like (.ofJson v))
  | "$notlike", v => some (.single .notLike (.ofJson v))
  | "$has", v => some (.single .has (.ofJson v))
  | "$nothas", v => some (.single .notHas (.ofJson v))
  | "$in", .array items => some (.list .isIn (items.map .ofJson))
  | "$nin", .array items => some (.list .notIn (items.map .ofJson))
  | "$allin", .array items => some (.list .allIn (items.map .ofJson))
  | "$anyin", .array items => some (.list .anyIn (items.map .ofJson))
  | "$between", .array [low, high] => some (.between (.ofJson low) (.ofJson high))
  | _, _ => none

def operatorHolds (val : Valuation) (field : Field) (m : String × Json) : Bool :=
  match comparison? m.1 m.2 with
  | some comparison => val field comparison
  | none => false

/-- Whether what a value says of a field is true: all its operators, for an object
with a marked key, and equality otherwise. -/
def fieldHolds (val : Valuation) (field : Field) (v : Json) : Bool :=
  match v with
  | .object members =>
      if members.any (fun m => isMarked m.1) then members.all (operatorHolds val field)
      else val field (.single .equal (.ofJson v))
  | _ => val field (.single .equal (.ofJson v))

namespace Json

mutual

/-- Whether a value is true as a condition: an object whose entries are all true. -/
def holds (val : Valuation) : Json → Bool
  | .object members => entriesHold val members
  | _ => false

def entriesHold (val : Valuation) : List (String × Json) → Bool
  | [] => true
  | (key, v) :: rest => entryHolds val key v && entriesHold val rest

/-- Whether an entry is true: all items of a conjunction, some item of a
disjunction, or what is said of a field. -/
def entryHolds (val : Valuation) (key : String) : Json → Bool
  | .array items =>
      if key = "$and" ∨ key = "and" then allItemsHold val items
      else if key = "$or" ∨ key = "or" then someItemHolds val items
      else fieldHolds val (.ofKey key) (.array items)
  | v => fieldHolds val (.ofKey key) v

def allItemsHold (val : Valuation) : List Json → Bool
  | [] => true
  | v :: vs => holds val v && allItemsHold val vs

def someItemHolds (val : Valuation) : List Json → Bool
  | [] => false
  | v :: vs => holds val v || someItemHolds val vs

end

end Json

namespace Predicate

/-- An operator that is read says what the table of operators says. -/
theorem comparison?_of_readOperator {operator : String} {v : Json} {c : Comparison}
    (h : readOperator operator v = .ok c) : comparison? operator v = some c := by
  rcases readOperator_eq_ok h with ⟨relation, hmem, rfl⟩ | ⟨relation, text, hmem, -, rfl⟩ |
    ⟨relation, items, hmem, rfl, -, rfl⟩ | ⟨low, high, rfl, rfl, rfl⟩
  · simp only [singleOperators, List.mem_cons, Prod.mk.injEq, List.not_mem_nil, or_false] at hmem
    rcases hmem with ⟨rfl, rfl⟩ | ⟨rfl, rfl⟩ | ⟨rfl, rfl⟩ | ⟨rfl, rfl⟩ | ⟨rfl, rfl⟩ | ⟨rfl, rfl⟩ |
      ⟨rfl, rfl⟩ <;> rfl
  · simp only [patternOperators, List.mem_cons, Prod.mk.injEq, List.not_mem_nil, or_false] at hmem
    rcases hmem with ⟨rfl, rfl⟩ | ⟨rfl, rfl⟩ <;> rfl
  · simp only [listOperators, List.mem_cons, Prod.mk.injEq, List.not_mem_nil, or_false] at hmem
    rcases hmem with ⟨rfl, rfl⟩ | ⟨rfl, rfl⟩ | ⟨rfl, rfl⟩ | ⟨rfl, rfl⟩ <;> rfl
  · rfl

/-- The comparisons that are read from a value say together what the value says of
the field. -/
theorem all_readComparisons (val : Valuation) (field : Field) {v : Json}
    {comparisons : List Comparison} (h : readComparisons v = .ok comparisons) :
    comparisons.all (val field) = fieldHolds val field v := by
  rcases readComparisons_eq_ok h with ⟨members, rfl, hops, hread⟩ | ⟨hplain, rfl⟩
  · have heach : ∀ (m : String × Json) (c : Comparison), readOperator m.1 m.2 = .ok c →
        val field c = operatorHolds val field m := by
      intro m c hc
      rw [operatorHolds, comparison?_of_readOperator hc]
    have hholds : fieldHolds val field (.object members) =
        members.all (operatorHolds val field) := if_pos hops
    calc comparisons.all (val field)
        = (comparisons.map (val field)).all id := by rw [List.all_map]; rfl
      _ = (members.map (operatorHolds val field)).all id := by
          rw [map_eq_map_of_mapM_eq_ok heach hread]
      _ = members.all (operatorHolds val field) := by rw [List.all_map]; rfl
      _ = fieldHolds val field (.object members) := hholds.symm
  · rw [List.all_cons, List.all_nil, Bool.and_true, fieldHolds.eq_def]
    split
    · next members =>
      have hops := hplain members rfl
      rw [areOperators] at hops
      rw [hops, if_neg Bool.false_ne_true]
    · rfl

theorem entryHolds_field (val : Valuation) {key : String} (hall : isConjunctionKey key = false)
    (hany : isDisjunctionKey key = false) (v : Json) :
    v.entryHolds val key = fieldHolds val (.ofKey key) v := by
  have hnall : ¬(key = "$and" ∨ key = "and") := fun h => by
    rw [isConjunctionKey_iff.mpr h] at hall
    exact Bool.false_ne_true hall.symm
  have hnany : ¬(key = "$or" ∨ key = "or") := fun h => by
    rw [isDisjunctionKey_iff.mpr h] at hany
    exact Bool.false_ne_true hany.symm
  cases v with
  | array items => rw [Json.entryHolds, if_neg hnall, if_neg hnany]
  | _ => rfl

mutual

theorem Reads.holds_eq (val : Valuation) : ∀ {v : Json} {p : Predicate}, Reads v p →
    p.holds val = v.holds val
  | _, _, .object hmembers => by
    rw [holds_conjunction, hmembers.holds_eq val, Json.holds]

theorem ReadsMembers.holds_eq (val : Valuation) : ∀ {members : List (String × Json)}
    {parts : List Predicate}, ReadsMembers members parts →
      allHold val parts = Json.entriesHold val members
  | _, _, .nil => rfl
  | _, _, .all hkey hitems hrest => by
    rw [allHold, holds_conjunction, hitems.allHold_eq val, hrest.holds_eq val, Json.entriesHold,
      Json.entryHolds, if_pos (isConjunctionKey_iff.mp hkey)]
  | _, _, @ReadsMembers.any key _ _ _ _ hkey hitems _ hrest => by
    have hnall : ¬(key = "$and" ∨ key = "and") := fun h => by
      rw [not_isDisjunctionKey (isConjunctionKey_iff.mpr h)] at hkey
      exact Bool.false_ne_true hkey
    rw [allHold, holds, hitems.someHolds_eq val, hrest.holds_eq val, Json.entriesHold,
      Json.entryHolds, if_neg hnall, if_pos (isDisjunctionKey_iff.mp hkey)]
  | _, _, .field hall hany hv hrest => by
    rw [allHold_append, allHold_compare, all_readComparisons val _ hv, hrest.holds_eq val,
      Json.entriesHold, entryHolds_field val hall hany]

theorem ReadsItems.allHold_eq (val : Valuation) : ∀ {vs : List Json} {ps : List Predicate},
    ReadsItems vs ps → allHold val ps = Json.allItemsHold val vs
  | _, _, .nil => rfl
  | _, _, .cons hv hvs => by
    rw [allHold, hv.holds_eq val, hvs.allHold_eq val, Json.allItemsHold]

theorem ReadsItems.someHolds_eq (val : Valuation) : ∀ {vs : List Json} {ps : List Predicate},
    ReadsItems vs ps → someHolds val ps = Json.someItemHolds val vs
  | _, _, .nil => rfl
  | _, _, .cons hv hvs => by
    rw [someHolds, hv.holds_eq val, hvs.someHolds_eq val, Json.someItemHolds]

end

/-- **Reading keeps the meaning.**  Under every valuation, the tree that is read is
true exactly when the value is, taken word for word: an object means all of its
entries, an object of operators all of them, `and` and `or` their members, and an
empty object is true.  The tree is in normal form.  Hence the text of the filter
is empty exactly when the tree is the predicate that is always true. -/
theorem holds_ofJson {v : Json} {p : Predicate} (h : ofJson v = .ok p) :
    (∀ val, p.holds val = v.holds val) ∧ p.IsNormal ∧
      ∀ loopVar, filterTextOfJson loopVar v = .ok "" ↔ p = .always := by
  have hreads := ofJson_eq_ok_iff.mp h
  refine ⟨fun val => hreads.holds_eq val, hreads.isNormal, fun loopVar => ?_⟩
  rw [filterTextOfJson, h]
  constructor
  · intro he
    exact (filterText_eq_empty_iff loopVar hreads.isNormal).mp (Except.ok.inj he)
  · intro he
    exact congrArg Except.ok ((filterText_eq_empty_iff loopVar hreads.isNormal).mpr he)

/-- The empty object is dropped from a conjunction, where it is always true, and kept in
a disjunction. -/
theorem holds_ofJson_nested :
    let v : Json := .object [
      ("a", .int 1),
      ("$and", .array [.object [], .object [("b", .object [("$gt", .int 2), ("$lt", .int 5)])]]),
      ("or", .array [.object [], .object [("c", .string "x")]])]
    let p : Predicate := .all [
      .compare (.attribute "a") (.single .equal (.literal (.int 1))),
      .all [
        .compare (.attribute "b") (.single .greater (.literal (.int 2))),
        .compare (.attribute "b") (.single .less (.literal (.int 5)))],
      .any [.always, .compare (.attribute "c") (.single .equal (.literal (.string "x")))]]
    ofJson v = .ok p ∧ (∀ val, p.holds val = v.holds val) ∧ p.IsNormal ∧
      ∀ loopVar, filterTextOfJson loopVar v = .ok "" ↔ p = .always := by
  intro v p
  have h : ofJson v = .ok p := by rfl
  exact ⟨h, holds_ofJson h⟩

end Predicate

end Docstore
