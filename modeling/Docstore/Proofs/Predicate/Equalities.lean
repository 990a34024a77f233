import Docstore.Proofs.Predicate.Meaning
import Docstore.Proofs.Predicate.Verbatim

/-!
# What a predicate pins down

The equalities of a predicate are harvested from its outermost conjunction.  They
are comparisons of the tree (`mem_comparisons_of_mem_equalities`), and they hold
whenever the tree does, under every valuation (`holds_equality`): nothing comes from
below a disjunction, from another comparison or from an expression.

`Json.equations` lists the equations of a value, word for word: entries that are
reached through conjunctions only and whose value is no object of operators.  Those
between the name of an attribute and data are the `Json.demands` of the value.  The
tree that is read has these equalities and no others, in order
(`equalities_ofJson`, `literalEqualities_ofJson`).
-/

namespace Docstore

/-! ### The equations of a value -/

namespace Json

/-- The value is an object with an operator among its keys. -/
def HasOperator : Json → Prop
  | .object members => ∃ m ∈ members, HasMark m.1
  | _ => False

instance : DecidablePred HasOperator
  | .object members => inferInstanceAs (Decidable (∃ m ∈ members, HasMark m.1))
  | .null | .bool _ | .number _ | .string _ | .array _ => isFalse id

/-- The value is data in the place of an operand: no marked string. -/
def IsData : Json → Prop
  | .string s => ¬HasMark s
  | _ => True

instance : DecidablePred IsData
  | .string s => inferInstanceAs (Decidable ¬HasMark s)
  | .null | .bool _ | .number _ | .array _ | .object _ => isTrue trivial

mutual

/-- The entries that demand equality whenever the value is true as a condition, in order. -/
def equations : Json → List (String × Json)
  | .object members => equationsOf members
  | _ => []

def equationsOf : List (String × Json) → List (String × Json)
  | [] => []
  | (key, v) :: rest => equationsAt key v ++ equationsOf rest

/-- Those in one entry: in the items of a conjunction, or the entry itself. -/
def equationsAt (key : String) : Json → List (String × Json)
  | .array items =>
      if key = "$and" ∨ key = "and" then equationsIn items
      else if key ∈ Predicate.combinatorKeys then []
      else [(key, .array items)]
  | v => if key ∈ Predicate.combinatorKeys ∨ v.HasOperator then [] else [(key, v)]

def equationsIn : List Json → List (String × Json)
  | [] => []
  | v :: vs => equations v ++ equationsIn vs

end

/-- The key names an attribute: it is neither marked nor a call around the record. -/
def IsName (key : String) : Prop := ¬HasMark key ∧ ¬WrapsVariable "record" key

instance : DecidablePred IsName := fun _ => inferInstanceAs (Decidable (_ ∧ _))

/-- The data that a value demands of attributes, in order. -/
def demands (v : Json) : List (String × Json) :=
  v.equations.filter fun e => IsName e.1 ∧ e.2.IsData

end Json

namespace Predicate

/-! ### Equalities of a tree -/

theorem mem_equalities_compare {field : Field} {c : Comparison} {e : String × Operand} :
    e ∈ (compare field c).equalities ↔ field = .attribute e.1 ∧ c = .single .equal e.2 := by
  obtain path | text := field
  · cases c with
    | single relation operand => cases relation <;> simp [equalities, Prod.ext_iff, eq_comm]
    | list relation operands => simp [equalities]
    | between low high => simp [equalities]
  · simp [equalities]

mutual

/-- **The equalities of a true predicate are true.** -/
theorem holds_equality (val : Valuation) : ∀ {p : Predicate}, p.holds val = true →
    ∀ e ∈ p.equalities, val (.attribute e.1) (.single .equal e.2) = true
  | .always, _, e, he => absurd he (by simp [equalities])
  | .any _, _, e, he => absurd he (by simp [equalities])
  | .all members, h, e, he => holds_equalityOf val h e he
  | .compare field c, h, e, he => by
    obtain ⟨rfl, rfl⟩ := mem_equalities_compare.mp he
    exact h

theorem holds_equalityOf (val : Valuation) : ∀ {ps : List Predicate}, allHold val ps = true →
    ∀ e ∈ equalitiesOf ps, val (.attribute e.1) (.single .equal e.2) = true
  | [], _, e, he => absurd he (by simp [equalitiesOf])
  | p :: ps, h, e, he => by
    rw [allHold, Bool.and_eq_true] at h
    rw [equalitiesOf] at he
    rcases List.mem_append.mp he with he | he
    · exact holds_equality val h.1 e he
    · exact holds_equalityOf val h.2 e he

end

mutual

theorem mem_comparisons_of_mem_equalities : ∀ {p : Predicate} {e : String × Operand},
    e ∈ p.equalities → (.attribute e.1, .single .equal e.2) ∈ p.comparisons
  | .always, _, he => absurd he (by simp [equalities])
  | .any _, _, he => absurd he (by simp [equalities])
  | .all members, _, he => mem_comparisonsOf_of_mem_equalitiesOf he
  | .compare field c, e, he => by
    obtain ⟨rfl, rfl⟩ := mem_equalities_compare.mp he
    exact List.mem_singleton.mpr rfl

theorem mem_comparisonsOf_of_mem_equalitiesOf : ∀ {ps : List Predicate} {e : String × Operand},
    e ∈ equalitiesOf ps → (.attribute e.1, .single .equal e.2) ∈ comparisonsOf ps
  | [], _, he => absurd he (by simp [equalitiesOf])
  | p :: ps, e, he => by
    rw [equalitiesOf] at he
    rw [comparisonsOf]
    rcases List.mem_append.mp he with he | he
    · exact List.mem_append_left _ (mem_comparisons_of_mem_equalities he)
    · exact List.mem_append_right _ (mem_comparisonsOf_of_mem_equalitiesOf he)

end

/-! ### From the value to the tree -/

theorem equalitiesOf_append (ps qs : List Predicate) :
    equalitiesOf (ps ++ qs) = equalitiesOf ps ++ equalitiesOf qs := by
  rw [equalitiesOf_eq_flatMap, List.flatMap_append, ← equalitiesOf_eq_flatMap,
    ← equalitiesOf_eq_flatMap]

/-- Building a conjunction loses no equality and adds none. -/
theorem equalities_conjunction (ps : List Predicate) :
    (conjunction ps).equalities = equalitiesOf ps := by
  rw [equalitiesOf_eq_flatMap]
  exact gather_conjunction rfl equalitiesOf_eq_flatMap ps

theorem ne_equal_of_readOperator {operator : String} {v : Json} {c : Comparison}
    (h : readOperator operator v = .ok c) (operand : Operand) : c ≠ .single .equal operand := by
  have htables : ∀ m ∈ singleOperators ++ patternOperators, m.2 ≠ .equal := by decide
  rcases readOperator_eq_ok h with ⟨relation, hmem, rfl⟩ | ⟨relation, text, hmem, -, rfl⟩ |
    ⟨relation, items, -, -, -, rfl⟩ | ⟨low, high, -, -, rfl⟩
  · intro heq
    exact htables _ (List.mem_append_left _ hmem) (Comparison.single.inj heq).1
  · intro heq
    exact htables _ (List.mem_append_right _ hmem) (Comparison.single.inj heq).1
  · exact Comparison.noConfusion
  · exact Comparison.noConfusion

theorem equalitiesOf_readComparisons (field : Field) {v : Json} {cs : List Comparison}
    (h : readComparisons v = .ok cs) :
    equalitiesOf (cs.map (.compare field)) =
      if v.HasOperator then [] else (compare field (.single .equal (.ofJson v))).equalities := by
  rcases readComparisons_eq_ok h with ⟨members, rfl, hops, hread⟩ | ⟨hplain, rfl⟩
  · have hmark : (Json.object members).HasOperator := areOperators_iff.mp hops
    rw [if_pos hmark, List.eq_nil_iff_forall_not_mem]
    intro e he
    rw [equalitiesOf_eq_flatMap, List.flatMap_map] at he
    obtain ⟨c, hc, he⟩ := List.mem_flatMap.mp he
    obtain ⟨m, -, hm⟩ := exists_of_mem_of_mapM_eq_ok hread hc
    exact ne_equal_of_readOperator hm e.2 (mem_equalities_compare.mp he).2
  · have hmark : ¬v.HasOperator := by
      cases v with
      | object members =>
        rintro ⟨m, hm, h⟩
        exact areOperators_eq_false_iff.mp (hplain members rfl) m hm h
      | _ => exact id
    rw [if_neg hmark, List.map_cons, List.map_nil, equalitiesOf, equalitiesOf, List.append_nil]

/-- What an equation says of an attribute, if its key names one. -/
def readEquation (e : String × Json) : Option (String × Operand) :=
  match Field.ofKey e.1 with
  | .attribute path => some (path, .ofJson e.2)
  | .expression _ => none

theorem equalities_compare_ofKey (key : String) (v : Json) :
    (compare (.ofKey key) (.single .equal (.ofJson v))).equalities =
      (readEquation (key, v)).toList := by
  rw [readEquation]
  split
  · next path h => rw [h]; rfl
  · next text h => rw [h]; rfl

theorem equationsAt_conjunction {key : String} (hkey : isConjunctionKey key = true)
    (items : List Json) : (Json.array items).equationsAt key = Json.equationsIn items := by
  rw [Json.equationsAt, if_pos (isConjunctionKey_iff.mp hkey)]

theorem equationsAt_disjunction {key : String} (hkey : isDisjunctionKey key = true)
    (items : List Json) : (Json.array items).equationsAt key = [] := by
  have hnot : ¬(key = "$and" ∨ key = "and") := by
    intro h
    rw [not_isDisjunctionKey (isConjunctionKey_iff.mpr h)] at hkey
    exact Bool.false_ne_true hkey
  have hmem : key ∈ combinatorKeys :=
    mem_combinatorKeys_iff.mpr (Or.inr (isDisjunctionKey_iff.mp hkey))
  rw [Json.equationsAt, if_neg hnot, if_pos hmem]

theorem equationsAt_field {key : String} (hkey : key ∉ combinatorKeys) (v : Json) :
    v.equationsAt key = if v.HasOperator then [] else [(key, v)] := by
  have hnot : ¬(key = "$and" ∨ key = "and") :=
    fun h => hkey (mem_combinatorKeys_iff.mpr (Or.inl h))
  cases v with
  | array items => rw [Json.equationsAt, if_neg hnot, if_neg hkey]; rfl
  | _ => simp only [Json.equationsAt, hkey, false_or]

theorem equalitiesOf_field {key : String} (hkey : key ∉ combinatorKeys) {v : Json}
    {cs : List Comparison} (h : readComparisons v = .ok cs) :
    equalitiesOf (cs.map (.compare (.ofKey key))) = (v.equationsAt key).filterMap readEquation := by
  rw [equalitiesOf_readComparisons (.ofKey key) h, equalities_compare_ofKey,
    equationsAt_field hkey]
  by_cases hop : v.HasOperator
  · rw [if_pos hop, if_pos hop]
    rfl
  · rw [if_neg hop, if_neg hop, List.filterMap_cons]
    cases readEquation (key, v) <;> rfl

mutual

theorem Reads.equalities_eq : ∀ {v : Json} {p : Predicate}, Reads v p →
    p.equalities = v.equations.filterMap readEquation
  | _, _, .object hmembers => by
    rw [equalities_conjunction, hmembers.equalities_eq]
    rfl

theorem ReadsMembers.equalities_eq : ∀ {members : List (String × Json)} {parts : List Predicate},
    ReadsMembers members parts →
      equalitiesOf parts = (Json.equationsOf members).filterMap readEquation
  | _, _, .nil => rfl
  | _, _, .all hkey hitems hrest => by
    rw [equalitiesOf, equalities_conjunction, Json.equationsOf, equationsAt_conjunction hkey,
      List.filterMap_append, hitems.equalities_eq, hrest.equalities_eq]
  -- nothing is harvested below a disjunction, on either side
  | _, _, .any hkey hitems _ hrest => by
    rw [equalitiesOf, Json.equationsOf, equationsAt_disjunction hkey, List.nil_append,
      hrest.equalities_eq]
    rfl
  | _, _, .field hall hany hv hrest => by
    rw [equalitiesOf_append, equalitiesOf_field (not_mem_combinatorKeys hall hany) hv,
      hrest.equalities_eq, Json.equationsOf, List.filterMap_append]

theorem ReadsItems.equalities_eq : ∀ {vs : List Json} {ps : List Predicate}, ReadsItems vs ps →
    equalitiesOf ps = (Json.equationsIn vs).filterMap readEquation
  | _, _, .nil => rfl
  | _, _, .cons hv hvs => by
    rw [equalitiesOf, Json.equationsIn, List.filterMap_append, hv.equalities_eq,
      hvs.equalities_eq]

end

/-- **The equalities of the tree are the equations of the value**, in order. -/
theorem equalities_ofJson {v : Json} {p : Predicate} (h : ofJson v = .ok p) :
    p.equalities = v.equations.filterMap readEquation :=
  (ofJson_eq_ok_iff.mp h).equalities_eq

def literalEqualities (p : Predicate) : List (String × Json) :=
  p.equalities.filterMap fun e => e.2.literal?.map fun v => (e.1, v)

theorem literal?_ofJson (v : Json) :
    (Operand.ofJson v).literal? = if v.IsData then some v else none := by
  by_cases h : ∃ text, v = .string ("$" ++ text)
  · obtain ⟨text, rfl⟩ := h
    have hdata : ¬(Json.string ("$" ++ text)).IsData := fun h => h ⟨text, rfl⟩
    rw [Operand.ofJson_marked, if_neg hdata]
    rfl
  · have hdata : v.IsData := by
      cases v with
      | string s => exact fun ⟨text, hs⟩ => h ⟨text, congrArg Json.string hs⟩
      | _ => exact trivial
    rw [Operand.ofJson_of_not_marked fun text hv => h ⟨text, hv⟩, if_pos hdata]
    rfl

theorem readEquation_eq (key : String) (v : Json) :
    readEquation (key, v) = if Json.IsName key then some (key, .ofJson v) else none := by
  rw [readEquation]
  by_cases hmark : HasMark key
  · have hname : ¬Json.IsName key := fun h => h.1 hmark
    obtain ⟨text, rfl⟩ := hmark
    rw [Field.ofKey_marked, if_neg hname]
  by_cases hcall : WrapsVariable "record" key
  · have hname : ¬Json.IsName key := fun h => h.2 hcall
    rw [Field.ofKey_call hmark hcall, if_neg hname]
  · rw [Field.ofKey_name hmark hcall, if_pos ⟨hmark, hcall⟩]

/-- **The equalities with data are what the value demands**, in order. -/
theorem literalEqualities_ofJson {v : Json} {p : Predicate} (h : ofJson v = .ok p) :
    p.literalEqualities = v.demands := by
  rw [literalEqualities, equalities_ofJson h, List.filterMap_filterMap, Json.demands,
    ← List.filterMap_eq_filter]
  refine List.filterMap_congr fun e _ => ?_
  obtain ⟨key, w⟩ := e
  rw [readEquation_eq, Option.guard]
  by_cases hname : Json.IsName key
  · rw [if_pos hname, Option.bind_some, literal?_ofJson]
    by_cases hdata : w.IsData
    · simp [hname, hdata]
    · simp [hdata]
  · simp [hname]

end Predicate

end Docstore
