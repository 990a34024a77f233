import Docstore.Proofs.Predicate.Grammar
import Docstore.Proofs.Predicate.Unambiguous

/-!
# Membership in a list of one

An equality may be spelt as membership in a list of one, and an inequality as absence
from one.  `Enlists v w` says that `w` is the filter `v` with any number of such entries
spelt with a list, at any depth under the combinators; all else stays as it is.

A filter and its other spelling are read alike up to the form in which comparisons are
written (`Enlists.agree`): each reader is opened once, for the entries that changed
(`agree_equal`, `agree_notEqual`) and for the combinators that hold changed items
(`agree_combinator`), and the form of a conjunction is put together from the forms of its
members (`written_conjunction`).  So both are refused for the same reason or have the
same text.  A longer list is written as it is (`filterTextOfJson_isIn`).
-/

namespace Docstore

namespace Predicate

/-! ### Two spellings -/

mutual

/-- The second filter is the first with some single values put in lists. -/
inductive Enlists : Json → Json → Prop where
  | refl (v : Json) : Enlists v v
  | object {members members' : List (String × Json)} (h : EnlistsMembers members members') :
      Enlists (.object members) (.object members')

inductive EnlistsMembers : List (String × Json) → List (String × Json) → Prop where
  | nil : EnlistsMembers [] []
  | same (m : String × Json) {rest rest' : List (String × Json)}
      (hrest : EnlistsMembers rest rest') : EnlistsMembers (m :: rest) (m :: rest')
  /-- What is equal to a value is in the list of it. -/
  | equal {key : String} (hkey : key ∉ combinatorKeys) {v : Json}
      (hv : ∀ members, v = .object members → ∀ m ∈ members, ¬HasMark m.1)
      {rest rest' : List (String × Json)} (hrest : EnlistsMembers rest rest') :
      EnlistsMembers ((key, v) :: rest) ((key, .object [("$in", .array [v])]) :: rest')
  /-- What differs from a value is not in the list of it. -/
  | notEqual {key : String} (hkey : key ∉ combinatorKeys) (u : Json)
      {rest rest' : List (String × Json)} (hrest : EnlistsMembers rest rest') :
      EnlistsMembers ((key, .object [("$ne", u)]) :: rest)
        ((key, .object [("$nin", .array [u])]) :: rest')
  | combinator {key : String} (hkey : key ∈ combinatorKeys) {items items' : List Json}
      (hitems : EnlistsItems items items') {rest rest' : List (String × Json)}
      (hrest : EnlistsMembers rest rest') :
      EnlistsMembers ((key, .array items) :: rest) ((key, .array items') :: rest')

inductive EnlistsItems : List Json → List Json → Prop where
  | nil : EnlistsItems [] []
  | cons {v w : Json} (h : Enlists v w) {vs ws : List Json} (hrest : EnlistsItems vs ws) :
      EnlistsItems (v :: vs) (w :: ws)

end

/-! ### The form of a tree -/

theorem isAlways_written (p : Predicate) : p.written.isAlways = p.isAlways := by
  cases p <;> rfl

/-- **The form of a conjunction is the conjunction of the forms.** -/
theorem written_conjunction (ps : List Predicate) :
    (conjunction ps).written = conjunction (ps.map written) := by
  have hfilter : (ps.map written).filter (fun p => !p.isAlways) =
      (ps.filter fun p => !p.isAlways).map written := by
    rw [List.filter_map]
    exact congrArg (List.map written) (List.filter_congr fun p _ => by
      rw [Function.comp_apply, isAlways_written])
  rw [conjunction, conjunction, hfilter]
  generalize ps.filter (fun p => !p.isAlways) = kept
  rcases kept with _ | ⟨p, _ | ⟨q, rest⟩⟩
  · rfl
  · rfl
  · exact congrArg Predicate.all (writtenMembers_eq_map (p :: q :: rest))

theorem filterText_written (loopVar : String) (p : Predicate) :
    p.written.filterText loopVar = p.filterText loopVar := by
  rw [filterText, filterText, isAlways_written, render_written]

/-! ### Reading both -/

/-- The predicates are the same as they are written. -/
abbrev AgreeWritten (x y : Except Failure (List Predicate)) : Prop :=
  AgreeUpTo (List.map written) x y

theorem isCombinatorKey_eq_false {key : String} (h : key ∉ combinatorKeys) :
    isConjunctionKey key = false ∧ isDisjunctionKey key = false := by
  rw [mem_combinatorKeys_iff, not_or] at h
  rw [← Bool.not_eq_true, ← Bool.not_eq_true, isConjunctionKey_iff, isDisjunctionKey_iff]
  exact h

theorem ofMember_of_readComparisons {key : String} (hkey : key ∉ combinatorKeys) {v : Json}
    {comparisons : List Comparison} (hv : readComparisons v = .ok comparisons) :
    ofMember key v = .ok (comparisons.map (.compare (.ofKey key))) := by
  obtain ⟨hall, hany⟩ := isCombinatorKey_eq_false hkey
  exact (ofMember_field_eq_ok_iff hall hany).mpr ⟨comparisons, hv, rfl⟩

theorem readComparisons_plain {v : Json}
    (hv : ∀ members, v = .object members → ∀ m ∈ members, ¬HasMark m.1) :
    readComparisons v = .ok [.single .equal (.ofJson v)] := by
  cases v with
  | object members =>
    rw [readComparisons, areOperators_eq_false_iff.mpr (hv members rfl)]
    rfl
  | _ => rfl

theorem readComparisons_operator {operator : String} (hmark : HasMark operator) {v : Json}
    {comparison : Comparison} (h : readOperator operator v = .ok comparison) :
    readComparisons (.object [(operator, v)]) = .ok [comparison] := by
  have hops : areOperators [(operator, v)] = true :=
    areOperators_iff.mpr ⟨(operator, v), List.mem_singleton_self _, hmark⟩
  rw [readComparisons, if_pos hops, List.mapM_cons, h]
  rfl

theorem agree_equal {key : String} (hkey : key ∉ combinatorKeys) {v : Json}
    (hv : ∀ members, v = .object members → ∀ m ∈ members, ¬HasMark m.1) :
    AgreeWritten (ofMember key v) (ofMember key (.object [("$in", .array [v])])) := by
  have hlist : readComparisons (.object [("$in", .array [v])]) = .ok [.list .isIn [.ofJson v]] :=
    readComparisons_operator ⟨"in", rfl⟩ rfl
  rw [ofMember_of_readComparisons hkey (readComparisons_plain hv),
    ofMember_of_readComparisons hkey hlist]
  exact .ok rfl

theorem agree_notEqual {key : String} (hkey : key ∉ combinatorKeys) (u : Json) :
    AgreeWritten (ofMember key (.object [("$ne", u)]))
      (ofMember key (.object [("$nin", .array [u])])) := by
  have hsingle : readComparisons (.object [("$ne", u)]) = .ok [.single .notEqual (.ofJson u)] :=
    readComparisons_operator ⟨"ne", rfl⟩ rfl
  have hlist : readComparisons (.object [("$nin", .array [u])]) = .ok [.list .notIn [.ofJson u]] :=
    readComparisons_operator ⟨"nin", rfl⟩ rfl
  rw [ofMember_of_readComparisons hkey hsingle, ofMember_of_readComparisons hkey hlist]
  exact .ok rfl

theorem agree_combinator {key : String} (hkey : key ∈ combinatorKeys) {items items' : List Json}
    (h : AgreeWritten (ofItems items) (ofItems items')) :
    AgreeWritten (ofMember key (.array items)) (ofMember key (.array items')) := by
  rw [ofMember, ofMember]
  cases hall : isConjunctionKey key with
  | true =>
    refine h.bind fun ps qs hpq => .ok ?_
    rw [List.map_singleton, List.map_singleton, written_conjunction, written_conjunction, hpq]
  | false =>
    have hany : isDisjunctionKey key = true := by
      rcases mem_combinatorKeys_iff.mp hkey with hand | hor
      · exact absurd (isConjunctionKey_iff.mpr hand) (by simp [hall])
      · exact isDisjunctionKey_iff.mpr hor
    simp only [hany, Bool.false_eq_true, if_false, if_true]
    refine h.bind fun ps qs hpq => ?_
    have hlength := congrArg List.length hpq
    rw [List.length_map, List.length_map] at hlength
    rw [hlength]
    split
    · exact .refl _
    · refine .ok ?_
      rw [List.map_singleton, List.map_singleton, written, written, writtenMembers_eq_map,
        writtenMembers_eq_map, hpq]

theorem agree_members {key : String} {v w : Json} {rest rest' : List (String × Json)}
    (h : AgreeWritten (ofMember key v) (ofMember key w))
    (hrest : AgreeWritten (ofMembers rest) (ofMembers rest')) :
    AgreeWritten (ofMembers ((key, v) :: rest)) (ofMembers ((key, w) :: rest')) := by
  rw [ofMembers, ofMembers]
  refine h.bind fun ps qs hpq => hrest.bind fun ps' qs' hpq' => .ok ?_
  rw [List.map_append, List.map_append, hpq, hpq']

mutual

/-- **Both spellings are read alike**, up to the form in which comparisons are written. -/
theorem Enlists.agree : ∀ {v w : Json}, Enlists v w → AgreeUpTo written (ofJson v) (ofJson w)
  | _, _, .refl v => .refl _
  | _, _, .object h => by
    rw [ofJson, ofJson]
    refine h.agree.map fun ps qs hpq => ?_
    rw [written_conjunction, written_conjunction, hpq]

theorem EnlistsMembers.agree : ∀ {members members' : List (String × Json)},
    EnlistsMembers members members' → AgreeWritten (ofMembers members) (ofMembers members')
  | _, _, .nil => .refl _
  | _, _, .same _ hrest => agree_members (.refl _) hrest.agree
  | _, _, .equal hkey hv hrest => agree_members (agree_equal hkey hv) hrest.agree
  | _, _, .notEqual hkey u hrest => agree_members (agree_notEqual hkey u) hrest.agree
  | _, _, .combinator hkey hitems hrest =>
    agree_members (agree_combinator hkey hitems.agree) hrest.agree

theorem EnlistsItems.agree : ∀ {vs ws : List Json},
    EnlistsItems vs ws → AgreeWritten (ofItems vs) (ofItems ws)
  | _, _, .nil => .refl _
  | _, _, .cons h hrest => by
    rw [ofItems, ofItems]
    refine h.agree.bind fun p q hpq => hrest.agree.bind fun ps qs hpqs => .ok ?_
    rw [List.map_cons, List.map_cons, hpq, hpqs]

end

theorem Enlists.filterTextOfJson_eq {v w : Json} (h : Enlists v w) (loopVar : String) :
    filterTextOfJson loopVar v = filterTextOfJson loopVar w := by
  rw [filterTextOfJson, filterTextOfJson]
  rcases h.agree.cases with ⟨f, hv, hw⟩ | ⟨p, q, hv, hw, hpq⟩
  · rw [hv, hw]
  · rw [hv, hw]
    have htext : p.filterText loopVar = q.filterText loopVar := by
      rw [← filterText_written loopVar p, hpq, filterText_written]
    exact congrArg Except.ok htext

/-! ### Longer lists -/

/-- The text of values as operands, in order, between brackets. -/
theorem renderOperands_ofJson (vs : List Json) :
    renderOperands (vs.map .ofJson) =
      "[" ++ String.intercalate ", " (vs.map fun v => (Operand.ofJson v).render) ++ "]" := by
  rw [renderOperands, List.map_map]
  rfl

theorem render_list_of_two (left : String) {operands : List Operand}
    (htwo : 2 ≤ operands.length) :
    ListRelation.isIn.render left operands = left ++ " IN " ++ renderOperands operands ∧
      ListRelation.notIn.render left operands = left ++ " NOT IN " ++ renderOperands operands := by
  match operands with
  | [] => exact absurd htwo (by simp)
  | [_] => exact absurd htwo (by simp)
  | _ :: _ :: _ => exact ⟨rfl, rfl⟩

theorem filterTextOfJson_entry (loopVar : String) {key : String} {v : Json} {field : Field}
    {comparison : Comparison} (h : ofMember key v = .ok [.compare field comparison]) :
    filterTextOfJson loopVar (.object [(key, v)]) =
      .ok (Predicate.render loopVar (.compare field comparison)) := by
  rw [filterTextOfJson, ofJson, ofMembers, h]
  rfl

theorem ofMember_list {operator : String} {relation : ListRelation}
    (hoperator : (operator, relation) ∈ listOperators) {key : String}
    (hkey : key ∉ combinatorKeys) {vs : List Json} (htwo : 2 ≤ vs.length) :
    ofMember key (.object [(operator, .array vs)]) =
      .ok [.compare (.ofKey key) (.list relation (vs.map .ofJson))] := by
  obtain ⟨v, rest, rfl⟩ := List.exists_cons_of_length_pos (show 0 < vs.length by omega)
  have hread : HasMark operator ∧ readOperator operator (.array (v :: rest)) =
      .ok (.list relation ((v :: rest).map .ofJson)) := by
    simp only [listOperators, List.mem_cons, Prod.mk.injEq, List.not_mem_nil, or_false] at hoperator
    rcases hoperator with ⟨rfl, rfl⟩ | ⟨rfl, rfl⟩ | ⟨rfl, rfl⟩ | ⟨rfl, rfl⟩
    · exact ⟨⟨"in", rfl⟩, rfl⟩
    · exact ⟨⟨"nin", rfl⟩, rfl⟩
    · exact ⟨⟨"allin", rfl⟩, rfl⟩
    · exact ⟨⟨"anyin", rfl⟩, rfl⟩
  exact ofMember_of_readComparisons hkey (readComparisons_operator hread.1 hread.2)

/-- **Membership in a list of one is equality, anywhere in a filter.**  A filter and its
spelling with lists of one are both accepted or both refused; the text is the same, and
so is the failure.  A list of two or more shows: wherever the entry stands, its text is
the field, the words of the relation and the bracketed operands, all of them and in
order. -/
theorem list_of_one_is_equation (loopVar : String) :
    (∀ v w, Enlists v w →
      ((∃ p, ofJson v = .ok p) ↔ ∃ p, ofJson w = .ok p) ∧
        filterTextOfJson loopVar v = filterTextOfJson loopVar w) ∧
      ∀ key, key ∉ combinatorKeys → ∀ vs : List Json, 2 ≤ vs.length →
        let field := (Field.ofKey key).render loopVar
        let list :=
          "[" ++ String.intercalate ", " (vs.map fun v => (Operand.ofJson v).render) ++ "]"
        (∃ p, ofMember key (.object [("$in", .array vs)]) = .ok [p] ∧
          p.render loopVar = field ++ " IN " ++ list) ∧
        (∃ p, ofMember key (.object [("$nin", .array vs)]) = .ok [p] ∧
          p.render loopVar = field ++ " NOT IN " ++ list) ∧
        filterTextOfJson loopVar (.object [(key, .object [("$in", .array vs)])]) =
          .ok (field ++ " IN " ++ list) ∧
        filterTextOfJson loopVar (.object [(key, .object [("$nin", .array vs)])]) =
          .ok (field ++ " NOT IN " ++ list) := by
  constructor
  · intro v w h
    exact ⟨h.agree.exists_ok_iff, h.filterTextOfJson_eq loopVar⟩
  · intro key hkey vs htwo field list
    have hoperators : ("$in", .isIn) ∈ listOperators ∧ ("$nin", .notIn) ∈ listOperators := by decide
    have hin := ofMember_list hoperators.1 hkey htwo
    have hnotIn := ofMember_list hoperators.2 hkey htwo
    have hlength : 2 ≤ (vs.map Operand.ofJson).length := by rwa [List.length_map]
    obtain ⟨htextIn, htextNotIn⟩ := render_list_of_two field hlength
    rw [renderOperands_ofJson] at htextIn htextNotIn
    refine ⟨⟨_, hin, htextIn⟩, ⟨_, hnotIn, htextNotIn⟩, ?_, ?_⟩
    · rw [filterTextOfJson_entry loopVar hin]
      exact congrArg Except.ok htextIn
    · rw [filterTextOfJson_entry loopVar hnotIn]
      exact congrArg Except.ok htextNotIn

/-- Raw text, a string that is a number and an object, under two combinators, each spelt with a
list of one; and a list of two. -/
theorem list_of_one_is_equation_nested :
    let v : Json := .object [
      ("$and", .array [
        .object [("owner", .string "$other._key")],
        .object [
          ("or", .array [
            .object [("age", .object [("$ne", .string "30")])],
            .object [("home", .object [("city", .string "x")])]])]])]
    let w : Json := .object [
      ("$and", .array [
        .object [("owner", .object [("$in", .array [.string "$other._key"])])],
        .object [
          ("or", .array [
            .object [("age", .object [("$nin", .array [.string "30"])])],
            .object [("home", .object [("$in", .array [.object [("city", .string "x")]])])]])]])]
    let text := "(record.owner == other._key) AND " ++
      "((record.age != 30) OR (record.home == \x7b\"city\":\"x\"\x7d))"
    Enlists v w ∧ filterTextOfJson "record" v = .ok text ∧ filterTextOfJson "record" w = .ok text ∧
      "n" ∉ combinatorKeys ∧ 2 ≤ [Json.int 1, .string "2"].length ∧
      filterTextOfJson "record" (.object [("n", .object [("$nin", .array [.int 1, .string "2"])])]) =
        .ok "record.n NOT IN [1, 2]" := by
  intro v w text
  have hplain : ∀ s : String, ∀ members, Json.string s = .object members →
      ∀ m ∈ members, ¬HasMark m.1 := fun s members h => absurd h (by simp)
  have hobject : ∀ members, Json.object [("city", .string "x")] = .object members →
      ∀ m ∈ members, ¬HasMark m.1 := by
    intro members h
    obtain rfl := Json.object.inj h
    decide
  have hage : EnlistsMembers [("age", .object [("$ne", .string "30")])]
      [("age", .object [("$nin", .array [.string "30"])])] := .notEqual (by decide) _ .nil
  have hhome := EnlistsMembers.equal (show "home" ∉ combinatorKeys by decide) hobject .nil
  have howner := EnlistsMembers.equal (show "owner" ∉ combinatorKeys by decide)
    (hplain "$other._key") .nil
  have hor := EnlistsMembers.combinator (show "or" ∈ combinatorKeys by decide)
    (.cons (.object hage) (.cons (.object hhome) .nil)) .nil
  have henlists : Enlists v w := .object (.combinator (by decide)
    (.cons (.object howner) (.cons (.object hor) .nil)) .nil)
  have hv : filterTextOfJson "record" v = .ok text := by rfl
  obtain ⟨hsame, hlists⟩ := list_of_one_is_equation "record"
  have hlist := hlists "n" (by decide) [.int 1, .string "2"] (by decide)
  exact ⟨henlists, hv, (hsame v w henlists).2 ▸ hv, by decide, by decide, hlist.2.2.2⟩

end Predicate

end Docstore
