import Docstore.Proofs.Predicate.Verbatim
import Docstore.Proofs.Statement.Parts
import Docstore.Proofs.Term.Path

/-!
# Left sides

The filters of a request are written over three loop variables: the record, and the
vertices and edges of a traversal.  What stands on the left of a comparison is
decided in two steps.  A key is read as an expression or an attribute before any loop
variable is known, and the variable is put in front of the attributes when the tree is
written.

`IsLeftSide` says what stands there for each key, and `HasLeftSides` that it stands
there in all comparisons of a filter.  A key without the mark is copied exactly when
it wraps `record` in a call, whatever the loop variable is (`IsLeftSide.eq_key_iff`).
So a call around another loop variable becomes the path to an attribute, with a quoted
name for the call (`IsLeftSide.of_wrapsVariable`).  `copied_iff_wraps_record` says this
of every filter, over any variable and in all three of a statement.
-/

namespace Docstore

open Text

/-! ### Paths are not keys -/

theorem length_le_length_escapedName (name : List Char) :
    name.length ≤ (escapedName name).length := by
  induction name with
  | nil => exact Nat.le_refl _
  | cons c name ih =>
    by_cases hc : c = backtick
    · rw [hc, escapedName_backtick_cons]
      exact Nat.le_succ_of_le (Nat.succ_le_succ ih)
    · rw [escapedName_cons_of_ne hc]
      exact Nat.succ_le_succ ih

theorem length_le_length_pathSegment (name : List Char) :
    name.length ≤ (pathSegment name).length := by
  by_cases hname : isIdentifierChars name = true
  · rw [pathSegment_of_isIdentifierChars hname]
  · rw [pathSegment_of_not hname, List.length_cons, List.length_append]
    exact Nat.le_succ_of_le (Nat.le_add_right_of_le (length_le_length_escapedName name))

theorem toList_attributePath_eq_append (loopVar field : String) :
    (attributePath loopVar field).toList =
      loopVar.toList ++ writtenNames (piecesOf '.' field.toList) := by
  rw [attributePath, String.toList_append, String.toList_ofList, writtenNames]

theorem cons_eq_flatMap_piecesOf (cs : List Char) :
    '.' :: cs = (piecesOf '.' cs).flatMap fun name => '.' :: name := by
  rw [← cons_intercalate (piecesOf_ne_nil _ _), intercalate_piecesOf]

theorem length_lt_length_attributePath (loopVar field : String) :
    field.toList.length < (attributePath loopVar field).toList.length := by
  have hlength : ('.' :: field.toList).length ≤
      (writtenNames (piecesOf '.' field.toList)).length := by
    rw [cons_eq_flatMap_piecesOf, writtenNames, List.length_flatMap, List.length_flatMap]
    exact List.sum_le_sum fun name _ => Nat.succ_le_succ (length_le_length_pathSegment name)
  rw [toList_attributePath_eq_append, List.length_append]
  exact Nat.lt_of_lt_of_le hlength (Nat.le_add_left _ _)

theorem attributePath_ne (loopVar field : String) : attributePath loopVar field ≠ field := by
  intro h
  have hlength := length_lt_length_attributePath loopVar field
  rw [h] at hlength
  exact lt_irrefl _ hlength

theorem backtick_mem_attributePath (loopVar : String) {field : String} {c : Char}
    (hc : c ∈ field.toList) (hname : isNameChar c = false) (hpoint : c ≠ '.') :
    backtick ∈ (attributePath loopVar field).toList := by
  have hc' : c ∈ (piecesOf '.' field.toList).flatMap fun name => '.' :: name := by
    rw [← cons_eq_flatMap_piecesOf]
    exact List.mem_cons_of_mem _ hc
  obtain ⟨name, hmem, hcname⟩ := List.mem_flatMap.mp hc'
  replace hcname : c ∈ name := List.mem_of_ne_of_mem hpoint hcname
  have hquoted : ¬isIdentifierChars name = true := fun h =>
    not_mem_of_isIdentifierChars h hname hcname
  have htick : backtick ∈ '.' :: pathSegment name := by
    rw [pathSegment_of_not hquoted]
    exact List.mem_cons_of_mem _ List.mem_cons_self
  rw [toList_attributePath_eq_append, writtenNames]
  exact List.mem_append_right _ (List.mem_flatMap.mpr ⟨name, hmem, htick⟩)

/-! ### The left side of a key -/

/-- The text stands on the left of the comparisons on a key, in filters over the
loop variable. -/
inductive IsLeftSide (loopVar : String) : (key left : String) → Prop where
  | marked (text : String) : IsLeftSide loopVar ("$" ++ text) text
  | call {key : String} (hmark : ¬HasMark key) (h : WrapsVariable "record" key) :
      IsLeftSide loopVar key key
  | path {key : String} (hmark : ¬HasMark key) (h : ¬WrapsVariable "record" key) :
      IsLeftSide loopVar key (attributePath loopVar key)

theorem isLeftSide_render {field : Field} {key : String} (h : field.IsNamedBy key)
    (loopVar : String) : IsLeftSide loopVar key (field.render loopVar) := by
  cases h with
  | marked text => exact .marked text
  | call hmark h => exact .call hmark h
  | name hmark h => exact .path hmark h

namespace IsLeftSide

variable {loopVar key left : String}

/-- **What decides that a key is copied is the word `record` alone.** -/
theorem eq_key_iff (h : IsLeftSide loopVar key left) (hmark : ¬HasMark key) :
    left = key ↔ WrapsVariable "record" key := by
  cases h with
  | marked => exact absurd ⟨_, rfl⟩ hmark
  | call _ h => exact iff_of_true rfl h
  | path _ h => exact iff_of_false (attributePath_ne loopVar key) h

/-- A call around the loop variable, and none around the record, is a quoted name. -/
theorem of_wrapsVariable (h : IsLeftSide loopVar key left) (hmark : ¬HasMark key)
    (hwraps : WrapsVariable loopVar key) (hrecord : ¬WrapsVariable "record" key) :
    left = attributePath loopVar key ∧ backtick ∈ left.toList := by
  cases h with
  | marked => exact absurd ⟨_, rfl⟩ hmark
  | call _ h => exact absurd h hrecord
  | path _ _ =>
    obtain ⟨before, blanks, c, after, hkey, -, -⟩ := hwraps
    have hparen : '(' ∈ key.toList := by simp [hkey]
    exact ⟨rfl, backtick_mem_attributePath loopVar hparen (by decide) (by decide)⟩

end IsLeftSide

/-! ### Filters -/

namespace Predicate

/-- The comparison is written with the left side of the key that it is spelled with. -/
def HasLeftSide (loopVar : String) (c : Field × Comparison) (s : String × List Json) : Prop :=
  ∃ left, IsLeftSide loopVar s.1 left ∧
    (Predicate.compare c.1 c.2).render loopVar = c.2.render left

/-- The text is the filter that the value spells over the loop variable, and each of its
comparisons, one by one, has the left side of its key. -/
def HasLeftSides (loopVar : String) (v : Json) (filter : String) : Prop :=
  ∃ p, ofJson v = .ok p ∧ filter = p.filterText loopVar ∧
    List.Forall₂ (HasLeftSide loopVar) p.comparisons v.spelledComparisons

theorem hasLeftSides_of_ofJson {v : Json} {p : Predicate} (h : ofJson v = .ok p)
    (loopVar : String) : HasLeftSides loopVar v (p.filterText loopVar) :=
  ⟨p, h, rfl, (forall₂_comparisons_ofJson h).1.imp fun c _ hc =>
    ⟨c.1.render loopVar, isLeftSide_render hc.1 loopVar, by rw [render]⟩⟩

theorem hasLeftSides_of_filterTextOfJson {loopVar : String} {v : Json} {filter : String}
    (h : filterTextOfJson loopVar v = .ok filter) : HasLeftSides loopVar v filter := by
  obtain ⟨p, hp, rfl⟩ := map_eq_ok_iff.mp h
  exact hasLeftSides_of_ofJson hp loopVar

end Predicate

/-! ### Statements -/

namespace Request

open Predicate

/-- The filter of a traversal is a filter like any other, unless it is a bare key. -/
theorem hasLeftSides_of_traversalFilter {key loopVar : String} {o : Option Json} {filter : String}
    (h : traversalFilter key loopVar o = .ok filter) {v : Json} (hv : o = some v)
    (hstring : ∀ text, v ≠ .string text) : HasLeftSides loopVar v filter := by
  subst hv
  cases v with
  | string text => exact absurd rfl (hstring text)
  | _ => exact hasLeftSides_of_filterTextOfJson h

theorem hasLeftSides_of_compile {now : String} {r : Request} {s : Statement}
    (h : r.compile now = .ok (.statement s)) :
    (∀ v, r.criteriaMembers.get? "where" = some v → v ≠ .null →
      HasLeftSides "record" v s.filter) ∧
    (∀ v, r.criteriaMembers.get? "whereVertex" = some v → v ≠ .null →
      (∀ key, v ≠ .string key) → HasLeftSides "v" v s.vertexFilter) ∧
    (∀ v, r.criteriaMembers.get? "whereEdge" = some v → v ≠ .null →
      (∀ key, v ≠ .string key) → HasLeftSides "e" v s.edgeFilter) := by
  obtain ⟨criteria, key, h⟩ := compile_eq_statement_iff.mp h
  refine ⟨fun v hv hnull => ?_, fun v hv hnull hstring => ?_, fun v hv hnull hstring => ?_⟩
  · have hread := h.readFilter
    rw [Criteria.given?_eq_some_iff.mpr ⟨hv, hnull⟩] at hread
    rw [h.filter]
    exact hasLeftSides_of_ofJson hread "record"
  · exact hasLeftSides_of_traversalFilter h.vertexFilter
      (h.vertices.trans (Criteria.given?_eq_some_iff.mpr ⟨hv, hnull⟩)) hstring
  · exact hasLeftSides_of_traversalFilter h.edgeFilter
      (h.edges.trans (Criteria.given?_eq_some_iff.mpr ⟨hv, hnull⟩)) hstring

/-- **Which calls a filter copies.**  A key without the mark that wraps the loop variable in a
call is copied exactly when it also wraps `record`, so always where that is the loop
variable.  Otherwise its left side is the path to an attribute, with the call in a
quoted name.  The left sides of a filter over the variable are those of its keys, and
so are those of the three filters of a statement. -/
theorem copied_iff_wraps_record {loopVar key : String} (hmark : ¬HasMark key)
    (hwraps : WrapsVariable loopVar key) :
    (∀ left, IsLeftSide loopVar key left →
      (left = key ↔ WrapsVariable "record" key) ∧
      (¬WrapsVariable "record" key →
        left = attributePath loopVar key ∧ backtick ∈ left.toList)) ∧
    (∀ v filter, filterTextOfJson loopVar v = .ok filter → HasLeftSides loopVar v filter) ∧
    ∀ now r s, Request.compile now r = .ok (.statement s) →
      (∀ v, r.criteriaMembers.get? "where" = some v → v ≠ .null →
        HasLeftSides "record" v s.filter) ∧
      (∀ v, r.criteriaMembers.get? "whereVertex" = some v → v ≠ .null →
        (∀ key, v ≠ .string key) → HasLeftSides "v" v s.vertexFilter) ∧
      (∀ v, r.criteriaMembers.get? "whereEdge" = some v → v ≠ .null →
        (∀ key, v ≠ .string key) → HasLeftSides "e" v s.edgeFilter) := by
  refine ⟨fun left h => ?_, fun _ _ h => hasLeftSides_of_filterTextOfJson h,
    fun _ _ _ h => hasLeftSides_of_compile h⟩
  exact ⟨h.eq_key_iff hmark, h.of_wrapsVariable hmark hwraps⟩

/-- Two calls in one key, around the record and around the vertex, are copied together; alone, the
call around the vertex is not. -/
theorem copied_iff_wraps_record_both :
    let both : Json := .object [("f(record.a, g(v.b))", .bool true)]
    let r : Request := {
      model := some "user", method := some .find, primaryKey := some "id"
      criteria := some (.object [("where", both), ("whereVertex", both), ("whereEdge", both)]) }
    (∃ key left, ¬HasMark key ∧ WrapsVariable "v" key ∧ IsLeftSide "v" key left ∧ left = key) ∧
    (∃ key left, ¬HasMark key ∧ WrapsVariable "v" key ∧ IsLeftSide "v" key left ∧
      left = attributePath "v" key ∧ backtick ∈ left.toList) ∧
    (∃ filter, filterTextOfJson "v" both = .ok filter ∧ HasLeftSides "v" both filter) ∧
    ∃ s, r.compile "now" = .ok (.statement s) ∧ HasLeftSides "record" both s.filter ∧
      HasLeftSides "v" both s.vertexFilter ∧ HasLeftSides "e" both s.edgeFilter := by
  intro both r
  have hboth : WrapsVariable "v" "f(record.a, g(v.b))" :=
    ⟨"f(record.a, g".toList, [], '.', "b))".toList, rfl, by simp, by rw [← isNameChar_iff]; decide⟩
  have hone : WrapsVariable "v" "g(v.b)" :=
    ⟨"g".toList, [], '.', "b)".toList, rfl, by simp, by rw [← isNameChar_iff]; decide⟩
  have hmark : ¬HasMark "f(record.a, g(v.b))" := by decide
  have hmark' : ¬HasMark "g(v.b)" := by decide
  obtain ⟨hcopied, hfilter, hcompile⟩ := copied_iff_wraps_record hmark hboth
  have hquoted := (copied_iff_wraps_record hmark' hone).1
  obtain ⟨s, hs⟩ : ∃ s, r.compile "now" = .ok (.statement s) := ⟨_, rfl⟩
  obtain ⟨hwhere, hvertex, hedge⟩ := hcompile _ _ _ hs
  have hcall : IsLeftSide "v" "f(record.a, g(v.b))" "f(record.a, g(v.b))" :=
    .call hmark (by decide)
  have hpath : IsLeftSide "v" "g(v.b)" (attributePath "v" "g(v.b)") := .path hmark' (by decide)
  exact ⟨⟨_, _, hmark, hboth, hcall, (hcopied _ hcall).1.mpr (by decide)⟩,
    ⟨_, _, hmark', hone, hpath, (hquoted _ hpath).2 (by decide)⟩, ⟨_, rfl, hfilter _ _ rfl⟩,
    s, hs, hwhere both rfl (by simp [both]), hvertex both rfl (by simp [both]) (by simp [both]),
    hedge both rfl (by simp [both]) (by simp [both])⟩

/-- The call is copied in a filter of records and quoted in one of vertices, on its own and in a
statement. -/
theorem call_around_vertex_is_quoted :
    let tags (key : String) : Json := .object [(key, .number (.int 3))]
    let r : Request := {
      model := some "user", method := some .find, primaryKey := some "id"
      criteria := some (.object [("where", tags "LENGTH(record.tags)"),
        ("whereVertex", tags "LENGTH(v.tags)")]) }
    isIdentifier "v" = true ∧ WrapsVariable "v" "LENGTH(v.tags)" ∧
      filterTextOfJson "v" (tags "LENGTH(v.tags)") = .ok "v.\x60LENGTH(v\x60.\x60tags)\x60 == 3" ∧
      ∃ s, r.compile "now" = .ok (.statement s) ∧ s.filter = "LENGTH(record.tags) == 3" ∧
        s.vertexFilter = "v.\x60LENGTH(v\x60.\x60tags)\x60 == 3" ∧
        s.vertexFilter ≠ "LENGTH(v.tags) == 3" := by
  intro tags r
  refine ⟨by decide, ⟨"LENGTH".toList, [], '.', "tags)".toList, rfl, by simp, ?_⟩, rfl, _, rfl, rfl,
    rfl, by decide⟩
  rw [← isNameChar_iff]
  decide

end Request

end Docstore
