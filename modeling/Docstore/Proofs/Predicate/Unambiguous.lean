import Docstore.Proofs.Predicate.Normal
import Docstore.Proofs.Predicate.Wording

/-!
# The text of a predicate determines it

Predicates over attributes whose names hold no backslash, compared with data
alone, can be told from their texts: two of them that are read from JSON have the
same text only if they are the same tree, apart from the two differences that are
not written down (`render_eq_render_iff`).  No name and no string, whatever quotes,
parentheses or words are in it, makes one predicate look like another.

Every member of a combination stands in parentheses, and behind a predicate comes
nothing or a closing parenthesis.  With that, the claim goes from the members to
the combination (`agreeOnlyIf_render`).
-/

namespace Docstore

open Text

namespace Predicate

mutual

/-- The predicate as it is written: with all comparisons as they are written. -/
def written : Predicate → Predicate
  | .always => .always
  | .all members => .all (writtenMembers members)
  | .any members => .any (writtenMembers members)
  | .compare field comparison => .compare field comparison.written

def writtenMembers : List Predicate → List Predicate
  | [] => []
  | p :: ps => written p :: writtenMembers ps

end

theorem writtenMembers_eq_map (ps : List Predicate) : writtenMembers ps = ps.map written := by
  induction ps with
  | nil => rfl
  | cons p ps ih => rw [writtenMembers, ih, List.map_cons]

/-- Attributes without a backslash in their names, compared with data. -/
inductive IsPlain : Predicate → Prop where
  | always : IsPlain .always
  | all {members : List Predicate} (h : ∀ p ∈ members, IsPlain p) : IsPlain (.all members)
  | any {members : List Predicate} (h : ∀ p ∈ members, IsPlain p) : IsPlain (.any members)
  | compare {path : String} {comparison : Comparison} (hpath : '\\' ∉ path.toList)
      (h : comparison.IsLiteral) : IsPlain (.compare (.attribute path) comparison)

mutual

/-- **What is not written down makes no difference to the text.** -/
theorem render_written (loopVar : String) : ∀ p : Predicate,
    p.written.render loopVar = p.render loopVar
  | .always => rfl
  | .all members => by rw [written, render, render, renderMembers_written loopVar members]
  | .any members => by rw [written, render, render, renderMembers_written loopVar members]
  | .compare field comparison => by rw [written, render, render, comparison.render_written]

theorem renderMembers_written (loopVar : String) : ∀ ps : List Predicate,
    renderMembers loopVar (writtenMembers ps) = renderMembers loopVar ps
  | [] => rfl
  | p :: ps => by
    rw [writtenMembers, renderMembers, renderMembers, render_written loopVar p,
      renderMembers_written loopVar ps]

end

/-! ### Members -/

def memberChars (p : Predicate) : List Char :=
  '(' :: ((p.render recordVariable).toList ++ [')'])

def joinedChars (word : List Char) (members : List Predicate) : List Char :=
  (' ' :: word).intercalate (members.map memberChars)

theorem map_toList_renderMembers (members : List Predicate) :
    (renderMembers recordVariable members).map String.toList = members.map memberChars := by
  rw [renderMembers_eq_map, List.map_map]
  refine List.map_congr_left fun p _ => ?_
  show ("(" ++ p.render recordVariable ++ ")").toList = memberChars p
  rw [String.toList_append, String.toList_append]
  rfl

theorem toList_render_all (members : List Predicate) :
    (render recordVariable (.all members)).toList = joinedChars "AND ".toList members := by
  rw [render, String.toList_intercalate, map_toList_renderMembers]
  rfl

theorem toList_render_any (members : List Predicate) :
    (render recordVariable (.any members)).toList = joinedChars "OR ".toList members := by
  rw [render, String.toList_intercalate, map_toList_renderMembers]
  rfl

theorem exists_joinedChars_eq_cons (word : List Char) {members : List Predicate}
    (htwo : 2 ≤ members.length) : ∃ rest, joinedChars word members = '(' :: rest := by
  match members with
  | [] => exact absurd htwo (by simp)
  | p :: ps =>
    rw [joinedChars, List.map_cons, intercalate_cons_eq]
    exact ⟨_, rfl⟩

variable {ends : List Char}

/-- The parentheses around a member show where it ends. -/
theorem agreeOnlyIf_memberChars {claim : Prop} {p q : Predicate}
    (h : AgreeOnlyIf [')'] claim (p.render recordVariable).toList (q.render recordVariable).toList) :
    AgreeOnlyIf ends claim (memberChars p) (memberChars q) :=
  (h.append_same ⟨')', [], rfl, List.mem_cons_self⟩).cons '('

/-- Combinations joined by one word agree member by member. -/
theorem agreeOnlyIf_joinedChars (word : List Char) {ps qs : List Predicate} (hps : 2 ≤ ps.length)
    (hqs : 2 ≤ qs.length)
    (h : ∀ p ∈ ps, ∀ q ∈ qs, AgreeOnlyIf [')'] (p.written = q.written)
      (p.render recordVariable).toList (q.render recordVariable).toList) :
    AgreeOnlyIf [')'] (writtenMembers ps = writtenMembers qs) (joinedChars word ps)
      (joinedChars word qs) := by
  have hne {ps : List Predicate} (hps : 2 ≤ ps.length) : ps ≠ [] := by
    rintro rfl
    exact absurd hps (by simp)
  rw [writtenMembers_eq_map, writtenMembers_eq_map]
  exact agreeOnlyIf_intercalate memberChars written word (by decide) (hne hps) (hne hqs)
    fun p hp q hq => agreeOnlyIf_memberChars (h p hp q hq)

theorem agreeOnlyIf_joinedChars_of_ne {claim : Prop} {u v : Char} {us vs : List Char}
    {ps qs : List Predicate} (huv : u ≠ v) (hps : 2 ≤ ps.length) (hqs : 2 ≤ qs.length)
    (h : ∀ p ∈ ps, ∀ q ∈ qs, AgreeOnlyIf [')'] (p.written = q.written)
      (p.render recordVariable).toList (q.render recordVariable).toList) :
    AgreeOnlyIf ends claim (joinedChars (u :: us) ps) (joinedChars (v :: vs) qs) := by
  match ps, qs with
  | [], _ => exact absurd hps (by simp)
  | [_], _ => exact absurd hps (by simp)
  | _, [] => exact absurd hqs (by simp)
  | _, [_] => exact absurd hqs (by simp)
  | p :: p' :: ps, q :: q' :: qs =>
    have hfirst : AgreeOnlyIf [' '] (p.written = q.written) (memberChars p) (memberChars q) :=
      agreeOnlyIf_memberChars (h p List.mem_cons_self q List.mem_cons_self)
    have hnext (cs ds : List Char) : AgreeOnlyIf ends claim (' ' :: u :: cs) (' ' :: v :: ds) :=
      (agreeOnlyIf_of_head_ne huv).cons ' '
    simp only [joinedChars, List.map_cons, intercalate_cons_eq, List.flatMap_cons]
    exact (hfirst.append (fun r _ => List.mem_cons_self) (fun r _ => List.mem_cons_self)
      fun _ => hnext _ _).imp And.right

/-! ### Combinations and comparisons -/

theorem agreeOnlyIf_always_compare {claim : Prop} (path : String) {c : Comparison}
    (hc : c.IsLiteral) :
    AgreeOnlyIf [')'] claim "true".toList
      (c.render (attributePath recordVariable path)).toList := by
  rw [← c.render_asEquation]
  have heq := c.asEquation_asEquation
  have hc := Comparison.isLiteral_asEquation hc
  generalize c.asEquation = c at *
  obtain ⟨x, rest, htext, horder, -⟩ := Comparison.exists_render_eq_cons path heq hc
  by_cases hfirst : c.wording.order = .operandsFirst
  · have htrue : (Comparison.single .has (.literal (.bool true))).IsLiteral :=
      fun o ho => ⟨_, List.mem_singleton.mp ho⟩
    have hoperand := Comparison.agreeOnlyIf_operandChars_of_operandsFirst htrue hc rfl hfirst
    obtain ⟨x, rest, hword, hx⟩ := Wording.startsIn_of_operandsFirst hfirst
    rw [Comparison.toList_render _ heq, hfirst]
    intro r s hr hs h
    rw [List.append_assoc] at h
    obtain ⟨-, hrest⟩ := hoperand r _ (hr.mono (by decide))
      (Comparison.word_stopsAt _ (by decide) _ s) h
    -- behind the literal a blank would have to follow, which no predicate stops at
    rw [hrest, hword] at hr
    have hclose : x ∈ [')'] := hr
    rw [List.mem_singleton.mp hx] at hclose
    exact absurd hclose (by decide)
  · rw [htext]
    refine agreeOnlyIf_of_head_ne ?_
    rintro rfl
    exact hfirst (horder.symm.trans (by decide))

theorem agreeOnlyIf_joinedChars_compare {claim : Prop} (word : List Char) {ps : List Predicate}
    (hps : 2 ≤ ps.length) (path : String) {c : Comparison} (hc : c.IsLiteral) :
    AgreeOnlyIf ends claim (joinedChars word ps)
      (c.render (attributePath recordVariable path)).toList := by
  obtain ⟨rest, hjoined⟩ := exists_joinedChars_eq_cons word hps
  rw [← c.render_asEquation]
  obtain ⟨x, tail, htext, -, hx⟩ := Comparison.exists_render_eq_cons path c.asEquation_asEquation
    (Comparison.isLiteral_asEquation hc)
  rw [hjoined, htext]
  exact agreeOnlyIf_of_head_ne hx.symm

theorem agreeOnlyIf_always_joinedChars {claim : Prop} (word : List Char) {ps : List Predicate}
    (hps : 2 ≤ ps.length) : AgreeOnlyIf ends claim "true".toList (joinedChars word ps) := by
  obtain ⟨rest, hjoined⟩ := exists_joinedChars_eq_cons word hps
  rw [hjoined]
  exact agreeOnlyIf_of_head_ne (by decide)

/-! ### Whole predicates -/

/-- **The text of a predicate, with nothing or a closing parenthesis behind it, determines the
predicate as it is written.** -/
theorem agreeOnlyIf_render {p q : Predicate} (hp : p.IsNormal) (hq : q.IsNormal) (hpp : p.IsPlain)
    (hqp : q.IsPlain) :
    AgreeOnlyIf [')'] (p.written = q.written) (p.render recordVariable).toList
      (q.render recordVariable).toList := by
  -- by induction on the first tree; the second has the same outermost form
  induction hp generalizing q with
  | always =>
    cases hq with
    | always => exact fun r s _ _ h => ⟨rfl, List.append_cancel_left h⟩
    | all htwo _ _ =>
      rw [toList_render_all]
      exact agreeOnlyIf_always_joinedChars _ htwo
    | any htwo _ =>
      rw [toList_render_any]
      exact agreeOnlyIf_always_joinedChars _ htwo
    | compare field _ =>
      cases hqp with
      | compare hpath hc => exact agreeOnlyIf_always_compare _ hc
  | all htwo _ _ ih =>
    cases hpp with
    | all hpp =>
      rw [toList_render_all]
      cases hq with
      | always => exact (agreeOnlyIf_always_joinedChars _ htwo).symm
      | all htwo' _ hmembers =>
        cases hqp with
        | all hqp =>
          rw [toList_render_all]
          exact (agreeOnlyIf_joinedChars _ htwo htwo' fun p hp q hq =>
            ih p hp (hmembers q hq) (hpp p hp) (hqp q hq)).imp (congrArg all)
      | any htwo' hmembers =>
        cases hqp with
        | any hqp =>
          rw [toList_render_any]
          exact agreeOnlyIf_joinedChars_of_ne (by decide) htwo htwo' fun p hp q hq =>
            ih p hp (hmembers q hq) (hpp p hp) (hqp q hq)
      | compare field _ =>
        cases hqp with
        | compare hpath hc => exact agreeOnlyIf_joinedChars_compare _ htwo _ hc
  | any htwo _ ih =>
    cases hpp with
    | any hpp =>
      rw [toList_render_any]
      cases hq with
      | always => exact (agreeOnlyIf_always_joinedChars _ htwo).symm
      | all htwo' _ hmembers =>
        cases hqp with
        | all hqp =>
          rw [toList_render_all]
          exact agreeOnlyIf_joinedChars_of_ne (by decide) htwo htwo' fun p hp q hq =>
            ih p hp (hmembers q hq) (hpp p hp) (hqp q hq)
      | any htwo' hmembers =>
        cases hqp with
        | any hqp =>
          rw [toList_render_any]
          exact (agreeOnlyIf_joinedChars _ htwo htwo' fun p hp q hq =>
            ih p hp (hmembers q hq) (hpp p hp) (hqp q hq)).imp (congrArg any)
      | compare field _ =>
        cases hqp with
        | compare hpath hc => exact agreeOnlyIf_joinedChars_compare _ htwo _ hc
  | compare field hoperand =>
    cases hpp with
    | compare hpath hc =>
      cases hq with
      | always => exact (agreeOnlyIf_always_compare _ hc).symm
      | all htwo _ _ =>
        rw [toList_render_all]
        exact (agreeOnlyIf_joinedChars_compare _ htwo _ hc).symm
      | any htwo _ =>
        rw [toList_render_any]
        exact (agreeOnlyIf_joinedChars_compare _ htwo _ hc).symm
      | compare field' _ =>
        cases hqp with
        | compare hpath' hc' =>
          refine (Comparison.agreeOnlyIf_render hpath hpath' hc hc').imp ?_
          rintro ⟨rfl, h⟩
          rw [written, written, h]

/-- **The text of a predicate is unambiguous.**  Of the trees that are read from JSON, two over
attributes without a backslash and with data alone have the same text exactly when they are the
same tree as they are written: up to membership in a list of one, which is an equation, and strings
that spell numbers, which are those numbers. -/
theorem render_eq_render_iff {v w : Json} {p q : Predicate} (hp : ofJson v = .ok p)
    (hq : ofJson w = .ok q) (hpp : p.IsPlain) (hqp : q.IsPlain) :
    p.render recordVariable = q.render recordVariable ↔ p.written = q.written := by
  constructor
  · intro h
    exact (agreeOnlyIf_render (isNormal_of_ofJson hp) (isNormal_of_ofJson hq) hpp hqp).of_eq
      (congrArg String.toList h)
  · intro h
    rw [← render_written recordVariable p, h, render_written recordVariable q]

/-- A name with a quote and parentheses in it, in a list of one string that spells a number, and in
an equation with that number: read from different values, and written alike. -/
theorem render_eq_render_iff_quoted :
    ofJson (.object [("a` == 1) OR (b", .object [("$in", .array [.string "30"])])]) =
        .ok (.compare (.attribute "a` == 1) OR (b") (.list .isIn [.literal (.string "30")])) ∧
      ofJson (.object [("a` == 1) OR (b", .int 30)]) =
        .ok (.compare (.attribute "a` == 1) OR (b") (.single .equal (.literal (.int 30)))) ∧
      (render recordVariable
          (.compare (.attribute "a` == 1) OR (b") (.list .isIn [.literal (.string "30")])) =
        render recordVariable
          (.compare (.attribute "a` == 1) OR (b") (.single .equal (.literal (.int 30)))) ↔
        written (.compare (.attribute "a` == 1) OR (b") (.list .isIn [.literal (.string "30")])) =
          written (.compare (.attribute "a` == 1) OR (b") (.single .equal (.literal (.int 30))))) := by
  have hname : '\\' ∉ ("a` == 1) OR (b" : String).toList := by decide
  have hin : ofJson (.object [("a` == 1) OR (b", .object [("$in", .array [.string "30"])])]) =
      .ok (.compare (.attribute "a` == 1) OR (b") (.list .isIn [.literal (.string "30")])) := rfl
  have hequal : ofJson (.object [("a` == 1) OR (b", .int 30)]) =
      .ok (.compare (.attribute "a` == 1) OR (b") (.single .equal (.literal (.int 30)))) := rfl
  exact ⟨hin, hequal, render_eq_render_iff hin hequal
    (.compare hname fun o ho => ⟨_, List.mem_singleton.mp ho⟩)
    (.compare hname fun o ho => ⟨_, List.mem_singleton.mp ho⟩)⟩

example :
    render recordVariable
        (.compare (.attribute "a` == 1) OR (b") (.single .equal (.literal (.int 30)))) =
      "record.`a\\` == 1) OR (b` == 30" := by
  decide +kernel

end Predicate

end Docstore
