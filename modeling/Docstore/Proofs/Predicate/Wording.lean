import Docstore.Predicate.Text
import Docstore.Proofs.Term.Plain

/-!
# The text of a comparison determines it

Two differences between comparisons are not written down: membership in a list of
one is written as an equation, and a string that spells a number is written as the
number.  `Comparison.written` removes both.  A comparison in this form is put
together from the path of its field, the words of its relation and its operands;
the words settle the order of the three (`toList_render`).

The words of relations that share an order do not start one another
(`Wording.word_append_inj`).  Where the operands come first they may be an array or
a list of operands; these are written differently, and still neither of them
continues where the other has ended (`agreeOnlyIf_renderOperands_literalText`).
-/

namespace Docstore

open Text Json

/-! ### Comparisons as they are written -/

def Operand.written : Operand → Operand
  | .literal v => .literal v.written
  | .raw text => .raw text

/-- The comparison with a list of one as the equation that is written for it. -/
def Comparison.asEquation : Comparison → Comparison
  | .list .isIn [only] => .single .equal only
  | .list .notIn [only] => .single .notEqual only
  | c => c

/-- The same comparison with other operands. -/
def Comparison.mapOperands (f : Operand → Operand) : Comparison → Comparison
  | .single relation operand => .single relation (f operand)
  | .list relation operands => .list relation (operands.map f)
  | .between low high => .between (f low) (f high)

def Comparison.written (c : Comparison) : Comparison := c.asEquation.mapOperands Operand.written

def Comparison.operands : Comparison → List Operand
  | .single _ operand => [operand]
  | .list _ operands => operands
  | .between low high => [low, high]

def Comparison.IsLiteral (c : Comparison) : Prop := ∀ o ∈ c.operands, ∃ v, o = .literal v

theorem Json.literalText_written (v : Json) : v.written.literalText = v.literalText := by
  cases v with
  | string s =>
    rw [written]
    split
    · next n h =>
      show (Json.number n).compact = _
      rw [literalText, h]
      rfl
    · rfl
  | _ => rfl

theorem Operand.render_written (o : Operand) : o.written.render = o.render := by
  cases o with
  | literal v => exact v.literalText_written
  | raw text => rfl

theorem renderOperands_map_written (os : List Operand) :
    renderOperands (os.map Operand.written) = renderOperands os := by
  have hmap : (os.map Operand.written).map Operand.render = os.map Operand.render := by
    rw [List.map_map]
    exact List.map_congr_left fun o _ => o.render_written
  rw [renderOperands, renderOperands, hmap]

namespace Comparison

theorem render_asEquation (left : String) (c : Comparison) :
    c.asEquation.render left = c.render left := by
  unfold asEquation
  split <;> rfl

theorem render_mapOperands_written (left : String) (c : Comparison) :
    (c.mapOperands Operand.written).render left = c.render left := by
  cases c with
  | single relation operand => rw [mapOperands, render, render, operand.render_written]
  | list relation operands =>
    have hlist := renderOperands_map_written operands
    cases relation with
    | isIn =>
      rcases operands with _ | ⟨only, _ | ⟨second, more⟩⟩
      · rfl
      · exact congrArg (left ++ " == " ++ ·) only.render_written
      · exact congrArg (left ++ " IN " ++ ·) hlist
    | notIn =>
      rcases operands with _ | ⟨only, _ | ⟨second, more⟩⟩
      · rfl
      · exact congrArg (left ++ " != " ++ ·) only.render_written
      · exact congrArg (left ++ " NOT IN " ++ ·) hlist
    | allIn => exact congrArg (· ++ " ALL IN " ++ left) hlist
    | anyIn => exact congrArg (· ++ " ANY IN " ++ left) hlist
  | between low high => rw [mapOperands, render, render, low.render_written, high.render_written]

/-- **What is not written down makes no difference to the text.** -/
theorem render_written (left : String) (c : Comparison) : c.written.render left = c.render left := by
  rw [written, render_mapOperands_written, render_asEquation]

theorem asEquation_asEquation (c : Comparison) : c.asEquation.asEquation = c.asEquation := by
  by_cases hin : ∃ only, c = .list .isIn [only]
  · obtain ⟨only, rfl⟩ := hin
    rfl
  by_cases hnotIn : ∃ only, c = .list .notIn [only]
  · obtain ⟨only, rfl⟩ := hnotIn
    rfl
  have hsame : c.asEquation = c := by
    rw [asEquation]
    · exact fun only h => hin ⟨only, h⟩
    · exact fun only h => hnotIn ⟨only, h⟩
  rw [hsame, hsame]

theorem isLiteral_asEquation {c : Comparison} (h : c.IsLiteral) : c.asEquation.IsLiteral := by
  unfold asEquation
  split
  · exact h
  · exact h
  · exact h

theorem ne_singleton {relation : ListRelation} {only : Operand}
    (h : asEquation (.list relation [only]) = .list relation [only]) :
    relation = .allIn ∨ relation = .anyIn := by
  cases relation with
  | isIn => exact absurd h (by simp [asEquation])
  | notIn => exact absurd h (by simp [asEquation])
  | allIn => exact .inl rfl
  | anyIn => exact .inr rfl

end Comparison

/-! ### Relations and their words -/

/-- What a comparison says, without its operands. -/
inductive Wording where
  | single (relation : SingleRelation)
  | list (relation : ListRelation)
  | between
  deriving DecidableEq

/-- What stands first in a comparison. -/
inductive Order where
  /-- The field. -/
  | fieldFirst
  /-- The field, with its case folded as that of the operand. -/
  | folded
  /-- The operands. -/
  | operandsFirst
  deriving DecidableEq

namespace Wording

/-- The wordings, one by one. -/
def every : List Wording :=
  [.single .equal, .single .notEqual, .single .greater, .single .greaterOrEqual, .single .less,
    .single .lessOrEqual, .single .like, .single .notLike, .single .has, .single .notHas,
    .list .isIn, .list .notIn, .list .allIn, .list .anyIn, .between]

theorem mem_every (a : Wording) : a ∈ every := by
  cases a with
  | single relation => cases relation <;> decide
  | list relation => cases relation <;> decide
  | between => decide

/-- What stands first. -/
def order : Wording → Order
  | .single .like | .single .notLike => .folded
  | .single .has | .single .notHas | .list .allIn | .list .anyIn => .operandsFirst
  | _ => .fieldFirst

/-- The words between what stands first and what stands second. -/
def word : Wording → List Char
  | .single .equal => " == ".toList
  | .single .notEqual => " != ".toList
  | .single .greater => " > ".toList
  | .single .greaterOrEqual => " >= ".toList
  | .single .less => " < ".toList
  | .single .lessOrEqual => " <= ".toList
  | .single .like => ") LIKE LOWER(".toList
  | .single .notLike => ") NOT LIKE LOWER(".toList
  | .single .has => " IN ".toList
  | .single .notHas => " NOT IN ".toList
  | .list .isIn => " IN ".toList
  | .list .notIn => " NOT IN ".toList
  | .list .allIn => " ALL IN ".toList
  | .list .anyIn => " ANY IN ".toList
  | .between => " BETWEEN ".toList

theorem eq_of_isPrefixOf_word : ∀ a ∈ every, ∀ b ∈ every, a.order = b.order →
    a.word.isPrefixOf b.word = true → a = b := by
  decide +kernel

/-- **The words of a relation are no beginning of those of another with the same order.** -/
theorem word_append_inj {a b : Wording} (horder : a.order = b.order) {r s : List Char}
    (h : a.word ++ r = b.word ++ s) : a = b ∧ r = s := by
  have ha : a.word <+: a.word ++ r := List.prefix_append a.word r
  have hb : b.word <+: a.word ++ r := h ▸ List.prefix_append b.word s
  have heq : a = b := by
    rcases List.prefix_or_prefix_of_prefix ha hb with hab | hba
    · exact eq_of_isPrefixOf_word a a.mem_every b b.mem_every horder
        (List.isPrefixOf_iff_prefix.mpr hab)
    · exact (eq_of_isPrefixOf_word b b.mem_every a a.mem_every horder.symm
        (List.isPrefixOf_iff_prefix.mpr hba)).symm
  subst heq
  exact ⟨rfl, List.append_cancel_left h⟩

theorem word_startsIn (a : Wording) : StartsIn pathEnds a.word := by
  cases a with
  | single relation => cases relation <;> exact ⟨_, _, rfl, by decide⟩
  | list relation => cases relation <;> exact ⟨_, _, rfl, by decide⟩
  | between => exact ⟨_, _, rfl, by decide⟩

theorem startsIn_of_operandsFirst {a : Wording} (h : a.order = .operandsFirst) :
    StartsIn [' '] a.word := by
  cases a with
  | single relation =>
    cases relation with
    | has => exact ⟨' ', _, rfl, by decide⟩
    | notHas => exact ⟨' ', _, rfl, by decide⟩
    | _ => exact absurd h (by decide)
  | list relation =>
    cases relation with
    | allIn => exact ⟨' ', _, rfl, by decide⟩
    | anyIn => exact ⟨' ', _, rfl, by decide⟩
    | _ => exact absurd h (by decide)
  | between => exact absurd h (by decide)

theorem agreeOnlyIf_word {ends cs ds : List Char} {claim : Prop} {a b : Wording}
    (horder : a.order = b.order) (hnext : a = b → AgreeOnlyIf ends claim cs ds) :
    AgreeOnlyIf ends (a = b ∧ claim) (a.word ++ cs) (b.word ++ ds) := by
  intro r s hr hs h
  rw [List.append_assoc, List.append_assoc] at h
  obtain ⟨hab, hrest⟩ := word_append_inj horder h
  obtain ⟨hclaim, hrs⟩ := hnext hab r s hr hs hrest
  exact ⟨⟨hab, hclaim⟩, hrs⟩

end Wording

namespace Comparison

def wording : Comparison → Wording
  | .single relation _ => .single relation
  | .list relation _ => .list relation
  | .between _ _ => .between

def operandChars : Comparison → List Char
  | .single _ operand => operand.render.toList
  | .list _ operands => (renderOperands operands).toList
  | .between low high => low.render.toList ++ (" AND ".toList ++ high.render.toList)

theorem toList_append_three (s t u : String) :
    (s ++ t ++ u).toList = s.toList ++ (t.toList ++ u.toList) := by
  rw [String.toList_append, String.toList_append, List.append_assoc]

theorem toList_append_five (s t u v w : String) :
    (s ++ t ++ u ++ v ++ w).toList =
      s.toList ++ (t.toList ++ (u.toList ++ (v.toList ++ w.toList))) := by
  rw [toList_append_three, toList_append_three, List.append_assoc, List.append_assoc]

/-- **A text is put together from the field, the words of the relation and the operands.** -/
theorem toList_render (left : String) {c : Comparison} (h : c.asEquation = c) :
    (c.render left).toList =
      match c.wording.order with
      | .fieldFirst => left.toList ++ (c.wording.word ++ c.operandChars)
      | .folded => "LOWER(".toList ++ (left.toList ++ (c.wording.word ++ (c.operandChars ++ [')'])))
      | .operandsFirst => c.operandChars ++ (c.wording.word ++ left.toList) := by
  cases c with
  | single relation operand =>
    cases relation with
    | like => exact toList_append_five _ _ _ _ _
    | notLike => exact toList_append_five _ _ _ _ _
    | _ => exact toList_append_three _ _ _
  | list relation operands =>
    cases relation with
    | isIn =>
      match operands with
      | [] => exact toList_append_three _ _ _
      | [_] => exact absurd (ne_singleton h) (by decide)
      | _ :: _ :: _ => exact toList_append_three _ _ _
    | notIn =>
      match operands with
      | [] => exact toList_append_three _ _ _
      | [_] => exact absurd (ne_singleton h) (by decide)
      | _ :: _ :: _ => exact toList_append_three _ _ _
    | allIn => exact toList_append_three _ _ _
    | anyIn => exact toList_append_three _ _ _
  | between low high =>
    have htext := toList_append_five left " BETWEEN " low.render " AND " high.render
    exact htext

end Comparison

/-! ### Operands -/

theorem toList_renderOperands (os : List Operand) :
    (renderOperands os).toList =
      '[' :: ([',', ' '].intercalate (os.map fun o => o.render.toList) ++ [']']) := by
  rw [renderOperands, String.toList_append, String.toList_append, String.toList_intercalate,
    List.map_map]
  rfl

/-- **The text of a list of literals determines them**, as they are written. -/
theorem agreeOnlyIf_renderOperands {os us : List Operand} (hos : ∀ o ∈ os, ∃ v, o = .literal v)
    (hus : ∀ u ∈ us, ∃ w, u = .literal w) (ends : List Char) :
    AgreeOnlyIf ends (os.map Operand.written = us.map Operand.written) (renderOperands os).toList
      (renderOperands us).toList := by
  rw [toList_renderOperands, toList_renderOperands]
  refine AgreeOnlyIf.cons '[' (agreeOnlyIf_bracketed (fun o : Operand => o.render.toList)
    Operand.written [' '] (show ',' ≠ ']' by decide) ?_ ?_)
  · rintro o (ho | ho)
    · obtain ⟨v, rfl⟩ := hos o ho
      exact literalText_ne_cons (by decide) v
    · obtain ⟨v, rfl⟩ := hus o ho
      exact literalText_ne_cons (by decide) v
  · intro o ho u hu
    obtain ⟨v, rfl⟩ := hos o ho
    obtain ⟨w, rfl⟩ := hus u hu
    refine ((agreeOnlyIf_literalText v w).mono (by decide)).imp fun h => ?_
    rw [Operand.written, Operand.written, h]

/-- Behind its first item a list has a comma and a blank, an array a comma alone: they go on alike
only when both are at their end. -/
theorem agreeOnlyIf_tails (os : List Operand) (ws : List Json) (ends : List Char) :
    AgreeOnlyIf ends True (os.flatMap (fun o => [',', ' '] ++ o.render.toList) ++ [']'])
      (ws.flatMap (fun w => [','] ++ w.compact.toList) ++ [']']) := by
  cases os with
  | nil =>
    cases ws with
    | nil => exact fun r s _ _ h => ⟨trivial, List.append_cancel_left h⟩
    | cons w ws => exact agreeOnlyIf_of_head_ne (by decide)
  | cons o os =>
    cases ws with
    | nil => exact agreeOnlyIf_of_head_ne (by decide)
    | cons w ws =>
      obtain ⟨d, rest, hw, hd⟩ := compact_ne_cons (show typeOfFirst ' ' = "" by decide) w
      simp only [List.flatMap_cons, hw]
      exact AgreeOnlyIf.cons ',' (agreeOnlyIf_of_head_ne hd.symm)

theorem agreeOnlyIf_renderOperands_compact_array {os : List Operand}
    (hos : ∀ o ∈ os, ∃ v, o = .literal v) (items : List Json) (ends : List Char) :
    AgreeOnlyIf ends True (renderOperands os).toList (compact (.array items)).toList := by
  rw [toList_renderOperands, toList_compact_array]
  refine AgreeOnlyIf.cons '[' ?_
  cases os with
  | nil =>
    cases items with
    | nil => exact agreeOnlyIf_tails [] [] ends
    | cons w ws =>
      obtain ⟨d, rest, hw, hd⟩ := compact_ne_cons (show typeOfFirst ']' = "" by decide) w
      simp only [List.map_cons, intercalate_cons_eq, hw]
      exact agreeOnlyIf_of_head_ne hd.symm
  | cons o os =>
    obtain ⟨v, rfl⟩ := hos o List.mem_cons_self
    cases items with
    | nil =>
      obtain ⟨d, rest, hv, hd⟩ := literalText_ne_cons (show typeOfFirst ']' = "" by decide) v
      simp only [List.map_cons, intercalate_cons_eq, Operand.render, hv]
      exact agreeOnlyIf_of_head_ne hd
    | cons w ws =>
      have hfirst : AgreeOnlyIf [',', ']'] True v.literalText.toList w.compact.toList := by
        rw [literalText_eq_compact]
        exact ((agreeOnlyIf_compact v.written w).mono (by decide)).imp fun _ => trivial
      simp only [List.map_cons, intercalate_cons_eq, List.flatMap_map, List.append_assoc]
      exact (hfirst.append (fun r _ => stopsAt_flatMap_append _ [' '] os r)
        (fun r _ => stopsAt_flatMap_append _ [] ws r) fun _ => agreeOnlyIf_tails os ws ends).imp
          fun _ => trivial

/-- **A list of literals and a literal with one text end at the same place.** -/
theorem agreeOnlyIf_renderOperands_literalText {os : List Operand}
    (hos : ∀ o ∈ os, ∃ v, o = .literal v) (v : Json) (ends : List Char) :
    AgreeOnlyIf ends True (renderOperands os).toList v.literalText.toList := by
  rw [literalText_eq_compact]
  by_cases harray : v.written.typeName = "array"
  · cases hw : v.written with
    | array items => exact agreeOnlyIf_renderOperands_compact_array hos items ends
    | _ => rw [hw] at harray; exact absurd harray (by simp [typeName])
  · obtain ⟨c, rest, hc, htype⟩ := v.written.exists_compact_eq_cons
    rw [toList_renderOperands, hc]
    refine agreeOnlyIf_of_head_ne ?_
    rintro rfl
    exact harray htype.symm

namespace Comparison

variable {c d : Comparison}

theorem agreeOnlyIf_operandChars (hc : c.IsLiteral) (hd : d.IsLiteral)
    (hwording : c.wording = d.wording) :
    AgreeOnlyIf valueEnds (c.mapOperands Operand.written = d.mapOperands Operand.written)
      c.operandChars d.operandChars := by
  cases c with
  | single relation operand =>
    cases d with
    | single relation' operand' =>
      obtain rfl := Wording.single.inj hwording
      obtain ⟨v, rfl⟩ := hc operand List.mem_cons_self
      obtain ⟨w, rfl⟩ := hd operand' List.mem_cons_self
      refine (agreeOnlyIf_literalText v w).imp fun h => ?_
      rw [mapOperands, mapOperands, Operand.written, Operand.written, h]
    | _ => exact absurd hwording (by simp [wording])
  | list relation operands =>
    cases d with
    | list relation' operands' =>
      obtain rfl := Wording.list.inj hwording
      exact (agreeOnlyIf_renderOperands hc hd valueEnds).imp fun h =>
        congrArg (Comparison.list relation) h
    | _ => exact absurd hwording (by simp [wording])
  | between low high =>
    cases d with
    | between low' high' =>
      obtain ⟨a, rfl⟩ := hc low (by simp [operands])
      obtain ⟨b, rfl⟩ := hc high (by simp [operands])
      obtain ⟨a', rfl⟩ := hd low' (by simp [operands])
      obtain ⟨b', rfl⟩ := hd high' (by simp [operands])
      have hand : StartsIn valueEnds " AND ".toList := ⟨' ', _, rfl, by decide⟩
      refine ((agreeOnlyIf_literalText a a').append (fun r _ => ?_) (fun r _ => ?_)
        fun _ => (agreeOnlyIf_literalText b b').prepend " AND ".toList).imp ?_
      · rw [List.append_assoc]
        exact hand.stopsAt_append _
      · rw [List.append_assoc]
        exact hand.stopsAt_append _
      · rintro ⟨hlow, hhigh⟩
        simp only [mapOperands, Operand.written, hlow, hhigh]
    | _ => exact absurd hwording (by simp [wording])

theorem agreeOnlyIf_operandChars_of_operandsFirst (hc : c.IsLiteral) (hd : d.IsLiteral)
    (hcfirst : c.wording.order = .operandsFirst) (hdfirst : d.wording.order = .operandsFirst) :
    AgreeOnlyIf valueEnds True c.operandChars d.operandChars := by
  cases c with
  | single relation operand =>
    obtain ⟨v, rfl⟩ := hc operand List.mem_cons_self
    cases d with
    | single relation' operand' =>
      obtain ⟨w, rfl⟩ := hd operand' List.mem_cons_self
      exact (agreeOnlyIf_literalText v w).imp fun _ => trivial
    | list relation' operands' => exact (agreeOnlyIf_renderOperands_literalText hd v valueEnds).symm
    | between _ _ => exact absurd hdfirst (by simp [wording, Wording.order])
  | list relation operands =>
    cases d with
    | single relation' operand' =>
      obtain ⟨w, rfl⟩ := hd operand' List.mem_cons_self
      exact agreeOnlyIf_renderOperands_literalText hc w valueEnds
    | list relation' operands' =>
      exact (agreeOnlyIf_renderOperands hc hd valueEnds).imp fun _ => trivial
    | between _ _ => exact absurd hdfirst (by simp [wording, Wording.order])
  | between _ _ => exact absurd hcfirst (by simp [wording, Wording.order])

/-! ### Whole comparisons -/

/-- What stands first in the comparisons whose texts start with a character. -/
def orderOfFirst (x : Char) : Order :=
  if x = 'r' then .fieldFirst else if x = 'L' then .folded else .operandsFirst

theorem exists_operandChars_eq_cons (hc : c.IsLiteral) (hfirst : c.wording.order = .operandsFirst) :
    ∃ x rest, c.operandChars = x :: rest ∧ typeOfFirst x ≠ "" := by
  cases c with
  | single relation operand =>
    obtain ⟨v, rfl⟩ := hc operand List.mem_cons_self
    obtain ⟨x, rest, htext, hx⟩ := v.written.exists_compact_eq_cons
    refine ⟨x, rest, ?_, hx ▸ v.written.typeName_ne_empty⟩
    rw [operandChars, Operand.render, literalText_eq_compact, htext]
  | list relation operands => exact ⟨'[', _, toList_renderOperands operands, by decide⟩
  | between _ _ => exact absurd hfirst (by simp [wording, Wording.order])

theorem exists_attributePath_eq_cons (path : String) :
    ∃ rest, (attributePath recordVariable path).toList = 'r' :: rest := by
  rw [attributePath, String.toList_append]
  exact ⟨_, rfl⟩

/-- **The first character of a comparison tells what stands first in it**, and it is no opening
parenthesis. -/
theorem exists_render_eq_cons (path : String) (h : c.asEquation = c) (hc : c.IsLiteral) :
    ∃ x rest, (c.render (attributePath recordVariable path)).toList = x :: rest ∧
      orderOfFirst x = c.wording.order ∧ x ≠ '(' := by
  obtain ⟨tail, hpath⟩ := exists_attributePath_eq_cons path
  rw [toList_render _ h]
  cases horder : c.wording.order with
  | fieldFirst => exact ⟨'r', _, by rw [hpath]; rfl, rfl, by decide⟩
  | folded => exact ⟨'L', _, rfl, rfl, by decide⟩
  | operandsFirst =>
    obtain ⟨x, rest, htext, hx⟩ := exists_operandChars_eq_cons hc horder
    have hne (y : Char) (hy : typeOfFirst y = "") : x ≠ y := by
      rintro rfl
      exact hx hy
    refine ⟨x, _, by rw [htext]; rfl, ?_, hne '(' (by decide)⟩
    rw [orderOfFirst, if_neg (hne 'r' (by decide)), if_neg (hne 'L' (by decide))]

theorem agreeOnlyIf_of_order_ne {ends : List Char} {claim : Prop} (p q : String)
    (hc : c.asEquation = c) (hd : d.asEquation = d) (hcl : c.IsLiteral) (hdl : d.IsLiteral)
    (hne : c.wording.order ≠ d.wording.order) :
    AgreeOnlyIf ends claim (c.render (attributePath recordVariable p)).toList
      (d.render (attributePath recordVariable q)).toList := by
  obtain ⟨x, cs, hx, hxc, -⟩ := exists_render_eq_cons p hc hcl
  obtain ⟨y, ds, hy, hyd, -⟩ := exists_render_eq_cons q hd hdl
  rw [hx, hy]
  refine agreeOnlyIf_of_head_ne ?_
  rintro rfl
  exact hne (hxc.symm.trans hyd)

theorem word_stopsAt {ends : List Char} (a : Wording) (hsub : pathEnds ⊆ ends) (cs r : List Char) :
    StopsAt ends (a.word ++ cs ++ r) := by
  rw [List.append_assoc]
  exact (a.word_startsIn.stopsAt_append (cs ++ r)).mono hsub

theorem agreeOnlyIf_fieldFirst {p q : String} (hp : '\\' ∉ p.toList) (hq : '\\' ∉ q.toList)
    (hcl : c.IsLiteral) (hdl : d.IsLiteral) (horder : c.wording.order = d.wording.order) :
    AgreeOnlyIf valueEnds
      (p = q ∧ c.mapOperands Operand.written = d.mapOperands Operand.written)
      ((attributePath recordVariable p).toList ++ (c.wording.word ++ c.operandChars))
      ((attributePath recordVariable q).toList ++ (d.wording.word ++ d.operandChars)) := by
  have hpath := agreeOnlyIf_attributePath recordVariable hp hq
  refine (hpath.append (fun r _ => word_stopsAt _ (List.Subset.refl _) _ r)
    (fun r _ => word_stopsAt _ (List.Subset.refl _) _ r) fun _ =>
      Wording.agreeOnlyIf_word horder fun hw => agreeOnlyIf_operandChars hcl hdl hw).imp ?_
  rintro ⟨hpq, -, hcd⟩
  exact ⟨hpq, hcd⟩

/-- Comparisons with the operands first. -/
theorem agreeOnlyIf_operandsFirst {p q : String} (hp : '\\' ∉ p.toList) (hq : '\\' ∉ q.toList)
    (hcl : c.IsLiteral) (hdl : d.IsLiteral) (hc : c.wording.order = .operandsFirst)
    (hd : d.wording.order = .operandsFirst) :
    AgreeOnlyIf pathEnds
      (p = q ∧ c.mapOperands Operand.written = d.mapOperands Operand.written)
      (c.operandChars ++ (c.wording.word ++ (attributePath recordVariable p).toList))
      (d.operandChars ++ (d.wording.word ++ (attributePath recordVariable q).toList)) := by
  have hpath := agreeOnlyIf_attributePath recordVariable hp hq
  have horder : c.wording.order = d.wording.order := hc.trans hd.symm
  have hsub : pathEnds ⊆ valueEnds := by decide
  by_cases hw : c.wording = d.wording
  · refine ((agreeOnlyIf_operandChars hcl hdl hw).append (fun r _ => word_stopsAt _ hsub _ r)
      (fun r _ => word_stopsAt _ hsub _ r) fun _ =>
        Wording.agreeOnlyIf_word horder fun _ => hpath).imp ?_
    rintro ⟨hcd, -, hpq⟩
    exact ⟨hpq, hcd⟩
  · refine ((agreeOnlyIf_operandChars_of_operandsFirst hcl hdl hc hd).append
      (fun r _ => word_stopsAt _ hsub _ r) (fun r _ => word_stopsAt _ hsub _ r) fun _ =>
        Wording.agreeOnlyIf_word horder fun _ => hpath).imp ?_
    rintro ⟨-, hw', -⟩
    exact absurd hw' hw

/-- **The text of a comparison determines its field and the comparison as it is written.** -/
theorem agreeOnlyIf_render {p q : String} (hp : '\\' ∉ p.toList) (hq : '\\' ∉ q.toList)
    (hcl : c.IsLiteral) (hdl : d.IsLiteral) :
    AgreeOnlyIf [')'] (p = q ∧ c.written = d.written)
      (c.render (attributePath recordVariable p)).toList
      (d.render (attributePath recordVariable q)).toList := by
  rw [← render_asEquation _ c, ← render_asEquation _ d, written, written]
  have hc := c.asEquation_asEquation
  have hd := d.asEquation_asEquation
  have hcl := isLiteral_asEquation hcl
  have hdl := isLiteral_asEquation hdl
  generalize c.asEquation = c at *
  generalize d.asEquation = d at *
  by_cases horder : c.wording.order = d.wording.order
  · rw [toList_render _ hc, toList_render _ hd, ← horder]
    cases hfirst : c.wording.order with
    | fieldFirst => exact (agreeOnlyIf_fieldFirst hp hq hcl hdl horder).mono (by decide)
    | folded =>
      have hclose : StartsIn valueEnds [')'] := ⟨')', [], rfl, by decide⟩
      have h : AgreeOnlyIf [')'] _ _ _ :=
        (agreeOnlyIf_fieldFirst hp hq hcl hdl horder).append_same hclose
      simp only [List.append_assoc] at h
      exact h.prepend "LOWER(".toList
    | operandsFirst =>
      exact (agreeOnlyIf_operandsFirst hp hq hcl hdl hfirst (horder ▸ hfirst)).mono (by decide)
  · exact agreeOnlyIf_of_order_ne p q hc hd hcl hdl horder

end Comparison

end Docstore
