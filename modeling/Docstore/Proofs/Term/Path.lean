import Docstore.Proofs.Term.Plain

/-!
# Paths

A path is a list of names with points between them, and each name is an identifier or
stands between backticks.  Between backticks a backslash goes with the character
behind it, and the first backtick that is left ends the name (`IsQuotedText`).

The path to an attribute is written by escaping backticks and nothing else.  So it is
a path as long as no backslash of a name takes a backtick with it, neither one of the
name nor the one behind it (`IsQuotable`); and it is none otherwise
(`isPath_attributePath_iff`).  A backslash in front of a backtick lets the name end
too early, where no point follows; one at the end of a name takes the closing
backtick, and the next backtick is one that opens a name (`writtenNames_ne`).
-/

namespace Docstore

open Text

/-! ### The texts of paths -/

/-- What may stand between the backticks around a name. -/
inductive IsQuotedText : List Char → Prop where
  | nil : IsQuotedText []
  | escaped (c : Char) {cs : List Char} (h : IsQuotedText cs) : IsQuotedText ('\\' :: c :: cs)
  | plain {c : Char} {cs : List Char} (hslash : c ≠ '\\') (htick : c ≠ backtick)
      (h : IsQuotedText cs) : IsQuotedText (c :: cs)

/-- A name as it stands in a path: an identifier, or a text between backticks. -/
inductive IsPathName : List Char → Prop where
  | identifier {cs : List Char} (h : isIdentifierChars cs = true) : IsPathName cs
  | quoted {cs : List Char} (h : IsQuotedText cs) : IsPathName (backtick :: (cs ++ [backtick]))

/-- At least one name, with points between the names. -/
def IsPath (s : String) : Prop :=
  ∃ names, names ≠ [] ∧ (∀ name ∈ names, IsPathName name) ∧ s.toList = ['.'].intercalate names

theorem isPath_of_isIdentifier {s : String} (h : isIdentifier s = true) : IsPath s := by
  refine ⟨[s.toList], by simp, ?_, by simp⟩
  intro name hname
  obtain rfl := List.mem_singleton.mp hname
  exact .identifier h

theorem not_mem_of_isIdentifierChars {cs : List Char} (h : isIdentifierChars cs = true) {c : Char}
    (hc : isNameChar c = false) : c ∉ cs := by
  intro hm
  rw [isNameChar_of_isIdentifierChars h c hm] at hc
  exact Bool.noConfusion hc

/-- Without a backtick a path is made of identifiers, so all its characters are theirs or
points. -/
theorem IsPath.chars {s : String} (h : IsPath s) (htick : backtick ∉ s.toList) :
    ∀ c ∈ s.toList, isNameChar c = true ∨ c = '.' := by
  obtain ⟨names, hne, hnames, hs⟩ := h
  obtain ⟨first, rest, rfl⟩ := List.exists_cons_of_ne_nil hne
  rw [intercalate_cons_eq] at hs
  have hname : ∀ name ∈ first :: rest, (∀ c ∈ name, c ∈ s.toList) →
      ∀ c ∈ name, isNameChar c = true := by
    intro name hname hsub
    cases hnames name hname with
    | identifier hi => exact isNameChar_of_isIdentifierChars hi
    | quoted _ => exact absurd (hsub backtick List.mem_cons_self) htick
  intro c hc
  rw [hs, List.mem_append, List.mem_flatMap] at hc
  rcases hc with hc | ⟨name, hmem, hc⟩
  · refine Or.inl (hname first List.mem_cons_self (fun d hd => ?_) c hc)
    rw [hs]
    exact List.mem_append_left _ hd
  · rcases List.mem_cons.mp hc with rfl | hc
    · exact Or.inr rfl
    · refine Or.inl (hname name (List.mem_cons_of_mem _ hmem) (fun d hd => ?_) c hc)
      rw [hs]
      exact List.mem_append_right _ (List.mem_flatMap.mpr ⟨name, hmem, List.mem_cons_of_mem _ hd⟩)

/-! ### Names that can be quoted -/

/-- No backslash of the name takes a backtick with it: none of its own, and not the one that
closes it. -/
inductive IsQuotable : List Char → Prop where
  | nil : IsQuotable []
  | escaped {c : Char} {cs : List Char} (htick : c ≠ backtick) (h : IsQuotable cs) :
      IsQuotable ('\\' :: c :: cs)
  | plain {c : Char} {cs : List Char} (hslash : c ≠ '\\') (h : IsQuotable cs) : IsQuotable (c :: cs)

theorem isQuotable_of_not_mem {cs : List Char} (h : '\\' ∉ cs) : IsQuotable cs := by
  induction cs with
  | nil => exact .nil
  | cons c cs ih =>
    exact .plain (List.ne_of_not_mem_cons h).symm (ih (List.not_mem_of_not_mem_cons h))

theorem isQuotable_of_isIdentifierChars {cs : List Char} (h : isIdentifierChars cs = true) :
    IsQuotable cs :=
  isQuotable_of_not_mem (not_mem_of_isIdentifierChars h (by decide))

def escapedName (name : List Char) : List Char := name.flatMap escapeInBackticks

theorem escapedName_cons_of_ne {c : Char} (h : c ≠ backtick) (name : List Char) :
    escapedName (c :: name) = c :: escapedName name := by
  rw [escapedName, List.flatMap_cons, escapeInBackticks, if_neg h]
  rfl

theorem escapedName_backtick_cons (name : List Char) :
    escapedName (backtick :: name) = '\\' :: backtick :: escapedName name := rfl

theorem IsQuotable.isQuotedText {name : List Char} (h : IsQuotable name) :
    IsQuotedText (escapedName name) := by
  induction h with
  | nil => exact .nil
  | @escaped c name htick _ ih =>
    rw [escapedName_cons_of_ne (by decide), escapedName_cons_of_ne htick]
    exact .escaped c ih
  | @plain c name hslash _ ih =>
    by_cases htick : c = backtick
    · rw [htick, escapedName_backtick_cons]
      exact .escaped backtick ih
    · rw [escapedName_cons_of_ne htick]
      exact .plain hslash htick ih

theorem pathSegment_of_isIdentifierChars {cs : List Char} (h : isIdentifierChars cs = true) :
    pathSegment cs = cs := if_pos h

theorem pathSegment_of_not {cs : List Char} (h : ¬isIdentifierChars cs = true) :
    pathSegment cs = backtick :: (escapedName cs ++ [backtick]) := if_neg h

theorem IsQuotable.isPathName {cs : List Char} (h : IsQuotable cs) :
    IsPathName (pathSegment cs) := by
  by_cases hi : isIdentifierChars cs = true
  · rw [pathSegment_of_isIdentifierChars hi]
    exact .identifier hi
  · rw [pathSegment_of_not hi]
    exact .quoted h.isQuotedText

/-! ### Names that can not -/

/-- Characters of no special meaning in front do not change where a quoted text ends. -/
theorem IsQuotedText.exists_of_append {cs r inner s : List Char} (h : IsQuotedText inner)
    (hcs : ∀ c ∈ cs, c ≠ '\\' ∧ c ≠ backtick) (heq : cs ++ r = inner ++ backtick :: s) :
    ∃ inner', IsQuotedText inner' ∧ r = inner' ++ backtick :: s := by
  induction cs generalizing inner with
  | nil => exact ⟨inner, h, heq⟩
  | cons c cs ih =>
    obtain ⟨hslash, htick⟩ := hcs c List.mem_cons_self
    cases h with
    | nil => exact absurd (List.cons.inj heq).1 htick
    | escaped d _ => exact absurd (List.cons.inj heq).1 hslash
    | plain _ _ h =>
      exact ih h (fun d hd => hcs d (List.mem_cons_of_mem c hd)) (List.cons.inj heq).2

theorem IsQuotedText.eq_nil {inner s r : List Char} (h : IsQuotedText inner)
    (heq : backtick :: r = inner ++ backtick :: s) : inner = [] ∧ r = s := by
  cases h with
  | nil => exact ⟨rfl, (List.cons.inj heq).2⟩
  | escaped c _ => exact absurd (List.cons.inj heq).1 (by decide)
  | plain _ htick _ => exact absurd (List.cons.inj heq).1.symm htick

/-- What follows an opening backtick is no point. -/
theorem not_stopsAt_escapedName {name rest : List Char} (hname : '.' ∉ name) :
    ¬StopsAt ['.'] (escapedName name ++ backtick :: rest) := by
  cases name with
  | nil => exact fun h => absurd (List.mem_singleton.mp h) (by decide)
  | cons c name =>
    by_cases htick : c = backtick
    · rw [htick, escapedName_backtick_cons]
      exact fun h => absurd (List.mem_singleton.mp h) (by decide)
    · rw [escapedName_cons_of_ne htick]
      exact fun h => List.ne_of_not_mem_cons hname (List.mem_singleton.mp h).symm

/-- The names as they are written, each behind a point. -/
def writtenNames (names : List (List Char)) : List Char :=
  names.flatMap fun name => '.' :: pathSegment name

/-- A quoted text that goes on into the next names does not end at the end of a name: the
backtick that ends it opens one of them. -/
theorem writtenNames_ne {names : List (List Char)} (hnames : ∀ name ∈ names, '.' ∉ name)
    {inner s : List Char} (h : IsQuotedText inner) (hs : StopsAt ['.'] s) :
    writtenNames names ≠ inner ++ backtick :: s := by
  induction names generalizing inner with
  | nil => simp [writtenNames]
  | cons name names ih =>
    intro heq
    obtain ⟨hname, hrest⟩ := List.forall_mem_cons.mp hnames
    have hsplit : ['.'] ++ (pathSegment name ++ writtenNames names) = inner ++ backtick :: s := heq
    have hpoint : ∀ c ∈ ['.'], c ≠ '\\' ∧ c ≠ backtick := by
      intro c hc
      obtain rfl := List.mem_singleton.mp hc
      exact ⟨by decide, by decide⟩
    obtain ⟨inner, h, hsplit⟩ := h.exists_of_append hpoint hsplit
    by_cases hi : isIdentifierChars name = true
    · rw [pathSegment_of_isIdentifierChars hi] at hsplit
      have hplain : ∀ c ∈ name, c ≠ '\\' ∧ c ≠ backtick := by
        intro c hc
        constructor
        · rintro rfl
          exact not_mem_of_isIdentifierChars hi (by decide) hc
        · rintro rfl
          exact not_mem_of_isIdentifierChars hi (by decide) hc
      obtain ⟨inner, h, hsplit⟩ := h.exists_of_append hplain hsplit
      exact ih hrest h hsplit
    · rw [pathSegment_of_not hi, List.cons_append, List.append_assoc] at hsplit
      obtain ⟨-, htail⟩ := h.eq_nil hsplit
      exact not_stopsAt_escapedName hname (htail ▸ hs)

/-- **A name between backticks ends at its own backtick only if it can be quoted.** -/
theorem isQuotable_of_eq {names : List (List Char)} (hnames : ∀ name ∈ names, '.' ∉ name)
    {name inner s : List Char} (hname : '.' ∉ name) (h : IsQuotedText inner)
    (hs : StopsAt ['.'] s)
    (heq : escapedName name ++ backtick :: writtenNames names = inner ++ backtick :: s) :
    IsQuotable name ∧ writtenNames names = s := by
  induction h generalizing name with
  | nil =>
    cases name with
    | nil => exact ⟨.nil, (List.cons.inj heq).2⟩
    | cons d name =>
      by_cases htick : d = backtick
      · rw [htick, escapedName_backtick_cons] at heq
        exact absurd (List.cons.inj heq).1 (by decide)
      · rw [escapedName_cons_of_ne htick] at heq
        exact absurd (List.cons.inj heq).1 htick
  | @plain c inner hslash htick _ ih =>
    cases name with
    | nil => exact absurd (List.cons.inj heq).1.symm htick
    | cons d name =>
      by_cases hd : d = backtick
      · rw [hd, escapedName_backtick_cons] at heq
        exact absurd (List.cons.inj heq).1.symm hslash
      · rw [escapedName_cons_of_ne hd] at heq
        obtain ⟨rfl, htail⟩ := List.cons.inj heq
        obtain ⟨hq, hrest⟩ := ih (List.not_mem_of_not_mem_cons hname) htail
        exact ⟨.plain hslash hq, hrest⟩
  | @escaped c inner h ih =>
    cases name with
    | nil => exact absurd (List.cons.inj heq).1 (by decide)
    | cons d name =>
      have hname := List.not_mem_of_not_mem_cons hname
      by_cases hd : d = backtick
      · rw [hd, escapedName_backtick_cons] at heq
        obtain ⟨hq, hrest⟩ := ih hname (List.cons.inj (List.cons.inj heq).2).2
        exact ⟨.plain (by rw [hd]; decide) hq, hrest⟩
      rw [escapedName_cons_of_ne hd] at heq
      obtain ⟨hslash, htail⟩ := List.cons.inj heq
      rw [hslash]
      -- the backslash takes the character behind it, which may be the closing backtick
      cases name with
      | nil => exact absurd (List.cons.inj htail).2 (writtenNames_ne hnames h hs)
      | cons e name =>
        have hname := List.not_mem_of_not_mem_cons hname
        by_cases he : e = backtick
        · rw [he, escapedName_backtick_cons] at htail
          obtain ⟨-, hearly⟩ := h.eq_nil (List.cons.inj htail).2
          exact absurd (hearly ▸ hs) (not_stopsAt_escapedName hname)
        · rw [escapedName_cons_of_ne he] at htail
          obtain ⟨hq, hrest⟩ := ih hname (List.cons.inj htail).2
          exact ⟨.escaped he hq, hrest⟩

/-! ### Paths to attributes -/

theorem stopsAt_behindPoints (text : List Char → List Char) (names : List (List Char)) :
    StopsAt ['.'] (names.flatMap fun name => '.' :: text name) := by
  cases names with
  | nil => exact trivial
  | cons name names => exact List.mem_cons_self

theorem append_ne_of_isIdentifierChars {cs r s : List Char} (h : isIdentifierChars cs = true) :
    cs ++ r ≠ backtick :: s := by
  cases cs with
  | nil => exact absurd h (by simp [isIdentifierChars])
  | cons c cs =>
    intro heq
    obtain rfl : c = backtick := (List.cons.inj heq).1
    exact not_mem_of_isIdentifierChars h (by decide) List.mem_cons_self

/-- Where names as they are written read like names of a path, they can be quoted. -/
theorem isQuotable_of_names_eq {names texts : List (List Char)}
    (hnames : ∀ name ∈ names, '.' ∉ name) (htexts : ∀ text ∈ texts, IsPathName text)
    (heq : writtenNames names = texts.flatMap fun text => '.' :: text) :
    ∀ name ∈ names, IsQuotable name := by
  induction names generalizing texts with
  | nil => exact fun _ h => absurd h (by simp)
  | cons name names ih =>
    obtain ⟨hname, hrest⟩ := List.forall_mem_cons.mp hnames
    cases texts with
    | nil => exact absurd heq (by simp [writtenNames])
    | cons text texts =>
      obtain ⟨htext, htailTexts⟩ := List.forall_mem_cons.mp htexts
      have htail : pathSegment name ++ writtenNames names =
          text ++ texts.flatMap fun text => '.' :: text := (List.cons.inj heq).2
      rw [List.forall_mem_cons]
      by_cases hi : isIdentifierChars name = true
      · rw [pathSegment_of_isIdentifierChars hi] at htail
        cases htext with
        | identifier hj =>
          obtain ⟨-, hmore⟩ := agreeOnlyIf_of_class isNameChar
            (isNameChar_of_isIdentifierChars hi) (isNameChar_of_isIdentifierChars hj)
            (show ['.'].all (!isNameChar ·) = true by decide) _ _
            (stopsAt_behindPoints pathSegment names) (stopsAt_behindPoints id texts) htail
          exact ⟨isQuotable_of_isIdentifierChars hi, ih hrest htailTexts hmore⟩
        | quoted _ => exact absurd htail (append_ne_of_isIdentifierChars hi)
      · rw [pathSegment_of_not hi] at htail
        cases htext with
        | identifier hj => exact absurd htail.symm (append_ne_of_isIdentifierChars hj)
        | quoted hinner =>
          rw [List.cons_append, List.cons_append, List.append_assoc, List.append_assoc] at htail
          obtain ⟨hq, hmore⟩ :=
            isQuotable_of_eq hrest hname hinner (stopsAt_behindPoints id texts)
              (List.cons.inj htail).2
          exact ⟨hq, ih hrest htailTexts hmore⟩

/-- The variable and the names of an attribute, with points between them. -/
theorem toList_attributePath (loopVar field : String) :
    (attributePath loopVar field).toList =
      ['.'].intercalate (loopVar.toList :: (piecesOf '.' field.toList).map pathSegment) := by
  rw [attributePath, String.toList_append, String.toList_ofList, intercalate_cons_eq,
    List.flatMap_map]
  rfl

theorem cons_intercalate {names : List (List Char)} (h : names ≠ []) :
    '.' :: ['.'].intercalate names = names.flatMap fun name => '.' :: name := by
  obtain ⟨first, rest, rfl⟩ := List.exists_cons_of_ne_nil h
  rw [intercalate_cons_eq, List.flatMap_cons]
  rfl

/-- The names of an attribute can all be quoted. -/
def HasQuotableNames (path : String) : Prop :=
  ∀ name ∈ piecesOf '.' path.toList, IsQuotable name

theorem hasQuotableNames_of_not_mem {path : String} (h : '\\' ∉ path.toList) :
    HasQuotableNames path := by
  intro name hname
  exact isQuotable_of_not_mem fun hslash => h (mem_of_mem_piecesOf hname _ hslash)

/-- **The path to an attribute is a path exactly when its names can be quoted.** -/
theorem isPath_attributePath_iff {loopVar : String} (hvar : isIdentifier loopVar = true)
    (field : String) : IsPath (attributePath loopVar field) ↔ HasQuotableNames field := by
  have hsegment : pathSegment loopVar.toList = loopVar.toList :=
    pathSegment_of_isIdentifierChars hvar
  constructor
  · rintro ⟨texts, hne, htexts, htext⟩
    rw [toList_attributePath, ← hsegment, ← List.map_cons] at htext
    have hnames : ∀ name ∈ loopVar.toList :: piecesOf '.' field.toList, '.' ∉ name := by
      refine List.forall_mem_cons.mpr ⟨not_mem_of_isIdentifierChars hvar (by decide), ?_⟩
      exact fun name hname => not_mem_of_mem_piecesOf hname
    have heq := congrArg ('.' :: ·) htext
    rw [cons_intercalate (by simp), cons_intercalate hne, List.flatMap_map] at heq
    exact (List.forall_mem_cons.mp (isQuotable_of_names_eq hnames htexts heq)).2
  · intro h
    refine ⟨_, by simp, ?_, toList_attributePath loopVar field⟩
    refine List.forall_mem_cons.mpr ⟨.identifier hvar, ?_⟩
    intro text htext
    obtain ⟨name, hname, rfl⟩ := List.mem_map.mp htext
    exact (h name hname).isPathName

end Docstore
