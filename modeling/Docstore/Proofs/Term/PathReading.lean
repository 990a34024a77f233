import Mathlib.Data.List.Forall2
import Docstore.Proofs.Term.Path

/-!
# How paths are read

A path is read from left to right.  Outside backticks a name is an identifier; between
them a backslash makes the character behind it a part of the name, and the first
backtick that is left ends the name.  `Path.read?` gives the names, or nothing where a
text is no path or ends inside a quote.  It reads exactly the texts whose parts between
the points spell names (`Path.read?_eq_some_iff`).

The path to an attribute is written by escaping backticks and nothing else.  So the
names that are read are those of the attribute without their escapes, if no backslash
takes a backtick with it, and there are none otherwise
(`Path.read?_attributePath_eq_some_iff`).  They are the names themselves exactly when
there is no backslash among them.
-/

namespace Docstore

open Text

/-! ### Escapes -/

/-- The characters without the backslashes that escape others. -/
def unescaped : List Char → List Char
  | [] => []
  | ['\\'] => ['\\']
  | '\\' :: c :: cs => c :: unescaped cs
  | c :: cs => c :: unescaped cs

theorem unescaped_escape_cons (c : Char) (cs : List Char) :
    unescaped ('\\' :: c :: cs) = c :: unescaped cs := rfl

theorem unescaped_cons_of_ne {c : Char} (h : c ≠ '\\') (cs : List Char) :
    unescaped (c :: cs) = c :: unescaped cs := by
  rw [unescaped]
  · exact fun hc => absurd hc h
  · exact fun _ _ hc => absurd hc h

namespace Path

/-! ### The reader -/

/-- Where a reader stands in a path. -/
inductive Place where
  /-- In front of a name. -/
  | front
  /-- Inside an identifier. -/
  | inside
  /-- Between backticks. -/
  | quoted
  /-- Between backticks, behind a backslash. -/
  | escaped
  /-- Behind the backtick that ends a name. -/
  | closed

/-- The rest of the name at hand, and the names behind it. -/
abbrev NamesLeft := List Char × List (List Char)

/-- The character is the next one of the name at hand. -/
def inName (c : Char) (left : Option NamesLeft) : Option NamesLeft :=
  left.map fun p => (c :: p.1, p.2)

/-- The name at hand has ended, and others follow. -/
def inNextName (left : Option NamesLeft) : Option NamesLeft := left.map fun p => ([], p.1 :: p.2)

/-- The names that a text goes on with at a place. -/
def readNames : Place → List Char → Option NamesLeft
  | .front, [] => none
  | .front, c :: cs =>
      if c = backtick then readNames .quoted cs
      else if isNameStart c then inName c (readNames .inside cs)
      else none
  | .inside, [] => some ([], [])
  | .inside, c :: cs =>
      if isNameChar c then inName c (readNames .inside cs)
      else if c = '.' then inNextName (readNames .front cs)
      else none
  | .quoted, [] => none
  | .quoted, c :: cs =>
      if c = backtick then readNames .closed cs
      else if c = '\\' then readNames .escaped cs
      else inName c (readNames .quoted cs)
  | .escaped, [] => none
  | .escaped, c :: cs => inName c (readNames .quoted cs)
  | .closed, [] => some ([], [])
  | .closed, c :: cs => if c = '.' then inNextName (readNames .front cs) else none

def read? (s : String) : Option (List String) :=
  (readNames .front s.toList).map fun p => (p.1 :: p.2).map String.ofList

/-! ### What is read -/

/-- The text stands for the name in a path. -/
inductive Spells : List Char → List Char → Prop where
  | identifier {cs : List Char} (h : isIdentifierChars cs = true) : Spells cs cs
  | quoted {cs : List Char} (h : IsQuotedText cs) :
      Spells (backtick :: (cs ++ [backtick])) (unescaped cs)

theorem Spells.isPathName {text name : List Char} (h : Spells text name) : IsPathName text := by
  cases h with
  | identifier h => exact .identifier h
  | quoted h => exact .quoted h

/-- At a place, the text completes the name of which the rest is given. -/
inductive Completes : Place → List Char → List Char → Prop where
  | front {text name : List Char} (h : Spells text name) : Completes .front text name
  | inside {cs : List Char} (h : ∀ c ∈ cs, isNameChar c = true) : Completes .inside cs cs
  | quoted {cs : List Char} (h : IsQuotedText cs) :
      Completes .quoted (cs ++ [backtick]) (unescaped cs)
  | escaped (c : Char) {cs : List Char} (h : IsQuotedText cs) :
      Completes .escaped (c :: (cs ++ [backtick])) (c :: unescaped cs)
  | closed : Completes .closed [] []

def behindPoints (texts : List (List Char)) : List Char := texts.flatMap fun text => '.' :: text

/-- At a place, the characters complete a name and go on with other names. -/
def Remains (place : Place) (cs name : List Char) (names : List (List Char)) : Prop :=
  ∃ text texts, Completes place text name ∧ List.Forall₂ Spells texts names ∧
    cs = text ++ behindPoints texts

namespace Remains

variable {place : Place} {c : Char} {cs name : List Char} {names : List (List Char)}

theorem done (hplace : Completes place [] []) : Remains place [] [] [] :=
  ⟨[], [], hplace, .nil, rfl⟩

theorem behindPoint (hplace : Completes place [] []) (h : Remains .front cs name names) :
    Remains place ('.' :: cs) [] (name :: names) := by
  obtain ⟨text, texts, hfront, htexts, rfl⟩ := h
  cases hfront with
  | front hspells => exact ⟨[], text :: texts, hplace, .cons hspells htexts, rfl⟩

theorem opened (h : Remains .quoted cs name names) : Remains .front (backtick :: cs) name names := by
  obtain ⟨_, texts, hquoted, htexts, rfl⟩ := h
  cases hquoted with
  | quoted hinner => exact ⟨_, texts, .front (.quoted hinner), htexts, rfl⟩

theorem started (hc : isNameStart c = true) (h : Remains .inside cs name names) :
    Remains .front (c :: cs) (c :: name) names := by
  obtain ⟨_, texts, hinside, htexts, rfl⟩ := h
  cases hinside with
  | inside hchars =>
    have hidentifier : isIdentifierChars (c :: name) = true := by
      rw [isIdentifierChars, hc, Bool.true_and]
      exact List.all_eq_true.mpr hchars
    exact ⟨_, texts, .front (.identifier hidentifier), htexts, rfl⟩

theorem continued (hc : isNameChar c = true) (h : Remains .inside cs name names) :
    Remains .inside (c :: cs) (c :: name) names := by
  obtain ⟨_, texts, hinside, htexts, rfl⟩ := h
  cases hinside with
  | inside hchars =>
    exact ⟨_, texts, .inside (List.forall_mem_cons.mpr ⟨hc, hchars⟩), htexts, rfl⟩

theorem ended (h : Remains .closed cs name names) : Remains .quoted (backtick :: cs) name names := by
  obtain ⟨_, texts, hclosed, htexts, rfl⟩ := h
  cases hclosed with
  | closed => exact ⟨_, texts, .quoted .nil, htexts, rfl⟩

theorem plain (hslash : c ≠ '\\') (htick : c ≠ backtick) (h : Remains .quoted cs name names) :
    Remains .quoted (c :: cs) (c :: name) names := by
  obtain ⟨_, texts, hquoted, htexts, rfl⟩ := h
  cases hquoted with
  | quoted hinner =>
    rw [← unescaped_cons_of_ne hslash]
    exact ⟨_, texts, .quoted (.plain hslash htick hinner), htexts, rfl⟩

theorem escape (h : Remains .escaped cs name names) : Remains .quoted ('\\' :: cs) name names := by
  obtain ⟨_, texts, hescaped, htexts, rfl⟩ := h
  cases hescaped with
  | escaped d hinner => exact ⟨_, texts, .quoted (.escaped d hinner), htexts, rfl⟩

theorem literal (c : Char) (h : Remains .quoted cs name names) :
    Remains .escaped (c :: cs) (c :: name) names := by
  obtain ⟨_, texts, hquoted, htexts, rfl⟩ := h
  cases hquoted with
  | quoted hinner => exact ⟨_, texts, .escaped c hinner, htexts, rfl⟩

end Remains

theorem inName_eq_some_iff {c : Char} {left : Option NamesLeft} {name : List Char}
    {names : List (List Char)} :
    inName c left = some (name, names) ↔ ∃ rest, left = some (rest, names) ∧ c :: rest = name := by
  rw [inName, Option.map_eq_some_iff]
  constructor
  · rintro ⟨⟨rest, more⟩, hleft, heq⟩
    obtain ⟨hname, rfl⟩ := Prod.mk.inj heq
    exact ⟨rest, hleft, hname⟩
  · rintro ⟨rest, hleft, rfl⟩
    exact ⟨_, hleft, rfl⟩

theorem inNextName_eq_some_iff {left : Option NamesLeft} {name : List Char}
    {names : List (List Char)} :
    inNextName left = some (name, names) ↔
      ∃ next more, left = some (next, more) ∧ [] = name ∧ next :: more = names := by
  rw [inNextName, Option.map_eq_some_iff]
  constructor
  · rintro ⟨⟨next, more⟩, hleft, heq⟩
    obtain ⟨hname, hnames⟩ := Prod.mk.inj heq
    exact ⟨next, more, hleft, hname, hnames⟩
  · rintro ⟨next, more, hleft, rfl, rfl⟩
    exact ⟨_, hleft, rfl⟩

theorem remains_of_readNames {place : Place} {cs name : List Char} {names : List (List Char)}
    (h : readNames place cs = some (name, names)) : Remains place cs name names := by
  -- A step may change the place, so the hypothesis is about all places; the splits are the reader's.
  induction cs generalizing place name names with
  | nil =>
    cases place with
    | inside =>
      obtain ⟨rfl, rfl⟩ := Prod.mk.inj (Option.some.inj h)
      exact .done (.inside (by simp))
    | closed =>
      obtain ⟨rfl, rfl⟩ := Prod.mk.inj (Option.some.inj h)
      exact .done .closed
    | _ => exact absurd h (by simp [readNames])
  | cons c cs ih =>
    cases place with
    | front =>
      rw [readNames] at h
      split at h
      · next htick => exact htick ▸ (ih h).opened
      split at h
      · next hstart =>
        obtain ⟨rest, hrest, rfl⟩ := inName_eq_some_iff.mp h
        exact (ih hrest).started hstart
      · exact absurd h (by simp)
    | inside =>
      rw [readNames] at h
      split at h
      · next hchar =>
        obtain ⟨rest, hrest, rfl⟩ := inName_eq_some_iff.mp h
        exact (ih hrest).continued hchar
      split at h
      · next hpoint =>
        obtain ⟨next, more, hnext, rfl, rfl⟩ := inNextName_eq_some_iff.mp h
        exact hpoint ▸ (ih hnext).behindPoint (.inside (by simp))
      · exact absurd h (by simp)
    | quoted =>
      rw [readNames] at h
      split at h
      · next htick => exact htick ▸ (ih h).ended
      next htick =>
      split at h
      · next hslash => exact hslash ▸ (ih h).escape
      · next hslash =>
        obtain ⟨rest, hrest, rfl⟩ := inName_eq_some_iff.mp h
        exact (ih hrest).plain hslash htick
    | escaped =>
      obtain ⟨rest, hrest, rfl⟩ := inName_eq_some_iff.mp h
      exact (ih hrest).literal c
    | closed =>
      rw [readNames] at h
      split at h
      · next hpoint =>
        obtain ⟨next, more, hnext, rfl, rfl⟩ := inNextName_eq_some_iff.mp h
        exact hpoint ▸ (ih hnext).behindPoint .closed
      · exact absurd h (by simp)

/-! ### What can be read -/

theorem readNames_inside {cs name r : List Char} {names : List (List Char)}
    (hcs : ∀ c ∈ cs, isNameChar c = true) (h : readNames .inside r = some (name, names)) :
    readNames .inside (cs ++ r) = some (cs ++ name, names) := by
  induction cs with
  | nil => exact h
  | cons c cs ih =>
    obtain ⟨hc, hrest⟩ := List.forall_mem_cons.mp hcs
    rw [List.cons_append, readNames, if_pos hc, ih hrest]
    rfl

theorem readNames_quoted {inner name r : List Char} {names : List (List Char)}
    (hinner : IsQuotedText inner) (h : readNames .closed r = some (name, names)) :
    readNames .quoted (inner ++ backtick :: r) = some (unescaped inner ++ name, names) := by
  induction hinner with
  | nil => rw [List.nil_append, readNames, if_pos rfl, h]; rfl
  | escaped c _ ih =>
    rw [List.cons_append, List.cons_append, readNames, if_neg (by decide), if_pos rfl, readNames, ih]
    rfl
  | plain hslash htick _ ih =>
    rw [List.cons_append, readNames, if_neg htick, if_neg hslash, ih, unescaped_cons_of_ne hslash]
    rfl

/-- A name goes on with points behind it like one that has been closed. -/
theorem readNames_inside_behindPoints (texts : List (List Char)) :
    readNames .inside (behindPoints texts) = readNames .closed (behindPoints texts) := by
  cases texts with
  | nil => rfl
  | cons text texts =>
    show readNames .inside ('.' :: (text ++ behindPoints texts)) =
      readNames .closed ('.' :: (text ++ behindPoints texts))
    rw [readNames, readNames, if_neg (by decide)]

theorem readNames_front {text name : List Char} (hspells : Spells text name)
    {texts names : List (List Char)} (h : readNames .closed (behindPoints texts) = some ([], names)) :
    readNames .front (text ++ behindPoints texts) = some (name, names) := by
  cases hspells with
  | identifier hi =>
    cases text with
    | nil => exact absurd hi (by simp [isIdentifierChars])
    | cons c cs =>
      have htick : c ≠ backtick := by
        rintro rfl
        exact not_mem_of_isIdentifierChars hi (by decide) List.mem_cons_self
      rw [isIdentifierChars, Bool.and_eq_true] at hi
      rw [← readNames_inside_behindPoints] at h
      rw [List.cons_append, readNames, if_neg htick, if_pos hi.1,
        readNames_inside (List.all_eq_true.mp hi.2) h, List.append_nil]
      rfl
  | quoted hinner =>
    rw [List.cons_append, List.append_assoc, readNames, if_pos rfl, List.singleton_append,
      readNames_quoted hinner h, List.append_nil]

theorem readNames_closed {texts names : List (List Char)} (h : List.Forall₂ Spells texts names) :
    readNames .closed (behindPoints texts) = some ([], names) := by
  induction h with
  | nil => rfl
  | @cons text name texts names hspells _ ih =>
    show readNames .closed ('.' :: (text ++ behindPoints texts)) = _
    rw [readNames, if_pos rfl, readNames_front hspells ih]
    rfl

/-- **The reader takes exactly the texts that spell names**, with points between them. -/
theorem read?_eq_some_iff {s : String} {names : List String} :
    read? s = some names ↔
      ∃ texts, texts ≠ [] ∧ List.Forall₂ Spells texts (names.map String.toList) ∧
        s.toList = ['.'].intercalate texts := by
  constructor
  · intro h
    obtain ⟨⟨name, more⟩, hread, rfl⟩ := Option.map_eq_some_iff.mp h
    obtain ⟨text, texts, hfront, htexts, hs⟩ := remains_of_readNames hread
    have hchars : ((name :: more).map String.ofList).map String.toList = name :: more := by
      rw [List.map_map]
      exact List.map_id'' (fun _ => String.toList_ofList) _
    cases hfront with
    | front hspells =>
      refine ⟨text :: texts, by simp, ?_, ?_⟩
      · rw [hchars]
        exact .cons hspells htexts
      · rw [hs, intercalate_cons_eq]
        rfl
  · rintro ⟨texts, hne, htexts, hs⟩
    cases names with
    | nil =>
      cases htexts
      exact absurd rfl hne
    | cons name names =>
      rw [List.map_cons] at htexts
      cases htexts with
      | @cons text _ texts _ hspells htexts =>
        rw [intercalate_cons_eq] at hs
        have hread : readNames .front s.toList = some (name.toList, names.map String.toList) := by
          rw [hs]
          exact readNames_front hspells (readNames_closed htexts)
        have hstrings : (names.map String.toList).map String.ofList = names := by
          rw [List.map_map]
          exact List.map_id'' (fun _ => String.ofList_toList) _
        rw [read?, hread, Option.map_some, List.map_cons, hstrings, String.ofList_toList]

theorem isPath_of_read? {s : String} {names : List String} (h : read? s = some names) :
    IsPath s := by
  obtain ⟨texts, hne, htexts, hs⟩ := read?_eq_some_iff.mp h
  have hboth := htexts.imp fun text _ hspells => And.intro hspells.isPathName hspells
  exact ⟨texts, hne, ((List.forall₂_and_left _ _).mp hboth).1, hs⟩

end Path

/-! ### Paths to attributes -/

open Docstore.Path

/-- The name without the backslashes that escape others. -/
def withoutEscapes (name : String) : String := String.ofList (unescaped name.toList)

/-- Backticks are escaped only to be read as themselves. -/
theorem IsQuotable.unescaped_escapedName {name : List Char} (h : IsQuotable name) :
    unescaped (escapedName name) = unescaped name := by
  induction h with
  | nil => rfl
  | @escaped c name htick _ ih =>
    rw [escapedName_cons_of_ne (by decide), escapedName_cons_of_ne htick, unescaped_escape_cons,
      unescaped_escape_cons, ih]
  | @plain c name hslash _ ih =>
    rw [unescaped_cons_of_ne hslash]
    by_cases htick : c = backtick
    · rw [htick, escapedName_backtick_cons, unescaped_escape_cons, ih]
    · rw [escapedName_cons_of_ne htick, unescaped_cons_of_ne hslash, ih]

theorem length_unescaped_le (cs : List Char) : (unescaped cs).length ≤ cs.length := by
  fun_induction unescaped cs with
  | case1 => rfl
  | case2 => rfl
  | case3 c cs ih => simp only [List.length_cons]; omega
  | case4 c cs _ _ ih => simp only [List.length_cons]; omega

/-- A name is the same without its escapes if it has none. -/
theorem IsQuotable.unescaped_eq_self_iff {name : List Char} (h : IsQuotable name) :
    unescaped name = name ↔ '\\' ∉ name := by
  induction h with
  | nil => simp [unescaped]
  | @escaped c name _ _ _ =>
    -- The hypothesis for the rest does not help here: the name is shorter without its escape.
    have hshorter : unescaped ('\\' :: c :: name) ≠ '\\' :: c :: name := by
      intro heq
      have hlength := congrArg List.length heq
      have hle := length_unescaped_le name
      rw [unescaped_escape_cons] at hlength
      simp only [List.length_cons] at hlength
      omega
    exact iff_of_false hshorter fun hnone => hnone List.mem_cons_self
  | @plain c name hslash _ ih =>
    rw [unescaped_cons_of_ne hslash, List.cons_eq_cons, and_iff_right rfl, ih, List.mem_cons,
      not_or, and_iff_right (Ne.symm hslash)]

theorem IsQuotable.spells {name : List Char} (h : IsQuotable name) :
    Spells (pathSegment name) (unescaped name) := by
  by_cases hi : isIdentifierChars name = true
  · have hnone := h.unescaped_eq_self_iff.mpr (not_mem_of_isIdentifierChars hi (by decide))
    rw [pathSegment_of_isIdentifierChars hi, hnone]
    exact .identifier hi
  · rw [pathSegment_of_not hi, ← h.unescaped_escapedName]
    exact .quoted h.isQuotedText

/-- **What is read of the path to an attribute**: the variable and the names of the attribute
without their escapes, if they can all be quoted, and nothing otherwise. -/
theorem Path.read?_attributePath_eq_some_iff {loopVar : String}
    (hvar : isIdentifier loopVar = true) (field : String) (names : List String) :
    read? (attributePath loopVar field) = some names ↔
      HasQuotableNames field ∧ names = loopVar :: (cutAtAll '.' field).map withoutEscapes := by
  have hread (h : HasQuotableNames field) : read? (attributePath loopVar field) =
      some (loopVar :: (cutAtAll '.' field).map withoutEscapes) := by
    have hnames : ((loopVar :: (cutAtAll '.' field).map withoutEscapes).map String.toList) =
        loopVar.toList :: (piecesOf '.' field.toList).map unescaped := by
      simp [cutAtAll, withoutEscapes]
    refine read?_eq_some_iff.mpr ⟨_, by simp, ?_, toList_attributePath loopVar field⟩
    rw [hnames]
    refine .cons (.identifier hvar) ?_
    rw [List.forall₂_map_left_iff, List.forall₂_map_right_iff, List.forall₂_same]
    exact fun name hname => (h name hname).spells
  constructor
  · intro h
    have hquotable := (isPath_attributePath_iff hvar field).mp (isPath_of_read? h)
    exact ⟨hquotable, Option.some.inj (h.symm.trans (hread hquotable))⟩
  · rintro ⟨hquotable, rfl⟩
    exact hread hquotable

theorem mem_iff_exists_mem_piecesOf (mark : Char) {c : Char} (hc : c ≠ mark) {cs : List Char} :
    c ∈ cs ↔ ∃ piece ∈ piecesOf mark cs, c ∈ piece := by
  constructor
  · intro h
    obtain ⟨first, rest, hpieces⟩ := List.exists_cons_of_ne_nil (piecesOf_ne_nil mark cs)
    rw [← intercalate_piecesOf mark cs, hpieces, intercalate_cons_eq, List.mem_append,
      List.mem_flatMap] at h
    rw [hpieces]
    rcases h with h | ⟨piece, hpiece, h⟩
    · exact ⟨first, List.mem_cons_self, h⟩
    · rcases List.mem_cons.mp h with rfl | h
      · exact absurd rfl hc
      · exact ⟨piece, List.mem_cons_of_mem _ hpiece, h⟩
  · rintro ⟨piece, hpiece, h⟩
    exact mem_of_mem_piecesOf hpiece c h

/-- **The names that are read are those of the attribute exactly when they hold no backslash.** -/
theorem Path.read?_attributePath {loopVar : String} (hvar : isIdentifier loopVar = true)
    (field : String) :
    (∀ names, read? (attributePath loopVar field) = some names ↔
        HasQuotableNames field ∧ names = loopVar :: (cutAtAll '.' field).map withoutEscapes) ∧
      (read? (attributePath loopVar field) = some (loopVar :: cutAtAll '.' field) ↔
        '\\' ∉ field.toList) := by
  have hread := read?_attributePath_eq_some_iff hvar field
  refine ⟨hread, ?_⟩
  have hslash : '\\' ∉ field.toList ↔ ∀ name ∈ piecesOf '.' field.toList, '\\' ∉ name := by
    rw [mem_iff_exists_mem_piecesOf '.' (by decide)]
    push Not
    rfl
  have hsame : cutAtAll '.' field = (cutAtAll '.' field).map withoutEscapes ↔
      ∀ name ∈ piecesOf '.' field.toList, unescaped name = name := by
    rw [cutAtAll, List.map_map, List.map_inj_left]
    simp only [Function.comp_apply, withoutEscapes, String.toList_ofList, String.ofList_inj, eq_comm]
  rw [hread, List.cons_eq_cons, and_iff_right rfl, hsame, hslash]
  constructor
  · rintro ⟨hquotable, hself⟩ name hname
    exact (hquotable name hname).unescaped_eq_self_iff.mp (hself name hname)
  · intro hnone
    have hquotable : HasQuotableNames field :=
      fun name hname => isQuotable_of_not_mem (hnone name hname)
    exact ⟨hquotable, fun name hname =>
      (hquotable name hname).unescaped_eq_self_iff.mpr (hnone name hname)⟩

/-- Blanks, a backtick and an empty name are read back, and so is a lone backslash, but not as
itself. -/
theorem Path.read?_attributePath_escaped :
    isIdentifier "record" = true ∧
      read? (attributePath "record" "home address..n\x60s") =
        some ["record", "home address", "", "n\x60s"] ∧
      read? (attributePath "record" "a\\b") = some ["record", "ab"] ∧
      read? (attributePath "record" "a\\b") ≠ some ["record", "a\\b"] := by
  have hvar : isIdentifier "record" = true := by decide
  obtain ⟨-, hplain⟩ := read?_attributePath hvar "home address..n\x60s"
  obtain ⟨hread, hslash⟩ := read?_attributePath hvar "a\\b"
  refine ⟨hvar, hplain.mpr (by decide), (hread _).mpr ⟨?_, by decide⟩, ?_⟩
  · intro name hname
    obtain rfl := List.mem_singleton.mp hname
    exact .plain (by decide) (.escaped (by decide) .nil)
  · exact fun h => absurd (hslash.mp h) (by decide)

/-- A backslash takes the one that escapes the backtick behind it, so the name ends there and the
rest of the attribute stands outside any quote. -/
theorem backslash_lets_name_end :
    isIdentifier "record" = true ∧
      attributePath "record" "a\\\x60 == 1 //" = "record.\x60a\\\\\x60" ++ " == 1 //\x60" ∧
      read? "record.\x60a\\\\\x60" = some ["record", "a\\"] ∧
      cutAtAll '.' "a\\\x60 == 1 //" = ["a\\\x60 == 1 //"] ∧
      read? (attributePath "record" "a\\\x60 == 1 //") ≠ some ["record", "a\\\x60 == 1 //"] := by
  decide

end Docstore
