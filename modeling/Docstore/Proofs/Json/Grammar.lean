import Mathlib.Data.List.DropRight
import Docstore.Proofs.Json.Compact
import Docstore.Proofs.Json.Legible

/-!
# Texts of a value

`IsText` is the grammar of JSON as far as values need it: each token is written in one
way, and blanks may stand between two tokens.  So a printer is right as soon as what it
writes is a text of the value, wherever it puts its blanks.

The reader takes every text of a value and leaves what stands behind it (`IsText.read`).
This goes by the steps of the reader, a value, its items and its members in turn.  So a
text of a legible value is read as this value (`parse?_of_isText`).

The printers of the library put blanks behind their commas, colons and braces
(`isText_spacedArray`, `isText_spacedObject`) or none at all (`isText_compact`).
-/

namespace Docstore

open Text (StopsAt)

namespace Json

open Draft (isSpace skipSpaces readValue readItems readMembers tokenEnds)

/-! ### The grammar -/

def AreSpaces (cs : List Char) : Prop := ∀ c ∈ cs, isSpace c = true

mutual

/-- The characters are a text of the value. -/
inductive IsText : Json → List Char → Prop where
  | null : IsText .null ['n', 'u', 'l', 'l']
  | yes : IsText (.bool true) ['t', 'r', 'u', 'e']
  | no : IsText (.bool false) ['f', 'a', 'l', 's', 'e']
  | number {n : Number} (h : n.ReadsBack) : IsText (.number n) n.text.toList
  | string (s : String) : IsText (.string s) (quoteChars s.toList)
  | emptyArray {gap : List Char} (hgap : AreSpaces gap) :
      IsText (.array []) ('[' :: (gap ++ [']']))
  | array {items : List Json} {cs : List Char} (h : IsItemsText items cs) :
      IsText (.array items) ('[' :: cs)
  | emptyObject {gap : List Char} (hgap : AreSpaces gap) :
      IsText (.object []) ('\x7b' :: (gap ++ ['\x7d']))
  | object {members : List (String × Json)} {cs : List Char} (h : IsMembersText members cs) :
      IsText (.object members) ('\x7b' :: cs)

/-- The characters list one or more items, up to the bracket that closes the array. -/
inductive IsItemsText : List Json → List Char → Prop where
  | last {v : Json} {lead cs trail : List Char} (hlead : AreSpaces lead) (h : IsText v cs)
      (htrail : AreSpaces trail) : IsItemsText [v] (lead ++ (cs ++ (trail ++ [']'])))
  | cons {v : Json} {vs : List Json} {lead cs trail ds : List Char} (hlead : AreSpaces lead)
      (h : IsText v cs) (htrail : AreSpaces trail) (hvs : IsItemsText vs ds) :
      IsItemsText (v :: vs) (lead ++ (cs ++ (trail ++ ',' :: ds)))

inductive IsMemberText : String × Json → List Char → Prop where
  | mk (key : String) {v : Json} {gap lead cs : List Char} (hgap : AreSpaces gap)
      (hlead : AreSpaces lead) (h : IsText v cs) :
      IsMemberText (key, v) (quoteChars key.toList ++ (gap ++ ':' :: (lead ++ cs)))

/-- The characters list one or more members, up to the brace that closes the object. -/
inductive IsMembersText : List (String × Json) → List Char → Prop where
  | last {m : String × Json} {lead cs trail : List Char} (hlead : AreSpaces lead)
      (h : IsMemberText m cs) (htrail : AreSpaces trail) :
      IsMembersText [m] (lead ++ (cs ++ (trail ++ ['\x7d'])))
  | cons {m : String × Json} {ms : List (String × Json)} {lead cs trail ds : List Char}
      (hlead : AreSpaces lead) (h : IsMemberText m cs) (htrail : AreSpaces trail)
      (hms : IsMembersText ms ds) :
      IsMembersText (m :: ms) (lead ++ (cs ++ (trail ++ ',' :: ds)))

end

theorem areSpaces_nil : AreSpaces [] := fun _ h => absurd h List.not_mem_nil

theorem areSpaces_singleton : AreSpaces [' '] := by
  intro c hc
  rw [List.mem_singleton.mp hc]
  rfl

theorem IsText.exists_eq_cons {v : Json} {cs : List Char} (h : IsText v cs) :
    ∃ c rest, cs = c :: rest ∧ typeOfFirst c = v.typeName := by
  cases h with
  | number h => exact exists_compact_eq_cons (.number _)
  | _ => exact ⟨_, _, rfl, rfl⟩

theorem IsText.exists_eq_cons_ne {v : Json} {cs : List Char} (h : IsText v cs) :
    ∃ c rest, cs = c :: rest ∧ isSpace c = false ∧ c ≠ ']' := by
  obtain ⟨c, rest, hcs, hc⟩ := h.exists_eq_cons
  have hne : ∀ d, typeOfFirst d = "" → c ≠ d := by
    rintro d hd rfl
    exact v.typeName_ne_empty (hc.symm.trans hd)
  refine ⟨c, rest, hcs, Bool.eq_false_iff.mpr fun hspace => ?_, hne ']' (by decide)⟩
  have hnone : decide (typeOfFirst c = "") = true :=
    Draft.of_isSpace (fun d => decide (typeOfFirst d = "")) (by decide) hspace
  exact hne c (of_decide_eq_true hnone) rfl

/-! ### Blanks -/

theorem readValue_skipSpaces (steps : Nat) (cs : List Char) :
    readValue steps (skipSpaces cs) = readValue steps cs := by
  cases steps with
  | zero => rfl
  | succ steps => rw [readValue, readValue, skipSpaces, skipSpaces, List.dropWhile_idempotent]

theorem readItems_skipSpaces (steps : Nat) (cs : List Char) :
    readItems steps (skipSpaces cs) = readItems steps cs := by
  cases steps with
  | zero => rfl
  | succ steps => rw [readItems, readItems, readValue_skipSpaces]

theorem readMembers_skipSpaces (steps : Nat) (cs : List Char) :
    readMembers steps (skipSpaces cs) = readMembers steps cs := by
  cases steps with
  | zero => rfl
  | succ steps => rw [readMembers, readMembers, skipSpaces, skipSpaces, List.dropWhile_idempotent]

section Blanks

variable {gap : List Char} (hgap : AreSpaces gap)

include hgap

theorem skipSpaces_append (cs : List Char) : skipSpaces (gap ++ cs) = skipSpaces cs :=
  List.dropWhile_append_of_pos hgap

theorem skipSpaces_append_cons {c : Char} (hc : isSpace c = false) (cs : List Char) :
    skipSpaces (gap ++ c :: cs) = c :: cs := by
  rw [skipSpaces_append hgap, Draft.skipSpaces_of_not_isSpace hc]

theorem readValue_append (steps : Nat) (cs : List Char) :
    readValue steps (gap ++ cs) = readValue steps cs := by
  rw [← readValue_skipSpaces, skipSpaces_append hgap, readValue_skipSpaces]

theorem stopsAt_append {c : Char} (hc : c ∈ tokenEnds) (cs : List Char) :
    StopsAt tokenEnds (gap ++ c :: cs) := by
  cases gap with
  | nil => exact hc
  | cons d gap =>
    have hends := Draft.of_isSpace (fun d => decide (d ∈ tokenEnds)) (by decide)
      (hgap d List.mem_cons_self)
    have hmem : d ∈ tokenEnds := of_decide_eq_true hends
    exact hmem

end Blanks

theorem IsItemsText.skipSpaces_ne {items : List Json} {cs : List Char}
    (h : IsItemsText items cs) (r ds : List Char) : skipSpaces (cs ++ r) ≠ ']' :: ds := by
  have hfirst {v : Json} {lead cs : List Char} (hlead : AreSpaces lead) (h : IsText v cs)
      (rest : List Char) : skipSpaces ((lead ++ (cs ++ rest)) ++ r) ≠ ']' :: ds := by
    obtain ⟨c, cs, rfl, hspace, hne⟩ := h.exists_eq_cons_ne
    rw [List.append_assoc, List.cons_append, List.cons_append, skipSpaces_append_cons hlead hspace]
    exact fun heq => hne (List.cons.inj heq).1
  cases h with
  | last hlead h _ => exact hfirst hlead h _
  | cons hlead h _ _ => exact hfirst hlead h _

theorem IsMembersText.skipSpaces_ne {members : List (String × Json)} {cs : List Char}
    (h : IsMembersText members cs) (r ds : List Char) : skipSpaces (cs ++ r) ≠ '\x7d' :: ds := by
  have hfirst {m : String × Json} {lead cs : List Char} (hlead : AreSpaces lead)
      (h : IsMemberText m cs) (rest : List Char) :
      skipSpaces ((lead ++ (cs ++ rest)) ++ r) ≠ '\x7d' :: ds := by
    cases h
    rw [List.append_assoc, quoteChars, List.cons_append, List.cons_append, List.cons_append,
      skipSpaces_append_cons hlead (by decide)]
    exact fun heq => absurd (List.cons.inj heq).1 (by decide)
  cases h with
  | last hlead h _ => exact hfirst hlead h _
  | cons hlead h _ _ => exact hfirst hlead h _

/-! ### Steps of the reader -/

theorem readValue_string (steps : Nat) (s : String) (r : List Char) :
    readValue (steps + 1) (quoteChars s.toList ++ r) = some (.string (some s), r) := by
  have hread := Draft.readString_flatMap s.toList r
  rw [String.ofList_toList] at hread
  simp [quoteChars, readValue, skipSpaces, isSpace, hread]

theorem readValue_array {cs : List Char} (hne : ∀ ds, skipSpaces cs ≠ ']' :: ds) (steps : Nat) :
    readValue (steps + 1) ('[' :: cs) =
      (readItems steps cs).map fun r => (.array r.1, r.2) := by
  rw [readValue, Draft.skipSpaces_of_not_isSpace (by decide), ← readItems_skipSpaces]
  simp only

theorem readValue_object {cs : List Char} (hne : ∀ ds, skipSpaces cs ≠ '\x7d' :: ds)
    (steps : Nat) :
    readValue (steps + 1) ('\x7b' :: cs) =
      (readMembers steps cs).map fun r => (.object r.1, r.2) := by
  rw [readValue, Draft.skipSpaces_of_not_isSpace (by decide), ← readMembers_skipSpaces]
  simp only

theorem readItems_last {steps : Nat} {cs rest r : List Char} {d : Draft}
    (hread : readValue steps cs = some (d, rest)) (hrest : skipSpaces rest = ']' :: r) :
    readItems (steps + 1) cs = some ([d], r) := by
  simp [readItems, hread, hrest]

theorem readItems_cons {steps : Nat} {cs rest r r' : List Char} {d : Draft} {ds : List Draft}
    (hread : readValue steps cs = some (d, rest)) (hrest : skipSpaces rest = ',' :: r)
    (hitems : readItems steps r = some (ds, r')) :
    readItems (steps + 1) cs = some (d :: ds, r') := by
  simp [readItems, hread, hrest, hitems]

section Members

variable {lead gap : List Char} (hlead : AreSpaces lead) (hgap : AreSpaces gap) {steps : Nat}
  {cs rest r r' : List Char} {key : String} {d : Draft}

include hlead hgap

theorem readMembers_last (hread : readValue steps cs = some (d, rest))
    (hrest : skipSpaces rest = '\x7d' :: r) :
    readMembers (steps + 1) (lead ++ (quoteChars key.toList ++ (gap ++ ':' :: cs))) =
      some ([(some key, d)], r) := by
  have hkey := Draft.readString_flatMap key.toList (gap ++ ':' :: cs)
  have hcolon := skipSpaces_append_cons hgap (show isSpace ':' = false by decide) cs
  rw [readMembers, quoteChars, List.cons_append, skipSpaces_append_cons hlead (by decide)]
  simp [hkey, hcolon, hread, hrest]

theorem readMembers_cons {ms : List (Option String × Draft)}
    (hread : readValue steps cs = some (d, rest)) (hrest : skipSpaces rest = ',' :: r)
    (hmembers : readMembers steps r = some (ms, r')) :
    readMembers (steps + 1) (lead ++ (quoteChars key.toList ++ (gap ++ ':' :: cs))) =
      some ((some key, d) :: ms, r') := by
  have hkey := Draft.readString_flatMap key.toList (gap ++ ':' :: cs)
  have hcolon := skipSpaces_append_cons hgap (show isSpace ':' = false by decide) cs
  rw [readMembers, quoteChars, List.cons_append, skipSpaces_append_cons hlead (by decide)]
  simp [hkey, hcolon, hread, hrest, hmembers]

end Members

/-! ### The reader on the texts -/

mutual

/-- **The reader takes a text of a value and leaves what stands behind it.** -/
theorem IsText.read {v : Json} {cs : List Char} (h : IsText v cs) {r : List Char}
    (hr : StopsAt tokenEnds r) {steps : Nat} (hsteps : 2 * cs.length ≤ steps) :
    readValue steps (cs ++ r) = some (v.draft, r) := by
  -- A text has a character, so there is a step to take.  The steps go down with each reader,
  -- and before a second one is taken a character has been used.
  obtain ⟨c, rest, hcs, -⟩ := h.exists_eq_cons
  have hlength : cs.length = rest.length + 1 := by rw [hcs, List.length_cons]
  obtain ⟨steps, rfl⟩ := Nat.exists_eq_add_of_le' (show 1 ≤ steps by omega)
  clear hcs hlength
  cases h with
  | null => rfl
  | yes => rfl
  | no => rfl
  | @number n h =>
    obtain ⟨c, cs, htext, hc⟩ := n.exists_text_eq_cons
    have hread := Number.readNumber_text h hr
    rw [htext, List.cons_append] at hread ⊢
    rw [Draft.readValue_number hc, hread]
    rfl
  | string s => exact readValue_string steps s r
  | @emptyArray gap hgap =>
    rw [List.cons_append, List.append_assoc, List.singleton_append, readValue,
      Draft.skipSpaces_of_not_isSpace (by decide)]
    simp only [skipSpaces_append_cons hgap (show isSpace ']' = false by decide)]
    rfl
  | @emptyObject gap hgap =>
    rw [List.cons_append, List.append_assoc, List.singleton_append, readValue,
      Draft.skipSpaces_of_not_isSpace (by decide)]
    simp only [skipSpaces_append_cons hgap (show isSpace '\x7d' = false by decide)]
    rfl
  | @array items cs h =>
    rw [List.length_cons] at hsteps
    rw [List.cons_append, readValue_array (h.skipSpaces_ne r),
      IsItemsText.read h (by omega), draft]
    rfl
  | @object members cs h =>
    rw [List.length_cons] at hsteps
    rw [List.cons_append, readValue_object (h.skipSpaces_ne r),
      IsMembersText.read h (by omega), draft]
    rfl
  termination_by steps

theorem IsItemsText.read {items : List Json} {cs : List Char} (h : IsItemsText items cs)
    {r : List Char} {steps : Nat} (hsteps : 2 * cs.length ≤ steps) :
    readItems steps (cs ++ r) = some (draftItems items, r) := by
  cases h with
  | @last v lead cs trail hlead h htrail =>
    simp only [List.length_append, List.length_cons, List.length_nil] at hsteps
    obtain ⟨steps, rfl⟩ := Nat.exists_eq_add_of_le' (show 1 ≤ steps by omega)
    simp only [List.append_assoc, List.singleton_append]
    refine readItems_last ?_ (skipSpaces_append_cons htrail (by decide) r)
    rw [readValue_append hlead]
    exact IsText.read h (stopsAt_append htrail (by decide) r) (by omega)
  | @cons v vs lead cs trail ds hlead h htrail hvs =>
    simp only [List.length_append, List.length_cons] at hsteps
    obtain ⟨steps, rfl⟩ := Nat.exists_eq_add_of_le' (show 1 ≤ steps by omega)
    simp only [List.append_assoc, List.cons_append]
    refine readItems_cons ?_ (skipSpaces_append_cons htrail (by decide) (ds ++ r))
      (IsItemsText.read hvs (by omega))
    rw [readValue_append hlead]
    exact IsText.read h (stopsAt_append htrail (by decide) (ds ++ r)) (by omega)
  termination_by steps

theorem IsMembersText.read {members : List (String × Json)} {cs : List Char}
    (h : IsMembersText members cs) {r : List Char} {steps : Nat}
    (hsteps : 2 * cs.length ≤ steps) :
    readMembers steps (cs ++ r) = some (draftMembers members, r) := by
  cases h with
  | @last m outer cs trail houter h htrail =>
    obtain @⟨key, v, gap, lead, cs, hgap, hlead, h⟩ := h
    simp only [List.length_append, List.length_cons, List.length_nil] at hsteps
    obtain ⟨steps, rfl⟩ := Nat.exists_eq_add_of_le' (show 1 ≤ steps by omega)
    simp only [List.append_assoc, List.cons_append, List.nil_append]
    refine readMembers_last houter hgap ?_ (skipSpaces_append_cons htrail (by decide) r)
    rw [readValue_append hlead]
    exact IsText.read h (stopsAt_append htrail (by decide) r) (by omega)
  | @cons m ms outer cs trail ds houter h htrail hms =>
    obtain @⟨key, v, gap, lead, cs, hgap, hlead, h⟩ := h
    simp only [List.length_append, List.length_cons] at hsteps
    obtain ⟨steps, rfl⟩ := Nat.exists_eq_add_of_le' (show 1 ≤ steps by omega)
    simp only [List.append_assoc, List.cons_append]
    refine readMembers_cons houter hgap ?_
      (skipSpaces_append_cons htrail (by decide) (ds ++ r)) (IsMembersText.read hms (by omega))
    rw [readValue_append hlead]
    exact IsText.read h (stopsAt_append htrail (by decide) (ds ++ r)) (by omega)
  termination_by steps

end

theorem draft_of_isText {v : Json} {text : String} (h : IsText v text.toList) :
    Draft.parse? text = some v.draft := by
  have hread := h.read (r := []) trivial (Nat.le_succ (2 * text.toList.length))
  rw [List.append_nil] at hread
  rw [Draft.parse?, Draft.parseChars?, hread]
  rfl

/-- **A text of a legible value is read as this value.** -/
theorem parse?_of_isText {v : Json} {text : String} (h : IsText v text.toList)
    (hlegible : v.IsLegible Draft.depthLimit) : parse? text = some v := by
  rw [parse?, draft_of_isText h]
  exact value?_draft v hlegible.depth hlegible.keys

/-! ### Exchanging a value -/

theorem IsText.eq_text {n : Number} {cs : List Char} (h : IsText (.number n) cs) :
    cs = n.text.toList := by
  cases h
  rfl

/-- **In a text of members, the text of a value can be exchanged** for a text of another
value. -/
theorem IsMembersText.exists_exchange {front back : List (String × Json)} {key : String} {v : Json}
    {cs : List Char} (h : IsMembersText (front ++ (key, v) :: back) cs) :
    ∃ before text after, cs = before ++ (text ++ after) ∧ IsText v text ∧
      ∀ w wtext, IsText w wtext →
        IsMembersText (front ++ (key, w) :: back) (before ++ (wtext ++ after)) := by
  induction front generalizing cs with
  | nil =>
    cases h with
    | @last _ outer _ trail houter hmember htrail =>
      obtain @⟨key, v, gap, lead, text, hgap, hlead, htext⟩ := hmember
      refine ⟨outer ++ (quoteChars key.toList ++ (gap ++ ':' :: lead)), text, trail ++ ['\x7d'],
        by simp, htext, fun w wtext hw => ?_⟩
      simpa using IsMembersText.last houter (.mk key hgap hlead hw) htrail
    | @cons _ _ outer _ trail ds houter hmember htrail hback =>
      obtain @⟨key, v, gap, lead, text, hgap, hlead, htext⟩ := hmember
      refine ⟨outer ++ (quoteChars key.toList ++ (gap ++ ':' :: lead)), text, trail ++ ',' :: ds,
        by simp, htext, fun w wtext hw => ?_⟩
      simpa using IsMembersText.cons houter (.mk key hgap hlead hw) htrail hback
  | cons m front ih =>
    rw [List.cons_append] at h
    generalize hrest : front ++ (key, v) :: back = rest at h
    cases h with
    | last => exact absurd hrest (by simp)
    | @cons _ _ outer mtext trail ds houter hmember htrail hmembers =>
      obtain ⟨before, text, after, rfl, htext, hexchange⟩ := ih (hrest ▸ hmembers)
      refine ⟨outer ++ (mtext ++ (trail ++ ',' :: before)), text, after, by simp, htext,
        fun w wtext hw => ?_⟩
      simpa using IsMembersText.cons houter hmember htrail (hexchange w wtext hw)

/-! ### Printers -/

section Lists

variable {lead gap trail : List Char} (hlead : AreSpaces lead) (hgap : AreSpaces gap)
  (htrail : AreSpaces trail)

include hlead hgap htrail

theorem isItemsText_intercalate {text : Json → List Char} {v : Json} {vs : List Json}
    (h : ∀ u ∈ v :: vs, IsText u (text u)) :
    IsItemsText (v :: vs)
      (lead ++ ((',' :: gap).intercalate ((v :: vs).map text) ++ (trail ++ [']']))) := by
  induction vs generalizing v lead with
  | nil =>
    rw [List.map_singleton, List.intercalate_singleton]
    exact .last hlead (h v List.mem_cons_self) htrail
  | cons w vs ih =>
    have hrest := ih hgap fun u hu => h u (List.mem_cons_of_mem _ hu)
    have hitems := IsItemsText.cons hlead (h v List.mem_cons_self) areSpaces_nil hrest
    simpa [List.intercalate_cons_cons] using hitems

theorem isMembersText_intercalate {text : String × Json → List Char} {m : String × Json}
    {ms : List (String × Json)} (h : ∀ n ∈ m :: ms, IsMemberText n (text n)) :
    IsMembersText (m :: ms)
      (lead ++ ((',' :: gap).intercalate ((m :: ms).map text) ++ (trail ++ ['\x7d']))) := by
  induction ms generalizing m lead with
  | nil =>
    rw [List.map_singleton, List.intercalate_singleton]
    exact .last hlead (h m List.mem_cons_self) htrail
  | cons n ms ih =>
    have hrest := ih hgap fun n hn => h n (List.mem_cons_of_mem _ hn)
    have hmembers := IsMembersText.cons hlead (h m List.mem_cons_self) areSpaces_nil hrest
    simpa [List.intercalate_cons_cons] using hmembers

/-- **Texts of items between commas and brackets are a text of the array**, with blanks behind
each bracket and comma. -/
theorem isText_array {text : Json → List Char} {items : List Json}
    (h : ∀ v ∈ items, IsText v (text v)) :
    IsText (.array items)
      ('[' :: (lead ++ ((',' :: gap).intercalate (items.map text) ++ (trail ++ [']'])))) := by
  cases items with
  | nil =>
    have hblank : AreSpaces (lead ++ trail) := List.forall_mem_append.mpr ⟨hlead, htrail⟩
    simpa using IsText.emptyArray hblank
  | cons v vs => exact .array (isItemsText_intercalate hlead hgap htrail h)

/-- **Texts of members between commas and braces are a text of the object.** -/
theorem isText_object {text : String × Json → List Char} {members : List (String × Json)}
    (h : ∀ m ∈ members, IsMemberText m (text m)) :
    IsText (.object members)
      ('\x7b' ::
        (lead ++ ((',' :: gap).intercalate (members.map text) ++ (trail ++ ['\x7d'])))) := by
  cases members with
  | nil =>
    have hblank : AreSpaces (lead ++ trail) := List.forall_mem_append.mpr ⟨hlead, htrail⟩
    simpa using IsText.emptyObject hblank
  | cons m ms => exact .object (isMembersText_intercalate hlead hgap htrail h)

end Lists

/-- **Items behind a comma and a blank each, between brackets**, are a text of the array. -/
theorem isText_spacedArray {text : Json → String} {items : List Json}
    (h : ∀ v ∈ items, IsText v (text v).toList) :
    IsText (.array items) ("[" ++ String.intercalate ", " (items.map text) ++ "]").toList := by
  have htext := isText_array areSpaces_nil areSpaces_singleton areSpaces_nil h
  simpa [String.toList_intercalate, Function.comp_def] using htext

/-- **Members behind a comma and a blank each, between braces and blanks**, are a text of the
object. -/
theorem isText_spacedObject {text : String × Json → String} {members : List (String × Json)}
    (h : ∀ m ∈ members, IsText m.2 (text m).toList) :
    IsText (.object members)
      ("\x7b " ++ String.intercalate ", " (members.map fun m => quote m.1 ++ ": " ++ text m)
        ++ " \x7d").toList := by
  have hmember : ∀ m ∈ members,
      IsMemberText m (quoteChars m.1.toList ++ ':' :: ' ' :: (text m).toList) :=
    fun m hm => .mk m.1 areSpaces_nil areSpaces_singleton (h m hm)
  have htext := isText_object areSpaces_singleton areSpaces_singleton areSpaces_singleton hmember
  simpa [String.toList_intercalate, Function.comp_def, toList_quote] using htext

/-- **The text without blanks is a text of the value.** -/
theorem isText_compact {v : Json} (h : ∀ n, .number n ∈ v.parts → n.ReadsBack) :
    IsText v v.compact.toList := by
  refine parts_induction (P := fun w => IsText w w.compact.toList) v fun w hw ih => ?_
  cases w with
  | null => exact .null
  | bool b =>
    cases b
    · exact .no
    · exact .yes
  | number n => exact .number (h n hw)
  | string s =>
    rw [compact, toList_quote]
    exact .string s
  | array items =>
    rw [toList_compact_array]
    exact isText_array areSpaces_nil areSpaces_nil areSpaces_nil ih
  | object members =>
    have hmember : ∀ m ∈ members, IsMemberText m (memberChars m) := by
      intro m hm
      have hvalue := ih m.2 (List.mem_map_of_mem hm)
      rw [memberChars, toList_quote]
      exact .mk m.1 areSpaces_nil areSpaces_nil hvalue
    rw [toList_compact_object]
    exact isText_object areSpaces_nil areSpaces_nil areSpaces_nil hmember

/-- **A legible value is read back from its text without blanks.** -/
theorem parse?_compact {v : Json} (h : v.IsLegible Draft.depthLimit) : parse? v.compact = some v :=
  parse?_of_isText (isText_compact fun _ => h.readsBack) h

end Json

end Docstore
