/-!
# Texts that show their ends

A grammar is unambiguous when a text and what follows it cannot be confused with
another text of its kind and what follows that.  `AgreeOnlyIf` says so of two
texts: with something behind each of them that starts with one of given
characters, the two read the same only if a claim holds, and then the same
stands behind both.

Such texts can be put behind one another (`AgreeOnlyIf.append`) and joined to
lists (`agreeOnlyIf_intercalate`).  The simplest of them are the words of a class
of characters that no end belongs to (`agreeOnlyIf_of_class`).
-/

namespace Docstore

namespace Text

/-- Whether characters are at their end or go on with one of `ends`. -/
def StopsAt (ends : List Char) : List Char → Prop
  | [] => True
  | c :: _ => c ∈ ends

/-- Whether characters go on with one of `ends`. -/
def StartsIn (ends : List Char) (cs : List Char) : Prop := ∃ c rest, cs = c :: rest ∧ c ∈ ends

/-- Whether two texts, with something behind each that starts with one of `ends`, read the same
only if `claim` holds and the same stands behind both. -/
def AgreeOnlyIf (ends : List Char) (claim : Prop) (as bs : List Char) : Prop :=
  ∀ r s, StopsAt ends r → StopsAt ends s → as ++ r = bs ++ s → claim ∧ r = s

theorem StartsIn.stopsAt_append {ends cs : List Char} (h : StartsIn ends cs) (r : List Char) :
    StopsAt ends (cs ++ r) := by
  obtain ⟨c, rest, rfl, hc⟩ := h
  exact hc

theorem StopsAt.mono {ends ends' cs : List Char} (hsub : ends ⊆ ends') (h : StopsAt ends cs) :
    StopsAt ends' cs := by
  cases cs with
  | nil => exact trivial
  | cons c cs => exact hsub h

namespace AgreeOnlyIf

variable {ends inner as bs cs ds : List Char} {claim claim' : Prop}

theorem of_eq (h : AgreeOnlyIf ends claim as bs) (heq : as = bs) : claim :=
  (h [] [] trivial trivial (by rw [heq])).1

theorem imp (h : AgreeOnlyIf ends claim as bs) (hclaim : claim → claim') :
    AgreeOnlyIf ends claim' as bs := by
  intro r s hr hs heq
  obtain ⟨hc, hrs⟩ := h r s hr hs heq
  exact ⟨hclaim hc, hrs⟩

theorem symm (h : AgreeOnlyIf ends claim as bs) : AgreeOnlyIf ends claim bs as := by
  intro r s hr hs heq
  obtain ⟨hc, hrs⟩ := h s r hs hr heq.symm
  exact ⟨hc, hrs.symm⟩

theorem mono (hsub : ends ⊆ inner) (h : AgreeOnlyIf inner claim as bs) :
    AgreeOnlyIf ends claim as bs :=
  fun r s hr hs heq => h r s (hr.mono hsub) (hs.mono hsub) heq

theorem prepend (front : List Char) (h : AgreeOnlyIf ends claim as bs) :
    AgreeOnlyIf ends claim (front ++ as) (front ++ bs) := by
  intro r s hr hs heq
  rw [List.append_assoc, List.append_assoc] at heq
  exact h r s hr hs (List.append_cancel_left heq)

theorem cons (c : Char) (h : AgreeOnlyIf ends claim as bs) :
    AgreeOnlyIf ends claim (c :: as) (c :: bs) :=
  h.prepend [c]

/-- **Texts behind one another agree in turn.** -/
theorem append (h : AgreeOnlyIf inner claim as bs)
    (hcs : ∀ r, StopsAt ends r → StopsAt inner (cs ++ r))
    (hds : ∀ r, StopsAt ends r → StopsAt inner (ds ++ r))
    (hnext : claim → AgreeOnlyIf ends claim' cs ds) :
    AgreeOnlyIf ends (claim ∧ claim') (as ++ cs) (bs ++ ds) := by
  intro r s hr hs heq
  rw [List.append_assoc, List.append_assoc] at heq
  obtain ⟨hc, hrest⟩ := h _ _ (hcs r hr) (hds s hs) heq
  obtain ⟨hc', hrs⟩ := hnext hc r s hr hs hrest
  exact ⟨⟨hc, hc'⟩, hrs⟩

theorem append_same (h : AgreeOnlyIf inner claim as bs) (hcs : StartsIn inner cs) :
    AgreeOnlyIf ends claim (as ++ cs) (bs ++ cs) := by
  intro r s hr hs heq
  rw [List.append_assoc, List.append_assoc] at heq
  obtain ⟨hc, hrest⟩ := h _ _ (hcs.stopsAt_append r) (hcs.stopsAt_append s) heq
  exact ⟨hc, List.append_cancel_left hrest⟩

end AgreeOnlyIf

variable {ends : List Char}

theorem agreeOnlyIf_of_head_ne {claim : Prop} {c d : Char} {as bs : List Char} (hne : c ≠ d) :
    AgreeOnlyIf ends claim (c :: as) (d :: bs) :=
  fun _ _ _ _ heq => absurd (List.cons.inj heq).1 hne

theorem takeWhile_append_stop {p : Char → Bool} {as r : List Char} (has : ∀ c ∈ as, p c = true)
    (hends : ends.all (!p ·) = true) (hr : StopsAt ends r) : (as ++ r).takeWhile p = as := by
  rw [List.takeWhile_append_of_pos has]
  cases r with
  | nil => rw [List.takeWhile_nil, List.append_nil]
  | cons c r =>
    have hc : p c = false := by simpa using List.all_eq_true.mp hends c hr
    rw [List.takeWhile_cons_of_neg (by simp [hc]), List.append_nil]

/-- **A word of a class of characters ends where the class does.** -/
theorem agreeOnlyIf_of_class (p : Char → Bool) {as bs : List Char} (has : ∀ c ∈ as, p c = true)
    (hbs : ∀ c ∈ bs, p c = true) (hends : ends.all (!p ·) = true) :
    AgreeOnlyIf ends (as = bs) as bs := by
  intro r s hr hs heq
  have hwords : as = bs := by
    rw [← takeWhile_append_stop has hends hr, heq, takeWhile_append_stop hbs hends hs]
  subst hwords
  exact ⟨rfl, List.append_cancel_left heq⟩

/-! ### Lists -/

theorem intercalate_cons_eq (sep first : List Char) (rest : List (List Char)) :
    sep.intercalate (first :: rest) = first ++ rest.flatMap (sep ++ ·) := by
  induction rest generalizing first with
  | nil => simp
  | cons second rest ih =>
    rw [List.intercalate_cons_cons, ih, List.flatMap_cons, List.append_assoc, List.append_assoc]

variable {α β : Type} (text : α → List Char) (key : α → β) {mark : Char} (sep : List Char)

theorem stopsAt_flatMap {as : List α} {r : List Char} (hr : StopsAt ends r) :
    StopsAt (mark :: ends) (as.flatMap (fun a => (mark :: sep) ++ text a) ++ r) := by
  cases as with
  | nil => exact hr.mono (List.subset_cons_self mark ends)
  | cons a as => exact List.mem_cons_self

/-- Texts behind separators agree one by one, when the separator starts with no end. -/
theorem agreeOnlyIf_flatMap (hmark : mark ∉ ends) {as bs : List α}
    (htext : ∀ a ∈ as, ∀ b ∈ bs, AgreeOnlyIf (mark :: ends) (key a = key b) (text a) (text b)) :
    AgreeOnlyIf ends (as.map key = bs.map key) (as.flatMap fun a => (mark :: sep) ++ text a)
      (bs.flatMap fun b => (mark :: sep) ++ text b) := by
  induction as generalizing bs with
  | nil =>
    cases bs with
    | nil => exact fun r s _ _ heq => ⟨rfl, heq⟩
    | cons b bs =>
      intro r s hr _ heq
      rw [List.flatMap_nil, List.nil_append] at heq
      subst heq
      exact absurd hr hmark
  | cons a as ih =>
    cases bs with
    | nil =>
      intro r s _ hs heq
      rw [List.flatMap_nil, List.nil_append] at heq
      subst heq
      exact absurd hs hmark
    | cons b bs =>
      have hfirst := (htext a List.mem_cons_self b List.mem_cons_self).prepend (mark :: sep)
      have hrest := ih fun a ha b hb =>
        htext a (List.mem_cons_of_mem _ ha) b (List.mem_cons_of_mem _ hb)
      rw [List.flatMap_cons, List.flatMap_cons]
      refine (hfirst.append (fun r hr => stopsAt_flatMap text sep hr)
        (fun s hs => stopsAt_flatMap text sep hs)
        fun _ => hrest).imp ?_
      rintro ⟨hkey, hkeys⟩
      rw [List.map_cons, List.map_cons, hkey, hkeys]

theorem stopsAt_flatMap_append {close : Char} (as : List α) (r : List Char) :
    StopsAt [mark, close] ((as.flatMap fun a => (mark :: sep) ++ text a) ++ [close] ++ r) := by
  rw [List.append_assoc]
  exact stopsAt_flatMap text sep (show StopsAt [close] ([close] ++ r) from List.mem_cons_self)

/-- **Joined lists agree item by item**, when the separator starts with no end. -/
theorem agreeOnlyIf_intercalate (hmark : mark ∉ ends) {as bs : List α} (has : as ≠ [])
    (hbs : bs ≠ [])
    (htext : ∀ a ∈ as, ∀ b ∈ bs, AgreeOnlyIf (mark :: ends) (key a = key b) (text a) (text b)) :
    AgreeOnlyIf ends (as.map key = bs.map key) ((mark :: sep).intercalate (as.map text))
      ((mark :: sep).intercalate (bs.map text)) := by
  obtain ⟨a, as, rfl⟩ := List.exists_cons_of_ne_nil has
  obtain ⟨b, bs, rfl⟩ := List.exists_cons_of_ne_nil hbs
  have hrest := agreeOnlyIf_flatMap text key sep hmark fun a ha b hb =>
    htext a (List.mem_cons_of_mem _ ha) b (List.mem_cons_of_mem _ hb)
  simp only [List.map_cons, intercalate_cons_eq, List.flatMap_map]
  refine ((htext a List.mem_cons_self b List.mem_cons_self).append
    (fun r hr => stopsAt_flatMap text sep hr)
        (fun s hs => stopsAt_flatMap text sep hs) fun _ => hrest).imp ?_
  rintro ⟨hkey, hkeys⟩
  rw [hkey, hkeys]

/-- **Lists between brackets agree item by item**, whatever follows them. -/
theorem agreeOnlyIf_bracketed {close : Char} (hclose : mark ≠ close) {as bs : List α}
    (hfirst : ∀ a, a ∈ as ∨ a ∈ bs → ∃ c rest, text a = c :: rest ∧ c ≠ close)
    (htext : ∀ a ∈ as, ∀ b ∈ bs, AgreeOnlyIf [mark, close] (key a = key b) (text a) (text b)) :
    AgreeOnlyIf ends (as.map key = bs.map key)
      ((mark :: sep).intercalate (as.map text) ++ [close])
      ((mark :: sep).intercalate (bs.map text) ++ [close]) := by
  have hempty {a : α} {as : List α} (ha : ∃ c rest, text a = c :: rest ∧ c ≠ close) {claim : Prop} :
      AgreeOnlyIf ends claim ([] ++ [close])
        ((mark :: sep).intercalate ((a :: as).map text) ++ [close]) := by
    obtain ⟨c, rest, hc, hne⟩ := ha
    rw [List.map_cons, intercalate_cons_eq, hc]
    exact agreeOnlyIf_of_head_ne (Ne.symm hne)
  by_cases has : as = []
  · subst has
    by_cases hbs : bs = []
    · subst hbs
      exact fun r s _ _ heq => ⟨rfl, List.append_cancel_left heq⟩
    · obtain ⟨b, bs, rfl⟩ := List.exists_cons_of_ne_nil hbs
      exact hempty (hfirst b (.inr List.mem_cons_self))
  · by_cases hbs : bs = []
    · subst hbs
      obtain ⟨a, as, rfl⟩ := List.exists_cons_of_ne_nil has
      exact (hempty (hfirst a (.inl List.mem_cons_self))).symm
    · exact (agreeOnlyIf_intercalate text key sep (by simpa using hclose) has hbs
        htext).append_same ⟨close, [], rfl, List.mem_cons_self⟩

end Text

end Docstore
