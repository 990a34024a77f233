/-!
# Cutting a text at a mark

Cuts are made at single characters: `cutAtFirst?` splits at the first occurrence, `cutAtAll` at
every one.  The lemmas at the end say that a cut loses nothing and that its left part is free of
the mark; together they determine the cut.
-/

namespace Docstore

namespace Text

/-- The characters before the first `mark` and those after it, or `none` without a `mark`. -/
def cutChars? (mark : Char) : List Char → Option (List Char × List Char)
  | [] => none
  | c :: cs =>
      if c = mark then some ([], cs)
      else (cutChars? mark cs).map fun p => (c :: p.1, p.2)

/-- The pieces between the marks; a list without a mark is one piece. -/
def piecesOf (mark : Char) : List Char → List (List Char)
  | [] => [[]]
  | c :: cs =>
      if c = mark then [] :: piecesOf mark cs
      else match piecesOf mark cs with
        | [] => [[c]]
        | piece :: rest => (c :: piece) :: rest

/-- `cutChars?` on texts. -/
def cutAtFirst? (mark : Char) (s : String) : Option (String × String) :=
  (cutChars? mark s.toList).map fun p => (String.ofList p.1, String.ofList p.2)

/-- `piecesOf` on texts. -/
def cutAtAll (mark : Char) (s : String) : List String :=
  (piecesOf mark s.toList).map String.ofList

/-- What follows `front` when the characters start with it. -/
def afterFront? : List Char → List Char → Option (List Char)
  | [], cs => some cs
  | _ :: _, [] => none
  | p :: ps, c :: cs => if p = c then afterFront? ps cs else none

/-- `afterFront?` on texts. -/
def after? (front s : String) : Option String :=
  (afterFront? front.toList s.toList).map String.ofList

/-- Whether a text starts with `front`. -/
def startsWith (front s : String) : Bool := (afterFront? front.toList s.toList).isSome

/-- A cut at the first mark exists exactly for a text of the form `left ++ mark :: right` with no
mark in `left`, and it is that decomposition. -/
theorem cutChars?_eq_some_iff {mark : Char} {cs left right : List Char} :
    cutChars? mark cs = some (left, right) ↔ cs = left ++ mark :: right ∧ mark ∉ left := by
  induction cs generalizing left with
  | nil => simp [cutChars?]
  | cons c cs ih =>
      by_cases hc : c = mark
      · subst hc
        simp only [cutChars?, if_true, Option.some.injEq, Prod.mk.injEq]
        constructor
        · rintro ⟨rfl, rfl⟩
          simp
        · rintro ⟨h, hn⟩
          cases left with
          | nil => simpa using h
          | cons d ds =>
              simp only [List.cons_append, List.cons.injEq] at h
              exact absurd (h.1 ▸ List.mem_cons_self) hn
      · simp only [cutChars?, if_neg hc, Option.map_eq_some_iff, Prod.mk.injEq]
        constructor
        · rintro ⟨⟨l, r⟩, h, rfl, rfl⟩
          obtain ⟨rfl, hn⟩ := ih.1 h
          exact ⟨rfl, by simpa [Ne.symm hc] using hn⟩
        · rintro ⟨h, hn⟩
          cases left with
          | nil => exact absurd (by simpa using (List.cons.inj h).1) hc
          | cons d ds =>
              obtain ⟨rfl, rfl⟩ := List.cons.inj h
              refine ⟨(ds, right), ih.2 ⟨rfl, ?_⟩, rfl, rfl⟩
              exact fun hm => hn (List.mem_cons_of_mem _ hm)

/-- There is no cut exactly when there is no mark. -/
theorem cutChars?_eq_none_iff {mark : Char} {cs : List Char} :
    cutChars? mark cs = none ↔ mark ∉ cs := by
  induction cs with
  | nil => simp [cutChars?]
  | cons c cs ih =>
      by_cases hc : c = mark
      · simp [cutChars?, hc]
      · simp [cutChars?, hc, ih, Ne.symm hc]

theorem cutAtFirst?_eq_some_iff {mark : Char} {s left right : String} :
    cutAtFirst? mark s = some (left, right) ↔
      s = left ++ String.singleton mark ++ right ∧ mark ∉ left.toList := by
  have hwhole : s = left ++ String.singleton mark ++ right ↔
      s.toList = left.toList ++ mark :: right.toList := by
    rw [← String.toList_inj, String.toList_append, String.toList_append, String.toList_singleton,
      List.append_assoc, List.singleton_append]
  rw [hwhole, ← cutChars?_eq_some_iff, cutAtFirst?, Option.map_eq_some_iff]
  constructor
  · rintro ⟨⟨l, r⟩, hcut, heq⟩
    obtain ⟨rfl, rfl⟩ := Prod.mk.inj heq
    rw [String.toList_ofList, String.toList_ofList]
    exact hcut
  · intro hcut
    exact ⟨_, hcut, by rw [String.ofList_toList, String.ofList_toList]⟩

/-- There is always at least one piece. -/
theorem piecesOf_ne_nil (mark : Char) (cs : List Char) : piecesOf mark cs ≠ [] := by
  cases cs with
  | nil => simp [piecesOf]
  | cons c cs =>
      unfold piecesOf
      split
      · simp
      · split <;> simp

/-- The pieces with the marks put back between them are the whole. -/
theorem intercalate_piecesOf (mark : Char) (cs : List Char) :
    [mark].intercalate (piecesOf mark cs) = cs := by
  induction cs with
  | nil => rfl
  | cons c cs ih =>
      rw [piecesOf]
      split
      · next hc =>
          rw [List.intercalate_cons_of_ne_nil (piecesOf_ne_nil mark cs), ih, hc]
          rfl
      · split
        · next hnil => exact absurd hnil (piecesOf_ne_nil mark cs)
        · next piece rest hpieces =>
            rw [hpieces] at ih
            rw [List.intercalate_cons_cons_left, ih]

/-- A mark between two texts is one more cut. -/
theorem piecesOf_append (mark : Char) (as bs : List Char) :
    piecesOf mark (as ++ mark :: bs) = piecesOf mark as ++ piecesOf mark bs := by
  induction as with
  | nil =>
      show piecesOf mark (mark :: bs) = [] :: piecesOf mark bs
      rw [piecesOf, if_pos rfl]
  | cons c as ih =>
      rw [List.cons_append, piecesOf, piecesOf, ih]
      split
      · rw [List.cons_append]
      · split
        · next hnil => exact absurd (List.append_eq_nil_iff.mp hnil).1 (piecesOf_ne_nil mark as)
        · next piece rest h =>
            cases hp : piecesOf mark as with
            | nil => exact absurd hp (piecesOf_ne_nil mark as)
            | cons first more =>
                rw [hp, List.cons_append] at h
                obtain ⟨rfl, rfl⟩ := List.cons.inj h
                rfl

theorem cutAtAll_append (mark : Char) (a b : String) :
    cutAtAll mark (a ++ String.singleton mark ++ b) = cutAtAll mark a ++ cutAtAll mark b := by
  rw [cutAtAll, String.toList_append, String.toList_append, String.toList_singleton,
    List.append_assoc, List.singleton_append, piecesOf_append, List.map_append]
  rfl

/-- The pieces hold nothing that the whole does not. -/
theorem mem_of_mem_piecesOf {mark : Char} {cs piece : List Char} (h : piece ∈ piecesOf mark cs) :
    ∀ c ∈ piece, c ∈ cs := by
  induction cs generalizing piece with
  | nil =>
      obtain rfl : piece = [] := by simpa [piecesOf] using h
      exact fun c hc => absurd hc (by simp)
  | cons d cs ih =>
      rw [piecesOf] at h
      split at h
      · rcases List.mem_cons.mp h with rfl | h
        · exact fun c hc => absurd hc (by simp)
        · exact fun c hc => List.mem_cons_of_mem d (ih h c hc)
      · split at h
        · next hnil => exact absurd hnil (piecesOf_ne_nil mark cs)
        · next first rest hpieces =>
            rw [hpieces] at ih
            rcases List.mem_cons.mp h with rfl | h
            · intro c hc
              rcases List.mem_cons.mp hc with rfl | hc
              · exact List.mem_cons_self
              · exact List.mem_cons_of_mem d (ih List.mem_cons_self c hc)
            · exact fun c hc => List.mem_cons_of_mem d (ih (List.mem_cons_of_mem _ h) c hc)

/-- No piece holds the mark. -/
theorem not_mem_of_mem_piecesOf {mark : Char} {cs piece : List Char}
    (h : piece ∈ piecesOf mark cs) : mark ∉ piece := by
  induction cs generalizing piece with
  | nil =>
      obtain rfl : piece = [] := by simpa [piecesOf] using h
      simp
  | cons d cs ih =>
      rw [piecesOf] at h
      split at h
      · rcases List.mem_cons.mp h with rfl | h
        · simp
        · exact ih h
      · next hd =>
          split at h
          · next hnil => exact absurd hnil (piecesOf_ne_nil mark cs)
          · next first rest hpieces =>
              rw [hpieces] at ih
              rcases List.mem_cons.mp h with rfl | h
              · intro hm
                rcases List.mem_cons.mp hm with hm | hm
                · exact hd hm.symm
                · exact ih List.mem_cons_self hm
              · exact ih (List.mem_cons_of_mem _ h)

/-- A front is found exactly when the characters are the front and something after it. -/
theorem afterFront?_eq_some_iff {front cs rest : List Char} :
    afterFront? front cs = some rest ↔ cs = front ++ rest := by
  induction front generalizing cs with
  | nil => simp [afterFront?]
  | cons p ps ih =>
      cases cs with
      | nil => simp [afterFront?]
      | cons c cs =>
          by_cases h : p = c
          · simp [afterFront?, h, ih]
          · simp [afterFront?, h, Ne.symm h]

end Text

end Docstore
