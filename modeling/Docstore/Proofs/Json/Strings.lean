import Docstore.Json.Parser
import Docstore.Json.Printer

/-!
# Quoted strings are read back

Each character of a quoted string is written so that the reader takes it back,
whatever follows (`exists_part_of_escapeChar`).  So a whole string is read back
with its end (`readString_flatMap`), and two quoted strings that read the same
are the same, along with what stands behind them (`quoteChars_append_inj`).
-/

namespace Docstore

namespace Draft

/-- Below the space the four digits of the escape spell the character's number. -/
theorem hexUnit?_digitChar {n : Nat} (h : n < 32) :
    hexUnit? '0' '0' (Nat.digitChar (n / 16)) (Nat.digitChar (n % 16)) = some n := by
  revert n
  decide

theorem partChars?_unit {n : Nat} (h : n < 32) (parts : List StringPart) :
    partChars? (.unit n :: parts) = (partChars? parts).map (Char.ofNat n :: ·) := by
  have hhigh : isHighHalf n = false := by
    rw [isHighHalf, Bool.and_eq_false_iff]
    exact .inl (decide_eq_false (by omega))
  have hlow : isLowHalf n = false := by
    rw [isLowHalf, Bool.and_eq_false_iff]
    exact .inl (decide_eq_false (by omega))
  cases parts with
  | nil => simp [partChars?, hhigh, hlow]
  | cons part parts => cases part <;> simp [partChars?, hhigh, hlow]

theorem readParts_short {e c : Char} (hu : e ≠ 'u') (hc : shortEscape? e = some c)
    (rest : List Char) :
    readParts ('\\' :: e :: rest) = (readParts rest).map fun r => (.char c :: r.1, r.2) := by
  rw [readParts.eq_3 e rest (fun _ _ _ _ _ he _ => hu he), hc]
  cases readParts rest <;> rfl

theorem readParts_unit {a b c d : Char} {n : Nat} (hn : hexUnit? a b c d = some n)
    (rest : List Char) :
    readParts ('\\' :: 'u' :: a :: b :: c :: d :: rest) =
      (readParts rest).map fun r => (.unit n :: r.1, r.2) := by
  rw [readParts, hn]
  cases readParts rest <;> rfl

theorem readParts_plain {c : Char} (hquote : c ≠ '"') (hslash : c ≠ '\\') (hctl : ¬c.toNat < 0x20)
    (rest : List Char) :
    readParts (c :: rest) = (readParts rest).map fun r => (.char c :: r.1, r.2) := by
  rw [readParts.eq_4 c rest hquote (fun _ _ _ _ _ h _ => hslash h) (fun _ _ h _ => hslash h),
    if_neg (by simp [hslash, hctl])]
  cases readParts rest <;> rfl

/-- **The escape of a character is read as one piece, which stands for it.** -/
theorem exists_part_of_escapeChar (c : Char) :
    ∃ part : StringPart,
      (∀ rest, readParts (Json.escapeChar c ++ rest) =
        (readParts rest).map fun r => (part :: r.1, r.2)) ∧
      ∀ parts, partChars? (part :: parts) = (partChars? parts).map (c :: ·) := by
  have hchar (parts : List StringPart) :
      partChars? (.char c :: parts) = (partChars? parts).map (c :: ·) := by rw [partChars?]
  have hback : Char.ofNat c.toNat = c := Char.ofNat_toNat c
  unfold Json.escapeChar
  split
  · next h =>
    subst h
    exact ⟨_, readParts_short (by decide) (by decide), hchar⟩
  split
  · next h =>
    subst h
    exact ⟨_, readParts_short (by decide) (by decide), hchar⟩
  split
  · next h =>
    subst h
    exact ⟨_, readParts_short (by decide) (by decide), hchar⟩
  split
  · next h =>
    subst h
    exact ⟨_, readParts_short (by decide) (by decide), hchar⟩
  split
  · next h =>
    subst h
    exact ⟨_, readParts_short (by decide) (by decide), hchar⟩
  split
  · next h =>
    rw [h] at hback
    exact ⟨_, readParts_short (by decide) (hback ▸ by decide), hchar⟩
  split
  · next h =>
    rw [h] at hback
    exact ⟨_, readParts_short (by decide) (hback ▸ by decide), hchar⟩
  split
  · next h =>
    refine ⟨.unit c.toNat, readParts_unit (hexUnit?_digitChar h), fun parts => ?_⟩
    rw [partChars?_unit h, hback]
  · next hquote hslash _ _ _ _ _ hctl => exact ⟨.char c, readParts_plain hquote hslash hctl, hchar⟩

/-- **A quoted string is read back**, and what follows its quote is left. -/
theorem readString_flatMap (cs rest : List Char) :
    readString (cs.flatMap Json.escapeChar ++ '"' :: rest) =
      some (some (String.ofList cs), rest) := by
  have hparts : ∃ parts, readParts (cs.flatMap Json.escapeChar ++ '"' :: rest) =
      some (parts, rest) ∧ partChars? parts = some cs := by
    induction cs with
    | nil => exact ⟨[], by rw [List.flatMap_nil, List.nil_append, readParts], rfl⟩
    | cons c cs ih =>
      obtain ⟨parts, hread, hchars⟩ := ih
      obtain ⟨part, hpart, hpartChars⟩ := exists_part_of_escapeChar c
      refine ⟨part :: parts, ?_, ?_⟩
      · rw [List.flatMap_cons, List.append_assoc, hpart, hread]
        rfl
      · rw [hpartChars, hchars]
        rfl
  obtain ⟨parts, hread, hchars⟩ := hparts
  rw [readString, hread]
  simp [hchars]

end Draft

namespace Json

/-- **Quoted strings with something behind them determine both.** -/
theorem quoteChars_append_inj {cs ds r s : List Char}
    (h : quoteChars cs ++ r = quoteChars ds ++ s) : cs = ds ∧ r = s := by
  have hbody : cs.flatMap escapeChar ++ '"' :: r = ds.flatMap escapeChar ++ '"' :: s := by
    simpa [quoteChars] using h
  have hread := congrArg Draft.readString hbody
  rw [Draft.readString_flatMap, Draft.readString_flatMap] at hread
  obtain ⟨hstring, hrest⟩ := Prod.mk.inj (Option.some.inj hread)
  exact ⟨String.ofList_injective (Option.some.inj hstring), hrest⟩

end Json

end Docstore
