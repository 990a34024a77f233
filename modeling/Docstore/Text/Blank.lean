/-!
# Blank characters and trimming

A blank is a character with the Unicode property White_Space.  The table below lists its
twenty-five code points as ranges.  Trimming removes blanks from the ends of a text; both trims
are stated on the list of characters, where `dropWhile` says all there is to say.
-/

namespace Docstore

namespace Text

/-- The ranges of the property White_Space, ends included, in ascending order. -/
def blankRanges : List (Nat × Nat) :=
  [(0x09, 0x0D), (0x20, 0x20), (0x85, 0x85), (0xA0, 0xA0), (0x1680, 0x1680), (0x2000, 0x200A),
    (0x2028, 0x2029), (0x202F, 0x202F), (0x205F, 0x205F), (0x3000, 0x3000)]

/-- Whether a character is white space. -/
def isBlank (c : Char) : Bool :=
  blankRanges.any fun r => r.1 ≤ c.toNat && c.toNat ≤ r.2

/-- The characters without the blanks in front. -/
def trimFront (cs : List Char) : List Char := cs.dropWhile isBlank

/-- The characters without the blanks at either end. -/
def trimChars (cs : List Char) : List Char := (trimFront (trimFront cs).reverse).reverse

/-- The text without the blanks at either end. -/
def trim (s : String) : String := String.ofList (trimChars s.toList)

/-- Whether a text holds nothing but blanks. -/
def isAllBlank (s : String) : Bool := s.toList.all isBlank

/-- A character is blank exactly when some range of the table holds it. -/
theorem isBlank_iff {c : Char} :
    isBlank c = true ↔ ∃ r ∈ blankRanges, r.1 ≤ c.toNat ∧ c.toNat ≤ r.2 := by
  simp [isBlank]

/-- What is left after trimming the front starts with no blank. -/
theorem trimFront_head {cs : List Char} {c : Char} {rest : List Char}
    (h : trimFront cs = c :: rest) : isBlank c = false := by
  induction cs with
  | nil => simp [trimFront] at h
  | cons d ds ih =>
      unfold trimFront at h ih
      rw [List.dropWhile_cons] at h
      split at h
      · exact ih h
      · next hd =>
          obtain ⟨rfl, -⟩ := List.cons.inj h
          simpa using hd

end Text

end Docstore
