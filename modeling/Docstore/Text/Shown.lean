import Docstore.Text.Extending
import Docstore.Text.Invisible

/-!
# Characters that are shown as themselves

In a description of a value for people, a character that leaves no mark of its own, or that would
melt into the one before it, is better spelt out.  All others are shown as themselves.
-/

namespace Docstore

namespace Text

/-- Whether a code point lies in one of the ranges. -/
def isAmong (ranges : List (Nat × Nat)) (n : Nat) : Bool := ranges.any fun r => r.1 ≤ n && n ≤ r.2

theorem isAmong_iff {ranges : List (Nat × Nat)} {n : Nat} :
    isAmong ranges n = true ↔ ∃ r ∈ ranges, r.1 ≤ n ∧ n ≤ r.2 := by
  simp [isAmong]

/-- Whether a character is shown as itself. -/
def isShown (c : Char) : Bool :=
  !isAmong invisibleRanges c.toNat && !isAmong extendingRanges c.toNat

end Text

end Docstore
