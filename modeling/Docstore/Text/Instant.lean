import Docstore.Text.Pieces

/-!
# Moments as text

A moment is a number of milliseconds since the start of 1970, in universal time without leap
seconds.  Its text is the day, the time of day with three places, and the mark of universal time.

The day is found by counting from the first of March of the year zero, so that a leap day is the
last of its year: 146097 days make four centuries, and within them each year is five months of 153
days, taken again and again.
-/

namespace Docstore

namespace Text

/-- A number with at least `width` digits. -/
def padded (width n : Nat) : String :=
  let digits := Nat.toDigits 10 n
  String.ofList (List.replicate (width - digits.length) '0' ++ digits)

/-- The year, the month and the day, so many days after the first of 1970. -/
def dayAfter (days : Nat) : Nat × Nat × Nat :=
  let day := days + 719468
  let inEra := day % 146097
  let year := (inEra - inEra / 1460 + inEra / 36524 - inEra / 146096) / 365
  let inYear := inEra - (365 * year + year / 4 - year / 100)
  let month := (5 * inYear + 2) / 153
  let inMonth := inYear - (153 * month + 2) / 5 + 1
  let ofYear := day / 146097 * 400 + year
  if month < 10 then (ofYear, month + 3, inMonth) else (ofYear + 1, month - 9, inMonth)

def instant (ms : Nat) : String :=
  let (year, month, day) := dayAfter (ms / 86400000)
  let rest := ms % 86400000
  String.intercalate "-" [padded 4 year, padded 2 month, padded 2 day] ++ "T"
    ++ String.intercalate ":"
      [padded 2 (rest / 3600000), padded 2 (rest / 60000 % 60), padded 2 (rest / 1000 % 60)]
    ++ "." ++ padded 3 (rest % 1000) ++ "Z"

end Text

end Docstore
