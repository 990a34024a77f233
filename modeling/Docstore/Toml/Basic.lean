import Docstore.Decimal.Numeral

/-!
# TOML values

The values that a TOML document can hold.  A floating-point number and a date are kept as they are
spelt; nothing in the library computes with them.

Which number a word spells is no matter of the document but of what is done with its values, so a
document can hold numbers that are out of range, and integers whose digits spell no number at all.
`isSound` says whether a value is free of them.
-/

namespace Docstore

/-- A value of a TOML document. -/
inductive Toml where
  | string (value : String)
  /-- An integer, with none for digits that spell no number. -/
  | integer (value : Option Int)
  | float (spelling : String)
  | boolean (value : Bool)
  | date (spelling : String)
  | array (items : List Toml)
  | table (entries : List (String × Toml))
  deriving Repr, Inhabited

namespace Toml

/-- Why a text is no document. -/
inductive Fault where
  /-- It breaks a rule of the format. -/
  | malformed
  /-- A key has too many parts. -/
  | tooDeep
  deriving DecidableEq, Repr

/-- How deep values may nest, and how many parts a key may have. -/
def depthLimit : Nat := 80

/-- Whether an integer is from `-2 ^ 127` up to but not including `2 ^ 128`. -/
def isInRange (i : Int) : Bool :=
  -170141183460469231731687303715884105728 ≤ i && i < 340282366920938463463374607431768211456

/-- Whether characters without a sign are an infinity or a NaN. -/
def isSpecial (cs : List Char) : Bool := cs == ['i', 'n', 'f'] || cs == ['n', 'a', 'n']

mutual

/-- Whether all numbers of a value are numbers in range. -/
def isSound : Toml → Bool
  | .integer i => i.any isInRange
  | .float spelling =>
      isSpecial (Numeral.signed spelling.toList).2 || (Numeral.decimal? spelling).isSome
  | .array items => areSound items
  | .table entries => entriesAreSound entries
  | .string _ | .boolean _ | .date _ => true

/-- Whether all numbers of several values are numbers in range. -/
def areSound : List Toml → Bool
  | [] => true
  | v :: vs => isSound v && areSound vs

/-- Whether all numbers of the values of entries are numbers in range. -/
def entriesAreSound : List (String × Toml) → Bool
  | [] => true
  | (_, v) :: rest => isSound v && entriesAreSound rest

end

end Toml

end Docstore
