import Docstore.Toml.Basic

/-!
# Numbers and dates of TOML

A value that is no string, array or table is a bare word: a truth value, a number or a date.  An
integer may have a sign, or instead a base of sixteen, eight or two; underscores may stand between
two digits; a decimal number has no needless zero in front.  A date gives a day, a time of day, or
both, and then perhaps an offset.

A word is an integer when it starts like one and its underscores stand where they may.  Whether it
then spells a number is another question: after the first underscore of a decimal, and after the
mark of a base, there may be no digits of that base.
-/

namespace Docstore

namespace Toml

/-- Whether a character is a digit of a base. -/
def isDigitOf (base : Nat) (c : Char) : Bool :=
  match Numeral.digitValue c, c.isDigit with
  | n, true => n < base
  | _, false => base == 16 && (('a' ≤ c && c ≤ 'f') || ('A' ≤ c && c ≤ 'F'))

/-- The value of a digit of either case. -/
def valueOfDigit (c : Char) : Nat :=
  if c.isDigit then Numeral.digitValue c else c.toLower.toNat - 87

/-- Digits without their underscores, each of which must stand between two digits. -/
def digits? (base : Nat) (cs : List Char) : Option (List Char) :=
  go false cs
where
  /-- The digits; the flag says whether a digit stands in front. -/
  go : Bool → List Char → Option (List Char)
    | after, [] => if after then some [] else none
    | after, c :: rest =>
        if isDigitOf base c then (go true rest).map (c :: ·)
        else if c = '_' ∧ after then go false rest
        else none

/-- The digits of a decimal number without a needless zero in front. -/
def wholeDigits? (cs : List Char) : Option (List Char) := do
  let ds ← digits? 10 cs
  if 1 < ds.length && ds.head? == some '0' then none else some ds

/-- The number of digits in a base. -/
def numberOf (base : Nat) (ds : List Char) : Nat :=
  ds.foldl (fun n c => base * n + valueOfDigit c) 0

/-- The number that characters spell in a base, if they are one or more digits of it. -/
def spelt? (base : Nat) (cs : List Char) : Option Int :=
  if !cs.isEmpty && cs.all (isDigitOf base) then some (numberOf base cs) else none

/-- Characters without their underscores, each of which must stand between two digits of the base
sixteen. -/
def ungrouped? (cs : List Char) : Option (List Char) :=
  go false cs
where
  /-- The characters; the flag says whether a digit stands in front. -/
  go : Bool → List Char → Option (List Char)
    | _, [] => some []
    | after, c :: rest =>
        if c = '_' then
          if after && rest.head?.any (isDigitOf 16) then go false rest else none
        else (go (isDigitOf 16 c) rest).map (c :: ·)

/-- Whether a word without a sign starts like a decimal integer.  The digits in front have no
needless zero, and after them comes nothing or an underscore; behind that there is no sign of
another kind of word. -/
def startsInteger (cs : List Char) : Bool :=
  match cs.takeWhile Char.isDigit, cs.dropWhile Char.isDigit with
  | [], _ => false
  | first :: more, [] => first != '0' || more.isEmpty
  | first :: _, c :: rest =>
      first != '0' && c == '_' && !rest.any fun d => d == '.' || d == 'e' || d == 'E' || d == ' '

/-- An integer after the mark of a base. -/
def based? (base : Nat) (cs : List Char) : Option (Option Int) :=
  if cs.all fun c => isDigitOf base c || c == '_' then (ungrouped? cs).map (spelt? base) else none

/-- An integer, with the number that it spells. -/
def integer? : List Char → Option (Option Int)
  | '0' :: 'x' :: cs => based? 16 cs
  | '0' :: 'o' :: cs => based? 8 cs
  | '0' :: 'b' :: cs => based? 2 cs
  | cs =>
      let (negative, cs) := Numeral.signed cs
      if startsInteger cs then
        (ungrouped? cs).map fun cs => (spelt? 10 cs).map fun n => if negative then -n else n
      else none

/-- The digits of an exponent after its mark, with its sign. -/
def exponentPart? (cs : List Char) : Option (List Char) :=
  let (negative, ds) := Numeral.signed cs
  (digits? 10 ds).map fun ds => if negative then '-' :: ds else ds

/-- The spelling of a floating-point number without underscores, if it is one: an infinity, a NaN,
or a number with a fraction or an exponent. -/
def float? (cs : List Char) : Option String := do
  let (negative, unsigned) := Numeral.signed cs
  if isSpecial unsigned then some (String.ofList cs)
  else
    let isMark := fun c => c == 'e' || c == 'E'
    let mantissa := unsigned.takeWhile fun c => !isMark c
    let whole := mantissa.takeWhile fun c => c != '.'
    let afterWhole := mantissa.dropWhile fun c => c != '.'
    let wholeDigits ← wholeDigits? whole
    let fraction ← match afterWhole with
      | [] => some []
      | _ :: ds => (digits? 10 ds).map ('.' :: ·)
    let exponent ← match unsigned.dropWhile fun c => !isMark c with
      | [] => some []
      | _ :: ds => (exponentPart? ds).map ('e' :: ·)
    if fraction.isEmpty && exponent.isEmpty then none
    else
      let sign := if negative then ['-'] else []
      some (String.ofList (sign ++ wholeDigits ++ fraction ++ exponent))

/-- The number of exactly `count` digits, and what follows them. -/
def fixedDigits? (count : Nat) (cs : List Char) : Option (Nat × List Char) :=
  let ds := cs.take count
  if ds.length = count ∧ ds.all Char.isDigit then some (numberOf 10 ds, cs.drop count) else none

def after? (c : Char) : List Char → Option (List Char)
  | d :: cs => if d = c then some cs else none
  | [] => none

def daysOf (year month : Nat) : Nat :=
  if month = 2 then
    if (year % 4 = 0 ∧ year % 100 ≠ 0) ∨ year % 400 = 0 then 29 else 28
  else if month = 4 ∨ month = 6 ∨ month = 9 ∨ month = 11 then 30
  else 31

def day? (cs : List Char) : Option (List Char) := do
  let (year, cs) ← fixedDigits? 4 cs
  let (month, cs) ← fixedDigits? 2 (← after? '-' cs)
  let (day, cs) ← fixedDigits? 2 (← after? '-' cs)
  if 1 ≤ month ∧ month ≤ 12 ∧ 1 ≤ day ∧ day ≤ daysOf year month then some cs else none

/-- The digits of a fraction of a second, if there is one, and what follows. -/
def secondFraction? : List Char → Option (List Char)
  | '.' :: cs => if (cs.takeWhile Char.isDigit).isEmpty then none
      else some (cs.dropWhile Char.isDigit)
  | cs => some cs

/-- A time of day, and what follows it.  Seconds may be left out. -/
def time? (cs : List Char) : Option (List Char) := do
  let (hour, cs) ← fixedDigits? 2 cs
  let (minute, cs) ← fixedDigits? 2 (← after? ':' cs)
  if ¬(hour < 24 ∧ minute < 60) then none
  else
    match cs with
    | ':' :: cs => do
        let (second, cs) ← fixedDigits? 2 cs
        if second ≤ 60 then secondFraction? cs else none
    | cs => some cs

/-- An offset from universal time, if there is one, up to the end. -/
def isOffset : List Char → Bool
  | [] => true
  | [c] => c == 'Z' || c == 'z'
  | c :: cs =>
      (c == '+' || c == '-') &&
        (match (do
            let (hour, cs) ← fixedDigits? 2 cs
            let (minute, cs) ← fixedDigits? 2 (← after? ':' cs)
            some (hour, minute, cs)) with
          | some (hour, minute, []) => hour < 24 && minute < 60
          | _ => false)

/-- Whether characters are a date: a time of day, a day, or a day with a time and an offset. -/
def isDate (cs : List Char) : Bool :=
  match day? cs with
  | some [] => true
  | some (c :: rest) =>
      (c == 'T' || c == 't' || c == ' ') &&
        (match time? rest with
          | some rest => isOffset rest
          | none => false)
  | none => time? cs == some []

def bare? (cs : List Char) : Option Toml :=
  if cs = ['t', 'r', 'u', 'e'] then some (.boolean true)
  else if cs = ['f', 'a', 'l', 's', 'e'] then some (.boolean false)
  else if isDate cs then some (.date (String.ofList cs))
  else
    match integer? cs with
    | some i => some (.integer i)
    | none => (float? cs).map .float

end Toml

end Docstore
