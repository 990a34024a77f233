import Docstore.Text.Shown

/-!
# Texts in quotes, for people

A text is put between double quotes.  Inside, the quote and the backslash get a backslash, the
common control characters get their letter, and a character that is not shown as itself is spelt as
its number in braces.
-/

namespace Docstore

namespace Text

/-- The number of a character in braces. -/
def spelledOut (c : Char) : List Char :=
  ['\\', 'u', '\x7b'] ++ Nat.toDigits 16 c.toNat ++ ['\x7d']

def escapeShown (c : Char) : List Char :=
  if c.toNat = 0 then ['\\', '0']
  else if c = '\t' then ['\\', 't']
  else if c = '\r' then ['\\', 'r']
  else if c = '\n' then ['\\', 'n']
  else if c = '"' ∨ c = '\\' then ['\\', c]
  else if isShown c then [c]
  else spelledOut c

def shown (s : String) : String :=
  String.ofList ('"' :: (s.toList.flatMap escapeShown ++ ['"']))

end Text

end Docstore
