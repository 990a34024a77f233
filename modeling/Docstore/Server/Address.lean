import Docstore.Settings.Basic

/-!
# Addresses of the server

The endpoints of a database hang below the address of its server.  What is asked for is the path and
the query of that address, written the way a request needs them: steps of the path that stand for
here or for one step up are carried out, and characters that may not stand in a path or a query are
written as the percent-encoded bytes of their UTF-8 form.
-/

namespace Docstore

/-- The address of an endpoint of a database. -/
def Connection.endpoint (c : Connection) (path : String) : String :=
  let base := String.ofList (c.url.toList.reverse.dropWhile (· == '/')).reverse
  base ++ "/_db/" ++ c.database ++ "/_api/" ++ path

namespace Address

/-- A byte as a percent sign and two digits. -/
def percentByte (b : UInt8) : List Char :=
  let digit := fun n => (Nat.digitChar n).toUpper
  ['%', digit (b.toNat / 16), digit (b.toNat % 16)]

/-- The bytes of a character, percent-encoded. -/
def percentChar (c : Char) : List Char :=
  (String.singleton c).toUTF8.toList.flatMap percentByte

/-- Whether a character is a control character or not ASCII. -/
def isBeyond (c : Char) : Bool := c.toNat < 0x20 || 0x7E < c.toNat

/-- Characters that are encoded in a path. -/
def pathEncoded (c : Char) : Bool :=
  isBeyond c || " \"#<>?^\x60\x7b\x7d".toList.contains c

/-- Characters that are encoded in a query. -/
def queryEncoded (c : Char) : Bool := isBeyond c || " \"#<>\x27".toList.contains c

/-- Characters with those that `encoded` picks percent-encoded. -/
def encode (encoded : Char → Bool) (cs : List Char) : List Char :=
  cs.flatMap fun c => if encoded c then percentChar c else [c]

/-- A step of a path with its encoded points decoded and in lower case, for comparison. -/
def plainStep : List Char → List Char
  | '%' :: '2' :: e :: rest =>
      if e = 'e' ∨ e = 'E' then '.' :: plainStep rest else '%' :: '2' :: plainStep (e :: rest)
  | c :: rest => c :: plainStep rest
  | [] => []

/-- The steps of a path, carried out from the left; `done` holds the steps so far. -/
def resolve (done : List (List Char)) : List (List Char) → List (List Char)
  | [] => done
  | [step] =>
      if plainStep step = ['.', '.'] then done.dropLast ++ [[]]
      else if plainStep step = ['.'] then done ++ [[]]
      else done ++ [step]
  | step :: rest =>
      if plainStep step = ['.', '.'] then resolve done.dropLast rest
      else if plainStep step = ['.'] then resolve done rest
      else resolve (done ++ [step]) rest

/-- The path and the query of an address, taken apart. -/
structure Target where
  path : List Char
  query : Option (List Char)
  deriving Repr

/-- The characters behind the scheme and the host. -/
def afterHost (url : String) : List Char :=
  let cs := url.toList.filter fun c => c != '\t' && c != '\n' && c != '\r'
  let rest := match Text.cutChars? ':' cs with
    | some (_, '/' :: '/' :: rest) => rest
    | _ => cs
  rest.dropWhile fun c => c != '/' && c != '\\' && c != '?' && c != '#'

def target (url : String) : Target :=
  let cs := (afterHost url).takeWhile fun c => c != '#'
  let path := (cs.takeWhile fun c => c != '?').map fun c => if c = '\\' then '/' else c
  let query := match cs.dropWhile fun c => c != '?' with
    | _ :: q => some (encode queryEncoded q)
    | [] => none
  let steps := resolve [] ((Text.piecesOf '/' path).drop 1)
  { path := if steps.isEmpty then ['/']
      else steps.flatMap fun step => '/' :: encode pathEncoded step
    query }

/-- A target with pairs added to its query. -/
def Target.with (t : Target) (pairs : List (String × Nat)) : Target :=
  let added := String.intercalate "&" (pairs.map fun p => p.1 ++ "=" ++ toString p.2)
  let before := match t.query with
    | none => []
    | some [] => []
    | some q => q ++ ['&']
  { t with query := some (before ++ added.toList) }

/-- A target as it stands in a request. -/
def Target.text (t : Target) : String :=
  String.ofList (t.path ++ match t.query with
    | none => []
    | some q => '?' :: q)

end Address

end Docstore
