import Docstore.Server.Exchange

/-!
# Requests and answers as bytes

A request is written for a connection that the server closes after its answer, so everything that
arrives is the answer: a head of lines, a blank line, and a body, which may come in portions that
are each preceded by their size.
-/

namespace Docstore

/-- Where a server listens: the name of a machine and the number of a service on it. -/
structure Host where
  name : String
  service : Nat
  deriving DecidableEq, Repr

namespace Host

/-- The host of a plain address of the web: what stands behind the scheme, without a user, and with
service 80 unless it says otherwise. -/
def ofUrl? (url : String) : Option Host := do
  let rest ← Text.after? "http://" url
  let place := rest.toList.takeWhile fun c => c != '/' && c != '?' && c != '#'
  let place := (place.reverse.takeWhile (· != '@')).reverse
  let (name, service) := (Text.cutChars? ':' place).getD (place, [])
  let service ← if service.isEmpty then some 80 else Numeral.nat? service
  if name.isEmpty || 65536 ≤ service then none else some ⟨String.ofList name, service⟩

end Host

/-- A request as text, up to the blank line that ends it. -/
def Question.requestText (c : Connection) (h : Host) (q : Question) : String :=
  let signIn := match c.authorization? with
    | some value => "authorization: " ++ value ++ "\r\n"
    | none => ""
  q.requestLine c ++ "\r\n" ++ "host: " ++ h.name ++ ":" ++ toString h.service ++ "\r\n"
    ++ "accept: */*\r\n" ++ signIn ++ "connection: close\r\n\r\n"

namespace Response

/-- The bytes before the first blank line and those after it. -/
def cutHead? : List UInt8 → Option (List UInt8 × List UInt8)
  | 13 :: 10 :: 13 :: 10 :: rest => some ([], rest)
  | b :: rest => (cutHead? rest).map fun p => (b :: p.1, p.2)
  | [] => none

def headLines (bytes : List UInt8) : List String :=
  (Text.cutAtAll '\n' (String.ofList (bytes.map fun b => Char.ofNat b.toNat))).map Text.trim

def status? (line : String) : Option Nat :=
  match Text.cutAtAll ' ' line with
  | _ :: code :: _ => Numeral.nat? code.toList
  | _ => none

def headerOf? (line : String) : Option (String × String) :=
  (Text.cutAtFirst? ':' line).map fun h => (h.1, Text.trim h.2)

/-- The hexadecimal digits in front of bytes. -/
def hexDigits : List UInt8 → List Nat
  | [] => []
  | b :: rest =>
      match Draft.hexDigit? (Char.ofNat b.toNat) with
      | some d => d :: hexDigits rest
      | none => []

/-- The number at the start of a line that announces a portion. -/
def portionSize? (line : List UInt8) : Option Nat :=
  let digits := hexDigits line
  if digits.isEmpty then none else some (digits.foldl (fun n d => 16 * n + d) 0)

/-- The body of the portions up to an empty one.  The count bounds the number of portions. -/
def ofPortions? : Nat → List UInt8 → Option (List UInt8)
  | 0, _ => none
  | steps + 1, bytes => do
      let line := bytes.takeWhile (· != 10)
      let size ← portionSize? line
      let rest := bytes.drop (line.length + 1)
      if size = 0 then some []
      else if rest.length < size then none
      else
        let more ← ofPortions? steps (rest.drop (size + 2))
        some (rest.take size ++ more)

/-- The body behind a head, which is all that is left unless it comes in portions or with its
length. -/
def body? (headers : Response) (bytes : List UInt8) : Option (List UInt8) :=
  if (headers.header? "transfer-encoding").isSome then ofPortions? (bytes.length + 1) bytes
  else
    match (headers.header? "content-length").bind fun n => Numeral.nat? n.toList with
    | some n => if bytes.length < n then none else some (bytes.take n)
    | none => some bytes

def ofBytes? (bytes : List UInt8) : Option Response := do
  let (head, rest) ← cutHead? bytes
  match headLines head with
  | [] => none
  | first :: lines =>
      let status ← status? first
      let r : Response := { status, headers := lines.filterMap headerOf? }
      let body ← r.body? rest
      let body ← String.fromUTF8? ⟨body.toArray⟩
      some { r with body }

end Response

end Docstore
