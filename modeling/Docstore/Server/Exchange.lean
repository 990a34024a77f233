import Docstore.Listener.Machine
import Docstore.Server.Address
import Docstore.Server.Base64

/-!
# Talking to a server

Two questions are put to a server: where its log ends, and what came after a position.  Each is a
request for a target; this module says what the request looks like and what an answer means.
-/

namespace Docstore

/-- An answer of a server: its status, its headers in order, and its body. -/
structure Response where
  status : Nat
  headers : List (String × String) := []
  body : String := ""
  deriving DecidableEq, Repr

namespace Response

def statusNames : List (Nat × String) :=
  [(100, "Continue"), (101, "Switching Protocols"), (102, "Processing"), (103, "Early Hints"),
    (200, "OK"), (201, "Created"), (202, "Accepted"), (203, "Non Authoritative Information"),
    (204, "No Content"), (205, "Reset Content"), (206, "Partial Content"), (207, "Multi-Status"),
    (208, "Already Reported"), (226, "IM Used"), (300, "Multiple Choices"),
    (301, "Moved Permanently"), (302, "Found"), (303, "See Other"), (304, "Not Modified"),
    (305, "Use Proxy"), (307, "Temporary Redirect"), (308, "Permanent Redirect"),
    (400, "Bad Request"), (401, "Unauthorized"), (402, "Payment Required"), (403, "Forbidden"),
    (404, "Not Found"), (405, "Method Not Allowed"), (406, "Not Acceptable"),
    (407, "Proxy Authentication Required"), (408, "Request Timeout"), (409, "Conflict"),
    (410, "Gone"), (411, "Length Required"), (412, "Precondition Failed"),
    (413, "Payload Too Large"), (414, "URI Too Long"), (415, "Unsupported Media Type"),
    (416, "Range Not Satisfiable"), (417, "Expectation Failed"), (418, "I\x27m a teapot"),
    (421, "Misdirected Request"), (422, "Unprocessable Entity"), (423, "Locked"),
    (424, "Failed Dependency"), (425, "Too Early"), (426, "Upgrade Required"),
    (428, "Precondition Required"), (429, "Too Many Requests"),
    (431, "Request Header Fields Too Large"), (451, "Unavailable For Legal Reasons"),
    (500, "Internal Server Error"), (501, "Not Implemented"), (502, "Bad Gateway"),
    (503, "Service Unavailable"), (504, "Gateway Timeout"), (505, "HTTP Version Not Supported"),
    (506, "Variant Also Negotiates"), (507, "Insufficient Storage"), (508, "Loop Detected"),
    (510, "Not Extended"), (511, "Network Authentication Required")]

def statusText (status : Nat) : String :=
  toString status ++ " " ++ (statusNames.lookup status).getD "<unknown status code>"

/-- Whether the status is one of success. -/
def isSuccess (r : Response) : Bool := 200 ≤ r.status && r.status < 300

/-- The first header of a name, whatever the case of its letters. -/
def header? (r : Response) (name : String) : Option String :=
  let lower := fun s : String => s.toList.map Char.toLower
  (r.headers.find? fun h => lower h.1 == lower name).map Prod.snd

/-- Whether the answer sends the client elsewhere. -/
def isRedirect (r : Response) : Bool :=
  [301, 302, 303, 307, 308].contains r.status && (r.header? "location").isSome

end Response

/-- A question to a server. -/
inductive Question where
  /-- Where does the log end? -/
  | logEnd
  /-- What came after a position, in portions of a size? -/
  | after (tick : Nat) (chunk : Option Nat)
  deriving DecidableEq, Repr

namespace Question

def target (c : Connection) : Question → Address.Target
  | .logEnd => Address.target (c.endpoint "replication/logger-state")
  | .after tick chunk =>
      (Address.target (c.endpoint "wal/tail")).with
        ([("from", tick)] ++ (chunk.map fun n => ("chunkSize", n)).toList)

def requestLine (c : Connection) (q : Question) : String :=
  "GET " ++ (q.target c).text ++ " HTTP/1.1"

end Question

/-- How a request signs in: the user and the password in base 64, if there is a user. -/
def Connection.authorization? (c : Connection) : Option String :=
  c.username.map fun user => "Basic " ++ Base64.encode (user ++ ":" ++ c.password.getD "")

/-- A failure of the exchange with a reason of the library's own. -/
def exchangeFailure (reason : String) : Failure := .transport (some reason)

namespace Response

/-- The header with the last position of a batch. -/
def lastIncludedHeader : String := "x-arango-replication-lastincluded"

/-- Where the log ends, according to an answer. -/
def logEnd (r : Response) : Except Failure Nat :=
  if r.isRedirect then .error (.transport none)
  else if !r.isSuccess then
    .error (exchangeFailure ("logger-state returned " ++ statusText r.status))
  else
    match Json.parse? r.body with
    | none => .error (.transport none)
    | some v =>
        match (v.member? "state").bind (Json.member? "lastLogTick") with
        | some (.string s) =>
            match readTick s with
            | .ok tick => .ok tick
            | .error _ =>
                .error (exchangeFailure "logger-state response has no state.lastLogTick")
        | some (.number n) =>
            match n.toNat64? with
            | some tick => .ok tick
            | none => .error (exchangeFailure "logger-state response has no state.lastLogTick")
        | _ => .error (exchangeFailure "logger-state response has no state.lastLogTick")

/-- Whether a character may stand in a header that is read as text. -/
def isHeaderChar (c : Char) : Bool := c == '\t' || (0x20 ≤ c.toNat && c.toNat < 0x7F)

/-- The last position of a batch, or zero when the answer does not tell. -/
def lastIncluded (r : Response) : Nat :=
  match r.header? lastIncludedHeader with
  | some text =>
      if text.toList.all isHeaderChar then (Numeral.unsigned64? (Text.trim text)).getD 0 else 0
  | none => 0

/-- What came after a position, according to an answer. -/
def poll (r : Response) : Poll :=
  if r.isRedirect then .failed (.transport none)
  else if r.status = 204 then .idle
  else if !r.isSuccess then
    .failed (exchangeFailure ("wal tail returned " ++ statusText r.status))
  else if r.lastIncluded = 0 then .idle
  else .batch r.lastIncluded r.body

end Response

end Docstore
