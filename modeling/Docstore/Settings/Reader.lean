import Docstore.Json.Parser
import Docstore.Settings.Basic
import Docstore.Toml.Document

/-!
# Reading settings

Settings are records in JSON or tables in TOML.  What is left out has its default, unknown keys are
ignored, and a value of the wrong type is a fault.  A part may also be a list of its values in
order, cut short anywhere; in TOML such a list may even go on.
-/

namespace Docstore

mutual

/-- A TOML value in the shape of JSON.  A date has no counterpart there and becomes a record of its
own kind. -/
def Toml.draft : Toml → Draft
  | .string s => .string (some s)
  | .integer i => .number (i.bind Number.ofInt?)
  | .float spelling => .number ((Numeral.decimal? spelling).map .float)
  | .boolean b => .bool b
  | .date spelling => .object [(some "date", .string (some spelling))]
  | .array items => .array (Toml.draftItems items)
  | .table entries => .object (Toml.draftEntries entries)

/-- Items of an array in the shape of JSON. -/
def Toml.draftItems : List Toml → List Draft
  | [] => []
  | v :: vs => v.draft :: Toml.draftItems vs

/-- Entries of a table in the shape of JSON. -/
def Toml.draftEntries : List (String × Toml) → List (Option String × Draft)
  | [] => []
  | (k, v) :: rest => (some k, v.draft) :: Toml.draftEntries rest

end

namespace Settings

/-- The fields of a connection, in order. -/
def connectionFields : List String := ["url", "database", "username", "password"]

/-- The fields that say how the log is followed, in order. -/
def followingFields : List String := ["poll_interval_ms", "request_timeout_ms", "chunk_size"]

/-- The fields of the logging, in order. -/
def loggingFields : List String := ["level", "config_file", "log_dir"]

/-- The parts of the settings in order, with their fields. -/
def parts : List (String × List String) :=
  [("connection", connectionFields), ("replication", followingFields), ("logging", loggingFields)]

/-- A field with a default, which must be readable when it is there. -/
def withDefault {α : Type} (default : α) (read : Draft → Option α) : Option Draft → Option α
  | none => some default
  | some d => read d

/-- A natural number below `2 ^ 64`. -/
def nat64? (d : Draft) : Option Nat := d.number?.bind Number.toNat64?

def connection? (d : Draft) : Option Connection :=
  match d.record? connectionFields 0 with
  | some [url, database, username, password] => do
      let url ← withDefault ({} : Connection).url Draft.string? url
      let database ← withDefault ({} : Connection).database Draft.string? database
      let username ← Draft.optional? Draft.string? username
      let password ← Draft.optional? Draft.string? password
      some { url, database, username, password }
  | _ => none

/-- How the log is followed, of a draft. -/
def following? (d : Draft) : Option Following :=
  match d.record? followingFields 0 with
  | some [interval, timeout, chunk] => do
      let interval ← withDefault ({} : Following).interval nat64? interval
      let timeout ← withDefault ({} : Following).timeout nat64? timeout
      let chunk ← Draft.optional? nat64? chunk
      some { interval, timeout, chunk }
  | _ => none

def logging? (d : Draft) : Option Logging :=
  match d.record? loggingFields 0 with
  | some [level, file, directory] => do
      let level ← withDefault ({} : Logging).level Draft.string? level
      let file ← Draft.optional? Draft.string? file
      let directory ← Draft.optional? Draft.string? directory
      some { level, file, directory }
  | _ => none

def ofDraft? (d : Draft) : Option Settings :=
  match d.record? (parts.map Prod.fst) 0 with
  | some [connection, following, logging] => do
      let connection ← withDefault {} connection? connection
      let following ← withDefault {} following? following
      let logging ← withDefault {} logging? logging
      some { connection, following, logging }
  | _ => none

/-- The settings of a JSON value, before they are validated. -/
def ofJson (v : Json) : Except Failure Settings :=
  match ofDraft? v.draft with
  | some s => .ok s
  | none => .error .malformedJson

/-- A part without what goes on behind its last field, when it is a list. -/
def cutPart (e : String × Toml) : String × Toml :=
  match e.2, parts.lookup e.1 with
  | .array items, some names => (e.1, .array (items.take names.length))
  | v, _ => (e.1, v)

/-- The settings of a TOML document, before they are validated. -/
def ofToml (text : String) : Except Failure Settings :=
  match Toml.parse text with
  | .error .malformed => .error (.configuration none)
  | .error .tooDeep => .error (fault "recursion limit\n")
  | .ok entries =>
      let table := Toml.table (entries.map cutPart)
      match if table.isSound then ofDraft? table.draft else none with
      | some s => .ok s
      | none => .error (.configuration none)

/-- The settings as JSON, with the password in clear. -/
def toJson (s : Settings) : Json :=
  let text := fun t : Option String => Json.orNull (t.map .string)
  let number := fun n : Nat => Json.orNull ((Number.ofInt? n).map .number)
  .object [
    ("connection", .object [
      ("url", .string s.connection.url), ("database", .string s.connection.database),
      ("username", text s.connection.username), ("password", text s.connection.password)]),
    ("replication", .object [
      ("poll_interval_ms", number s.following.interval),
      ("request_timeout_ms", number s.following.timeout),
      ("chunk_size", Json.orNull (s.following.chunk.map number))]),
    ("logging", .object [
      ("level", .string s.logging.level), ("config_file", text s.logging.file),
      ("log_dir", text s.logging.directory)])]

end Settings

end Docstore
