import Docstore.Failure
import Docstore.Text.Blank
import Docstore.Text.Outline
import Docstore.Text.Pieces

/-!
# Settings

Where the server is and how to sign in, how the log is followed, and how much is logged.  Every
value has a default.  Settings are valid when the address is one of the web, a database is named,
and neither span is zero; `validate` reports the first fault in that order.
-/

namespace Docstore

/-- Where the server is and how to sign in. -/
structure Connection where
  url : String := "http://127.0.0.1:8529"
  database : String := "_system"
  username : Option String := none
  password : Option String := none
  deriving DecidableEq, Repr

/-- How the log is followed; spans are in milliseconds. -/
structure Following where
  interval : Nat := 1000
  timeout : Nat := 30000
  chunk : Option Nat := none
  deriving DecidableEq, Repr

/-- How much is logged, and where to. -/
structure Logging where
  level : String := "info"
  file : Option String := none
  directory : Option String := none
  deriving DecidableEq, Repr

/-- All settings. -/
structure Settings where
  connection : Connection := {}
  following : Following := {}
  logging : Logging := {}
  deriving DecidableEq, Repr

namespace Settings

/-- A failure with a reason of the library's own. -/
def fault (reason : String) : Failure := .configuration (some reason)

/-- Whether an address is one of the web. -/
def isWebAddress (url : String) : Bool :=
  Text.startsWith "http://" url || Text.startsWith "https://" url

def validate (s : Settings) : Except Failure Unit :=
  let url := Text.trim s.connection.url
  if !isWebAddress url then
    .error (fault ("connection.url must be http(s), got \x60" ++ url ++ "\x60"))
  else if Text.isAllBlank s.connection.database then
    .error (fault "connection.database must not be empty")
  else if s.following.interval = 0 then
    .error (fault "replication.poll_interval_ms must be greater than 0")
  else if s.following.timeout = 0 then
    .error (fault "replication.request_timeout_ms must be greater than 0")
  else .ok ()

def validated (s : Settings) : Except Failure Settings := s.validate.map fun _ => s

def part (s : Option String) : Outline := .ofOption (s.map fun t => .word (Text.shown t))

/-- The description of the connection; the password is not shown. -/
def outlineConnection (c : Connection) : Outline :=
  .record "ConnectionConfig"
    [("url", .word (Text.shown c.url)), ("database", .word (Text.shown c.database)),
      ("username", part c.username),
      ("password", part (c.password.map fun _ => "<redacted>"))]

/-- The description of how the log is followed. -/
def outlineFollowing (f : Following) : Outline :=
  .record "ReplicationConfig"
    [("poll_interval_ms", .word (toString f.interval)),
      ("request_timeout_ms", .word (toString f.timeout)),
      ("chunk_size", .ofOption (f.chunk.map fun n => .word (toString n)))]

def outlineLogging (l : Logging) : Outline :=
  .record "LoggingConfig"
    [("level", .word (Text.shown l.level)), ("config_file", part l.file),
      ("log_dir", part l.directory)]

def outline (s : Settings) : Outline :=
  .record "AdapterConfig"
    [("connection", outlineConnection s.connection), ("replication", outlineFollowing s.following),
      ("logging", outlineLogging s.logging)]

end Settings

end Docstore
