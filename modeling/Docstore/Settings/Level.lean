import Docstore.Text.Blank

/-!
# Levels of logging
-/

namespace Docstore

/-- How much is logged. -/
inductive LogLevel where
  | off
  | error
  | warn
  | info
  | debug
  | trace
  deriving DecidableEq, Repr

namespace LogLevel

/-- The level that a text names, in any case and with blanks around it; an unknown name stands for
`info`. -/
def ofText (s : String) : LogLevel :=
  match String.ofList ((Text.trimChars s.toList).map Char.toLower) with
  | "off" => .off
  | "error" => .error
  | "warn" => .warn
  | "debug" => .debug
  | "trace" => .trace
  | _ => .info

/-- The name of a level in capitals. -/
def name : LogLevel → String
  | .off => "OFF"
  | .error => "ERROR"
  | .warn => "WARN"
  | .info => "INFO"
  | .debug => "DEBUG"
  | .trace => "TRACE"

end LogLevel

end Docstore
