import Docstore.Command.Options

/-!
# The texts of help and version
-/

namespace Docstore

namespace CommandLine

/-- Lines one under the other, each with its end. -/
def lines (ls : List String) : String := String.join (ls.map (· ++ "\n"))

def blanks (n : Nat) : String := String.ofList (List.replicate n ' ')

/-- An entry of a list, with its explanation from a column on. -/
def entry (column : Nat) (head text : String) : String :=
  head ++ blanks (column - head.length) ++ text

/-- The options of every place, with their explanations from a column on. -/
def configEntry (column : Nat) : List String :=
  [entry column "      --config <CONFIG>"
      "Path to a config file (TOML). If omitted, the usual locations are",
    blanks column ++ "searched."]

/-- The option for the level of logging. -/
def levelEntry (column : Nat) : String :=
  entry column "      --log-level <LOG_LEVEL>"
    "Log level override: error|warn|info|debug|trace"

def helpEntry (column : Nat) : String := entry column "  -h, --help" "Print help"

def aboutProgram : String := "Criteria compiler and change-stream tail"

def aboutCompile : String := "Compile a request (JSON) and print the statement as JSON"

def aboutTail : String :=
  "Follow the server\x27s change stream and print one NDJSON line per change"

def aboutShowConfig : String := "Print the resolved configuration (password redacted)"

def aboutHelp : String := "Print this message or the help of the given subcommand(s)"

def helpText : HelpTopic → String
  | .program => lines ([
      aboutProgram, "",
      "Usage: aqlbridge [OPTIONS] <COMMAND>", "",
      "Commands:",
      entry 15 "  compile" aboutCompile,
      entry 15 "  tail" aboutTail,
      entry 15 "  show-config" aboutShowConfig,
      entry 15 "  help" aboutHelp, "",
      "Options:"] ++ configEntry 31 ++
      [levelEntry 31, helpEntry 31, entry 31 "  -V, --version" "Print version"])
  | .compile => lines ([
      aboutCompile, "",
      "Usage: aqlbridge compile [OPTIONS] [REQUEST]", "",
      "Arguments:",
      "  [REQUEST]  Compile request JSON; read from stdin when omitted", "",
      "Options:"] ++ configEntry 31 ++
      [entry 31 "      --pretty" "Pretty-print the output", levelEntry 31, helpEntry 31])
  | .tail => lines ([
      aboutTail, "",
      "Usage: aqlbridge tail [OPTIONS]", "",
      "Options:",
      entry 35 "      --collections <COLLECTIONS>"
        "Only print changes for these collections (comma-separated)"] ++ configEntry 35 ++
      [levelEntry 35, helpEntry 35])
  | .showConfig => lines ([
      aboutShowConfig, "",
      "Usage: aqlbridge show-config [OPTIONS]", "",
      "Options:"] ++ configEntry 31 ++ [levelEntry 31, helpEntry 31])
  | .help => lines [
      aboutHelp, "",
      "Usage: aqlbridge help [COMMAND]...", "",
      "Arguments:",
      "  [COMMAND]...  Print help for the subcommand(s)"]

def versionText : String := lines ["aqlbridge 0.1.0"]

end CommandLine

end Docstore
