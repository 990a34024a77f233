import Docstore.Text.Pieces

/-!
# The command line

A command line is read from left to right.  Two options may stand before or behind the command, the
one behind winning; each command has arguments of its own.  An option takes the next word as its
value, or what follows an equals sign, and no option may be given twice in one place unless it
collects values.  Asking for help or for the version ends the reading at once, and so does the first
mistake.
-/

namespace Docstore

namespace CommandLine

/-- A command. -/
inductive Command where
  /-- Compile a request, given here or on the standard input. -/
  | compile (request : Option String) (pretty : Bool)
  /-- Follow the log, of all collections or of some. -/
  | tail (collections : List String)
  | showConfig
  deriving DecidableEq, Repr

/-- What help is about. -/
inductive HelpTopic where
  | program
  | compile
  | tail
  | showConfig
  | help
  deriving DecidableEq, Repr

/-- The options that every command takes. -/
structure Shared where
  config : Option String := none
  level : Option String := none
  deriving DecidableEq, Repr

/-- What a command line asks for. -/
inductive Reading where
  | run (shared : Shared) (command : Command)
  | help (topic : HelpTopic)
  | version
  | mistake
  deriving DecidableEq, Repr

/-- Options behind a command win over those before it. -/
def Shared.over (inner outer : Shared) : Shared :=
  ⟨inner.config.or outer.config, inner.level.or outer.level⟩

/-- Whether a word looks like an option. -/
def isOption (word : String) : Bool :=
  match word.toList with
  | ['-'] => false
  | '-' :: _ => true
  | _ => false

/-- The options that take a value. -/
inductive Valued where
  | config
  | level
  | collections
  deriving DecidableEq, Repr

/-- An option word: its name, and the value behind an equals sign if there is one. -/
def splitOption (word : String) : String × Option String :=
  match Text.cutAtFirst? '=' word with
  | some (name, value) => (name, some value)
  | none => (word, none)

/-- What has been read of a command's arguments. -/
structure Arguments where
  shared : Shared := {}
  pretty : Bool := false
  collections : List String := []
  positional : List String := []
  deriving Repr

/-- The arguments with a value for an option, if the option takes it. -/
def Arguments.set? (a : Arguments) (option : Valued) (value : String) : Option Arguments :=
  match option with
  | .config =>
      if a.shared.config.isSome || value.isEmpty then none
      else some { a with shared := { a.shared with config := some value } }
  | .level =>
      if a.shared.level.isSome then none
      else some { a with shared := { a.shared with level := some value } }
  | .collections => some { a with collections := a.collections ++ Text.cutAtAll ',' value }

/-- What a place on the command line understands. -/
structure Grammar where
  topic : HelpTopic
  valued : List (String × Valued)
  takesPretty : Bool := false
  takesVersion : Bool := false
  positionals : Nat := 0

def sharedOptions : List (String × Valued) := [("--config", .config), ("--log-level", .level)]

/-- The result of reading arguments: they are complete, or a word ends them early. -/
inductive Scan where
  | done (a : Arguments)
  /-- A word that is no option stands where the program expects its command. -/
  | command (a : Arguments) (word : String) (rest : List String)
  | ended (r : Reading)
  deriving Repr

/-- A word that is no option, or stands behind the double dash. -/
def takePositional (g : Grammar) (a : Arguments) (word : String) : Option Arguments :=
  if a.positional.length < g.positionals then
    some { a with positional := a.positional ++ [word] }
  else none

/-- Reads the words behind the double dash. -/
def scanPositionals (g : Grammar) (a : Arguments) : List String → Scan
  | [] => .done a
  | word :: rest =>
      match takePositional g a word with
      | some a => scanPositionals g a rest
      | none => .ended .mistake

/-- Reads arguments.  `awaits` is an option that still lacks its value. -/
def scan (g : Grammar) (awaits : Option Valued) (a : Arguments) : List String → Scan
  | [] =>
      match awaits with
      | none => .done a
      | some _ => .ended .mistake
  | word :: rest =>
      match awaits with
      | some option =>
          if isOption word then .ended .mistake
          else
            match a.set? option word with
            | some a => scan g none a rest
            | none => .ended .mistake
      | none =>
          if word = "--" then scanPositionals g a rest
          else if !isOption word then
            if g.topic = .program then .command a word rest
            else
              match takePositional g a word with
              | some a => scan g none a rest
              | none => .ended .mistake
          else if word = "--help" then .ended (.help g.topic)
          else if word = "--version" then .ended (if g.takesVersion then .version else .mistake)
          else if word = "--pretty" then
            if g.takesPretty && !a.pretty then scan g none { a with pretty := true } rest
            else .ended .mistake
          else if Text.startsWith "--" word then
            let (name, value) := splitOption word
            match g.valued.lookup name, value with
            | some option, some value =>
                match a.set? option value with
                | some a => scan g none a rest
                | none => .ended .mistake
            | some option, none => scan g (some option) a rest
            | none, _ => .ended .mistake
          else
            match word.toList with
            | '-' :: 'h' :: _ => .ended (.help g.topic)
            | '-' :: 'V' :: _ => .ended (if g.takesVersion then .version else .mistake)
            | _ => .ended .mistake

/-- What the program understands before its command. -/
def programGrammar : Grammar :=
  { topic := .program, valued := sharedOptions, takesVersion := true }

def compileGrammar : Grammar :=
  { topic := .compile, valued := sharedOptions, takesPretty := true, positionals := 1 }

def tailGrammar : Grammar :=
  { topic := .tail, valued := ("--collections", .collections) :: sharedOptions }

def showConfigGrammar : Grammar := { topic := .showConfig, valued := sharedOptions }

def readCommand (g : Grammar) (outer : Shared) (build : Arguments → Command)
    (words : List String) : Reading :=
  match scan g none {} words with
  | .done a => .run (a.shared.over outer) (build a)
  | .ended r => r
  | .command _ _ _ => .mistake

def readHelp : List String → Reading
  | [] => .help .program
  | ["compile"] => .help .compile
  | ["tail"] => .help .tail
  | ["show-config"] => .help .showConfig
  | ["help"] => .help .help
  | _ => .mistake

/-- Reads a command line without the name of the program. -/
def read (words : List String) : Reading :=
  match scan programGrammar none {} words with
  | .ended r => r
  | .done _ => .mistake
  | .command a "compile" rest =>
      readCommand compileGrammar a.shared (fun b => .compile b.positional.head? b.pretty) rest
  | .command a "tail" rest =>
      readCommand tailGrammar a.shared (fun b => .tail b.collections) rest
  | .command a "show-config" rest =>
      readCommand showConfigGrammar a.shared (fun _ => .showConfig) rest
  | .command _ "help" rest => readHelp rest
  | .command _ _ _ => .mistake

end CommandLine

end Docstore
