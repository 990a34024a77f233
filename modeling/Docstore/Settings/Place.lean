import Docstore.Dictionary
import Docstore.Settings.Reader

/-!
# Where settings come from

A path given on the command line is the only place to look, and its absence is a fault.  Otherwise
the places are the path in `AQLBRIDGE_CONFIG`, the file `aqlbridge.toml` here, and the one in the
configuration directory of the user; the first file that exists is read.  Environment variables then
override the connection, and the outcome is validated.

The surroundings are a value: the files that exist, the environment, and the configuration
directory.
-/

namespace Docstore

/-- What a program finds around it. -/
structure Surroundings where
  /-- The files below the directory at hand, by path, with their contents. -/
  files : Dictionary String := []
  environment : Dictionary String := []
  /-- The configuration directory of the user. -/
  userDirectory : Option String := none
  deriving Repr, Inhabited

namespace Surroundings

/-- One step of a path: `.` stays, and `..` goes back one part; what leads out of the directory at
hand is kept, and the root, a first part that is empty, is its own parent. -/
def step (parts : List String) (part : String) : List String :=
  if part = "" ∨ part = "." then parts
  else if part = ".." then
    match parts.getLast? with
    | none | some ".." => parts ++ [".."]
    | some "" => parts
    | some _ => parts.dropLast
  else parts ++ [part]

/-- The most bytes that a path may have. -/
def pathLimit : Nat := 4095

/-- The most bytes that one part of a path may have. -/
def partLimit : Nat := 255

/-- The place that a path leads to, as parts, when every step starts from a place that
`isDirectory` allows.  A path that is empty or too long leads nowhere. -/
def walk? (isDirectory : List String → Bool) (path : String) : Option (List String) :=
  if path.isEmpty || pathLimit < path.utf8ByteSize then none
  else
    (Text.cutAtAll '/' path).foldl
      (fun place part => do
        let parts ← place
        if isDirectory parts then some (step parts part) else none)
      (some (if Text.startsWith "/" path then [""] else []))

/-- Whether a directory is at a place: the one at hand and those around it, or one that a file lies
in. -/
def isDirectory (s : Surroundings) (parts : List String) : Bool :=
  parts.all (fun part => part == ".." || part == "") || s.files.any fun f =>
    let all := Text.cutAtAll '/' f.1
    parts.isPrefixOf all && parts.length < all.length

/-- The content of the file at a path, if there is a file. -/
def file? (s : Surroundings) (path : String) : Option String := do
  let parts ← walk? s.isDirectory path
  Dictionary.get? (String.intercalate "/" parts) s.files

/-- The value of an environment variable. -/
def lookup? (s : Surroundings) (name : String) : Option String :=
  Dictionary.get? name s.environment

end Surroundings

namespace Settings

def fileName : String := "aqlbridge.toml"

/-- The places to look for settings, in order. -/
def places (explicit : Option String) (s : Surroundings) : List String :=
  match explicit with
  | some path => [path]
  | none =>
      (s.lookup? "AQLBRIDGE_CONFIG").toList ++ [fileName]
        ++ (s.userDirectory.map fun d => d ++ "/aqlbridge/" ++ fileName).toList

/-- The settings with what the environment overrides. -/
def overridden (s : Surroundings) (settings : Settings) : Settings :=
  let c := settings.connection
  { settings with
    connection := {
      url := (s.lookup? "AQLBRIDGE_URL").getD c.url
      database := (s.lookup? "AQLBRIDGE_DATABASE").getD c.database
      username := (s.lookup? "AQLBRIDGE_USERNAME").or c.username
      password := (s.lookup? "AQLBRIDGE_PASSWORD").or c.password } }

/-- The settings of the first file that exists, or the defaults. -/
def found (explicit : Option String) (s : Surroundings) : Except Failure Settings :=
  match (places explicit s).findSome? s.file?, explicit with
  | some text, _ => ofToml text
  | none, some path => .error (fault ("config file " ++ path ++ " not found"))
  | none, none => .ok {}

/-- The settings that hold in some surroundings. -/
def load (explicit : Option String) (s : Surroundings) : Except Failure Settings :=
  (found explicit s).bind fun settings => (settings.overridden s).validated

end Settings

end Docstore
