import ServiceDef.FileTree
import ServiceDef.Layout.Style
import ServiceDef.Settings.Toml

/-!
# Settings files

Settings for formatting can be kept in a file beside the sources. Every setting is optional. A
file with anything else in it is refused as a whole.
-/

namespace ServiceDef

/-- What a settings file sets. -/
structure Settings where
  actions : Option ActionStyle := none
  lineLength : Option Nat := none
  jobs : Option Nat := none
deriving DecidableEq, Repr

/-- Why the settings could not be loaded. -/
inductive SettingsFailure where
  | unreadable (path : String) (reason : ReadFailure)
  | invalid (path : String)
deriving DecidableEq, Repr

/-- The message for a failure. -/
def SettingsFailure.message : SettingsFailure → String
  | .unreadable path reason => "cannot read config file " ++ path ++ ": " ++ reason.message
  | .invalid path => "invalid config file " ++ path

namespace Settings

/-- The name of a settings file. -/
def fileName : String := "sdl.toml"

/-- Whether a value is a table or an array without anything in it. -/
def isEmptyValue : Toml.Value → Bool
  | .array [] => true
  | .table _ [] => true
  | _ => false

/-- The style that a value names: a string, or a table whose only key is the name and has an
empty value. -/
def style? : Toml.Value → Option ActionStyle
  | .string name => ActionStyle.ofName? name
  | .table _ [(name, value)] => if isEmptyValue value then ActionStyle.ofName? name else none
  | _ => none

/-- The number that a value stands for, if it is not negative. -/
def natural? : Toml.Value → Option Nat
  | .integer (.ofNat n) => some n
  | _ => none

/-- The settings of the formatting section: a table of named settings, or an array that starts
with all of them in order. -/
def section? : Toml.Value → Option Settings
  | .table _ entries =>
    entries.foldlM (fun settings (key, value) =>
      match key with
      | "actions" => (style? value).map fun style => { settings with actions := some style }
      | "line_length" => (natural? value).map fun n => { settings with lineLength := some n }
      | "jobs" => (natural? value).map fun n => { settings with jobs := some n }
      | _ => none) {}
  | .array (actions :: lineLength :: jobs :: _) => do
    some
      { actions := some (← style? actions)
        lineLength := some (← natural? lineLength)
        jobs := some (← natural? jobs) }
  | _ => none

/-- The settings in a text. -/
def parse? (text : String) : Option Settings := do
  match ← Toml.parse? text with
  | [] => some {}
  | [("fmt", value)] => section? value
  | _ => none

/-- Where the settings for a path are kept: in the directory itself, or beside the file. -/
def location? (fileSystem : FileSystem) (path : String) : Option String :=
  if fileSystem.isDirectory path then some (Path.join path fileName)
  else (Path.parent? path).map fun directory => Path.join directory fileName

/-- Reads the settings at a path. -/
def read (fileSystem : FileSystem) (path : String) : Except SettingsFailure Settings :=
  match fileSystem.read path with
  | .error reason => .error (.unreadable path reason)
  | .ok text =>
    match parse? text with
    | some settings => .ok settings
    | none => .error (.invalid path)

/-- Loads the settings for a path: from the named file, which has to be there, or else from the
file at the usual place, if there is one. -/
def load (fileSystem : FileSystem) (named : Option String) (path : String) :
    Except SettingsFailure Settings :=
  match named with
  | some file => read fileSystem file
  | none =>
    match location? fileSystem path with
    | some file => if fileSystem.isFile file then read fileSystem file else .ok {}
    | none => .ok {}

end Settings

end ServiceDef
