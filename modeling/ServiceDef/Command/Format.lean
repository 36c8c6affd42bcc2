import ServiceDef.Batch
import ServiceDef.Command.Arguments
import ServiceDef.Command.Outcome
import ServiceDef.Discovery
import ServiceDef.Format
import ServiceDef.LineDiff
import ServiceDef.Settings

/-!
# The format command

Formats all files that are found. Depending on the request, the files are written, the
differences are shown, or the files that would change are listed. Settings on the command
line go before those of the settings file.
-/

namespace ServiceDef

/-- Formats the file at a path. -/
def formatFile (settings : PrintSettings) (fileSystem : FileSystem) (path : String) :
    Except Failure Formatted :=
  match fileSystem.read path with
  | .ok source => formatSource settings path source
  | .error reason => .error (.unreadable path reason.message)

/-- Formats the files at some paths. -/
def formatFiles (settings : PrintSettings) (options : BatchOptions) (fileSystem : FileSystem)
    (paths : List String) : List (Except Failure Formatted) :=
  runBatch options (formatFile settings fileSystem) paths

/-- Why a command could not start its work. -/
inductive CommandFailure where
  | settings (failure : SettingsFailure)
  | unknownStyle (name : String)
  | discovery (failure : DiscoveryFailure)
deriving DecidableEq, Repr

/-- The message for a failure. -/
def CommandFailure.message : CommandFailure → String
  | .settings failure => failure.message
  | .unknownStyle name => ActionStyle.unknownMessage name
  | .discovery failure => failure.message

namespace FormatRequest

/-- The style that a request asks for, when the settings file has the given one. -/
def style (request : FormatRequest) (settings : Settings) : Except CommandFailure ActionStyle :=
  match request.actions with
  | some name =>
    match ActionStyle.ofName? name with
    | some style => .ok style
    | none => .error (.unknownStyle name)
  | none => .ok (settings.actions.getD .auto)

/-- How a request wants documents to be printed and the batch to be run. -/
def resolve (request : FormatRequest) (fileSystem : FileSystem) :
    Except CommandFailure (PrintSettings × BatchOptions) := do
  let settings ←
    match Settings.load fileSystem request.config request.path with
    | .ok settings => .ok settings
    | .error failure => .error (.settings failure)
  let style ← request.style settings
  .ok
    ({ style := style, limit := (request.lineLength.or settings.lineLength).getD 100 },
     { workers := request.jobs.or settings.jobs })

/-- Whether a request asks for files to be written. -/
def writes (request : FormatRequest) : Bool :=
  request.write && !request.diff && !request.check

/-- What is printed for a file that changes. -/
def printed (request : FormatRequest) (formatted : Formatted) : String :=
  if request.diff then LineDiff.unified formatted.path formatted.source formatted.text
  else if request.check then formatted.path ++ "\n"
  else ""

/-- The files of a batch that are not in canonical form. -/
def changes (results : List (Except Failure Formatted)) : List Formatted :=
  results.filterMap fun result =>
    match result with
    | .ok formatted => if formatted.changed then some formatted else none
    | .error _ => none

/-- The files of a batch that could not be formatted. -/
def failures (results : List (Except Failure Formatted)) : List Failure :=
  results.filterMap fun result =>
    match result with
    | .ok _ => none
    | .error failure => some failure

/-- The outcome of a request for the results of its batch. -/
def outcome (request : FormatRequest) (results : List (Except Failure Formatted)) : Outcome :=
  let changed := changes results
  let failed := failures results
  let notices := failed.flatMap Notice.ofFailure
  let reformat := request.check && !changed.isEmpty
  { code := if reformat then 3 else if failed.isEmpty then 0 else 1
    output := String.join (changed.map request.printed)
    notices :=
      if reformat then
        notices ++ [.line (toString changed.length ++ " file(s) would be reformatted")]
      else notices
    writes :=
      if request.writes then changed.map fun formatted => (formatted.path, formatted.text)
      else [] }

/-- Runs a format command. -/
def run (request : FormatRequest) (fileSystem : FileSystem) : Outcome :=
  match request.resolve fileSystem with
  | .error failure => Outcome.failed failure.message
  | .ok (settings, options) =>
    match Discovery.discover fileSystem request.path with
    | .error failure => Outcome.failed (CommandFailure.discovery failure).message
    | .ok paths => request.outcome (formatFiles settings options fileSystem paths)

end FormatRequest

end ServiceDef
