import ServiceDef.Batch
import ServiceDef.Command.Outcome
import ServiceDef.Discovery
import ServiceDef.Validator

/-!
# The validate command

Validates all files that are found with the built-in rules, and tells what was found.
-/

namespace ServiceDef

/-- Validates the file at a path. -/
def validateFile (validator : Validator) (fileSystem : FileSystem) (path : String) :
    Except Failure Report :=
  match fileSystem.read path with
  | .ok source => .ok (validator.validateSource path source)
  | .error reason => .error (.unreadable path reason.message)

/-- Validates the files at some paths. -/
def validateFiles (validator : Validator) (options : BatchOptions) (fileSystem : FileSystem)
    (paths : List String) : List (Except Failure Report) :=
  runBatch options (validateFile validator fileSystem) paths

namespace ValidateCommand

/-- The notices on the result for a file. -/
def notices : Except Failure Report → List Notice
  | .ok report => report.diagnostics.map (.diagnostic report.path)
  | .error failure => Notice.ofFailure failure

/-- The number of errors in the result for a file: a failure counts as one. -/
def errors : Except Failure Report → Nat
  | .ok report => Diagnostic.errorCount report.diagnostics
  | .error _ => 1

/-- The number of warnings in the result for a file. -/
def warnings : Except Failure Report → Nat
  | .ok report => Diagnostic.warningCount report.diagnostics
  | .error _ => 0

/-- The outcome for the results of a batch. -/
def outcome (results : List (Except Failure Report)) : Outcome :=
  let errorTotal := results.foldr (fun result total => errors result + total) 0
  let warningTotal := results.foldr (fun result total => warnings result + total) 0
  let found := results.flatMap notices
  if 0 < errorTotal then
    { code := 1
      notices := found ++
        [.line ("validation failed (" ++ toString errorTotal ++ " errors, " ++
          toString warningTotal ++ " warnings)")] }
  else
    { output := toString results.length ++ " file(s) valid" ++
        (if 0 < warningTotal then " (" ++ toString warningTotal ++ " warning(s))" else "") ++ "\n"
      notices := found }

/-- Runs a validate command. -/
def run (path : String) (jobs : Option Nat) (fileSystem : FileSystem) : Outcome :=
  match Discovery.discover fileSystem path with
  | .error failure => Outcome.failed failure.message
  | .ok paths =>
    outcome (validateFiles Validator.builtin { workers := jobs } fileSystem paths)

end ValidateCommand

end ServiceDef
