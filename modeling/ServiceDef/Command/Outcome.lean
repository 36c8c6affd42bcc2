import ServiceDef.Failure
import ServiceDef.FileTree

/-!
# Outcomes of commands

What a command leaves behind: an exit code, the text on standard output, notices on standard
error, and the files it has written.
-/

namespace ServiceDef

/-- Something that is told to the user on standard error. -/
inductive Notice where
  | line (text : String)
  /-- A diagnostic about the file at the path. -/
  | diagnostic (path : String) (diagnostic : Diagnostic)
deriving DecidableEq, Repr

namespace Notice

/-- The lines of a notice. A diagnostic is shown by its message, its place and its notes. -/
def lines : Notice → List String
  | .line text => [text]
  | .diagnostic path found =>
    [found.severity.name ++ "[" ++ found.rule ++ "]: " ++ found.message,
     "at " ++ path ++ ":" ++ found.position.lineColumn] ++ found.notes.map ("= " ++ ·)

/-- The notice of an error. -/
def error (message : String) : Notice :=
  .line ("error: " ++ message)

/-- The notices of a failure: malformed text is shown by its diagnostics. -/
def ofFailure : Failure → List Notice
  | .malformed path _ diagnostics => diagnostics.map (.diagnostic path)
  | failure => [error failure.message]

end Notice

/-- What a command leaves behind. -/
structure Outcome where
  code : Nat := 0
  output : String := ""
  notices : List Notice := []
  /-- The paths of the files that are written, with their new texts. -/
  writes : List (String × String) := []
deriving DecidableEq, Repr

namespace Outcome

/-- The outcome of a command that could not start its work. -/
def failed (message : String) : Outcome where
  code := 1
  notices := [Notice.error message]

/-- The file system after a command. -/
def apply (outcome : Outcome) (fileSystem : FileSystem) : FileSystem :=
  outcome.writes.foldl (fun fileSystem (path, text) => fileSystem.write path text) fileSystem

end Outcome

end ServiceDef
