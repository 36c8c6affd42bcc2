import ServiceDef.Diagnostic

/-!
# Failures

Why a file of a batch has no result. A failure concerns one file only and leaves the results
of the other files alone.
-/

namespace ServiceDef

/-- Why a file has no result. -/
inductive Failure where
  /-- The file could not be read. -/
  | unreadable (path reason : String)
  /-- The file holds malformed text. The text is kept, so that its faults can be shown. -/
  | malformed (path source : String) (diagnostics : List Diagnostic)
  /-- The batch was cancelled before the file was reached. -/
  | cancelled (path : String)
deriving DecidableEq, Repr

/-- The file that has no result. -/
def Failure.path : Failure → String
  | .unreadable path _ => path
  | .malformed path _ _ => path
  | .cancelled path => path

/-- The message for a failure. -/
def Failure.message : Failure → String
  | .unreadable path reason => path ++ ": " ++ reason
  | .malformed path _ diagnostics =>
    path ++ ": " ++ toString (Diagnostic.errorCount diagnostics) ++ " syntax error(s)"
  | .cancelled path => path ++ ": cancelled before processing"

end ServiceDef
