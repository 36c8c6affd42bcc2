import ServiceDef.Position

/-!
# Diagnostics

A diagnostic is a positioned message with a severity and the name of the rule that produced
it. Lists of diagnostics are reported in the order of their positions and rules; those that
agree in both keep the order in which they were produced.
-/

namespace ServiceDef

/-- How serious a diagnostic is. Only errors make a source unusable. -/
inductive Severity where
  | error
  | warning
deriving DecidableEq, Repr

/-- The word that names a severity. -/
def Severity.name : Severity → String
  | .error => "error"
  | .warning => "warning"

/-- A positioned message of one rule. -/
structure Diagnostic where
  severity : Severity := .error
  rule : String
  message : String
  position : Position
  /-- Other places that the message is about. -/
  related : List Position := []
  notes : List String := []
deriving DecidableEq, Repr

namespace Diagnostic

/-- The rule under which malformed text is reported. -/
def malformedRule : String := "syntax"

/-- An error about malformed text. -/
def malformed (message : String) (position : Position) : Diagnostic where
  rule := malformedRule
  message := message
  position := position

/-- Whether a diagnostic is an error. -/
def isError (diagnostic : Diagnostic) : Bool :=
  diagnostic.severity = .error

/-- `FILE:LINE:COLUMN: SEVERITY[RULE]: MESSAGE`. -/
def display (diagnostic : Diagnostic) : String :=
  diagnostic.position.display ++ ": " ++ diagnostic.severity.name ++ "[" ++ diagnostic.rule ++
    "]: " ++ diagnostic.message

/-- Diagnostics are ordered by position and then by rule. -/
def order : Diagnostic → Diagnostic → Ordering :=
  compareLex (fun left right => Position.order left.position right.position) (compareOn (·.rule))

/-- Whether `left` may stand before `right` in a report. -/
def precedes (left right : Diagnostic) : Bool :=
  (order left right).isLE

/-- The diagnostics in reporting order. -/
def sort (diagnostics : List Diagnostic) : List Diagnostic :=
  diagnostics.mergeSort precedes

/-- Whether some diagnostic is an error. -/
def anyError (diagnostics : List Diagnostic) : Bool :=
  diagnostics.any isError

/-- The number of errors. -/
def errorCount (diagnostics : List Diagnostic) : Nat :=
  diagnostics.countP isError

/-- The number of warnings. -/
def warningCount (diagnostics : List Diagnostic) : Nat :=
  diagnostics.countP fun diagnostic => !diagnostic.isError

end Diagnostic

/-- A place of a diagnostic as it is marked in the source: the first mark is the place of
the diagnostic, and the others are the places related to it. -/
structure Mark where
  /-- Whether this is the place of the diagnostic itself. -/
  primary : Bool
  /-- The byte offset of the marked place. -/
  offset : Nat
  message : String
deriving DecidableEq, Repr

/-- The places that a diagnostic marks in its source. -/
def Diagnostic.marks (diagnostic : Diagnostic) : List Mark :=
  ⟨true, diagnostic.position.offset, ""⟩ ::
    diagnostic.related.map fun position => ⟨false, position.offset, "also here"⟩

end ServiceDef
