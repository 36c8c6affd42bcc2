import ServiceDef.Failure
import ServiceDef.Layout.Document
import ServiceDef.Parse

/-!
# Formatting

Formatting replaces a source text by the canonical text of its document. Malformed text is
not formatted, because its document does not hold all that was written.
-/

namespace ServiceDef

/-- A source text and its canonical form. -/
structure Formatted where
  path : String
  source : String
  text : String
deriving DecidableEq, Repr

/-- Whether the canonical form differs from the source text. -/
def Formatted.changed (formatted : Formatted) : Bool :=
  formatted.text ≠ formatted.source

/-- Formats a source text. -/
def formatSource (settings : PrintSettings) (path source : String) : Except Failure Formatted :=
  let parsed := parse path source
  if Diagnostic.anyError parsed.diagnostics then
    .error (.malformed path source parsed.diagnostics)
  else
    .ok { path := path, source := source, text := parsed.document.print settings }

end ServiceDef
