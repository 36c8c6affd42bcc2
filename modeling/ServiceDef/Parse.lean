import ServiceDef.Reader.Step
import ServiceDef.Token.Scanner

/-!
# Parsing

Parsing turns a source text, or tokens from elsewhere, into a document. It always yields a
document: what is malformed is reported and left out. The first end-of-file token ends the
document, whatever follows it; a stream without one ends where its last token starts.
-/

namespace ServiceDef

/-- A document together with what was found wrong with its source. -/
structure Parsed where
  document : Document
  diagnostics : List Diagnostic
deriving DecidableEq, Repr

/-- Whether a token ends the file. -/
def Token.isEnd (token : Token) : Bool :=
  token.kind = .endOfFile

/-- The tokens before the first end of the file. -/
def contentTokens (tokens : List Token) : List Token :=
  tokens.takeWhile fun token => !token.isEnd

/-- The first end of the file, or one at the last token if there is none. -/
def endToken (file : String) (tokens : List Token) : Token :=
  match tokens.find? Token.isEnd with
  | some token => token
  | none =>
    { kind := .endOfFile
      position := (tokens.getLast?.map (·.position)).getD (Position.startOf file) }

/-- Parses tokens. The diagnostics are in the order in which they were found. -/
def parseTokens (file : String) (tokens : List Token) : Parsed :=
  let reader := (Reader.run {} (contentTokens tokens)).finish (endToken file tokens)
  { document := { file := file, blocks := reader.blocks, trailingComments := reader.pending }
    diagnostics := reader.diagnostics }

/-- Parses a source text. The diagnostics are in reporting order. -/
def parse (file source : String) : Parsed :=
  let (tokens, faults) := tokenize file source
  let parsed := parseTokens file tokens
  { parsed with diagnostics := Diagnostic.sort (parsed.diagnostics ++ faults) }

end ServiceDef
