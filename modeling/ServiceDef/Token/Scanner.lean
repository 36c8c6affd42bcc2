import ServiceDef.Token.Lexeme

/-!
# Scanning

A scanner reads a source text as tokens, one at a time. In front of each token it skips
blanks and at most one comment, which runs to the end of its line and is handed to the token
behind it. The last token is the end of the file. A scanner is a plain value: keeping one
keeps the place from which to scan again.

`Scanner.next?` never looks behind the line break that ends the current line, so a malformed
line cannot change the tokens of another one.
-/

namespace ServiceDef

/-- Blanks separate tokens and mean nothing. -/
def isBlank (c : Char) : Bool :=
  c = ' ' || c = '\t' || c = '\r'

/-- The text in front of a token, split into what is skipped and what is not. -/
structure Gap where
  /-- The blanks that are skipped. -/
  blanks : List Char
  /-- The comment behind the blanks, up to the end of its line; empty if there is none. -/
  comment : List Char
  /-- The text behind the gap: it is empty or starts with the first character of a lexeme. -/
  rest : List Char
deriving DecidableEq, Repr

namespace Gap

/-- Splits off the gap in front of the next token. -/
def read (cs : List Char) : Gap :=
  let blanks := cs.takeWhile isBlank
  let rest := cs.dropWhile isBlank
  if rest.head? = some '#' then
    { blanks := blanks
      comment := rest.takeWhile (· ≠ '\n')
      rest := rest.dropWhile (· ≠ '\n') }
  else
    { blanks := blanks, comment := [], rest := rest }

/-- The characters of a gap. -/
def text (gap : Gap) : List Char :=
  gap.blanks ++ gap.comment

/-- The comments of the token behind the gap: the comment of the gap without the white space
at its end. -/
def comments (gap : Gap) : List String :=
  match gap.comment with
  | [] => []
  | comment => [String.ofList (Text.trimEnd comment)]

/-- A gap and the text behind it make up the text that was read. -/
theorem text_append_rest (cs : List Char) : (read cs).text ++ (read cs).rest = cs := by
  simp only [read, text]
  split <;> simp

/-- Skipping a gap never lengthens the text. -/
theorem length_rest_le (cs : List Char) : (read cs).rest.length ≤ cs.length := by
  have split := congrArg List.length (text_append_rest cs)
  simp only [List.length_append] at split
  omega

end Gap

/-- A scanner in the middle of a source text. -/
structure Scanner where
  /-- The position of the next character. -/
  position : Position
  /-- The text that is still to be read. -/
  rest : List Char
  /-- Whether the end of the file has been read. -/
  finished : Bool := false
  /-- The diagnostics found since they were last taken. -/
  diagnostics : List Diagnostic := []
deriving DecidableEq, Repr

namespace Scanner

/-- A scanner at the start of a source text. -/
def start (file source : String) : Scanner where
  position := Position.startOf file
  rest := source.toList

/-- The next token and the scanner behind it, or nothing once the end of the file has been
read. -/
def next? (scanner : Scanner) : Option (Token × Scanner) :=
  if scanner.finished then none
  else
    let gap := Gap.read scanner.rest
    let position := scanner.position.advance gap.text
    match gap.rest with
    | [] =>
      some
        ({ kind := .endOfFile, position := position, comments := gap.comments },
         { scanner with position := position, rest := [], finished := true })
    | c :: cs =>
      let lexeme := Lexeme.read c cs
      some
        ({ kind := lexeme.kind, position := position, comments := gap.comments },
         { scanner with
           position := position.advance lexeme.text
           rest := lexeme.rest
           diagnostics := scanner.diagnostics ++
             (lexeme.fault.map fun fault => Diagnostic.malformed fault.message position).toList })

/-- The diagnostics found since they were last taken, and the scanner without them. -/
def takeDiagnostics (scanner : Scanner) : List Diagnostic × Scanner :=
  (scanner.diagnostics, { scanner with diagnostics := [] })

/-- An upper bound for the number of tokens that are still to be read. -/
def remaining (scanner : Scanner) : Nat :=
  if scanner.finished then 0 else scanner.rest.length + 1

/-- Reading a token brings the end nearer. -/
theorem remaining_lt_of_next? {scanner after : Scanner} {token : Token}
    (read : scanner.next? = some (token, after)) : after.remaining < scanner.remaining := by
  have gapLength := Gap.length_rest_le scanner.rest
  unfold next? at read
  split at read
  · simp at read
  · next running =>
      dsimp only at read
      split at read
      · simp only [Option.some.injEq, Prod.mk.injEq] at read
        obtain ⟨-, rfl⟩ := read
        simp [remaining, running]
      · next c cs rest =>
          simp only [Option.some.injEq, Prod.mk.injEq] at read
          obtain ⟨-, rfl⟩ := read
          have lexemeLength := Lexeme.length_rest_lt c cs
          rw [rest] at gapLength
          simp only [remaining, running]
          simp only [Bool.false_eq_true, ↓reduceIte]
          omega

/-- All tokens that are still to be read, and the scanner behind them. -/
def drain (scanner : Scanner) : List Token × Scanner :=
  match _read : scanner.next? with
  | none => ([], scanner)
  | some (token, after) =>
    let (tokens, last) := after.drain
    (token :: tokens, last)
termination_by scanner.remaining
decreasing_by exact remaining_lt_of_next? _read

end Scanner

/-- All tokens of a source text, and the diagnostics for its invalid ones. -/
def tokenize (file source : String) : List Token × List Diagnostic :=
  let (tokens, scanner) := (Scanner.start file source).drain
  (tokens, scanner.diagnostics)

end ServiceDef
