import ServiceDef.Diagnostic
import ServiceDef.Token
import ServiceDef.Text.Quoted
import ServiceDef.Text.Visible
import ServiceDef.Word

/-!
# Lexemes

A lexeme is the run of characters that makes up one token. Reading one splits the text in
front of the reader into the lexeme and what is behind it, and never fails: text that is no
part of the language is read as an invalid token together with the fault that was found.
Every lexeme has at least one character.
-/

namespace ServiceDef

/-- Why a lexeme is no part of the language. -/
inductive LexicalFault where
  /-- A string literal without its closing quote. -/
  | unterminatedString
  /-- A dash that starts neither an arrow nor a number. -/
  | strayDash
  /-- A character that starts no token. -/
  | unexpectedCharacter (c : Char)
deriving DecidableEq, Repr

/-- The message for a fault. -/
def LexicalFault.message : LexicalFault → String
  | .unterminatedString => "unterminated string literal"
  | .strayDash => "unexpected character '-' (expected '->' or a number)"
  | .unexpectedCharacter c => "unexpected character " ++ Text.showChar c

/-- One lexeme and the text behind it. -/
structure Lexeme where
  kind : TokenKind
  fault : Option LexicalFault := none
  /-- The characters of the lexeme. -/
  text : List Char
  /-- The characters behind the lexeme. -/
  rest : List Char
deriving DecidableEq, Repr

namespace Lexeme

/-- The longest run of digits, with a fraction if a dot and a digit follow it. -/
def spanNumber (cs : List Char) : List Char × List Char :=
  let digits := cs.takeWhile Char.isDigit
  match cs.dropWhile Char.isDigit with
  | '.' :: d :: rest =>
    if d.isDigit then
      (digits ++ '.' :: d :: rest.takeWhile Char.isDigit, rest.dropWhile Char.isDigit)
    else (digits, '.' :: d :: rest)
  | rest => (digits, rest)

/-- The longest run of characters of a path when `depth` braces are open: it ends before
white space, before an arrow and before a brace that closes none of its own. -/
def spanPath (depth : Nat) : List Char → List Char × List Char
  | [] => ([], [])
  | c :: rest =>
    if Text.isWhiteSpace c || (c = '-' && rest.head? = some '>') then ([], c :: rest)
    else if c = '{' then
      let (text, rest) := spanPath (depth + 1) rest
      (c :: text, rest)
    else if c = '}' then
      match depth with
      | 0 => ([], c :: rest)
      | depth + 1 =>
        let (text, rest) := spanPath depth rest
        (c :: text, rest)
    else
      let (text, rest) := spanPath depth rest
      (c :: text, rest)

/-- The token of a word: the truth values are no identifiers. -/
def wordKind (word : List Char) : TokenKind :=
  if word = ['t', 'r', 'u', 'e'] then .boolean true
  else if word = ['f', 'a', 'l', 's', 'e'] then .boolean false
  else .identifier (String.ofList word)

/-- The token of a punctuation mark or line break. -/
def markKind? (c : Char) : Option TokenKind :=
  if c = '\n' then some .newline
  else if c = '{' then some .leftBrace
  else if c = '}' then some .rightBrace
  else if c = '[' then some .leftBracket
  else if c = ']' then some .rightBracket
  else if c = ':' then some .colon
  else if c = ',' then some .comma
  else if c = '=' then some .equals
  else none

/-- Reads an arrow, a negative number or a stray dash, after the dash. -/
def readDash (rest : List Char) : Lexeme :=
  match rest with
  | '>' :: rest => { kind := .arrow, text := ['-', '>'], rest := rest }
  | d :: _ =>
    if d.isDigit then
      let (text, rest) := spanNumber rest
      { kind := .number (String.ofList ('-' :: text)), text := '-' :: text, rest := rest }
    else
      { kind := .invalid "-", fault := some .strayDash, text := ['-'], rest := rest }
  | [] => { kind := .invalid "-", fault := some .strayDash, text := ['-'], rest := [] }

/-- Reads a string literal, after its opening quote. What an open literal would have stood for
is kept behind the quote. -/
def readQuoted (rest : List Char) : Lexeme :=
  let span := Text.spanQuoted rest
  if span.closed then
    { kind := .string (String.ofList span.contents), text := '"' :: span.text, rest := span.rest }
  else
    { kind := .invalid (String.ofList ('"' :: span.contents))
      fault := some .unterminatedString
      text := '"' :: span.text
      rest := span.rest }

/-- Reads the lexeme that starts with `c` and goes on in `rest`. -/
def read (c : Char) (rest : List Char) : Lexeme :=
  match markKind? c with
  | some kind => { kind := kind, text := [c], rest := rest }
  | none =>
    if c = '-' then readDash rest
    else if c = '"' then readQuoted rest
    else if c = '/' then
      let (text, rest) := spanPath 0 rest
      { kind := .path (String.ofList (c :: text)), text := c :: text, rest := rest }
    else if c.isDigit then
      let (text, rest) := spanNumber (c :: rest)
      { kind := .number (String.ofList text), text := text, rest := rest }
    else if Word.isIdentifierStart c then
      let word := c :: rest.takeWhile Word.isIdentifierPart
      { kind := wordKind word, text := word, rest := rest.dropWhile Word.isIdentifierPart }
    else
      { kind := .invalid (String.singleton c)
        fault := some (.unexpectedCharacter c)
        text := [c]
        rest := rest }

/-- A number and the text behind it make up the text that was read. -/
theorem spanNumber_append (cs : List Char) : (spanNumber cs).1 ++ (spanNumber cs).2 = cs := by
  unfold spanNumber
  have split := List.takeWhile_append_dropWhile (p := Char.isDigit) (l := cs)
  split
  next d rest tail =>
    split
    · rw [tail] at split
      simpa using split
    · rw [tail] at split
      exact split
  next => exact split

/-- A path and the text behind it make up the text that was read. -/
theorem spanPath_append (depth : Nat) (cs : List Char) :
    (spanPath depth cs).1 ++ (spanPath depth cs).2 = cs := by
  fun_induction spanPath depth cs <;> simp_all

/-- A lexeme that starts with a dash and the text behind it make up the text that was read. -/
theorem readDash_text_append_rest (rest : List Char) :
    (readDash rest).text ++ (readDash rest).rest = '-' :: rest := by
  unfold readDash
  split
  · rfl
  · split
    · simpa using spanNumber_append _
    · rfl
  · rfl

/-- A lexeme and the text behind it make up the text that was read. -/
theorem text_append_rest (c : Char) (rest : List Char) :
    (read c rest).text ++ (read c rest).rest = c :: rest := by
  unfold read
  split
  · rfl
  · split
    · next dash => subst dash; exact readDash_text_append_rest rest
    · split
      · next mark =>
          subst mark
          unfold readQuoted
          have span := Text.spanQuoted_text_append_rest rest
          dsimp only
          split <;> simpa using span
      · split
        · simpa using spanPath_append 0 rest
        · split
          · exact spanNumber_append (c :: rest)
          · split
            · simp
            · rfl

/-- A number that starts with a digit is not empty. -/
theorem spanNumber_ne_nil (c : Char) (rest : List Char) (digit : c.isDigit = true) :
    (spanNumber (c :: rest)).1 ≠ [] := by
  unfold spanNumber
  split
  · split <;> simp [digit]
  · simp [digit]

/-- Every lexeme has at least one character. -/
theorem text_ne_nil (c : Char) (rest : List Char) : (read c rest).text ≠ [] := by
  unfold read
  split
  · simp
  · split
    · unfold readDash
      split
      · simp
      · split <;> simp
      · simp
    · split
      · unfold readQuoted
        dsimp only
        split <;> simp
      · split
        · simp
        · split
          · next digit => exact spanNumber_ne_nil c rest digit
          · split <;> simp

/-- Reading a lexeme leaves less text than there was. -/
theorem length_rest_lt (c : Char) (rest : List Char) :
    (read c rest).rest.length < (c :: rest).length := by
  have split := congrArg List.length (text_append_rest c rest)
  have positive := List.length_pos_iff.2 (text_ne_nil c rest)
  simp only [List.length_append] at split
  omega

end Lexeme

end ServiceDef
