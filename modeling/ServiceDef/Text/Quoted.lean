/-!
# Quoted text

String literals stand between double quotes. Five characters are written as a backslash and
a letter or mark. A reader also meets backslashes before other characters; such a pair
stands for itself.
-/

namespace ServiceDef.Text

/-- How a character is written inside a string literal. -/
def escape (c : Char) : List Char :=
  if c = '"' then ['\\', '"']
  else if c = '\\' then ['\\', '\\']
  else if c = '\n' then ['\\', 'n']
  else if c = '\t' then ['\\', 't']
  else if c = '\r' then ['\\', 'r']
  else [c]

/-- What a backslash followed by `c` stands for inside a string literal. -/
def unescape (c : Char) : List Char :=
  if c = '"' then ['"']
  else if c = '\\' then ['\\']
  else if c = 'n' then ['\n']
  else if c = 't' then ['\t']
  else if c = 'r' then ['\r']
  else ['\\', c]

/-- The string literal with the given contents. -/
def quote (contents : String) : String :=
  String.ofList ('"' :: contents.toList.flatMap escape ++ ['"'])

/-- The text behind an opening quote, split where its literal ends. -/
structure QuotedSpan where
  /-- What the literal stands for. -/
  contents : List Char
  /-- The characters of the literal, with the closing quote if there is one. -/
  text : List Char
  /-- The characters behind the literal. -/
  rest : List Char
  /-- Whether a closing quote was found. -/
  closed : Bool
deriving DecidableEq, Repr

/-- A span extended at its front by `text`, which stands for `contents`. -/
def QuotedSpan.push (span : QuotedSpan) (contents text : List Char) : QuotedSpan :=
  { span with contents := contents ++ span.contents, text := text ++ span.text }

/-- Splits the characters behind an opening quote. A literal ends at its closing quote; it is
left open at a line break, which stays behind it, and at the end of the text. A backslash
right before either of these belongs to the literal and stands for nothing. -/
def spanQuoted : List Char → QuotedSpan
  | [] => ⟨[], [], [], false⟩
  | c :: rest =>
    if c = '\n' then ⟨[], [], c :: rest, false⟩
    else if c = '"' then ⟨[], [c], rest, true⟩
    else if c = '\\' then
      match rest with
      | [] => ⟨[], [c], [], false⟩
      | d :: rest =>
        if d = '\n' then ⟨[], [c], d :: rest, false⟩
        else (spanQuoted rest).push (unescape d) [c, d]
    else (spanQuoted rest).push [c] [c]

/-- The characters of a quoted span and those behind it make up the text that was read. -/
theorem spanQuoted_text_append_rest (cs : List Char) :
    (spanQuoted cs).text ++ (spanQuoted cs).rest = cs := by
  fun_induction spanQuoted cs <;> simp_all [QuotedSpan.push]

end ServiceDef.Text
