import ServiceDef.Text.WhiteSpace

/-!
# Words

The character classes of identifiers, numbers and paths, and the texts that can stand for a
name or a path without quotation marks.
-/

namespace ServiceDef.Word

/-- The word that opens a group of actions. -/
def actions : String := "actions"

/-- The key under which a single action can be written. -/
def action : String := "action"

/-- ASCII letters and the underscore start an identifier. -/
def isIdentifierStart (c : Char) : Bool :=
  c.isAlpha || c = '_'

/-- ASCII letters, ASCII digits, underscores and dots continue an identifier. -/
def isIdentifierPart (c : Char) : Bool :=
  c.isAlphanum || c = '_' || c = '.'

/-- A text that can be written as an identifier: the two truth values cannot. -/
def isIdentifier (text : String) : Bool :=
  match text.toList with
  | [] => false
  | c :: rest =>
    isIdentifierStart c && rest.all isIdentifierPart && text ≠ "true" && text ≠ "false"

/-- Whether `->` occurs in the text. -/
def hasArrow : List Char → Bool
  | [] => false
  | c :: rest => (c = '-' && rest.head? = some '>') || hasArrow rest

/-- Whether no closing brace comes without an opening one before it, when `depth` braces are
already open. Braces may stay open. -/
def bracesOpenFirst (depth : Nat) : List Char → Bool
  | [] => true
  | c :: rest =>
    if c = '{' then bracesOpenFirst (depth + 1) rest
    else if c = '}' then
      match depth with
      | 0 => false
      | depth + 1 => bracesOpenFirst depth rest
    else bracesOpenFirst depth rest

/-- A text that can be written as a path: it starts with a slash, has no white space and no
arrow, and never closes a brace it has not opened. -/
def isBarePath (text : String) : Bool :=
  text.toList.head? = some '/' && !hasArrow text.toList &&
    !text.toList.any Text.isWhiteSpace && bracesOpenFirst 0 text.toList

end ServiceDef.Word
