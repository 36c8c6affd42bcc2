import ServiceDef.Position

/-!
# Tokens

The words, literals and punctuation marks that a source text is read as. Line breaks are
tokens, because they end statements. Text that is no part of the language is kept as an
invalid token.
-/

namespace ServiceDef

/-- What a token is. -/
inductive TokenKind where
  | identifier (name : String)
  /-- A string literal, by what it stands for. -/
  | string (contents : String)
  /-- A number, as it is written. -/
  | number (lexeme : String)
  | boolean (value : Bool)
  | path (text : String)
  | leftBrace
  | rightBrace
  | leftBracket
  | rightBracket
  | colon
  | comma
  | arrow
  | equals
  | newline
  /-- Text that is no part of the language. -/
  | invalid (text : String)
  | endOfFile
deriving DecidableEq, Repr, Inhabited

/-- The text between two backquotes. -/
def backquoted (text : String) : String :=
  "`" ++ text ++ "`"

/-- How a token is named in messages. -/
def TokenKind.describe : TokenKind → String
  | .identifier name => "identifier " ++ backquoted name
  | .string _ => "string"
  | .number lexeme => "number " ++ backquoted lexeme
  | .boolean true => backquoted "true"
  | .boolean false => backquoted "false"
  | .path text => "path " ++ backquoted text
  | .leftBrace => "'\x7b'"
  | .rightBrace => "'\x7d'"
  | .leftBracket => "'['"
  | .rightBracket => "']'"
  | .colon => "':'"
  | .comma => "','"
  | .arrow => "'->'"
  | .equals => "'='"
  | .newline => "end of line"
  | .invalid text => backquoted text
  | .endOfFile => "end of file"

/-- A token with its place and the comments written since the token before it. A comment that
shares its line with a statement thus belongs to the line break behind it. -/
structure Token where
  kind : TokenKind
  position : Position := {}
  comments : List String := []
deriving DecidableEq, Repr, Inhabited

end ServiceDef
