import ServiceDef.Text.Unprintable
import ServiceDef.Text.GraphemeExtend

/-!
# Visible text

Messages show labels and single characters between quotation marks, with every character
that could not be seen there written by an escape: a short one for the common controls, and
the hexadecimal code point for anything else that has no printed form of its own or would
be drawn onto the character before it.
-/

namespace ServiceDef.Text

/-- The escape that names a character by its code point, in lower-case hexadecimal digits
without padding. -/
def codePointEscape (c : Char) : List Char :=
  ['\\', 'u', '{'] ++ Nat.toDigits 16 c.toNat ++ ['}']

/-- The visible form of one character between two `mark` characters. -/
def visibleCharacter (mark c : Char) : List Char :=
  if c = '\x00' then ['\\', '0']
  else if c = '\t' then ['\\', 't']
  else if c = '\r' then ['\\', 'r']
  else if c = '\n' then ['\\', 'n']
  else if c = '\\' || c = mark then ['\\', c]
  else if isGraphemeExtend c || !isPrintable c then codePointEscape c
  else [c]

/-- The visible form of a text, in double quotes. -/
def showString (text : String) : String :=
  String.ofList ('"' :: text.toList.flatMap (visibleCharacter '"') ++ ['"'])

/-- The visible form of one character, in single quotes. -/
def showChar (c : Char) : String :=
  String.ofList ('\'' :: visibleCharacter '\'' c ++ ['\''])

end ServiceDef.Text
