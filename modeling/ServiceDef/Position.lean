/-!
# Source positions

A position names a character of a source file by line, column and byte offset. Lines and
columns count from one, columns count characters, and offsets count the bytes of the UTF-8
form of the text. Positions advance over text one character at a time.
-/

namespace ServiceDef

/-- A place in a named source file. The default value names no file and stands for an
erased position. -/
structure Position where
  file : String := ""
  line : Nat := 0
  column : Nat := 0
  offset : Nat := 0
deriving DecidableEq, Repr, Inhabited

namespace Position

/-- The position of the first character of a file. -/
def startOf (file : String) : Position where
  file := file
  line := 1
  column := 1
  offset := 0

/-- The position after one more character: a line break starts the next line, and any other
character moves one column on. -/
def next (position : Position) (c : Char) : Position :=
  if c = '\n' then
    { position with
      line := position.line + 1
      column := 1
      offset := position.offset + c.utf8Size }
  else
    { position with
      column := position.column + 1
      offset := position.offset + c.utf8Size }

/-- The position after a run of characters. -/
def advance (position : Position) (text : List Char) : Position :=
  text.foldl next position

/-- Passing over no text stays in place. -/
@[simp] theorem advance_nil (position : Position) : position.advance [] = position := rfl

/-- Passing over a character and then the text behind it. -/
@[simp] theorem advance_cons (position : Position) (c : Char) (text : List Char) :
    position.advance (c :: text) = (position.next c).advance text := rfl

/-- Passing over two runs of text one after the other. -/
theorem advance_append (position : Position) (first second : List Char) :
    position.advance (first ++ second) = (position.advance first).advance second := by
  simp [advance]

/-- A position never leaves its file. -/
@[simp] theorem file_next (position : Position) (c : Char) :
    (position.next c).file = position.file := by
  unfold next
  split <;> rfl

/-- Passing over text never leaves the file. -/
@[simp] theorem file_advance (position : Position) (text : List Char) :
    (position.advance text).file = position.file := by
  induction text generalizing position with
  | nil => rfl
  | cons c text inductionHypothesis => simp [inductionHypothesis]

/-- `LINE:COLUMN`, for messages about one file. -/
def lineColumn (position : Position) : String :=
  toString position.line ++ ":" ++ toString position.column

/-- `FILE:LINE:COLUMN`, for messages that have to name the file. -/
def display (position : Position) : String :=
  position.file ++ ":" ++ position.lineColumn

/-- Positions are ordered by file name, then line, then column. -/
def order : Position → Position → Ordering :=
  compareLex (compareOn (·.file)) (compareLex (compareOn (·.line)) (compareOn (·.column)))

instance : Std.TransCmp order :=
  inferInstanceAs (Std.TransCmp (compareLex _ (compareLex _ _)))

end Position

end ServiceDef
