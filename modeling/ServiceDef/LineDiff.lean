/-!
# Line differences

The difference of two texts, line by line. A longest common subsequence of their lines is
kept, and all other lines are removed or added. The difference is shown in hunks: runs of
changes with three unchanged lines around them.
-/

namespace ServiceDef.LineDiff

/-- The lines of a text with their endings. A line ends behind a line feed, a carriage return,
or both in this order; the last line may have no ending. -/
def splitLines : List Char → List (List Char)
  | [] => []
  | '\r' :: '\n' :: rest => ['\r', '\n'] :: splitLines rest
  | c :: rest =>
    if c = '\n' || c = '\r' then [c] :: splitLines rest
    else
      match rest, splitLines rest with
      | [], _ => [[c]]
      | _ :: _, [] => [[c]]
      | _ :: _, line :: lines => (c :: line) :: lines

/-- The lines of a text. -/
def linesOf (text : String) : List String :=
  (splitLines text.toList).map String.ofList

/-- What happens to a line. -/
inductive Edit where
  | keep (line : String)
  | remove (line : String)
  | add (line : String)
deriving DecidableEq, Repr

namespace Edit

/-- Whether a line is removed or added. -/
def isChange : Edit → Bool
  | .keep _ => false
  | .remove _ => true
  | .add _ => true

/-- Whether a line belongs to the old text. -/
def isOld : Edit → Bool
  | .add _ => false
  | _ => true

/-- Whether a line belongs to the new text. -/
def isNew : Edit → Bool
  | .remove _ => false
  | _ => true

/-- The line that something happens to. -/
def line : Edit → String
  | .keep line => line
  | .remove line => line
  | .add line => line

/-- The mark in front of a shown line. -/
def mark : Edit → String
  | .keep _ => " "
  | .remove _ => "-"
  | .add _ => "+"

end Edit

/-- The edits between two lists of lines, with the number of lines that are kept. -/
structure Script where
  kept : Nat
  edits : List Edit
deriving DecidableEq, Repr

/-- The script with one more edit at its front. -/
def Script.push (edit : Edit) (script : Script) : Script where
  kept := if edit.isChange then script.kept else script.kept + 1
  edits := edit :: script.edits

/-- The script that adds all lines, for the lines and for each shorter end of them. -/
def addRow : List String → List Script
  | [] => [{ kept := 0, edits := [] }]
  | line :: lines =>
    let row := addRow lines
    match row with
    | [] => []
    | script :: _ => script.push (.add line) :: row

/-- The best scripts from `old` and the lines behind it, for the new lines and for each shorter
end of them, when `row` are the best scripts from the lines behind `old` alone. -/
def nextRow (old : String) : List String → List Script → List Script
  | [], script :: _ => [script.push (.remove old)]
  | new :: news, without :: row =>
    let rest := nextRow old news row
    match row, rest with
    | both :: _, later :: _ =>
      let best :=
        if old = new then both.push (.keep old)
        else if later.kept ≤ without.kept then without.push (.remove old)
        else later.push (.add new)
      best :: rest
    | _, _ => rest
  | _, [] => []

/-- The edits that lead from the old lines to the new ones and keep as many as possible. -/
def align (old new : List String) : List Edit :=
  match old.foldr (fun line row => nextRow line new row) (addRow new) with
  | script :: _ => script.edits
  | [] => []

/-- The edits with the removed lines of each run of changes in front of its added lines.
`removed` and `added` are the changes of the current run. -/
def orderRuns (removed added : List Edit) : List Edit → List Edit
  | [] => removed ++ added
  | .keep line :: edits => removed ++ added ++ .keep line :: orderRuns [] [] edits
  | .remove line :: edits => orderRuns (removed ++ [.remove line]) added edits
  | .add line :: edits => orderRuns removed (added ++ [.add line]) edits

/-- The number of unchanged lines that are shown before and behind a change. -/
def context : Nat := 3

/-- For each edit, whether it is a change or stands less than `left` lines behind one. -/
def nearChange (left : Nat) : List Edit → List Bool
  | [] => []
  | edit :: edits =>
    if edit.isChange then true :: nearChange context edits
    else (0 < left) :: nearChange (left - 1) edits

/-- For each edit, whether it is shown. -/
def shown (edits : List Edit) : List Bool :=
  List.zipWith (· || ·) (nearChange 0 edits) (nearChange 0 edits.reverse).reverse

/-- A run of shown edits and the numbers of old and new lines before it. -/
structure Hunk where
  oldBefore : Nat
  newBefore : Nat
  edits : List Edit
deriving DecidableEq, Repr

/-- The hunks of some edits, each with whether it is shown. `current` is the run of shown edits in
front of them, and `oldBefore` and `newBefore` count the lines before that run. -/
def hunks (oldBefore newBefore : Nat) (current : List Edit) : List (Edit × Bool) → List Hunk
  | [] => if current.isEmpty then [] else [⟨oldBefore, newBefore, current⟩]
  | (edit, true) :: rest => hunks oldBefore newBefore (current ++ [edit]) rest
  | (edit, false) :: rest =>
    let oldAfter := oldBefore + (current ++ [edit]).countP Edit.isOld
    let newAfter := newBefore + (current ++ [edit]).countP Edit.isNew
    let later := hunks oldAfter newAfter [] rest
    if current.isEmpty then later else ⟨oldBefore, newBefore, current⟩ :: later

/-- A range of `length` lines behind `before` lines. -/
def rangeText (before length : Nat) : String :=
  if length = 0 then toString before ++ ",0"
  else if length = 1 then toString (before + 1)
  else toString (before + 1) ++ "," ++ toString length

/-- Whether a line has an ending. -/
def hasEnding (line : String) : Bool :=
  line.toList.getLast? = some '\n' || line.toList.getLast? = some '\r'

/-- The text of a shown line. -/
def editText (edit : Edit) : String :=
  edit.mark ++ edit.line ++ (if hasEnding edit.line then "" else "\n\\ No newline at end of file\n")

/-- The text of a hunk. -/
def Hunk.text (hunk : Hunk) : String :=
  "@@ -" ++ rangeText hunk.oldBefore (hunk.edits.countP Edit.isOld) ++ " +" ++
    rangeText hunk.newBefore (hunk.edits.countP Edit.isNew) ++ " @@\n" ++
    String.join (hunk.edits.map editText)

/-- The difference of two texts of the file at `path`; nothing if they are the same. -/
def unified (path old new : String) : String :=
  let edits := orderRuns [] [] (align (linesOf old) (linesOf new))
  match hunks 0 0 [] (edits.zip (shown edits)) with
  | [] => ""
  | found =>
    "--- a/" ++ path ++ "\n+++ b/" ++ path ++ "\n" ++ String.join (found.map Hunk.text)

end ServiceDef.LineDiff
