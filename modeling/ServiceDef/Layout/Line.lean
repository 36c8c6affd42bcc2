/-!
# Lines of canonical text

Canonical text is made of lines that are indented by two spaces for each level of nesting. A
value can start in the middle of a line and go on over further lines; such a piece of text is
a flow.
-/

namespace ServiceDef

/-- The number of spaces for `depth` levels of nesting. -/
def indentWidth (depth : Nat) : Nat :=
  2 * depth

/-- A line of canonical text. -/
structure Line where
  /-- The levels of nesting by which the line is indented. -/
  depth : Nat
  /-- The text behind the indentation. -/
  content : String
deriving DecidableEq, Repr

namespace Line

/-- The line without any text. -/
def blank : Line where
  depth := 0
  content := ""

/-- The text of a line, without a line break. -/
def text (line : Line) : String :=
  String.ofList (List.replicate (indentWidth line.depth) ' ') ++ line.content

/-- The line with more text at its end. -/
def append (line : Line) (tail : String) : Line :=
  { line with content := line.content ++ tail }

/-- The text of some lines, each with a line break at its end. -/
def join (lines : List Line) : String :=
  String.join (lines.map fun line => line.text ++ "\n")

/-- Groups of lines with a blank line between any two of them. -/
def separate (groups : List (List Line)) : List Line :=
  List.intercalate [blank] groups

end Line

/-- A piece of text that starts in the middle of a line. -/
structure Flow where
  /-- The text on the line that has been started. -/
  first : String
  /-- The lines behind it. -/
  rest : List Line := []
deriving DecidableEq, Repr

namespace Flow

/-- The flow with more text at its front. -/
def lead (flow : Flow) (head : String) : Flow :=
  { flow with first := head ++ flow.first }

/-- The lines with more text at the end of the last one. -/
def appendLast (tail : String) : List Line → List Line
  | [] => []
  | [line] => [line.append tail]
  | line :: next :: lines => line :: appendLast tail (next :: lines)

/-- The flow with more text at its end. -/
def trail (flow : Flow) (tail : String) : Flow :=
  match flow.rest with
  | [] => { flow with first := flow.first ++ tail }
  | rest => { flow with rest := appendLast tail rest }

/-- The lines of a flow that starts a line at the given depth. -/
def lines (flow : Flow) (depth : Nat) : List Line :=
  { depth := depth, content := flow.first } :: flow.rest

/-- The text of a flow. -/
def text (flow : Flow) : String :=
  flow.first ++ String.join (flow.rest.map fun line => "\n" ++ line.text)

end Flow

end ServiceDef
