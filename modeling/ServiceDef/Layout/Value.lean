import ServiceDef.Layout.Line
import ServiceDef.Layout.Style
import ServiceDef.Text.Quoted
import ServiceDef.Value

/-!
# Layout of values

A list or map stands on one line if all its parts are scalars and the line is not too wide
for it; otherwise each part starts a line of its own.
-/

namespace ServiceDef

/-- The canonical text of a scalar. -/
def Scalar.text : Scalar → String
  | .string contents => Text.quote contents
  | .number lexeme => lexeme
  | .boolean true => "true"
  | .boolean false => "false"

namespace Value

/-- The scalar that a value is, if it has no parts. -/
def scalar? : Value → Option Scalar
  | .scalar s => some s
  | _ => none

/-- The text of a list on one line, if all its items are scalars. -/
def inlineItems? (items : List Value) : Option String :=
  if items.all (·.scalar?.isSome) then
    some ("[" ++ String.intercalate ", " (items.filterMap fun item =>
      item.scalar?.map Scalar.text) ++ "]")
  else none

/-- The text in front of the value of an attribute or map entry. -/
def keyText (key : String) : String :=
  key ++ " = "

/-- The text of a map on one line, if all its values are scalars. -/
def inlineEntries? (entries : List (Entry Value)) : Option String :=
  if entries.all (·.value.scalar?.isSome) then
    some ("\x7b " ++ String.intercalate ", " (entries.filterMap fun entry =>
      entry.value.scalar?.map fun s => keyText entry.key ++ s.text) ++ " \x7d")
  else none

/-- The text on one line, if there is one and it fits within the limit when it starts behind
`column` characters. -/
def fitting? (limit column : Nat) (inline : Option String) : Option String :=
  inline.filter fun text => fits limit (column + text.length)

mutual

/-- The canonical text of a value that starts behind `column` characters of a line at the given
depth. -/
def layout (limit depth column : Nat) : Value → Flow
  | .scalar s => { first := s.text }
  | .list [] => { first := "[]" }
  | .map [] => { first := "\x7b\x7d" }
  | .list (item :: items) =>
    match fitting? limit column (inlineItems? (item :: items)) with
    | some text => { first := text }
    | none =>
      { first := "["
        rest := layoutItems limit (depth + 1) (item :: items) ++
          [{ depth := depth, content := "]" }] }
  | .map (entry :: entries) =>
    match fitting? limit column (inlineEntries? (entry :: entries)) with
    | some text => { first := text }
    | none =>
      { first := "\x7b"
        rest := layoutEntries limit (depth + 1) (entry :: entries) ++
          [{ depth := depth, content := "\x7d" }] }

/-- The lines of the items of a list, one after the other, each with a comma behind it. -/
def layoutItems (limit depth : Nat) : List Value → List Line
  | [] => []
  | item :: items =>
    ((layout limit depth (indentWidth depth) item).trail ",").lines depth ++
      layoutItems limit depth items

/-- The lines of the entries of a map, one after the other. -/
def layoutEntries (limit depth : Nat) : List (Entry Value) → List Line
  | [] => []
  | ⟨key, value, _⟩ :: entries =>
    ((layout limit depth (indentWidth depth + (keyText key).length) value).lead
      (keyText key)).lines depth ++ layoutEntries limit depth entries

end

end Value

end ServiceDef
