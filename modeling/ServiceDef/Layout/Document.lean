import ServiceDef.Document
import ServiceDef.Layout.Value
import ServiceDef.Word

/-!
# Layout of documents

The canonical text of a document: attributes first, then actions, then nested blocks, with a
blank line between these parts and between blocks. Comments stand above what they belong to,
or behind it on its line.
-/

namespace ServiceDef

namespace Layout

/-- The lines of comments. -/
def commentLines (depth : Nat) (comments : List String) : List Line :=
  comments.map fun comment => { depth := depth, content := comment }

/-- The text of a comment behind a statement on its line. -/
def trailingText (comment : Option String) : String :=
  match comment with
  | some comment => " " ++ comment
  | none => ""

/-- The lines of an attribute. -/
def attributeLines (limit depth : Nat) (attr : Attribute) : List Line :=
  let column := indentWidth depth + (Value.keyText attr.key).length
  let flow := (attr.value.layout limit depth column).lead (Value.keyText attr.key)
  commentLines depth attr.comments ++
    (flow.trail (trailingText attr.trailingComment)).lines depth

/-- The target of an action as it is written. -/
def targetText (target : String) : String :=
  if Word.isBarePath target then target else Text.quote target

/-- The handler of an action as it is written. -/
def handlerText (handler : String) : String :=
  if Word.isIdentifier handler then handler else Text.quote handler

/-- The text of an action without its comments. -/
def actionText (action : Action) : String :=
  action.method ++ " " ++ targetText action.target ++ " -> " ++ handlerText action.handler

/-- The lines of an action. -/
def actionLines (depth : Nat) (action : Action) : List Line :=
  commentLines depth action.comments ++
    [{ depth := depth, content := actionText action ++ trailingText action.trailingComment }]

/-- Whether the actions of a block stand on lines of the block or in a group. -/
inductive ActionLayout where
  | single
  | multi
deriving DecidableEq, Repr

/-- The width of an action on a line of a block at the given depth. -/
def actionWidth (depth : Nat) (action : Action) : Nat :=
  indentWidth (depth + 1) + (actionText action).length

/-- The layout of the actions of a block at the given depth. -/
def actionLayout (settings : PrintSettings) (depth : Nat) (actions : List Action) :
    ActionLayout :=
  match settings.style with
  | .single => .single
  | .multi => .multi
  | .auto =>
    if actions.all fun action => fits settings.limit (actionWidth depth action) then .single
    else .multi

/-- The lines of the actions of a block at the given depth. -/
def actionsLines (settings : PrintSettings) (depth : Nat) (actions : List Action) : List Line :=
  match actionLayout settings depth actions with
  | .single => actions.flatMap (actionLines (depth + 1))
  | .multi =>
    { depth := depth + 1, content := Word.actions ++ " \x7b" } ::
      actions.flatMap (actionLines (depth + 2)) ++ [{ depth := depth + 1, content := "\x7d" }]

/-- The text of the kind and label of a block. -/
def headerText (kind : String) (label : Option String) : String :=
  match label with
  | some label => kind ++ " " ++ Text.quote label
  | none => kind

/-- A group of lines, unless there are none of the parts it is for. -/
def groupOf {α : Type} (parts : List α) (lines : List Line) : List (List Line) :=
  if parts.isEmpty then [] else [lines]

mutual

/-- The lines of a block at the given depth. -/
def blockLines (settings : PrintSettings) (depth : Nat) : Block → List Line
  | ⟨kind, label, attributes, blocks, actions, comments, trailingComments, _⟩ =>
    let header := headerText kind label
    commentLines depth comments ++
      if attributes.isEmpty && blocks.isEmpty && actions.isEmpty && trailingComments.isEmpty then
        [{ depth := depth, content := header ++ " \x7b\x7d" }]
      else
        [{ depth := depth, content := header ++ " \x7b" }] ++
          Line.separate
            (groupOf attributes (attributes.flatMap (attributeLines settings.limit (depth + 1))) ++
             groupOf actions (actionsLines settings depth actions) ++
             blockGroups settings (depth + 1) blocks) ++
          commentLines (depth + 1) trailingComments ++ [{ depth := depth, content := "\x7d" }]

/-- The lines of each of some blocks at the given depth. -/
def blockGroups (settings : PrintSettings) (depth : Nat) : List Block → List (List Line)
  | [] => []
  | block :: blocks => blockLines settings depth block :: blockGroups settings depth blocks

end

/-- The lines of a document. -/
def documentLines (settings : PrintSettings) (document : Document) : List Line :=
  Line.separate
    (blockGroups settings 0 document.blocks ++
     groupOf document.trailingComments (commentLines 0 document.trailingComments))

end Layout

/-- The canonical text of a document: empty, or lines that each end with a line break. -/
def Document.print (document : Document) (settings : PrintSettings) : String :=
  Line.join (Layout.documentLines settings document)

end ServiceDef
