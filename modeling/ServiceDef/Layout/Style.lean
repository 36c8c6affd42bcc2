/-!
# Print settings

The settings of canonical text: how the actions of a block are laid out, and how wide a line
may be before lists, maps and actions are spread over more lines.
-/

namespace ServiceDef

/-- How the actions of blocks are to be laid out. -/
inductive ActionStyle where
  /-- Each action on a line of the block. -/
  | single
  /-- All actions in a group of their own. -/
  | multi
  /-- In a group if some action would be too wide on a line of the block. -/
  | auto
deriving DecidableEq, Repr

namespace ActionStyle

/-- The name of a style. -/
def name : ActionStyle → String
  | .single => "single"
  | .multi => "multi"
  | .auto => "auto"

/-- The style with the given name. -/
def ofName? (name : String) : Option ActionStyle :=
  [single, multi, auto].find? fun style => style.name = name

/-- The message for a name that no style has. -/
def unknownMessage (name : String) : String :=
  "invalid --actions value: " ++ name ++ " (expected single|multi|auto)"

end ActionStyle

/-- How a document is to be printed. -/
structure PrintSettings where
  style : ActionStyle := .auto
  /-- The greatest width of an action line under `auto` and of a list or map on one line. Zero
  stands for no limit. -/
  limit : Nat := 100
deriving DecidableEq, Repr

/-- Whether a text of the given width fits within a limit. -/
def fits (limit width : Nat) : Bool :=
  limit = 0 || width ≤ limit

end ServiceDef
