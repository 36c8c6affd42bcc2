import Mathlib.Data.List.Forall2
import ServiceDef.Proofs.Reader.Operations

/-!
# Growth of documents

A document grows when statements are added to it. All that it had is still there, in the same
order and in the same blocks, and what is new can be told by its position. Comments are left out
of the comparison of blocks.

While a document is read, the blocks that are open grow as well, and new ones are opened inside
of them.
-/

namespace ServiceDef

/-- `after` has all elements of `before` in the same order, and its others are `Extra`. -/
inductive Grows {α : Type} (Extra : α → Prop) : List α → List α → Prop where
  | nil : Grows Extra [] []
  | keep {before after : List α} (element : α) (others : Grows Extra before after) :
      Grows Extra (element :: before) (element :: after)
  | extra {before after : List α} {element : α} (isExtra : Extra element)
      (others : Grows Extra before after) :
      Grows Extra before (element :: after)

/-- The block without its body. -/
def Block.emptied (block : Block) : Block where
  kind := block.kind
  label := block.label
  position := block.position

theorem Block.position_emptied (block : Block) : block.emptied.position = block.position := rfl

mutual

/-- `after` is the block `before` with more statements in it, at `Extra` positions. -/
inductive BlockGrows (Extra : Position → Prop) : Block → Block → Prop where
  | body {before after : Block} (heading : after.emptied = before.emptied)
      (attributes : Grows (fun attr => Extra attr.position) before.attributes after.attributes)
      (actions : Grows (fun action => Extra action.position) before.actions after.actions)
      (blocks : BlocksGrow Extra before.blocks after.blocks) :
      BlockGrows Extra before after

/-- `after` has all blocks of `before`, grown, in the same order. All that stands in its other
blocks is at `Extra` positions, as they are themselves. -/
inductive BlocksGrow (Extra : Position → Prop) : List Block → List Block → Prop where
  | nil : BlocksGrow Extra [] []
  | keep {first grown : Block} {before after : List Block} (same : BlockGrows Extra first grown)
      (others : BlocksGrow Extra before after) :
      BlocksGrow Extra (first :: before) (grown :: after)
  | extra {fresh : Block} {before after : List Block} (isExtra : Extra fresh.position)
      (body : BlockGrows Extra fresh.emptied fresh) (others : BlocksGrow Extra before after) :
      BlocksGrow Extra before (fresh :: after)

end

/-! ## Lists -/

namespace Grows

variable {α : Type} {Extra : α → Prop}

theorem refl (elements : List α) : Grows Extra elements elements := by
  induction elements with
  | nil => exact .nil
  | cons element elements inductionHypothesis => exact .keep element inductionHypothesis

theorem append {before after more others : List α} (first : Grows Extra before after)
    (second : Grows Extra more others) : Grows Extra (before ++ more) (after ++ others) := by
  induction first with
  | nil => exact second
  | keep element _ inductionHypothesis => exact .keep element inductionHypothesis
  | extra isExtra _ inductionHypothesis => exact .extra isExtra inductionHypothesis

/-- Both lists get the same element at their end. -/
theorem snoc {before after : List α} (grown : Grows Extra before after) (element : α) :
    Grows Extra (before ++ [element]) (after ++ [element]) :=
  grown.append (refl [element])

/-- The grown list gets an extra element at its end. -/
theorem snocExtra {before after : List α} (grown : Grows Extra before after) {element : α}
    (isExtra : Extra element) : Grows Extra before (after ++ [element]) := by
  have appended := grown.append (.extra isExtra .nil)
  rw [List.append_nil] at appended
  exact appended

end Grows

/-! ## Blocks -/

variable {Extra : Position → Prop}

theorem BlocksGrow.refl_of_forall {blocks : List Block}
    (each : ∀ block ∈ blocks, BlockGrows Extra block block) : BlocksGrow Extra blocks blocks := by
  induction blocks with
  | nil => exact .nil
  | cons block blocks inductionHypothesis =>
      rw [List.forall_mem_cons] at each
      exact .keep each.1 (inductionHypothesis each.2)

theorem BlockGrows.refl (block : Block) : BlockGrows Extra block block := by
  induction block using Block.induction with
  | step block children => exact .body rfl (.refl _) (.refl _) (.refl_of_forall children)

namespace BlocksGrow

theorem refl (blocks : List Block) : BlocksGrow Extra blocks blocks :=
  .refl_of_forall fun block _ => .refl block

theorem append {before after more others : List Block} (first : BlocksGrow Extra before after)
    (second : BlocksGrow Extra more others) :
    BlocksGrow Extra (before ++ more) (after ++ others) :=
  match first with
  | .nil => second
  | .keep same others => .keep same (others.append second)
  | .extra isExtra body others => .extra isExtra body (others.append second)

/-- Both lists get a block at their end, and the one in `after` has grown. -/
theorem snoc {before after : List Block} {block grown : Block}
    (blocks : BlocksGrow Extra before after) (same : BlockGrows Extra block grown) :
    BlocksGrow Extra (before ++ [block]) (after ++ [grown]) :=
  blocks.append (.keep same .nil)

/-- The grown list gets an extra block at its end. -/
theorem snocExtra {before after : List Block} (blocks : BlocksGrow Extra before after)
    {fresh : Block} (isExtra : Extra fresh.position)
    (body : BlockGrows Extra fresh.emptied fresh) :
    BlocksGrow Extra before (after ++ [fresh]) := by
  have appended := blocks.append (.extra isExtra body .nil)
  rw [List.append_nil] at appended
  exact appended

end BlocksGrow

namespace BlockGrows

variable {before after : Block}

/-- Comments do not count. -/
theorem trailing (grown : BlockGrows Extra before after) (first second : List String) :
    BlockGrows Extra { before with trailingComments := first }
      { after with trailingComments := second } := by
  cases grown with
  | body heading attributes actions blocks => exact .body heading attributes actions blocks

theorem snocAttribute (grown : BlockGrows Extra before after) (attr : Attribute) :
    BlockGrows Extra { before with attributes := before.attributes ++ [attr] }
      { after with attributes := after.attributes ++ [attr] } := by
  cases grown with
  | body heading attributes actions blocks =>
      exact .body heading (attributes.snoc attr) actions blocks

theorem extraAttribute (grown : BlockGrows Extra before after) {attr : Attribute}
    (isExtra : Extra attr.position) :
    BlockGrows Extra before { after with attributes := after.attributes ++ [attr] } := by
  cases grown with
  | body heading attributes actions blocks =>
      exact .body heading (attributes.snocExtra isExtra) actions blocks

theorem snocAction (grown : BlockGrows Extra before after) (action : Action) :
    BlockGrows Extra { before with actions := before.actions ++ [action] }
      { after with actions := after.actions ++ [action] } := by
  cases grown with
  | body heading attributes actions blocks =>
      exact .body heading attributes (actions.snoc action) blocks

theorem extraAction (grown : BlockGrows Extra before after) {action : Action}
    (isExtra : Extra action.position) :
    BlockGrows Extra before { after with actions := after.actions ++ [action] } := by
  cases grown with
  | body heading attributes actions blocks =>
      exact .body heading attributes (actions.snocExtra isExtra) blocks

theorem snocBlock (grown : BlockGrows Extra before after) {child grownChild : Block}
    (same : BlockGrows Extra child grownChild) :
    BlockGrows Extra { before with blocks := before.blocks ++ [child] }
      { after with blocks := after.blocks ++ [grownChild] } := by
  cases grown with
  | body heading attributes actions blocks =>
      exact .body heading attributes actions (blocks.snoc same)

theorem extraBlock (grown : BlockGrows Extra before after) {fresh : Block}
    (isExtra : Extra fresh.position) (body : BlockGrows Extra fresh.emptied fresh) :
    BlockGrows Extra before { after with blocks := after.blocks ++ [fresh] } := by
  cases grown with
  | body heading attributes actions blocks =>
      exact .body heading attributes actions (blocks.snocExtra isExtra body)

end BlockGrows

end ServiceDef
