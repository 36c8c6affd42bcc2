import ServiceDef.Text.Visible
import ServiceDef.Value

/-!
# Documents

A document is the ordered list of the top-level blocks of a source file. A block has a kind,
an optional label, attributes, actions and nested blocks. Comments belong to the part they are
written above, to the statement they share a line with, or to the end of the block or
document that holds them.

Two documents have the same structure when they agree once the file name and all positions
are erased.
-/

namespace ServiceDef

/-- A named value of a block. -/
structure Attribute where
  key : String
  value : Value
  /-- The comments above the attribute. -/
  comments : List String := []
  /-- The comment behind the value, on its line. -/
  trailingComment : Option String := none
  position : Position := {}
deriving DecidableEq, Repr

/-- A route of a block: requests with the method for the target go to the handler. -/
structure Action where
  method : String
  target : String
  handler : String
  /-- The comments above the action. -/
  comments : List String := []
  /-- The comment behind the handler, on its line. -/
  trailingComment : Option String := none
  position : Position := {}
deriving DecidableEq, Repr

/-- A kind with an optional label, and a body of attributes, actions and nested blocks, each in
written order. -/
structure Block where
  kind : String
  label : Option String := none
  attributes : List Attribute := []
  blocks : List Block := []
  actions : List Action := []
  /-- The comments above the block. -/
  comments : List String := []
  /-- The comments before the closing brace. -/
  trailingComments : List String := []
  position : Position := {}
deriving Repr

/-- The contents of a source file. -/
structure Document where
  file : String := ""
  blocks : List Block := []
  /-- The comments behind the last block. -/
  trailingComments : List String := []
deriving Repr

/-- The attribute without positions. -/
def Attribute.erasePositions (attr : Attribute) : Attribute :=
  { attr with value := attr.value.erasePositions, position := {} }

/-- The action without its position. -/
def Action.erasePosition (action : Action) : Action :=
  { action with position := {} }

namespace Block

instance : Inhabited Block := ⟨{ kind := "" }⟩

/-- A property of all blocks follows if it passes from the nested blocks of a block to the
block. -/
theorem induction {motive : Block → Prop}
    (step : ∀ block : Block, (∀ child ∈ block.blocks, motive child) → motive block)
    (block : Block) : motive block :=
  @Block.rec motive
    (fun blocks => ∀ block ∈ blocks, motive block)
    (fun _ _ _ _ _ _ _ _ children => step _ children)
    (by simp)
    (fun _ _ head tail => by simpa using ⟨head, tail⟩)
    block

mutual

/-- Decides whether two blocks are equal. -/
def decEq : (left right : Block) → Decidable (left = right)
  | ⟨leftKind, leftLabel, leftAttributes, leftBlocks, leftActions, leftComments, leftTrailing,
      leftPosition⟩,
    ⟨rightKind, rightLabel, rightAttributes, rightBlocks, rightActions, rightComments,
      rightTrailing, rightPosition⟩ =>
    if same : leftKind = rightKind ∧ leftLabel = rightLabel ∧ leftAttributes = rightAttributes ∧
        leftActions = rightActions ∧ leftComments = rightComments ∧
        leftTrailing = rightTrailing ∧ leftPosition = rightPosition then
      match decEqAll leftBlocks rightBlocks with
      | .isTrue sameBlocks => .isTrue (by simp [same, sameBlocks])
      | .isFalse differ => .isFalse (by simp [differ])
    else .isFalse (by
      simp only [Block.mk.injEq]
      exact fun ⟨kind, label, attributes, _, actions, comments, trailing, position⟩ =>
        same ⟨kind, label, attributes, actions, comments, trailing, position⟩)

/-- Decides whether two lists of blocks are equal. -/
def decEqAll : (left right : List Block) → Decidable (left = right)
  | [], [] => .isTrue rfl
  | [], _ :: _ => .isFalse (by simp)
  | _ :: _, [] => .isFalse (by simp)
  | left :: lefts, right :: rights =>
    match decEq left right with
    | .isFalse differ => .isFalse (by simp [differ])
    | .isTrue same =>
      match decEqAll lefts rights with
      | .isTrue sameTail => .isTrue (by rw [same, sameTail])
      | .isFalse differ => .isFalse (by simp [differ])

end

instance : DecidableEq Block := decEq

mutual

/-- The block without any positions. -/
def erasePositions : Block → Block
  | ⟨kind, label, attributes, blocks, actions, comments, trailingComments, _⟩ =>
    { kind := kind
      label := label
      attributes := attributes.map Attribute.erasePositions
      blocks := erasePositionsAll blocks
      actions := actions.map Action.erasePosition
      comments := comments
      trailingComments := trailingComments }

/-- The blocks without any positions. -/
def erasePositionsAll : List Block → List Block
  | [] => []
  | block :: blocks => block.erasePositions :: erasePositionsAll blocks

end

mutual

/-- The block and all blocks in it, each before its nested blocks. -/
def preorder : Block → List Block
  | ⟨kind, label, attributes, blocks, actions, comments, trailingComments, position⟩ =>
    ⟨kind, label, attributes, blocks, actions, comments, trailingComments, position⟩ ::
      preorderAll blocks

/-- The blocks and all blocks in them, each before its nested blocks. -/
def preorderAll : List Block → List Block
  | [] => []
  | block :: blocks => block.preorder ++ preorderAll blocks

end

/-- The first attribute with the given key. -/
def attribute? (block : Block) (key : String) : Option Attribute :=
  block.attributes.find? fun attr => attr.key = key

/-- Whether anything stands between the braces of the block. -/
def hasBody (block : Block) : Bool :=
  !(block.attributes.isEmpty && block.blocks.isEmpty && block.actions.isEmpty &&
    block.trailingComments.isEmpty)

/-- How a block with the given kind and label is named in messages. -/
def title (kind : String) (label : Option String) : String :=
  match label with
  | some label => kind ++ " " ++ Text.showString label
  | none => kind

/-- How the block is named in messages. -/
def display (block : Block) : String :=
  title block.kind block.label

end Block

deriving instance DecidableEq for Document

namespace Document

/-- Whether the document has no blocks. -/
def isEmpty (document : Document) : Bool :=
  document.blocks.isEmpty

/-- The document without its file name and without any positions. -/
def erasePositions (document : Document) : Document where
  blocks := Block.erasePositionsAll document.blocks
  trailingComments := document.trailingComments

/-- Whether two documents agree in everything but file names and positions. -/
def sameStructure (left right : Document) : Bool :=
  left.erasePositions = right.erasePositions

/-- All blocks of the document, each before its nested blocks. -/
def preorder (document : Document) : List Block :=
  Block.preorderAll document.blocks

end Document

end ServiceDef
