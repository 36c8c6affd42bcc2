import ServiceDef.Proofs.Reader.Relabelling

/-!
# Erased labels

The relabellings that forget something. Without positions, a document is known up to its
structure, and without positions and comments it is the tree of a derivation. Without comments
alone, its parts can still be told apart by where they stand.
-/

namespace ServiceDef

namespace Relabelling

/-- Erases all positions. -/
def unplaced : Relabelling where
  position _ := {}
  keepsComments := true

/-- Erases all positions and all comments. -/
def unlabelled : Relabelling where
  position _ := {}
  keepsComments := false

/-- Erases all comments. -/
def uncommented : Relabelling where
  position := id
  keepsComments := false

@[simp] theorem position_unplaced (position : Position) : unplaced.position position = {} := rfl

@[simp] theorem comments_unplaced (texts : List String) : unplaced.comments texts = texts := rfl

@[simp] theorem comment_unplaced (text : Option String) : unplaced.comment text = text := rfl

@[simp] theorem map_diagnostic_uncommented (diagnostics : List Diagnostic) :
    diagnostics.map uncommented.diagnostic = diagnostics :=
  List.map_id diagnostics

mutual

/-- A value without positions. -/
theorem value_unplaced : (value : Value) → unplaced.value value = value.erasePositions
  | .scalar _ => rfl
  | .list values => by rw [value, Value.erasePositions, items_unplaced values]
  | .map parts => by rw [value, Value.erasePositions, entries_unplaced parts]

/-- The items of a list without positions. -/
theorem items_unplaced :
    (values : List Value) → unplaced.items values = Value.erasePositionsItems values
  | [] => rfl
  | item :: rest => by
      rw [items, Value.erasePositionsItems, value_unplaced item, items_unplaced rest]

/-- The entries of a map without positions. -/
theorem entries_unplaced :
    (parts : List (Entry Value)) → unplaced.entries parts = Value.erasePositionsEntries parts
  | [] => rfl
  | ⟨key, part, position⟩ :: rest => by
      rw [entries, Value.erasePositionsEntries, value_unplaced part, entries_unplaced rest]
      rfl

end

theorem attr_unplaced (attr : Attribute) : unplaced.attr attr = attr.erasePositions := by
  simp [Relabelling.attr, Attribute.erasePositions, value_unplaced]

theorem action_unplaced (action : Action) : unplaced.action action = action.erasePosition := rfl

mutual

/-- A block without positions. -/
theorem block_unplaced : (block : Block) → unplaced.block block = block.erasePositions
  | ⟨kind, label, attributes, children, actions, comments, trailingComments, position⟩ => by
      rw [block, Block.erasePositions, blocks_unplaced children, funext attr_unplaced,
        funext action_unplaced]
      rfl

/-- Blocks without positions. -/
theorem blocks_unplaced :
    (blocks : List Block) → unplaced.blocks blocks = Block.erasePositionsAll blocks
  | [] => rfl
  | child :: rest => by
      rw [blocks, Block.erasePositionsAll, block_unplaced child, blocks_unplaced rest]

end

/-! ## Without comments -/

mutual

/-- A value has no comments. -/
theorem value_uncommented : (value : Value) → uncommented.value value = value
  | .scalar _ => rfl
  | .list values => by rw [value, items_uncommented values]
  | .map parts => by rw [value, entries_uncommented parts]

/-- The items of a list have no comments. -/
theorem items_uncommented : (values : List Value) → uncommented.items values = values
  | [] => rfl
  | item :: rest => by rw [items, value_uncommented item, items_uncommented rest]

/-- The entries of a map have no comments. -/
theorem entries_uncommented :
    (parts : List (Entry Value)) → uncommented.entries parts = parts
  | [] => rfl
  | ⟨key, part, position⟩ :: rest => by
      rw [entries, value_uncommented part, entries_uncommented rest]
      rfl

end

theorem attr_uncommented_twice (attr : Attribute) :
    uncommented.attr (uncommented.attr attr) = uncommented.attr attr := by
  simp only [Relabelling.attr, value_uncommented]
  rfl

mutual

/-- A block without comments loses nothing more. -/
theorem block_uncommented_twice :
    (block : Block) → uncommented.block (uncommented.block block) = uncommented.block block
  | ⟨kind, label, attributes, children, actions, comments, trailingComments, position⟩ => by
      rw [block, block, List.map_map, List.map_map, blocks_uncommented_twice children,
        show uncommented.attr ∘ uncommented.attr = uncommented.attr from
          funext attr_uncommented_twice]
      rfl

/-- Blocks without comments lose nothing more. -/
theorem blocks_uncommented_twice :
    (blocks : List Block) →
      uncommented.blocks (uncommented.blocks blocks) = uncommented.blocks blocks
  | [] => rfl
  | child :: rest => by
      rw [blocks, blocks, block_uncommented_twice child, blocks_uncommented_twice rest]

end

end Relabelling

end ServiceDef
