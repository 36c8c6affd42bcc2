import ServiceDef.Layout.Document

/-!
# Layouts ignore positions

Canonical text is made of what a document says, not of where it was said: documents of the same
structure have the same canonical text.
-/

namespace ServiceDef

namespace Value

@[simp] theorem scalar?_erasePositions (value : Value) :
    value.erasePositions.scalar? = value.scalar? := by
  cases value <;> rfl

theorem erasePositionsItems_eq_map (items : List Value) :
    erasePositionsItems items = items.map erasePositions := by
  induction items with
  | nil => rfl
  | cons item items inductionHypothesis => simp [erasePositionsItems, inductionHypothesis]

theorem erasePositionsEntries_eq_map (entries : List (Entry Value)) :
    erasePositionsEntries entries =
      entries.map fun entry => { key := entry.key, value := entry.value.erasePositions } := by
  induction entries with
  | nil => rfl
  | cons entry entries inductionHypothesis => simp [erasePositionsEntries, inductionHypothesis]

theorem inlineItems?_erasePositions (items : List Value) :
    inlineItems? (erasePositionsItems items) = inlineItems? items := by
  simp [inlineItems?, erasePositionsItems_eq_map, List.filterMap_map, Function.comp_def]

theorem inlineEntries?_erasePositions (entries : List (Entry Value)) :
    inlineEntries? (erasePositionsEntries entries) = inlineEntries? entries := by
  simp [inlineEntries?, erasePositionsEntries_eq_map, List.filterMap_map, Function.comp_def]

theorem layoutItems_erasePositions (limit depth : Nat) {items : List Value}
    (same : ∀ item ∈ items, ∀ depth column,
      layout limit depth column item.erasePositions = layout limit depth column item) :
    layoutItems limit depth (erasePositionsItems items) = layoutItems limit depth items := by
  induction items with
  | nil => rfl
  | cons item items inductionHypothesis =>
      rw [erasePositionsItems, layoutItems, layoutItems, same item List.mem_cons_self,
        inductionHypothesis fun other member => same other (List.mem_cons_of_mem item member)]

theorem layoutEntries_erasePositions (limit depth : Nat) {entries : List (Entry Value)}
    (same : ∀ entry ∈ entries, ∀ depth column,
      layout limit depth column entry.value.erasePositions =
        layout limit depth column entry.value) :
    layoutEntries limit depth (erasePositionsEntries entries) =
      layoutEntries limit depth entries := by
  induction entries with
  | nil => rfl
  | cons entry entries inductionHypothesis =>
      obtain ⟨key, value, position⟩ := entry
      rw [erasePositionsEntries, layoutEntries, layoutEntries, same _ List.mem_cons_self,
        inductionHypothesis fun other member => same other (List.mem_cons_of_mem _ member)]

/-- The layout of a value ignores the positions in it. -/
theorem layout_erasePositions (limit : Nat) (value : Value) :
    ∀ depth column, layout limit depth column value.erasePositions =
      layout limit depth column value := by
  induction value using Value.induction with
  | scalar s =>
      intro depth column
      rfl
  | list items inductionHypothesis =>
      intro depth column
      have inline := inlineItems?_erasePositions items
      have broken := layoutItems_erasePositions limit (depth + 1) inductionHypothesis
      cases items with
      | nil => rfl
      | cons item items =>
          rw [erasePositionsItems] at inline broken
          rw [erasePositions, erasePositionsItems, layout, layout, inline, broken]
  | map entries inductionHypothesis =>
      intro depth column
      have inline := inlineEntries?_erasePositions entries
      have broken := layoutEntries_erasePositions limit (depth + 1) inductionHypothesis
      cases entries with
      | nil => rfl
      | cons entry entries =>
          rw [erasePositionsEntries] at inline broken
          rw [erasePositions, erasePositionsEntries, layout, layout, inline, broken]

end Value

namespace Layout

theorem attributeLines_erasePositions (limit depth : Nat) (attr : Attribute) :
    attributeLines limit depth attr.erasePositions = attributeLines limit depth attr := by
  simp [attributeLines, Attribute.erasePositions, Value.layout_erasePositions]

theorem actionsLines_erasePosition (settings : PrintSettings) (depth : Nat)
    (actions : List Action) :
    actionsLines settings depth (actions.map Action.erasePosition) =
      actionsLines settings depth actions := by
  have sameLayout : actionLayout settings depth (actions.map Action.erasePosition) =
      actionLayout settings depth actions := by
    unfold actionLayout
    simp only [List.all_map]
    rfl
  have sameLines (depth : Nat) :
      (actions.map Action.erasePosition).flatMap (actionLines depth) =
        actions.flatMap (actionLines depth) := by
    rw [List.flatMap_map]
    rfl
  simp only [actionsLines, sameLayout, sameLines]

mutual

/-- The layout of a block ignores the positions in it. -/
theorem blockLines_erasePositions (settings : PrintSettings) (depth : Nat) :
    (block : Block) →
      blockLines settings depth block.erasePositions = blockLines settings depth block
  | ⟨kind, label, attributes, blocks, actions, comments, trailingComments, position⟩ => by
      have sameAttributes :
          (attributes.map Attribute.erasePositions).flatMap
            (attributeLines settings.limit (depth + 1)) =
          attributes.flatMap (attributeLines settings.limit (depth + 1)) := by
        rw [List.flatMap_map]
        simp only [attributeLines_erasePositions]
      have sameEmpty : (Block.erasePositionsAll blocks).isEmpty = blocks.isEmpty := by
        cases blocks <;> rfl
      rw [Block.erasePositions, blockLines, blockLines]
      simp only [List.isEmpty_map, groupOf, sameEmpty, sameAttributes,
        actionsLines_erasePosition, blockGroups_erasePositions settings (depth + 1) blocks]

/-- The layouts of blocks ignore the positions in them. -/
theorem blockGroups_erasePositions (settings : PrintSettings) (depth : Nat) :
    (blocks : List Block) →
      blockGroups settings depth (Block.erasePositionsAll blocks) =
        blockGroups settings depth blocks
  | [] => rfl
  | block :: blocks => by
      rw [Block.erasePositionsAll, blockGroups, blockGroups,
        blockLines_erasePositions settings depth block,
        blockGroups_erasePositions settings depth blocks]

end

end Layout

/-- Documents of the same structure have the same canonical text. -/
theorem Document.print_erasePositions (document : Document) (settings : PrintSettings) :
    document.erasePositions.print settings = document.print settings := by
  simp [Document.print, Layout.documentLines, Document.erasePositions,
    Layout.blockGroups_erasePositions]

end ServiceDef
