import ServiceDef.Proofs.Layout.Lines

/-!
# The outline of a document

The print settings decide about one attribute at a time and about the actions of one block at a
time. The outline of a document is the list of these parts, with the lines between them that no
setting changes. It does not depend on the settings: the layout of a document is the layout of
the parts of its outline, one after the other (`flatMap_outline`), and what is to be shown of all
lines of a document has to be shown of its parts only.
-/

namespace ServiceDef

namespace Block

/-- Whether there is an action in the block itself. -/
def hasActions (block : Block) : Bool :=
  !block.actions.isEmpty

theorem preorderAll_eq_flatMap (blocks : List Block) :
    preorderAll blocks = blocks.flatMap preorder := by
  induction blocks with
  | nil => rfl
  | cons block blocks inductionHypothesis =>
      rw [preorderAll, inductionHypothesis, List.flatMap_cons]

theorem preorder_eq (block : Block) :
    block.preorder = block :: block.blocks.flatMap preorder := by
  cases block
  rw [preorder, preorderAll_eq_flatMap]

end Block

namespace Layout

/-- A part of a document that is laid out on its own. -/
inductive Part where
  /-- A line that is the same for all settings. -/
  | fixed (line : Line)
  /-- An attribute on lines at the given depth. -/
  | assignment (depth : Nat) (attr : Attribute)
  /-- The actions of a block at the given depth. -/
  | actions (depth : Nat) (block : Block)
deriving DecidableEq, Repr

namespace Part

/-- The lines of a part. -/
def lines (settings : PrintSettings) : Part → List Line
  | fixed line => [line]
  | assignment depth attr => attributeLines settings.limit depth attr
  | actions depth block => actionsLines settings depth block.actions

/-- The block whose actions the part is for. -/
def block? : Part → Option Block
  | actions _ block => some block
  | _ => none

/-- A part of a well-formed document. -/
def WellFormed : Part → Prop
  | fixed line => ∀ limit, line.Proper limit
  | assignment _ attr => attr.wellFormed = true
  | actions _ block => block.actions.all Action.wellFormed = true

end Part

/-- Groups of parts with a blank line between any two of them. -/
def separateParts (groups : List (List Part)) : List Part :=
  List.intercalate [.fixed Line.blank] groups

/-- The parts for comments. -/
def commentParts (depth : Nat) (comments : List String) : List Part :=
  (commentLines depth comments).map .fixed

/-- A group of parts, unless there is nothing that it is for. -/
def partGroupOf {α : Type} (contents : List α) (parts : List Part) : List (List Part) :=
  if contents.isEmpty then [] else [parts]

/-- The parts for the attributes and for the actions of a block at the given depth. -/
def statementGroups (depth : Nat) (block : Block) : List (List Part) :=
  partGroupOf block.attributes (block.attributes.map (.assignment (depth + 1))) ++
    partGroupOf block.actions [.actions depth block]

/-- The outline of a block at the given depth, from the outlines of its nested blocks. -/
def bodyOutline (depth : Nat) (block : Block) (nested : List (List Part)) : List Part :=
  let header := headerText block.kind block.label
  commentParts depth block.comments ++
    if block.hasBody then
      [.fixed { depth := depth, content := header ++ " \x7b" }] ++
        separateParts (statementGroups depth block ++ nested) ++
        commentParts (depth + 1) block.trailingComments ++
        [.fixed { depth := depth, content := "\x7d" }]
    else [.fixed { depth := depth, content := header ++ " \x7b\x7d" }]

mutual

/-- The outline of a block at the given depth. -/
def blockOutline (depth : Nat) : Block → List Part
  | ⟨kind, label, attributes, blocks, actions, comments, trailingComments, position⟩ =>
    bodyOutline depth
      ⟨kind, label, attributes, blocks, actions, comments, trailingComments, position⟩
      (blockOutlines (depth + 1) blocks)

/-- The outlines of some blocks at the given depth. -/
def blockOutlines (depth : Nat) : List Block → List (List Part)
  | [] => []
  | block :: blocks => blockOutline depth block :: blockOutlines depth blocks

end

/-- The outline of a document. -/
def outline (document : Document) : List Part :=
  separateParts
    (blockOutlines 0 document.blocks ++
     partGroupOf document.trailingComments (commentParts 0 document.trailingComments))

/-! ## The layout of the parts -/

theorem blockGroups_eq_map (settings : PrintSettings) (depth : Nat) (blocks : List Block) :
    blockGroups settings depth blocks = blocks.map (blockLines settings depth) := by
  induction blocks with
  | nil => rfl
  | cons block blocks inductionHypothesis => rw [blockGroups, inductionHypothesis, List.map_cons]

theorem blockOutlines_eq_map (depth : Nat) (blocks : List Block) :
    blockOutlines depth blocks = blocks.map (blockOutline depth) := by
  induction blocks with
  | nil => rfl
  | cons block blocks inductionHypothesis => rw [blockOutlines, inductionHypothesis, List.map_cons]

theorem blockOutline_eq (depth : Nat) (block : Block) :
    blockOutline depth block =
      bodyOutline depth block (block.blocks.map (blockOutline (depth + 1))) := by
  cases block
  rw [blockOutline, blockOutlines_eq_map]

/-- Lists with another one between any two of them: the first one, and each other one behind a
copy of the one between. -/
theorem intercalate_cons_eq {α : Type} (between first : List α) (groups : List (List α)) :
    between.intercalate (first :: groups) = first ++ groups.flatMap (between ++ ·) := by
  induction groups generalizing first with
  | nil => simp
  | cons second groups inductionHypothesis =>
      rw [List.intercalate_cons_cons, inductionHypothesis, List.flatMap_cons, List.append_assoc,
        List.append_assoc]

/-- The layout of separated groups. -/
theorem flatMap_separateParts (settings : PrintSettings) (groups : List (List Part)) :
    (separateParts groups).flatMap (Part.lines settings) =
      Line.separate (groups.map (·.flatMap (Part.lines settings))) := by
  cases groups with
  | nil => rfl
  | cons first groups =>
      rw [separateParts, Line.separate, List.map_cons, intercalate_cons_eq, intercalate_cons_eq,
        List.flatMap_append, List.flatMap_assoc, List.flatMap_map]
      rfl

theorem flatMap_commentParts (settings : PrintSettings) (depth : Nat) (comments : List String) :
    (commentParts depth comments).flatMap (Part.lines settings) = commentLines depth comments := by
  simp [commentParts, List.flatMap_map, Part.lines]

theorem map_partGroupOf {α : Type} (settings : PrintSettings) (contents : List α)
    (parts : List Part) :
    (partGroupOf contents parts).map (·.flatMap (Part.lines settings)) =
      groupOf contents (parts.flatMap (Part.lines settings)) := by
  rw [partGroupOf, groupOf]
  split <;> rfl

theorem map_statementGroups (settings : PrintSettings) (depth : Nat) (block : Block) :
    (statementGroups depth block).map (·.flatMap (Part.lines settings)) =
      groupOf block.attributes
          (block.attributes.flatMap (attributeLines settings.limit (depth + 1))) ++
        groupOf block.actions (actionsLines settings depth block.actions) := by
  rw [statementGroups, List.map_append, map_partGroupOf, map_partGroupOf, List.flatMap_map,
    List.flatMap_singleton]
  rfl

/-- The layout of a block is that of the parts of its outline. -/
theorem flatMap_blockOutline (settings : PrintSettings) (block : Block) :
    ∀ depth, (blockOutline depth block).flatMap (Part.lines settings) =
      blockLines settings depth block := by
  induction block using Block.induction with
  | step block inductionHypothesis =>
      intro depth
      have nested : (block.blocks.map (blockOutline (depth + 1))).map
          (·.flatMap (Part.lines settings)) = blockGroups settings (depth + 1) block.blocks := by
        rw [blockGroups_eq_map, List.map_map]
        exact List.map_congr_left fun child member => inductionHypothesis child member (depth + 1)
      rw [blockOutline_eq, blockLines_eq, bodyOutline, List.flatMap_append, flatMap_commentParts]
      congr 1
      split
      · simp only [List.flatMap_append, flatMap_separateParts, flatMap_commentParts,
          List.map_append, map_statementGroups, nested, List.flatMap_singleton]
        rfl
      · rfl

/-- The layout of a document is that of the parts of its outline. -/
theorem flatMap_outline (settings : PrintSettings) (document : Document) :
    (outline document).flatMap (Part.lines settings) = documentLines settings document := by
  have blocks : (blockOutlines 0 document.blocks).map (·.flatMap (Part.lines settings)) =
      blockGroups settings 0 document.blocks := by
    rw [blockOutlines_eq_map, blockGroups_eq_map, List.map_map]
    exact List.map_congr_left fun block _ => flatMap_blockOutline settings block 0
  rw [outline, documentLines, flatMap_separateParts, List.map_append, blocks, map_partGroupOf,
    flatMap_commentParts]

/-- Under `auto`, the actions of a block are laid out as under one of the other styles. -/
theorem actionsLines_auto (limit depth : Nat) (actions : List Action) :
    actionsLines { style := .auto, limit := limit } depth actions =
      if actions.all fun action => fits limit (actionWidth depth action) then
        actionsLines { style := .single, limit := limit } depth actions
      else actionsLines { style := .multi, limit := limit } depth actions := by
  cases fitting : actions.all fun action => fits limit (actionWidth depth action) <;>
    simp [actionsLines, actionLayout, fitting]

/-! ## Well-formed parts -/

/-- What holds of blank lines and of all parts of some groups holds of the separated groups. -/
theorem forall_mem_separateParts {P : Part → Prop} {groups : List (List Part)}
    (blank : P (.fixed Line.blank)) (inside : ∀ group ∈ groups, ∀ part ∈ group, P part) :
    ∀ part ∈ separateParts groups, P part := by
  cases groups with
  | nil => simp [separateParts]
  | cons first groups =>
      rw [separateParts, intercalate_cons_eq]
      refine List.forall_mem_append.2 ⟨inside first List.mem_cons_self, fun part member => ?_⟩
      obtain ⟨group, others, member⟩ := List.mem_flatMap.1 member
      rcases List.mem_cons.1 member with rfl | member
      · exact blank
      · exact inside group (List.mem_cons_of_mem first others) part member

theorem forall_mem_partGroupOf {α : Type} {P : Part → Prop} {contents : List α}
    {parts : List Part} (inside : ∀ part ∈ parts, P part) :
    ∀ group ∈ partGroupOf contents parts, ∀ part ∈ group, P part := by
  unfold partGroupOf
  split
  · simp
  · exact List.forall_mem_singleton.2 inside

theorem wellFormed_commentParts {comments : List String}
    (wellFormed : comments.all Word.isComment = true) (depth : Nat) :
    ∀ part ∈ commentParts depth comments, part.WellFormed :=
  List.forall_mem_map.2 fun line member _ => proper_commentLines wellFormed depth line member

theorem wellFormed_statementGroups {block : Block} (wellFormed : block.wellFormed = true)
    (depth : Nat) : ∀ group ∈ statementGroups depth block, ∀ part ∈ group, part.WellFormed := by
  obtain ⟨-, attributes, actions, -⟩ := block.wellFormed_iff.1 wellFormed
  refine List.forall_mem_append.2
    ⟨forall_mem_partGroupOf (List.forall_mem_map.2 fun attr member => ?_),
      forall_mem_partGroupOf (List.forall_mem_singleton.2 actions)⟩
  exact List.all_eq_true.1 attributes attr member

/-- The parts of the outline of a well-formed block are well formed. -/
theorem wellFormed_blockOutline (block : Block) (wellFormed : block.wellFormed = true) :
    ∀ depth, ∀ part ∈ blockOutline depth block, part.WellFormed := by
  induction block using Block.induction with
  | step block inductionHypothesis =>
      intro depth
      obtain ⟨identifier, -, -, comments, trailing, nested⟩ := block.wellFormed_iff.1 wellFormed
      have children : ∀ group ∈ block.blocks.map (blockOutline (depth + 1)),
          ∀ part ∈ group, part.WellFormed :=
        List.forall_mem_map.2 fun child member => inductionHypothesis child member
          ((Block.wellFormedNested_iff _).1 nested child member).2 (depth + 1)
      rw [blockOutline_eq, bodyOutline]
      refine List.forall_mem_append.2 ⟨wellFormed_commentParts comments depth, ?_⟩
      split
      · simp only [List.forall_mem_append, List.forall_mem_singleton]
        refine ⟨⟨⟨fun _ => .bare (piece_header identifier _), ?_⟩,
          wellFormed_commentParts trailing (depth + 1)⟩, fun _ => proper_closingBrace depth⟩
        exact forall_mem_separateParts (fun _ => .blank)
          (List.forall_mem_append.2 ⟨wellFormed_statementGroups wellFormed depth, children⟩)
      · exact List.forall_mem_singleton.2 fun _ => .bare (piece_emptyBlock identifier _)

/-- The parts of the outline of a well-formed document are well formed. -/
theorem wellFormed_outline {document : Document} (wellFormed : document.wellFormed = true) :
    ∀ part ∈ outline document, part.WellFormed := by
  simp only [Document.wellFormed, Bool.and_eq_true] at wellFormed
  refine forall_mem_separateParts (fun _ => .blank) (List.forall_mem_append.2 ⟨?_, ?_⟩)
  · rw [blockOutlines_eq_map]
    exact List.forall_mem_map.2 fun block member =>
      wellFormed_blockOutline block (List.all_eq_true.1 wellFormed.1 block member) 0
  · exact forall_mem_partGroupOf (wellFormed_commentParts wellFormed.2 0)

/-- The lines of a well-formed part are proper. -/
theorem Part.WellFormed.proper_lines {part : Part} (wellFormed : part.WellFormed)
    (settings : PrintSettings) : ∀ line ∈ part.lines settings, line.Proper settings.limit := by
  cases part with
  | fixed line => exact List.forall_mem_singleton.2 (wellFormed settings.limit)
  | assignment depth attr => exact proper_attributeLines wellFormed depth
  | actions depth block => exact proper_actionsLines wellFormed depth

/-- The lines of a well-formed document are proper. -/
theorem proper_documentLines (settings : PrintSettings) {document : Document}
    (wellFormed : document.wellFormed = true) :
    ∀ line ∈ documentLines settings document, line.Proper settings.limit := by
  rw [← flatMap_outline]
  intro line member
  obtain ⟨part, inside, member⟩ := List.mem_flatMap.1 member
  exact (wellFormed_outline wellFormed part inside).proper_lines settings line member

/-! ## The blocks of an outline -/

/-- The blocks whose actions are among the parts. -/
def blocksOf (parts : List Part) : List Block :=
  parts.filterMap Part.block?

theorem blocksOf_append (first second : List Part) :
    blocksOf (first ++ second) = blocksOf first ++ blocksOf second :=
  List.filterMap_append

@[simp] theorem blocksOf_commentParts (depth : Nat) (comments : List String) :
    blocksOf (commentParts depth comments) = [] := by
  simp [blocksOf, commentParts, Part.block?]

@[simp] theorem blocksOf_fixed (line : Line) : blocksOf [.fixed line] = [] := rfl

theorem blocksOf_separateParts (groups : List (List Part)) :
    blocksOf (separateParts groups) = groups.flatMap blocksOf := by
  cases groups with
  | nil => rfl
  | cons first groups =>
      have others : blocksOf (groups.flatMap ([.fixed Line.blank] ++ ·)) =
          groups.flatMap blocksOf := by
        rw [blocksOf, List.filterMap_flatMap]
        rfl
      rw [separateParts, intercalate_cons_eq, blocksOf_append, others, List.flatMap_cons]

theorem blocksOf_statementGroups (depth : Nat) (block : Block) :
    (statementGroups depth block).flatMap blocksOf = [block].filter Block.hasActions := by
  have assignments : (partGroupOf block.attributes
      (block.attributes.map (.assignment (depth + 1)))).flatMap blocksOf = [] := by
    rw [partGroupOf]
    split
    · rfl
    · simp [blocksOf, Part.block?]
  rw [statementGroups, List.flatMap_append, assignments, List.nil_append, partGroupOf]
  cases none : block.actions.isEmpty with
  | true => simp [Block.hasActions, none]
  | false => simp [Block.hasActions, none, blocksOf, Part.block?]

/-- The blocks of the outline of a block are the ones with actions in it, each before its nested
blocks. -/
theorem blocksOf_blockOutline (block : Block) :
    ∀ depth, blocksOf (blockOutline depth block) = block.preorder.filter Block.hasActions := by
  induction block using Block.induction with
  | step block inductionHypothesis =>
      intro depth
      have nested : (block.blocks.map (blockOutline (depth + 1))).flatMap blocksOf =
          (block.blocks.flatMap Block.preorder).filter Block.hasActions := by
        rw [List.flatMap_map, List.filter_flatMap, List.flatMap, List.flatMap]
        exact congrArg List.flatten
          (List.map_congr_left fun child member => inductionHypothesis child member (depth + 1))
      have inside : block.preorder.filter Block.hasActions =
          blocksOf (separateParts (statementGroups depth block ++
            block.blocks.map (blockOutline (depth + 1)))) := by
        rw [blocksOf_separateParts, List.flatMap_append, nested, blocksOf_statementGroups,
          Block.preorder_eq, ← List.filter_append, List.singleton_append]
      rw [blockOutline_eq, bodyOutline, inside, blocksOf_append, blocksOf_commentParts]
      split
      · simp only [blocksOf_append, blocksOf_fixed, blocksOf_commentParts, List.nil_append,
          List.append_nil]
      · next empty =>
          -- Between braces without a body there are neither actions nor blocks.
          simp only [Block.hasBody, Bool.not_eq_true, Bool.not_eq_false', Bool.and_eq_true,
            List.isEmpty_iff] at empty
          obtain ⟨⟨⟨attributes, blocks⟩, actions⟩, -⟩ := empty
          simp [statementGroups, partGroupOf, attributes, blocks, actions, blocksOf_separateParts]

/-- The blocks of the outline of a document are the ones with actions in it, each before its
nested blocks. -/
theorem blocksOf_outline (document : Document) :
    blocksOf (outline document) = document.preorder.filter Block.hasActions := by
  have comments : (partGroupOf document.trailingComments
      (commentParts 0 document.trailingComments)).flatMap blocksOf = [] := by
    rw [partGroupOf]
    split <;> simp
  rw [outline, blocksOf_separateParts, List.flatMap_append, comments, List.append_nil,
    blockOutlines_eq_map, List.flatMap_map, Document.preorder, Block.preorderAll_eq_flatMap,
    List.filter_flatMap]
  simp only [blocksOf_blockOutline]

end Layout

/-- The lines of the canonical text of a document are those of the parts of its outline. -/
theorem lines_print (settings : PrintSettings) {document : Document}
    (wellFormed : document.wellFormed = true) :
    Text.lines (document.print settings) =
      (Layout.documentLines settings document).map Line.text :=
  Line.lines_join fun line member =>
    (Layout.proper_documentLines settings wellFormed line member).oneLine

end ServiceDef
