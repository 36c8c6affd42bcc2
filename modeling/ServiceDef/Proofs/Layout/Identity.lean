import Mathlib.Data.List.Forall2
import ServiceDef.Proofs.Layout.Positions
import ServiceDef.Proofs.Layout.RoundTrip

/-!
# Canonical text identifies the structure

Two documents agree when their parts agree one by one, wherever they stand: positions and file
names are not compared at any depth, everything else is. This is the structure of a document, and
it is what canonical text tells apart. Documents that agree are printed alike, and documents that
are printed alike agree, with any settings.
-/

namespace ServiceDef

/-- Two entries with the same key and related values, at any two places. -/
inductive Entry.Agrees {α : Type} (related : α → α → Prop) : Entry α → Entry α → Prop
  | intro {key : String} {left right : α} (leftPosition rightPosition : Position)
      (value : related left right) :
      Agrees related ⟨key, left, leftPosition⟩ ⟨key, right, rightPosition⟩

/-- Two values of the same form, whose parts agree one by one. -/
inductive Value.Agrees : Value → Value → Prop
  | scalar (s : Scalar) : Agrees (.scalar s) (.scalar s)
  | list {lefts rights : List Value} (items : List.Forall₂ Agrees lefts rights) :
      Agrees (.list lefts) (.list rights)
  | map {lefts rights : List (Entry Value)}
      (entries : List.Forall₂ (Entry.Agrees Agrees) lefts rights) :
      Agrees (.map lefts) (.map rights)

/-- Two attributes with the same key and comments, whose values agree. -/
structure Attribute.Agrees (left right : Attribute) : Prop where
  key : left.key = right.key
  value : left.value.Agrees right.value
  comments : left.comments = right.comments
  trailingComment : left.trailingComment = right.trailingComment

/-- Two actions with the same words and comments. -/
structure Action.Agrees (left right : Action) : Prop where
  method : left.method = right.method
  target : left.target = right.target
  handler : left.handler = right.handler
  comments : left.comments = right.comments
  trailingComment : left.trailingComment = right.trailingComment

/-- Two blocks with the same header and comments, whose attributes, actions and nested blocks
agree one by one. -/
inductive Block.Agrees : Block → Block → Prop
  | intro {left right : Block}
      (kind : left.kind = right.kind)
      (label : left.label = right.label)
      (attributes : List.Forall₂ Attribute.Agrees left.attributes right.attributes)
      (blocks : List.Forall₂ Agrees left.blocks right.blocks)
      (actions : List.Forall₂ Action.Agrees left.actions right.actions)
      (comments : left.comments = right.comments)
      (trailingComments : left.trailingComments = right.trailingComments) :
      Agrees left right

/-- Two documents with the same comments at their ends, whose blocks agree one by one. -/
structure Document.Agrees (left right : Document) : Prop where
  blocks : List.Forall₂ Block.Agrees left.blocks right.blocks
  trailingComments : left.trailingComments = right.trailingComments

/-! ## Agreement is equality behind erasure -/

/-- If the members of a list are related to what has the same image, then lists are related
member by member if and only if they have the same images. -/
theorem forall₂_iff_map_eq {α β : Type} {related : α → α → Prop} {image : α → β}
    {lefts rights : List α}
    (member_iff : ∀ left ∈ lefts, ∀ right, related left right ↔ image left = image right) :
    List.Forall₂ related lefts rights ↔ lefts.map image = rights.map image := by
  induction lefts generalizing rights with
  | nil => cases rights <;> simp
  | cons left lefts inductionHypothesis =>
      have tail (others : List α) := @inductionHypothesis others fun other member =>
        member_iff other (List.mem_cons_of_mem left member)
      cases rights with
      | nil => simp
      | cons right rights =>
          rw [List.forall₂_cons, member_iff left List.mem_cons_self, tail, List.map_cons,
            List.map_cons, List.cons.injEq]

/-- Entries agree if and only if they are equal without their positions, if this holds of their
values. -/
theorem Entry.agrees_iff {left right : Entry Value}
    (value_iff : left.value.Agrees right.value ↔
      left.value.erasePositions = right.value.erasePositions) :
    Entry.Agrees Value.Agrees left right ↔
      ({ key := left.key, value := left.value.erasePositions } : Entry Value) =
        { key := right.key, value := right.value.erasePositions } := by
  obtain ⟨leftKey, leftValue, leftPosition⟩ := left
  obtain ⟨rightKey, rightValue, rightPosition⟩ := right
  rw [Entry.mk.injEq, ← value_iff]
  constructor
  · rintro ⟨-, -, value⟩
    exact ⟨rfl, value, rfl⟩
  · rintro ⟨rfl, value, -⟩
    exact .intro leftPosition rightPosition value

/-- Values agree if and only if they are equal without the positions in them. -/
theorem Value.agrees_iff (left right : Value) :
    left.Agrees right ↔ left.erasePositions = right.erasePositions := by
  induction left using Value.induction generalizing right with
  | scalar s =>
      cases right with
      | scalar other =>
          constructor
          · rintro ⟨⟩
            rfl
          · rintro ⟨⟩
            exact .scalar s
      | list | map => exact ⟨nofun, nofun⟩
  | list lefts inductionHypothesis =>
      cases right with
      | list rights =>
          have items := @forall₂_iff_map_eq _ _ _ _ _ rights inductionHypothesis
          rw [erasePositions, erasePositions, list.injEq, erasePositionsItems_eq_map,
            erasePositionsItems_eq_map, ← items]
          constructor
          · intro agrees
            cases agrees with
            | list same => exact same
          · exact .list
      | scalar | map => exact ⟨nofun, nofun⟩
  | map lefts inductionHypothesis =>
      cases right with
      | map rights =>
          have entries := @forall₂_iff_map_eq _ _ (Entry.Agrees Agrees) _ _ rights
            fun left member right =>
              Entry.agrees_iff (inductionHypothesis left member right.value)
          rw [erasePositions, erasePositions, map.injEq, erasePositionsEntries_eq_map,
            erasePositionsEntries_eq_map, ← entries]
          constructor
          · intro agrees
            cases agrees with
            | map same => exact same
          · exact .map
      | scalar | list => exact ⟨nofun, nofun⟩

/-- Attributes agree if and only if they are equal without positions. -/
theorem Attribute.agrees_iff (left right : Attribute) :
    left.Agrees right ↔ left.erasePositions = right.erasePositions := by
  rw [erasePositions, erasePositions, Attribute.mk.injEq, ← Value.agrees_iff]
  constructor
  · rintro ⟨key, value, comments, trailing⟩
    exact ⟨key, value, comments, trailing, rfl⟩
  · rintro ⟨key, value, comments, trailing, -⟩
    exact ⟨key, value, comments, trailing⟩

/-- Actions agree if and only if they are equal without positions. -/
theorem Action.agrees_iff (left right : Action) :
    left.Agrees right ↔ left.erasePosition = right.erasePosition := by
  rw [erasePosition, erasePosition, Action.mk.injEq]
  constructor
  · rintro ⟨method, target, handler, comments, trailing⟩
    exact ⟨method, target, handler, comments, trailing, rfl⟩
  · rintro ⟨method, target, handler, comments, trailing, -⟩
    exact ⟨method, target, handler, comments, trailing⟩

/-- Blocks agree if and only if they are equal without positions. -/
theorem Block.agrees_iff (left right : Block) :
    left.Agrees right ↔ left.erasePositions = right.erasePositions := by
  induction left using Block.induction generalizing right with
  | step left inductionHypothesis =>
      have attributes := @forall₂_iff_map_eq _ _ _ _ left.attributes right.attributes
        fun attr _ => attr.agrees_iff
      have actions := @forall₂_iff_map_eq _ _ _ _ left.actions right.actions
        fun action _ => action.agrees_iff
      have blocks := @forall₂_iff_map_eq _ _ _ _ left.blocks right.blocks inductionHypothesis
      obtain ⟨⟩ := left
      obtain ⟨⟩ := right
      rw [erasePositions, erasePositions, Block.mk.injEq, ← attributes, ← actions,
        erasePositionsAll_eq_map, erasePositionsAll_eq_map, ← blocks]
      constructor
      · rintro ⟨kind, label, attributes, blocks, actions, comments, trailing⟩
        exact ⟨kind, label, attributes, blocks, actions, comments, trailing, rfl⟩
      · rintro ⟨kind, label, attributes, blocks, actions, comments, trailing, -⟩
        exact ⟨kind, label, attributes, blocks, actions, comments, trailing⟩

/-- Documents agree if and only if they are equal without file names and positions. -/
theorem Document.agrees_iff (left right : Document) :
    left.Agrees right ↔ left.erasePositions = right.erasePositions := by
  have blocks := @forall₂_iff_map_eq _ _ _ _ left.blocks right.blocks
    fun block _ => block.agrees_iff
  rw [erasePositions, erasePositions, Document.mk.injEq, Block.erasePositionsAll_eq_map,
    Block.erasePositionsAll_eq_map, ← blocks]
  constructor
  · rintro ⟨blocks, trailing⟩
    exact ⟨rfl, blocks, trailing⟩
  · rintro ⟨-, blocks, trailing⟩
    exact ⟨blocks, trailing⟩

/-! ## Texts and structures -/

/-- Well-formed documents with the same canonical text are equal without positions: both are what
is read from that text. -/
theorem erasePositions_eq_of_print_eq {left right : Document} {settings : PrintSettings}
    (leftFormed : left.wellFormed = true) (rightFormed : right.wellFormed = true)
    (same : left.print settings = right.print settings) :
    left.erasePositions = right.erasePositions :=
  calc left.erasePositions
    _ = (parse "" (left.print settings)).document.erasePositions :=
        (parse_print_of_wellFormed "" settings leftFormed).2.symm
    _ = (parse "" (right.print settings)).document.erasePositions := by rw [same]
    _ = right.erasePositions := (parse_print_of_wellFormed "" settings rightFormed).2

/-- Documents that are equal without positions have the same canonical text. -/
theorem print_eq_of_erasePositions_eq {left right : Document}
    (same : left.erasePositions = right.erasePositions) (settings : PrintSettings) :
    left.print settings = right.print settings := by
  rw [← Document.print_erasePositions left, same, Document.print_erasePositions]

/-- Canonical text identifies the structure and nothing else. Documents have the same structure
if and only if they agree part by part in all but file names and positions, and well-formed
documents are printed alike, with any settings, if and only if they have the same structure. -/
theorem print_eq_iff_sameStructure (left right : Document) :
    (left.sameStructure right = true ↔ left.Agrees right) ∧
      (left.wellFormed = true → right.wellFormed = true → ∀ settings : PrintSettings,
        left.print settings = right.print settings ↔ left.sameStructure right = true) := by
  have same_iff : left.sameStructure right = true ↔
      left.erasePositions = right.erasePositions := decide_eq_true_iff
  refine ⟨same_iff.trans (left.agrees_iff right).symm, ?_⟩
  intro leftFormed rightFormed settings
  rw [same_iff]
  exact ⟨erasePositions_eq_of_print_eq leftFormed rightFormed,
    fun same => print_eq_of_erasePositions_eq same settings⟩

/-- One attribute in a block, all of it at one place of a file. -/
def assignmentAt (file : String) (position : Position) (value : Position → Value) : Document where
  file := file
  blocks :=
    [{ kind := "service"
       attributes := [{ key := "tags", value := value position, position := position }]
       position := position }]

/-- A map in a list agrees with itself at any other place, so the two are printed alike, while an
empty list and an empty map at the same place are not. -/
theorem print_eq_iff_sameStructure_assignmentAt :
    (∀ settings : PrintSettings,
      (assignmentAt "a" { line := 2, column := 1, offset := 7 } fun position =>
        .list [.map [{ key := "k", value := .list [], position := position }]]).print settings =
      (assignmentAt "b" { line := 9, column := 3, offset := 80 } fun position =>
        .list [.map [{ key := "k", value := .list [], position := position }]]).print settings) ∧
    ∀ settings : PrintSettings,
      (assignmentAt "a" {} fun _ => .list []).print settings ≠
        (assignmentAt "a" {} fun _ => .map []).print settings := by
  constructor
  · intro settings
    exact ((print_eq_iff_sameStructure _ _).2 (by decide) (by decide) settings).2 (by decide)
  · intro settings same
    have agree := ((print_eq_iff_sameStructure _ _).2 (by decide) (by decide) settings).1 same
    exact absurd agree (by decide)

end ServiceDef
