import ServiceDef.Proofs.Layout.Width

/-!
# Styles of actions

The style `auto` chooses between the two other ones, for each block on its own and by the lines
that would really be printed: the actions of a block stand on lines of the block if all these
lines are narrow enough, and in a group otherwise. Nothing else in the text depends on the style.
-/

namespace ServiceDef

/-- Every line of code is within the limit, its indentation included and a comment behind it
excluded. -/
def CodeWithin (limit : Nat) (lines : List String) : Prop :=
  ∀ line ∈ lines, Text.lineKinds line ≠ [] → Text.codeWidth line ≤ limit

instance (limit : Nat) (lines : List String) : Decidable (CodeWithin limit lines) :=
  inferInstanceAs (Decidable (∀ line ∈ lines, Text.lineKinds line ≠ [] → _))

namespace Layout

/-- The printed lines of a part. -/
def Part.printed (settings : PrintSettings) (part : Part) : List String :=
  (part.lines settings).map Line.text

/-- An action is printed on one line of code, which is as wide as was computed. -/
theorem codeWithin_actionLines_iff {action : Action} (wellFormed : action.wellFormed = true)
    (limit depth : Nat) :
    CodeWithin limit ((actionLines (depth + 1) action).map Line.text) ↔
      actionWidth depth action ≤ limit := by
  simp only [Action.wellFormed, Bool.and_eq_true, List.all_eq_true] at wellFormed
  obtain ⟨⟨identifier, comments⟩, trailing⟩ := wellFormed
  obtain ⟨kinds, code, piece⟩ := @piece_actionText 0 action identifier (indentWidth (depth + 1))
  have silent : ∀ line ∈ commentLines (depth + 1) action.comments,
      Text.lineKinds line.text ≠ [] → Text.codeWidth line.text ≤ limit :=
    List.forall_mem_map.2 fun comment member isCode =>
      absurd (Line.lineKinds_comment (comments comment member)) isCode
  rw [CodeWithin, List.forall_mem_map, actionLines, List.forall_mem_append,
    List.forall_mem_singleton, Line.lineKinds_code piece.spells trailing,
    Line.codeWidth_code piece.spells trailing]
  exact ⟨fun narrow => narrow.2 code, fun narrow => ⟨silent, fun _ => narrow⟩⟩

/-- The actions of a block fit exactly if all lines of code that `single` prints for them do. -/
theorem codeWithin_single_iff {depth : Nat} {block : Block}
    (wellFormed : (Part.actions depth block).WellFormed) {limit : Nat} (positive : 1 ≤ limit) :
    CodeWithin limit ((Part.actions depth block).printed { style := .single, limit := limit }) ↔
      (block.actions.all fun action => fits limit (actionWidth depth action)) = true := by
  have printed : (Part.actions depth block).printed { style := .single, limit := limit } =
      block.actions.flatMap fun action => (actionLines (depth + 1) action).map Line.text :=
    List.map_flatMap
  rw [printed, CodeWithin, List.forall_mem_flatMap, List.all_eq_true]
  refine forall₂_congr fun action member => ?_
  rw [fits_iff positive]
  exact codeWithin_actionLines_iff (List.all_eq_true.1 wellFormed action member) limit depth

/-- The printed lines of a part without actions do not depend on the style. -/
theorem Part.printed_eq_of_noBlock {part : Part} (noBlock : part.block? = none) (limit : Nat)
    (style other : ActionStyle) :
    part.printed { style := style, limit := limit } =
      part.printed { style := other, limit := limit } := by
  cases part with
  | fixed line => rfl
  | assignment depth attr => rfl
  | actions depth block => cases noBlock

end Layout

open Layout

/-- The style `auto` decides by the lines that would really be printed. The canonical text of a
well-formed document is, for all styles, the text of the parts of one outline, in which the blocks
with actions stand in order. For each of them, `auto` prints what `single` prints if every line of
code among that is within the limit, and what `multi` prints otherwise. All other parts are
printed alike for all styles. -/
theorem auto_decides_by_lines (document : Document) (wellFormed : document.wellFormed = true)
    (limit : Nat) (positive : 1 ≤ limit) :
    (∀ style, Text.lines (document.print { style := style, limit := limit }) =
      (outline document).flatMap (Part.printed { style := style, limit := limit })) ∧
    (outline document).filterMap Part.block? = document.preorder.filter Block.hasActions ∧
    (∀ part ∈ outline document, part.block? = none → ∀ style other,
      part.printed { style := style, limit := limit } =
        part.printed { style := other, limit := limit }) ∧
    ∀ part ∈ outline document, ∀ block, part.block? = some block →
      (CodeWithin limit (part.printed { style := .single, limit := limit }) →
        part.printed { style := .auto, limit := limit } =
          part.printed { style := .single, limit := limit }) ∧
      (¬ CodeWithin limit (part.printed { style := .single, limit := limit }) →
        part.printed { style := .auto, limit := limit } =
          part.printed { style := .multi, limit := limit }) := by
  refine ⟨fun style => ?_, blocksOf_outline document,
    fun part _ noBlock => part.printed_eq_of_noBlock noBlock limit,
    fun part member block owner => ?_⟩
  · rw [lines_print _ wellFormed, ← flatMap_outline, List.map_flatMap]
    rfl
  · cases part with
    | fixed line => cases owner
    | assignment depth attr => cases owner
    | actions depth block =>
        have decides := codeWithin_single_iff (wellFormed_outline wellFormed _ member) positive
        have choice := actionsLines_auto limit depth block.actions
        refine ⟨fun narrow => ?_, fun wide => ?_⟩
        · rw [if_pos (decides.1 narrow)] at choice
          exact congrArg (List.map Line.text) choice
        · rw [if_neg fun fitting => wide (decides.2 fitting)] at choice
          exact congrArg (List.map Line.text) choice

theorem auto_decides_by_lines_mixedDocument :
    mixedDocument.wellFormed = true ∧ ∃ block ∈ mixedDocument.blocks,
      (Part.actions 0 block).printed { style := .auto, limit := 27 } =
          (Part.actions 0 block).printed { style := .single, limit := 27 } ∧
        (Part.actions 0 block).printed { style := .auto, limit := 26 } =
          (Part.actions 0 block).printed { style := .multi, limit := 26 } := by
  have wellFormed : mixedDocument.wellFormed = true := by decide
  have narrow := (auto_decides_by_lines mixedDocument wellFormed 27 (by decide)).2.2.2
  have wide := (auto_decides_by_lines mixedDocument wellFormed 26 (by decide)).2.2.2
  refine ⟨wellFormed, mixedDocument.blocks.head (by decide), List.head_mem _, ?_, ?_⟩
  · exact (narrow _ (by decide +kernel) _ rfl).1 (by decide +kernel)
  · exact (wide _ (by decide +kernel) _ rfl).2 (by decide +kernel)

end ServiceDef
