import ServiceDef.Proofs.Reader.Operations

/-!
# Readers inside of blocks

Outside of all blocks, a reader reads nothing but the headers of blocks. Attributes, actions and
groups of actions thus always have an open block to be added to. `Reader.Rooted` says so of one
reader, and every step keeps it.
-/

namespace ServiceDef

/-- Whether a mode is part of a statement that belongs to a block. -/
def Mode.isInner : Mode → Bool
  | .statement | .statementEnd | .skipping _ | .header _ | .labelled _ _ => false
  | .named _ _ | .actionKey _ | .value _ _ | .attributeEnd _ => true
  | .actionTarget _ | .actionArrow _ _ | .actionHandler _ _ | .actionEnd _ => true

namespace Reader

/-- Groups and statements that belong to a block are read inside of a block. -/
structure Rooted (reader : Reader) : Prop where
  group : ∀ position, reader.group = some position → reader.openBlocks ≠ []
  mode : reader.mode.isInner = true → reader.openBlocks ≠ []

namespace Rooted

variable {reader : Reader} {token : Token}

/-- At the start, nothing is read yet. -/
theorem start : ({} : Reader).Rooted where
  group _ same := by cases same
  mode inner := by cases inner

/-- A mode outside of statements of a block can follow on any other. -/
theorem enter (rooted : reader.Rooted) {mode : Mode} (outer : mode.isInner = false) :
    (reader.enter mode).Rooted where
  group := rooted.group
  mode inner := by
    rw [show (reader.enter mode).mode = mode from rfl, outer] at inner
    cases inner

/-- Inside of a block, everything can be read. -/
theorem of_inside (inside : reader.openBlocks ≠ []) : reader.Rooted where
  group _ _ := inside
  mode _ := inside

theorem absorb (rooted : reader.Rooted) : (reader.absorb token).Rooted :=
  ⟨rooted.group, rooted.mode⟩

theorem expected (rooted : reader.Rooted) (expectation : Expectation) :
    (reader.expected expectation token).Rooted := by
  obtain ⟨found, same⟩ := reader.expected_eq expectation token
  rw [same]
  exact ⟨rooted.group, rooted.mode⟩

/-! ## Between statements -/

theorem begin (rooted : reader.Rooted) (name : String) : (reader.begin name token).Rooted := by
  cases group : reader.group with
  | some position =>
      rw [begin_of_group reader name token group]
      exact of_inside (rooted.group position group)
  | none =>
      cases opened : reader.openBlocks with
      | nil =>
          rw [begin_of_top reader name token group opened]
          exact ⟨rooted.group, fun inner => by cases inner⟩
      | cons block outer =>
          rw [begin_of_block reader name token group opened]
          exact of_inside (by simp [Reader.enter, Reader.absorb, opened])

theorem close (rooted : reader.Rooted) : (reader.close token).Rooted := by
  cases group : reader.group with
  | some position =>
      rw [close_of_group reader token group]
      exact of_inside (rooted.group position group)
  | none =>
      cases opened : reader.openBlocks with
      | nil =>
          rw [close_of_top reader token group opened]
          exact ⟨rooted.group, fun inner => by cases inner⟩
      | cons block outer =>
          rw [close_of_block reader token group opened, closeBlock_eq]
          refine ⟨fun position other => ?_, fun inner => ?_⟩
          · rw [group_addBlock] at other
            exact absurd (group.symm.trans other) (by simp)
          · rw [mode_addBlock] at inner
            cases inner

theorem stepStatement (rooted : reader.Rooted) : (reader.stepStatement token).Rooted := by
  unfold Reader.stepStatement
  split
  · exact rooted.absorb.enter rfl
  · exact rooted.close
  · exact rooted.begin _
  · exact (rooted.expected _).absorb.enter rfl

theorem stepSkipping (rooted : reader.Rooted) (brackets : List Bracket) :
    (reader.stepSkipping brackets token).Rooted := by
  have skip (brackets : List Bracket) :
      ((reader.absorb token).enter (.skipping brackets)).Rooted := rooted.absorb.enter rfl
  have statement : (reader.stepStatement token).Rooted := rooted.stepStatement
  unfold Reader.stepSkipping
  split
  · split
    · exact statement
    · exact skip _
  · exact skip _
  · exact skip _
  · split
    · exact skip _
    · exact statement
  · split <;> exact skip _
  · exact skip _

theorem fail (rooted : reader.Rooted) (expectation : Expectation) (brackets : List Bracket) :
    (reader.fail expectation brackets token).Rooted :=
  (rooted.expected expectation).stepSkipping brackets

theorem stepStatementEnd (rooted : reader.Rooted) : (reader.stepStatementEnd token).Rooted := by
  unfold Reader.stepStatementEnd
  split
  · exact rooted.stepStatement
  · exact rooted.stepStatement
  · exact rooted.fail _ _

/-! ## Statements -/

section Statements

variable (rooted : reader.Rooted) (inside : reader.openBlocks ≠ []) (head : Head)

include rooted

theorem stepHeader : (reader.stepHeader head token).Rooted := by
  unfold Reader.stepHeader
  split
  · exact rooted.absorb.enter rfl
  · exact of_inside (List.cons_ne_nil _ _)
  · exact rooted.fail _ _

theorem stepLabelled (label : String) : (reader.stepLabelled head label token).Rooted := by
  unfold Reader.stepLabelled
  split
  · exact of_inside (List.cons_ne_nil _ _)
  · next opened =>
      refine of_inside ?_
      simp [Reader.enter, Reader.absorb, opened]
  · exact rooted.fail _ _

include inside

theorem stepNamed (name : String) (position : Position) :
    (reader.stepNamed name position token).Rooted := by
  unfold Reader.stepNamed
  split
  · exact of_inside inside
  · exact of_inside inside
  · split
    · exact of_inside inside
    · exact of_inside (List.cons_ne_nil _ _)
  · split <;> exact of_inside inside
  · split <;> exact of_inside inside
  · exact rooted.fail _ _

theorem stepValue (outer : List OpenValue) : (reader.stepValue head outer token).Rooted := by
  refine reader.stepValue_cases head token ?_ ?_ outer (rooted.fail _ _)
  · intro place
    exact of_inside inside
  · intro value
    exact of_inside inside

theorem stepPlace (place : ValuePlace) : (reader.stepPlace head place token).Rooted := by
  refine reader.stepPlace_cases head token ?_ ?_ place fun _ => rooted.fail _ _
  · intro place
    exact of_inside inside
  · intro value
    exact of_inside inside

theorem stepActionKey : (reader.stepActionKey head token).Rooted := by
  unfold Reader.stepActionKey
  split
  · exact of_inside inside
  · exact rooted.stepValue inside head []

theorem stepActionTarget : (reader.stepActionTarget head token).Rooted := by
  unfold Reader.stepActionTarget
  split
  · exact of_inside inside
  · exact of_inside inside
  · exact rooted.fail _ _

theorem stepActionArrow (target : String) :
    (reader.stepActionArrow head target token).Rooted := by
  unfold Reader.stepActionArrow
  split
  · exact of_inside inside
  · exact rooted.fail _ _

theorem stepActionHandler (target : String) :
    (reader.stepActionHandler head target token).Rooted := by
  unfold Reader.stepActionHandler
  split
  · exact of_inside inside
  · exact of_inside inside
  · exact rooted.fail _ _

end Statements

/-! ## Runs -/

/-- Every step keeps statements inside of blocks. -/
theorem step (rooted : reader.Rooted) (token : Token) : (reader.step token).Rooted := by
  have inside := rooted.mode
  unfold Reader.step
  cases mode : reader.mode with
  | statement => exact rooted.stepStatement
  | statementEnd => exact rooted.stepStatementEnd
  | skipping brackets => exact rooted.stepSkipping brackets
  | header head => exact rooted.stepHeader head
  | named name position =>
      rw [mode] at inside
      exact rooted.stepNamed (inside rfl) name position
  | labelled head label => exact rooted.stepLabelled head label
  | actionKey head =>
      rw [mode] at inside
      exact rooted.stepActionKey (inside rfl) head
  | value head place =>
      rw [mode] at inside
      exact rooted.stepPlace (inside rfl) head place
  | attributeEnd attr =>
      rw [mode] at inside
      have added (attr : Attribute) : (reader.addAttribute attr).Rooted :=
        of_inside (by simpa [addAttribute] using inside rfl)
      exact (added _).stepStatementEnd
  | actionTarget head =>
      rw [mode] at inside
      exact rooted.stepActionTarget (inside rfl) head
  | actionArrow head target =>
      rw [mode] at inside
      exact rooted.stepActionArrow (inside rfl) head target
  | actionHandler head target =>
      rw [mode] at inside
      exact rooted.stepActionHandler (inside rfl) head target
  | actionEnd action =>
      rw [mode] at inside
      have added (action : Action) : (reader.addAction action).Rooted :=
        of_inside (by simpa [addAction] using inside rfl)
      exact (added _).stepStatementEnd

/-- Every run keeps statements inside of blocks. -/
theorem run (rooted : reader.Rooted) (tokens : List Token) : (reader.run tokens).Rooted := by
  induction tokens generalizing reader with
  | nil => exact rooted
  | cons token tokens inductionHypothesis => exact inductionHypothesis (rooted.step token)

end Rooted

end Reader

end ServiceDef
