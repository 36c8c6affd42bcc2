import ServiceDef.Proofs.Reader.Reports
import ServiceDef.Proofs.Recovery.Growth

/-!
# Readers in lockstep

What a reader does with a token does not depend on what stands in its blocks, only on whether
there are any. Two readers that differ in the bodies of their blocks and in what they have
reported so far thus do the same with every token. `Alike.run` says that what one of them has
more than the other stays what it is.
-/

namespace ServiceDef

variable {Extra : Position → Prop} {found : List Diagnostic}

/-- Two readers that are waiting for the same. The blocks of `second` have grown from those of
`first` by parts at `Extra` positions, and `second` has reported `found` before all that both
have reported. -/
structure Alike (Extra : Position → Prop) (found : List Diagnostic) (first second : Reader) :
    Prop where
  blocks : BlocksGrow Extra first.blocks second.blocks
  openBlocks : List.Forall₂ (BlockGrows Extra) first.openBlocks second.openBlocks
  group : second.group = first.group
  mode : second.mode = first.mode
  pending : second.pending = first.pending
  diagnostics : second.diagnostics = found ++ first.diagnostics

namespace Alike

variable {first second : Reader} (alike : Alike Extra found first second) (token : Token)

include alike

/-- Either no block is open in both readers, or the innermost blocks correspond. -/
theorem openBlocks_cases :
    (first.openBlocks = [] ∧ second.openBlocks = []) ∨
      ∃ block outer grown grownOuter, first.openBlocks = block :: outer ∧
        second.openBlocks = grown :: grownOuter ∧ BlockGrows Extra block grown ∧
        List.Forall₂ (BlockGrows Extra) outer grownOuter := by
  have both := alike.openBlocks
  generalize first.openBlocks = opened at both ⊢
  generalize second.openBlocks = grownOpened at both ⊢
  cases both with
  | nil => exact .inl ⟨rfl, rfl⟩
  | cons same others => exact .inr ⟨_, _, _, _, rfl, rfl, same, others⟩

/-! ## Operations -/

theorem enter (mode : Mode) : Alike Extra found (first.enter mode) (second.enter mode) :=
  { alike with mode := rfl }

theorem absorb : Alike Extra found (first.absorb token) (second.absorb token) :=
  { alike with pending := by simp [Reader.absorb, alike.pending] }

theorem release : Alike Extra found first.release second.release :=
  { alike with pending := rfl }

theorem head_eq (name : String) (position : Position) :
    second.head name position = first.head name position := by
  simp [Reader.head, alike.pending]

theorem report (fault : ReadFault) (position : Position) :
    Alike Extra found (first.report fault position) (second.report fault position) :=
  { alike with diagnostics := by simp [Reader.report, alike.diagnostics] }

theorem expected (expectation : Expectation) :
    Alike Extra found (first.expected expectation token) (second.expected expectation token) := by
  unfold Reader.expected
  split
  · exact alike
  · exact alike.report _ _

theorem addAttribute (attr : Attribute) :
    Alike Extra found (first.addAttribute attr) (second.addAttribute attr) := by
  refine { alike with openBlocks := ?_ }
  rcases alike.openBlocks_cases with
    ⟨noBlock, noGrown⟩ | ⟨block, outer, grown, grownOuter, opened, grownOpened, same, others⟩
  · simp [Reader.addAttribute, noBlock, noGrown]
  · simp only [Reader.addAttribute, opened, grownOpened, List.modifyHead_cons]
    exact .cons (same.snocAttribute attr) others

theorem addAction (action : Action) :
    Alike Extra found (first.addAction action) (second.addAction action) := by
  refine { alike with openBlocks := ?_ }
  rcases alike.openBlocks_cases with
    ⟨noBlock, noGrown⟩ | ⟨block, outer, grown, grownOuter, opened, grownOpened, same, others⟩
  · simp [Reader.addAction, noBlock, noGrown]
  · simp only [Reader.addAction, opened, grownOpened, List.modifyHead_cons]
    exact .cons (same.snocAction action) others

theorem openBlock (head : Head) (label : Option String) :
    Alike Extra found (first.openBlock head label) (second.openBlock head label) :=
  { alike with
    openBlocks := .cons (.refl _) alike.openBlocks
    mode := rfl }

theorem addBlock {block grown : Block} (same : BlockGrows Extra block grown) :
    Alike Extra found (first.addBlock block) (second.addBlock grown) := by
  rcases alike.openBlocks_cases with
    ⟨noBlock, noGrown⟩ | ⟨parent, outer, grownParent, grownOuter, opened, grownOpened, sameParent,
      others⟩
  · simp only [Reader.addBlock, noBlock, noGrown]
    exact { alike with blocks := alike.blocks.snoc same, openBlocks := .nil }
  · simp only [Reader.addBlock, opened, grownOpened]
    exact { alike with openBlocks := .cons (sameParent.snocBlock same) others }

/-! ## Statements -/

theorem begin (name : String) :
    Alike Extra found (first.begin name token) (second.begin name token) := by
  have absorbed := alike.absorb token
  cases group : first.group with
  | some position =>
      rw [first.begin_of_group name token group,
        second.begin_of_group name token (alike.group.trans group), absorbed.head_eq]
      exact absorbed.release.enter _
  | none =>
      rcases alike.openBlocks_cases with
        ⟨noBlock, noGrown⟩ | ⟨block, outer, grown, grownOuter, opened, grownOpened, same, others⟩
      · rw [first.begin_of_top name token group noBlock,
          second.begin_of_top name token (alike.group.trans group) noGrown, absorbed.head_eq]
        exact absorbed.release.enter _
      · rw [first.begin_of_block name token group opened,
          second.begin_of_block name token (alike.group.trans group) grownOpened]
        exact absorbed.enter _

theorem close : Alike Extra found (first.close token) (second.close token) := by
  have absorbed := alike.absorb token
  cases group : first.group with
  | some position =>
      rw [first.close_of_group token group,
        second.close_of_group token (alike.group.trans group)]
      exact { absorbed with group := rfl, mode := rfl }
  | none =>
      rcases alike.openBlocks_cases with
        ⟨noBlock, noGrown⟩ | ⟨block, outer, grown, grownOuter, opened, grownOpened, same, others⟩
      · rw [first.close_of_top token group noBlock,
          second.close_of_top token (alike.group.trans group) noGrown]
        exact (absorbed.report _ _).enter _
      · rw [first.close_of_block token group opened,
          second.close_of_block token (alike.group.trans group) grownOpened,
          Reader.closeBlock_eq, Reader.closeBlock_eq]
        have outside : Alike Extra found
            { (first.absorb token).release with openBlocks := outer, mode := .statementEnd }
            { (second.absorb token).release with openBlocks := grownOuter, mode := .statementEnd } :=
          { absorbed.release with openBlocks := others, mode := rfl }
        exact outside.addBlock (same.trailing _ _)

theorem statementExpectation_eq : second.statementExpectation = first.statementExpectation := by
  unfold Reader.statementExpectation
  rcases alike.openBlocks_cases with
    ⟨noBlock, noGrown⟩ | ⟨block, outer, grown, grownOuter, opened, grownOpened, same, others⟩
  · rw [alike.group, noBlock, noGrown]
  · rw [alike.group, opened, grownOpened]
    cases first.group <;> rfl

theorem stepStatement :
    Alike Extra found (first.stepStatement token) (second.stepStatement token) := by
  unfold Reader.stepStatement
  split
  · exact (alike.absorb token).enter _
  · exact alike.close token
  · exact alike.begin token _
  · rw [alike.statementExpectation_eq]
    exact ((alike.expected token _).absorb token).enter _

theorem stepSkipping (brackets : List Bracket) :
    Alike Extra found (first.stepSkipping brackets token)
      (second.stepSkipping brackets token) := by
  have skipped (brackets : List Bracket) := (alike.absorb token).enter (.skipping brackets)
  unfold Reader.stepSkipping
  dsimp only
  split
  · split
    · exact alike.stepStatement token
    · exact skipped _
  · exact skipped _
  · exact skipped _
  · split
    · exact skipped _
    · exact alike.stepStatement token
  · split <;> exact skipped _
  · exact skipped _

theorem fail (expectation : Expectation) (brackets : List Bracket) :
    Alike Extra found (first.fail expectation brackets token)
      (second.fail expectation brackets token) :=
  (alike.expected token expectation).stepSkipping token brackets

theorem stepStatementEnd :
    Alike Extra found (first.stepStatementEnd token) (second.stepStatementEnd token) := by
  unfold Reader.stepStatementEnd
  split
  · exact alike.stepStatement token
  · exact alike.stepStatement token
  · exact alike.fail token _ _

/-! ## Values -/

theorem complete (head : Head) (outer : List OpenValue) (value : Value) :
    Alike Extra found (first.complete head outer value) (second.complete head outer value) := by
  unfold Reader.complete
  split <;> exact alike.enter _

theorem stepValue (head : Head) (outer : List OpenValue) :
    Alike Extra found (first.stepValue head outer token) (second.stepValue head outer token) := by
  have absorbed := alike.absorb token
  unfold Reader.stepValue
  split
  · exact absorbed.complete head outer _
  · exact absorbed.complete head outer _
  · exact absorbed.complete head outer _
  · exact absorbed.enter _
  · exact absorbed.enter _
  · exact alike.fail token _ _

theorem stepPlace (head : Head) (place : ValuePlace) :
    Alike Extra found (first.stepPlace head place token) (second.stepPlace head place token) := by
  have absorbed := alike.absorb token
  cases place with
  | value outer => exact alike.stepValue token head outer
  | item items outer =>
      simp only [Reader.stepPlace]
      split
      · exact absorbed.enter _
      · exact absorbed.complete head outer _
      · exact alike.stepValue token head _
  | itemEnd items outer =>
      simp only [Reader.stepPlace]
      split
      · exact absorbed.enter _
      · exact absorbed.enter _
      · exact absorbed.complete head outer _
      · exact alike.fail token _ _
  | key entries outer =>
      simp only [Reader.stepPlace]
      split
      · exact absorbed.enter _
      · exact absorbed.enter _
      · exact absorbed.complete head outer _
      · exact absorbed.enter _
      · exact alike.fail token _ _
  | keyEnd entries name position outer =>
      simp only [Reader.stepPlace]
      split
      · exact absorbed.enter _
      · exact absorbed.enter _
      · exact alike.fail token _ _
  | entryEnd entries outer =>
      simp only [Reader.stepPlace]
      split
      · exact absorbed.enter _
      · exact absorbed.enter _
      · exact absorbed.complete head outer _
      · exact alike.fail token _ _

/-! ## Steps and runs -/

theorem stepNamed (name : String) (position : Position) :
    Alike Extra found (first.stepNamed name position token)
      (second.stepNamed name position token) := by
  have taken := alike.release.absorb token
  unfold Reader.stepNamed
  dsimp only
  rw [alike.head_eq]
  split
  · exact taken.enter _
  · exact taken.enter _
  · split
    · exact { alike.absorb token with group := rfl, mode := rfl }
    · exact taken.openBlock _ _
  · split <;> exact taken.enter _
  · split <;> exact taken.enter _
  · exact alike.fail token _ _

/-- An arrow behind a label needs an open block, so the readers must agree on having one. -/
theorem stepLabelled (head : Head) (label : String) :
    Alike Extra found (first.stepLabelled head label token)
      (second.stepLabelled head label token) := by
  have absorbed := alike.absorb token
  unfold Reader.stepLabelled
  rcases alike.openBlocks_cases with
    ⟨noBlock, noGrown⟩ | ⟨block, outer, grown, grownOuter, opened, grownOpened, same, others⟩
  · rw [noBlock, noGrown]
    cases token.kind with
    | leftBrace => exact absorbed.openBlock _ _
    | _ => exact alike.fail token _ _
  · rw [opened, grownOpened]
    cases token.kind with
    | leftBrace => exact absorbed.openBlock _ _
    | arrow => exact absorbed.enter _
    | _ => exact alike.fail token _ _

theorem stepActionKey (head : Head) :
    Alike Extra found (first.stepActionKey head token) (second.stepActionKey head token) := by
  unfold Reader.stepActionKey
  rw [alike.pending]
  split
  · exact alike.release.enter _
  · exact alike.stepValue token head []

/-- Readers that are alike do the same with every token. -/
theorem step : Alike Extra found (first.step token) (second.step token) := by
  have absorbed := alike.absorb token
  have fail (expectation : Expectation) := alike.fail token expectation []
  unfold Reader.step
  rw [alike.mode]
  cases first.mode with
  | statement => exact alike.stepStatement token
  | statementEnd => exact alike.stepStatementEnd token
  | skipping brackets => exact alike.stepSkipping token brackets
  | header head =>
      simp only [Reader.stepHeader]
      split
      · exact absorbed.enter _
      · exact absorbed.openBlock _ _
      · exact fail _
  | named name position => exact alike.stepNamed token name position
  | labelled head label => exact alike.stepLabelled token head label
  | actionKey head => exact alike.stepActionKey token head
  | value head place => exact alike.stepPlace token head place
  | attributeEnd attr => exact (alike.addAttribute _).stepStatementEnd _
  | actionTarget head =>
      simp only [Reader.stepActionTarget]
      split
      · exact absorbed.enter _
      · exact absorbed.enter _
      · exact fail _
  | actionArrow head target =>
      simp only [Reader.stepActionArrow]
      split
      · exact absorbed.enter _
      · exact fail _
  | actionHandler head target =>
      simp only [Reader.stepActionHandler]
      split
      · exact absorbed.enter _
      · exact absorbed.enter _
      · exact fail _
  | actionEnd action => exact (alike.addAction _).stepStatementEnd _

omit alike in
theorem run {first second : Reader} (alike : Alike Extra found first second)
    (tokens : List Token) : Alike Extra found (first.run tokens) (second.run tokens) := by
  induction tokens generalizing first second with
  | nil => exact alike
  | cons token tokens inductionHypothesis => exact inductionHypothesis (alike.step token)

/-! ## The end of the file -/

theorem finishStatement :
    Alike Extra found (first.finishStatement token) (second.finishStatement token) := by
  have reported : Alike Extra found (first.reportMissing token) (second.reportMissing token) := by
    unfold Reader.reportMissing
    rw [alike.mode]
    split
    · exact alike.expected token _
    · exact alike
  rw [Reader.finishStatement_match, Reader.finishStatement_match, reported.mode]
  split
  · exact (reported.addAttribute _).enter _
  · exact (reported.addAction _).enter _
  · exact reported.enter _

theorem finishGroup : Alike Extra found first.finishGroup second.finishGroup := by
  unfold Reader.finishGroup
  rw [alike.group]
  split
  · exact { alike.report _ _ with group := rfl }
  · exact alike

end Alike

theorem BlockGrows.nest {block grown : Block} {outer grownOuter : List Block}
    (same : BlockGrows Extra block grown)
    (others : List.Forall₂ (BlockGrows Extra) outer grownOuter) :
    BlockGrows Extra (Reader.nest block outer) (Reader.nest grown grownOuter) := by
  induction others generalizing block grown with
  | nil => exact same
  | cons sameParent _ inductionHypothesis => exact inductionHypothesis (sameParent.snocBlock same)

/-- The same is reported about blocks that have grown, as only their headings are named. -/
theorem map_eq_of_forall₂ {blocks grown : List Block} (diagnostic : Block → Diagnostic)
    (named : ∀ block, diagnostic block = diagnostic block.emptied)
    (same : List.Forall₂ (BlockGrows Extra) blocks grown) :
    grown.map diagnostic = blocks.map diagnostic := by
  induction same with
  | nil => rfl
  | cons same _ inductionHypothesis =>
      cases same with
      | body heading =>
          rw [List.map_cons, List.map_cons, inductionHypothesis, named, heading, ← named]

namespace Alike

variable {first second : Reader} (alike : Alike Extra found first second) (token : Token)

include alike

theorem finishBlocks : Alike Extra found first.finishBlocks second.finishBlocks := by
  unfold Reader.finishBlocks
  rcases alike.openBlocks_cases with
    ⟨noBlock, noGrown⟩ | ⟨block, outer, grown, grownOuter, opened, grownOpened, same, others⟩
  · rw [noBlock, noGrown]
    exact alike
  · rw [opened, grownOpened]
    have closed := (same.trailing first.pending second.pending).nest others
    have unclosed := map_eq_of_forall₂ (fun block => Diagnostic.malformed
      (ReadFault.unclosedBlock block.kind block.label).message block.position)
      (fun _ => rfl) (.cons same others)
    exact
      { alike.release with
        blocks := alike.blocks.snoc closed
        openBlocks := .nil
        diagnostics := by simp only [alike.diagnostics, unclosed, List.append_assoc] }

theorem finish : Alike Extra found (first.finish token) (second.finish token) :=
  ((alike.finishStatement token).finishGroup.finishBlocks).absorb token

end Alike

end ServiceDef
