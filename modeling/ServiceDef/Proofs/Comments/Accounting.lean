import Mathlib.Algebra.Order.Group.Multiset
import Mathlib.Tactic.Abel
import ServiceDef.Proofs.Reader.Reports
import ServiceDef.Proofs.Reader.Rooted

/-!
# Accounting for comments

Where a comment ends up depends on what stands around it: it waits until a part of the document
takes it, and a comment inside of a value goes to a later part. None is lost on the way.
`Reader.held` is the bag of all comments that a reader holds, in complete blocks, in open ones, in
its mode or waiting, and `Reader.held_step` says that a step adds the comments of its token.

The one exception is a statement that is given up together with the comments above it. A reader
reports that, unless the scanner has already reported the token.
-/

namespace ServiceDef

/-! ## Bags of comments -/

/-- The comments above an attribute and behind it. -/
def Attribute.commentBag (attr : Attribute) : Multiset String :=
  ↑attr.comments + ↑attr.trailingComment.toList

/-- The comments above an action and behind it. -/
def Action.commentBag (action : Action) : Multiset String :=
  ↑action.comments + ↑action.trailingComment.toList

namespace Block

mutual

/-- All comments of a block: above it, of its parts and before its closing brace. -/
def commentBag : Block → Multiset String
  | ⟨_, _, attributes, blocks, actions, comments, trailingComments, _⟩ =>
    ↑comments + (attributes.map Attribute.commentBag).sum + (actions.map Action.commentBag).sum +
      commentBagAll blocks + ↑trailingComments

/-- All comments of some blocks. -/
def commentBagAll : List Block → Multiset String
  | [] => 0
  | block :: blocks => block.commentBag + commentBagAll blocks

end

/-- The comments of a block that is still open: those before its closing brace are to come. -/
def openBag (block : Block) : Multiset String :=
  ↑block.comments + (block.attributes.map Attribute.commentBag).sum +
    (block.actions.map Action.commentBag).sum + commentBagAll block.blocks

theorem commentBag_eq (block : Block) :
    block.commentBag = block.openBag + ↑block.trailingComments := by
  cases block
  rw [commentBag, openBag]

@[simp] theorem commentBagAll_nil : commentBagAll [] = 0 := by rw [commentBagAll]

@[simp] theorem commentBagAll_cons (block : Block) (blocks : List Block) :
    commentBagAll (block :: blocks) = block.commentBag + commentBagAll blocks := by
  rw [commentBagAll]

@[simp] theorem commentBagAll_append (first second : List Block) :
    commentBagAll (first ++ second) = commentBagAll first + commentBagAll second := by
  induction first with
  | nil => simp
  | cons block first inductionHypothesis => simp [inductionHypothesis, add_assoc]

end Block

/-- All comments of a document. -/
def Document.commentBag (document : Document) : Multiset String :=
  Block.commentBagAll document.blocks + ↑document.trailingComments

/-- The comments that a mode remembers of the current statement. A comment behind an attribute or
action is to come. -/
def Mode.commentBag : Mode → Multiset String
  | .statement | .statementEnd | .skipping _ | .named _ _ => 0
  | .header head | .labelled head _ | .actionKey head | .value head _ => ↑head.comments
  | .actionTarget head | .actionArrow head _ | .actionHandler head _ => ↑head.comments
  | .attributeEnd attr => ↑attr.comments
  | .actionEnd action => ↑action.comments

namespace Reader

/-- The comments that a reader holds whatever it is waiting for. -/
def kept (reader : Reader) : Multiset String :=
  Block.commentBagAll reader.blocks + (reader.openBlocks.map Block.openBag).sum + ↑reader.pending

/-- All comments that a reader holds. -/
def held (reader : Reader) : Multiset String :=
  reader.kept + reader.mode.commentBag

variable (reader : Reader) (token : Token)

/-! ## Operations -/

@[simp] theorem held_enter (mode : Mode) :
    (reader.enter mode).held = reader.kept + mode.commentBag := rfl

@[simp] theorem kept_absorb : (reader.absorb token).kept = reader.kept + ↑token.comments := by
  simp only [kept, absorb, ← Multiset.coe_add, add_assoc]

@[simp] theorem kept_report (fault : ReadFault) (position : Position) :
    (reader.report fault position).kept = reader.kept := rfl

@[simp] theorem kept_expected (expectation : Expectation) :
    (reader.expected expectation token).kept = reader.kept := by
  obtain ⟨found, same⟩ := reader.expected_eq expectation token
  rw [same]
  rfl

/-- Comments that are released have to be held by something else. -/
theorem kept_release : reader.release.kept + ↑reader.pending = reader.kept := by
  simp [kept, release]

/-- A change of the innermost open block that adds comments to it. -/
theorem kept_modifyHead (change : Block → Block) (bag : Multiset String)
    (adds : ∀ block, (change block).openBag = block.openBag + bag)
    (inside : reader.openBlocks ≠ []) :
    ({ reader with openBlocks := reader.openBlocks.modifyHead change } : Reader).kept =
      reader.kept + bag := by
  obtain ⟨block, outer, opened⟩ := List.exists_cons_of_ne_nil inside
  simp only [kept, opened, List.modifyHead_cons, List.map_cons, List.sum_cons, adds]
  abel

/-- An attribute is added to an open block together with its comments. -/
theorem kept_addAttribute (attr : Attribute) (inside : reader.openBlocks ≠ []) :
    (reader.addAttribute attr).kept = reader.kept + attr.commentBag := by
  refine reader.kept_modifyHead _ _ (fun block => ?_) inside
  simp only [Block.openBag, List.map_append, List.sum_append, List.map_singleton,
    List.sum_singleton]
  abel

/-- An action is added to an open block together with its comments. -/
theorem kept_addAction (action : Action) (inside : reader.openBlocks ≠ []) :
    (reader.addAction action).kept = reader.kept + action.commentBag := by
  refine reader.kept_modifyHead _ _ (fun block => ?_) inside
  simp only [Block.openBag, List.map_append, List.sum_append, List.map_singleton,
    List.sum_singleton]
  abel

theorem kept_addBlock (block : Block) :
    (reader.addBlock block).kept = reader.kept + block.commentBag := by
  unfold addBlock
  split
  · simp only [kept, Block.commentBagAll_append, Block.commentBagAll_cons, Block.commentBagAll_nil]
    abel
  · next parent outer opened =>
      simp only [kept, opened, List.map_cons, List.sum_cons, Block.openBag,
        Block.commentBagAll_append, Block.commentBagAll_cons, Block.commentBagAll_nil]
      abel

theorem held_openBlock (head : Head) (label : Option String) :
    (reader.openBlock head label).held = reader.kept + ↑head.comments := by
  simp only [held, kept, openBlock, Mode.commentBag, List.map_cons, List.sum_cons, Block.openBag,
    List.map_nil, List.sum_nil, Block.commentBagAll_nil]
  abel

/-- A block that is closed takes all comments that wait. -/
theorem held_closeBlock {block : Block} {outer : List Block}
    (inside : reader.openBlocks = block :: outer) :
    (reader.closeBlock block outer).held = reader.kept := by
  rw [closeBlock_eq, held, mode_addBlock, kept_addBlock, Block.commentBag_eq]
  simp only [kept, release, inside, Mode.commentBag, List.map_cons, List.sum_cons, Block.openBag,
    Multiset.coe_nil]
  abel

/-! ## Between statements -/

theorem held_begin (name : String) :
    (reader.begin name token).held = reader.kept + ↑token.comments := by
  have released := (reader.absorb token).kept_release
  rw [kept_absorb] at released
  unfold begin
  dsimp only
  split
  · exact released
  · exact released
  · simp [Mode.commentBag]

theorem held_close : (reader.close token).held = reader.kept + ↑token.comments := by
  cases group : reader.group with
  | some position =>
      rw [close_of_group reader token group, ← kept_absorb]
      exact add_zero _
  | none =>
      cases opened : reader.openBlocks with
      | nil =>
          rw [close_of_top reader token group opened]
          simp [Mode.commentBag]
      | cons block outer =>
          rw [close_of_block reader token group opened,
            (reader.absorb token).held_closeBlock opened, kept_absorb]

theorem held_stepStatement :
    (reader.stepStatement token).held = reader.kept + ↑token.comments := by
  unfold stepStatement
  split
  · simp [Mode.commentBag]
  · exact reader.held_close token
  · exact reader.held_begin token _
  · simp [Mode.commentBag]

theorem held_stepSkipping (brackets : List Bracket) :
    (reader.stepSkipping brackets token).held = reader.kept + ↑token.comments := by
  have skip (brackets : List Bracket) :
      ((reader.absorb token).enter (.skipping brackets)).held = reader.kept + ↑token.comments := by
    simp [Mode.commentBag]
  have statement := reader.held_stepStatement token
  unfold stepSkipping
  split
  · split
    · exact statement
    · exact skip _
  · exact skip _
  · exact skip _
  · split
    · exact skip _
    · exact statement
  · split <;> exact skip _
  · exact skip _

/-- A statement that is given up keeps what does not belong to it. -/
theorem held_fail (expectation : Expectation) (brackets : List Bracket) :
    (reader.fail expectation brackets token).held = reader.kept + ↑token.comments := by
  rw [fail, held_stepSkipping, kept_expected]

theorem held_stepStatementEnd :
    (reader.stepStatementEnd token).held = reader.kept + ↑token.comments := by
  unfold stepStatementEnd
  split
  · exact reader.held_stepStatement token
  · exact reader.held_stepStatement token
  · exact reader.held_fail token _ _

/-! ## Inside of statements -/

/-- Behind a token, a reader that has found nothing wrong holds the comments `before` and those of
the token. -/
def Accounts (before : Multiset String) (token : Token) (after : Reader) : Prop :=
  after.diagnostics = [] → after.held = before + ↑token.comments

section Statements

variable {token} {head : Head}

/-- Giving a valid token up is not silent, so there is nothing to account for. -/
theorem accounts_fail (valid : ∀ text, token.kind ≠ .invalid text) (before : Multiset String)
    (expectation : Expectation) (brackets : List Bracket) :
    Accounts before token (reader.fail expectation brackets token) := by
  intro silent
  exact absurd silent (reader.diagnostics_fail_ne_nil expectation brackets valid)

/-- A mode that goes on with the current statement keeps the comments above it. -/
theorem accounts_move (token : Token) {mode : Mode} (same : mode.commentBag = ↑head.comments) :
    Accounts (reader.kept + ↑head.comments) token ((reader.absorb token).enter mode) := by
  intro _
  rw [held_enter, kept_absorb, same, add_right_comm]

/-- A statement takes the comments that wait in front of it. -/
theorem accounts_take (token : Token) {mode : Mode} (same : mode.commentBag = ↑reader.pending) :
    Accounts reader.kept token ((reader.release.absorb token).enter mode) := by
  intro _
  rw [held_enter, kept_absorb, same, add_right_comm, kept_release]

theorem accounts_stepValue (valid : ∀ text, token.kind ≠ .invalid text)
    (outer : List OpenValue) :
    Accounts (reader.kept + ↑head.comments) token (reader.stepValue head outer token) := by
  refine reader.stepValue_cases head token ?_ ?_ outer (reader.accounts_fail valid _ _ _)
  · intro place
    exact reader.accounts_move token rfl
  · intro value
    exact reader.accounts_move token rfl

theorem accounts_stepPlace (valid : ∀ text, token.kind ≠ .invalid text) (place : ValuePlace) :
    Accounts (reader.kept + ↑head.comments) token (reader.stepPlace head place token) := by
  refine reader.stepPlace_cases head token ?_ ?_ place fun _ => reader.accounts_fail valid _ _ _
  · intro place
    exact reader.accounts_move token rfl
  · intro value
    exact reader.accounts_move token rfl

theorem accounts_stepHeader (valid : ∀ text, token.kind ≠ .invalid text) :
    Accounts (reader.kept + ↑head.comments) token (reader.stepHeader head token) := by
  unfold stepHeader
  split
  · exact reader.accounts_move token rfl
  · intro _
    rw [held_openBlock, kept_absorb, add_right_comm]
  · exact reader.accounts_fail valid _ _ _

theorem accounts_stepNamed (valid : ∀ text, token.kind ≠ .invalid text) (name : String)
    (position : Position) : Accounts reader.kept token (reader.stepNamed name position token) := by
  have assigned : Accounts reader.kept token
      (if name = Word.action then
        (reader.release.absorb token).enter (.actionKey (reader.head name position))
      else (reader.release.absorb token).enter
        (.value (reader.head name position) (.value []))) := by
    split
    · exact reader.accounts_take token rfl
    · exact reader.accounts_take token rfl
  unfold stepNamed
  split
  · exact reader.accounts_take token rfl
  · exact reader.accounts_take token rfl
  · split
    · intro _
      rw [← kept_absorb]
      exact add_zero _
    · intro _
      rw [held_openBlock, kept_absorb, add_right_comm, ← reader.kept_release]
      rfl
  · exact assigned
  · exact assigned
  · exact reader.accounts_fail valid _ _ _

theorem accounts_stepLabelled (valid : ∀ text, token.kind ≠ .invalid text) (label : String) :
    Accounts (reader.kept + ↑head.comments) token (reader.stepLabelled head label token) := by
  unfold stepLabelled
  split
  · intro _
    rw [held_openBlock, kept_absorb, add_right_comm]
  · exact reader.accounts_move token rfl
  · exact reader.accounts_fail valid _ _ _

theorem accounts_stepActionKey (valid : ∀ text, token.kind ≠ .invalid text) :
    Accounts (reader.kept + ↑head.comments) token (reader.stepActionKey head token) := by
  unfold stepActionKey
  split
  · intro _
    simp only [held_enter, Mode.commentBag, ← Multiset.coe_add, ← reader.kept_release]
    abel
  · exact reader.accounts_stepValue valid []

theorem accounts_stepActionTarget (valid : ∀ text, token.kind ≠ .invalid text) :
    Accounts (reader.kept + ↑head.comments) token (reader.stepActionTarget head token) := by
  unfold stepActionTarget
  split
  · exact reader.accounts_move token rfl
  · exact reader.accounts_move token rfl
  · exact reader.accounts_fail valid _ _ _

theorem accounts_stepActionArrow (valid : ∀ text, token.kind ≠ .invalid text) (target : String) :
    Accounts (reader.kept + ↑head.comments) token (reader.stepActionArrow head target token) := by
  unfold stepActionArrow
  split
  · exact reader.accounts_move token rfl
  · exact reader.accounts_fail valid _ _ _

theorem accounts_stepActionHandler (valid : ∀ text, token.kind ≠ .invalid text)
    (target : String) :
    Accounts (reader.kept + ↑head.comments) token
      (reader.stepActionHandler head target token) := by
  unfold stepActionHandler
  split
  · exact reader.accounts_move token rfl
  · exact reader.accounts_move token rfl
  · exact reader.accounts_fail valid _ _ _

end Statements

/-- The comment that is taken from a line break and those that are left are all its comments. -/
theorem commentBag_lineComment :
    (↑(lineComment token).1.toList + ↑(lineComment token).2.comments : Multiset String) =
      ↑token.comments := by
  unfold lineComment
  split
  · next comment comments kind all => rw [all]; rfl
  · exact zero_add _

theorem held_stepAttributeEnd (attr : Attribute) (inside : reader.openBlocks ≠ []) :
    (reader.stepAttributeEnd attr token).held =
      reader.kept + ↑attr.comments + ↑token.comments := by
  rw [stepAttributeEnd_eq, held_stepStatementEnd, kept_addAttribute reader _ inside,
    Attribute.commentBag, ← commentBag_lineComment token]
  abel

theorem held_stepActionEnd (action : Action) (inside : reader.openBlocks ≠ []) :
    (reader.stepActionEnd action token).held =
      reader.kept + ↑action.comments + ↑token.comments := by
  rw [stepActionEnd_eq, held_stepStatementEnd, kept_addAction reader _ inside,
    Action.commentBag, ← commentBag_lineComment token]
  abel

/-! ## Runs -/

/-- A step adds the comments of its token to those that a reader holds. -/
theorem held_step {reader : Reader} (rooted : reader.Rooted) {token : Token}
    (valid : ∀ text, token.kind ≠ .invalid text)
    (silent : (reader.step token).diagnostics = []) :
    (reader.step token).held = reader.held + ↑token.comments := by
  have accounts : Accounts reader.held token (reader.step token) := by
    have inside := rooted.mode
    unfold held step
    cases mode : reader.mode with
    | statement => exact fun _ => (reader.held_stepStatement token).trans (by simp [Mode.commentBag])
    | statementEnd =>
        exact fun _ => (reader.held_stepStatementEnd token).trans (by simp [Mode.commentBag])
    | skipping brackets =>
        exact fun _ => (reader.held_stepSkipping token brackets).trans (by simp [Mode.commentBag])
    | header head => exact reader.accounts_stepHeader valid
    | named name position =>
        simpa [Mode.commentBag] using reader.accounts_stepNamed valid name position
    | labelled head label => exact reader.accounts_stepLabelled valid label
    | actionKey head => exact reader.accounts_stepActionKey valid
    | value head place => exact reader.accounts_stepPlace valid place
    | attributeEnd attr =>
        rw [mode] at inside
        exact fun _ => reader.held_stepAttributeEnd token attr (inside rfl)
    | actionTarget head => exact reader.accounts_stepActionTarget valid
    | actionArrow head target => exact reader.accounts_stepActionArrow valid target
    | actionHandler head target => exact reader.accounts_stepActionHandler valid target
    | actionEnd action =>
        rw [mode] at inside
        exact fun _ => reader.held_stepActionEnd token action (inside rfl)
  exact accounts silent

/-- A run without a diagnostic adds the comments of its tokens to those that a reader holds. -/
theorem held_run {reader : Reader} (rooted : reader.Rooted) {tokens : List Token}
    (valid : ∀ token ∈ tokens, ∀ text, token.kind ≠ .invalid text)
    (silent : (reader.run tokens).diagnostics = []) :
    (reader.run tokens).held = reader.held + ↑(tokens.flatMap (·.comments)) := by
  induction tokens generalizing reader with
  | nil => simp
  | cons token tokens inductionHypothesis =>
      obtain ⟨found, runEq, -⟩ := diagnostics_run (reader.step token) tokens
      have quiet : (reader.step token).diagnostics = [] := by
        rw [run_cons, runEq, List.append_eq_nil_iff] at silent
        exact silent.1
      have others := inductionHypothesis (rooted.step token)
        (fun other member => valid other (List.mem_cons_of_mem token member)) silent
      rw [run_cons, others, held_step rooted (valid token List.mem_cons_self) quiet,
        List.flatMap_cons, ← Multiset.coe_add, add_assoc]

end Reader

end ServiceDef
