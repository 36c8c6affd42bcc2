import ServiceDef.Proofs.Recovery.Growth
import ServiceDef.Proofs.Recovery.Nesting

/-!
# Reading one line

Whatever stands on a line, a reader that never leaves the block it began in only adds to what
it had. `Grown.step` and `Grown.run` say so, and that all that is added is at positions of
the line.
-/

namespace ServiceDef

variable {Extra : Position → Prop}

/-- `after` are the open blocks `before`, grown, and maybe some more inside of them. All that
stands in the new ones is at `Extra` positions, as they are themselves. -/
inductive StackGrows (Extra : Position → Prop) : List Block → List Block → Prop where
  | same {before after : List Block} (blocks : List.Forall₂ (BlockGrows Extra) before after) :
      StackGrows Extra before after
  | fresh {block : Block} {before after : List Block} (isExtra : Extra block.position)
      (body : BlockGrows Extra block.emptied block) (outer : StackGrows Extra before after) :
      StackGrows Extra before (block :: after)

/-- A change of blocks that only adds to them. -/
def Adds (Extra : Position → Prop) (change : Block → Block) : Prop :=
  ∀ {before after : Block}, BlockGrows Extra before after → BlockGrows Extra before (change after)

theorem Adds.emptied_eq {change : Block → Block} (adds : Adds Extra change) (block : Block) :
    (change block).emptied = block.emptied := by
  cases adds (.refl block) with
  | body heading => exact heading

theorem Adds.position_eq {change : Block → Block} (adds : Adds Extra change) (block : Block) :
    (change block).position = block.position := by
  rw [← Block.position_emptied, adds.emptied_eq, Block.position_emptied]

theorem Adds.forall₂ {change : Block → Block} (adds : Adds Extra change)
    {before after : List Block} (blocks : List.Forall₂ (BlockGrows Extra) before after) :
    List.Forall₂ (BlockGrows Extra) before (after.modifyHead change) := by
  cases blocks with
  | nil => exact .nil
  | cons same others => exact .cons (adds same) others

theorem StackGrows.modifyHead {change : Block → Block} (adds : Adds Extra change)
    {before after : List Block} (grown : StackGrows Extra before after) :
    StackGrows Extra before (after.modifyHead change) := by
  cases grown with
  | same blocks => exact .same (adds.forall₂ blocks)
  | @fresh block _ _ isExtra body outer =>
      refine .fresh ?_ ?_ outer
      · rw [adds.position_eq]
        exact isExtra
      · rw [adds.emptied_eq]
        exact adds body

theorem StackGrows.length_le {before after : List Block} (grown : StackGrows Extra before after) :
    before.length ≤ after.length := by
  induction grown with
  | same blocks => exact Nat.le_of_eq blocks.length_eq
  | fresh _ _ _ inductionHypothesis => exact Nat.le_succ_of_le inductionHypothesis

/-- Without new blocks, the open blocks correspond. -/
theorem StackGrows.forall₂ {before after : List Block} (grown : StackGrows Extra before after)
    (lengths : after.length = before.length) :
    List.Forall₂ (BlockGrows Extra) before after := by
  cases grown with
  | same blocks => exact blocks
  | fresh _ _ outer =>
      have shorter := outer.length_le
      rw [List.length_cons] at lengths
      omega

/-! ## Growth of a reader -/

/-- The position of the statement that is read, if there is one. -/
def Mode.origin : Mode → Option Position
  | .statement | .statementEnd | .skipping _ => none
  | .header head | .labelled head _ | .actionKey head | .value head _ => some head.position
  | .actionTarget head | .actionArrow head _ | .actionHandler head _ => some head.position
  | .named _ position => some position
  | .attributeEnd attr => some attr.position
  | .actionEnd action => some action.position

/-- The reader has all that `base` has, and what it has more is at `Extra` positions. If `base` is
inside of a group, the reader has not left it. -/
structure Grown (Extra : Position → Prop) (base reader : Reader) : Prop where
  blocks : BlocksGrow Extra base.blocks reader.blocks
  openBlocks : StackGrows Extra base.openBlocks reader.openBlocks
  group : base.group ≠ none → reader.group = base.group ∧
    List.Forall₂ (BlockGrows Extra) base.openBlocks reader.openBlocks
  origin : ∀ position ∈ reader.mode.origin, Extra position

namespace Grown

variable {base reader : Reader}

/-- Between two statements, a reader has grown from itself. -/
theorem refl (between : reader.mode = .statement) : Grown Extra reader reader where
  blocks := .refl _
  openBlocks := .same (List.forall₂_same.2 fun _ _ => .refl _)
  group := fun _ => ⟨rfl, List.forall₂_same.2 fun _ _ => .refl _⟩
  origin := by simp [between, Mode.origin]

variable (grown : Grown Extra base reader)

include grown

theorem enter (mode : Mode) (origin : ∀ position ∈ mode.origin, Extra position) :
    Grown Extra base (reader.enter mode) :=
  ⟨grown.blocks, grown.openBlocks, grown.group, origin⟩

theorem absorb (token : Token) : Grown Extra base (reader.absorb token) :=
  ⟨grown.blocks, grown.openBlocks, grown.group, grown.origin⟩

theorem release : Grown Extra base reader.release :=
  ⟨grown.blocks, grown.openBlocks, grown.group, grown.origin⟩

theorem report (fault : ReadFault) (position : Position) :
    Grown Extra base (reader.report fault position) :=
  ⟨grown.blocks, grown.openBlocks, grown.group, grown.origin⟩

theorem expected (expectation : Expectation) (token : Token) :
    Grown Extra base (reader.expected expectation token) := by
  obtain ⟨found, same⟩ := reader.expected_eq expectation token
  rw [same]
  exact ⟨grown.blocks, grown.openBlocks, grown.group, grown.origin⟩

theorem addAttribute {attr : Attribute} (isExtra : Extra attr.position) :
    Grown Extra base (reader.addAttribute attr) := by
  have adds : Adds Extra fun block => { block with attributes := block.attributes ++ [attr] } :=
    fun same => same.extraAttribute isExtra
  exact ⟨grown.blocks, grown.openBlocks.modifyHead adds,
    fun inGroup => ⟨(grown.group inGroup).1, adds.forall₂ (grown.group inGroup).2⟩, grown.origin⟩

theorem addAction {action : Action} (isExtra : Extra action.position) :
    Grown Extra base (reader.addAction action) := by
  have adds : Adds Extra fun block => { block with actions := block.actions ++ [action] } :=
    fun same => same.extraAction isExtra
  exact ⟨grown.blocks, grown.openBlocks.modifyHead adds,
    fun inGroup => ⟨(grown.group inGroup).1, adds.forall₂ (grown.group inGroup).2⟩, grown.origin⟩

/-- Outside of groups, the reader can only have grown from one outside of groups. -/
theorem group_eq_none (noGroup : reader.group = none) : base.group = none := by
  by_contra inGroup
  rw [← (grown.group inGroup).1] at inGroup
  exact inGroup noGroup

theorem openBlock {head : Head} (isExtra : Extra head.position) (label : Option String)
    (noGroup : reader.group = none) : Grown Extra base (reader.openBlock head label) where
  blocks := grown.blocks
  openBlocks := .fresh isExtra (.body rfl .nil .nil .nil) grown.openBlocks
  group := fun inGroup => absurd (grown.group_eq_none noGroup) inGroup
  origin := by simp [Reader.openBlock, Mode.origin]

theorem addBlock {block : Block} (isExtra : Extra block.position)
    (body : BlockGrows Extra block.emptied block) : Grown Extra base (reader.addBlock block) := by
  have adds : Adds Extra fun parent => { parent with blocks := parent.blocks ++ [block] } :=
    fun same => same.extraBlock isExtra body
  have opened := grown.openBlocks.modifyHead adds
  have openedInGroup (inGroup : base.group ≠ none) := adds.forall₂ (grown.group inGroup).2
  have group (inGroup : base.group ≠ none) := (grown.group inGroup).1
  unfold Reader.addBlock
  split
  · next none =>
      rw [none] at opened openedInGroup
      exact ⟨grown.blocks.snocExtra isExtra body, by rw [none]; exact opened,
        fun inGroup => ⟨group inGroup, by rw [none]; exact openedInGroup inGroup⟩, grown.origin⟩
  · next parent outer inside =>
      rw [inside] at opened openedInGroup
      exact ⟨grown.blocks, opened, fun inGroup => ⟨group inGroup, openedInGroup inGroup⟩,
        grown.origin⟩

/-- A closing brace that leaves the reader inside of the block of `base` closes a block or group
that has been opened since, or it is stray. -/
theorem close (token : Token) (room : base.level < reader.level ∨ reader.level = 0) :
    Grown Extra base (reader.close token) := by
  cases group : reader.group with
  | some position =>
      have noGroup : base.group = none := by
        by_contra inGroup
        obtain ⟨sameGroup, blocks⟩ := grown.group inGroup
        have levels : reader.level = base.level := by
          rw [Reader.level, Reader.level, sameGroup, blocks.length_eq]
        have inside : reader.level ≠ 0 := by simp [Reader.level, group]
        omega
      rw [reader.close_of_group token group]
      exact ⟨grown.blocks, grown.openBlocks, absurd noGroup, by simp [Mode.origin]⟩
  | none =>
      cases opened : reader.openBlocks with
      | nil =>
          rw [reader.close_of_top token group opened]
          exact ((grown.absorb token).report _ _).enter _ (by simp [Mode.origin])
      | cons block outer =>
          have stack := grown.openBlocks
          have noGroup := grown.group_eq_none group
          rw [reader.close_of_block token group opened, Reader.closeBlock_eq]
          rw [opened] at stack
          cases stack with
          | same blocks =>
              have lengths := blocks.length_eq
              simp [Reader.level, group, noGroup, opened, lengths] at room
          | fresh isExtra body outerGrown =>
              have outside : Grown Extra base
                  { (reader.absorb token).release with openBlocks := outer, mode := .statementEnd } :=
                ⟨grown.blocks, outerGrown, absurd noGroup, by simp [Mode.origin]⟩
              exact outside.addBlock isExtra (body.trailing [] _)

/-! ## Steps -/

variable (token : Token) (atToken : Extra token.position)

include atToken

theorem begin (name : String) : Grown Extra base (reader.begin name token) := by
  unfold Reader.begin
  dsimp only
  split
  · exact (grown.absorb token).release.enter _ (by simpa [Mode.origin, Reader.head] using atToken)
  · exact (grown.absorb token).release.enter _ (by simpa [Mode.origin, Reader.head] using atToken)
  · exact (grown.absorb token).enter _ (by simpa [Mode.origin] using atToken)

theorem stepStatement
    (room : token.kind = .rightBrace → base.level < reader.level ∨ reader.level = 0) :
    Grown Extra base (reader.stepStatement token) := by
  unfold Reader.stepStatement
  split
  · exact (grown.absorb token).enter _ (by simp [Mode.origin])
  · next closes => exact grown.close token (room closes)
  · exact grown.begin token atToken _
  · exact ((grown.expected _ token).absorb token).enter _ (by simp [Mode.origin])

theorem stepSkipping (brackets : List Bracket)
    (room : token.kind = .rightBrace → .curly ∉ brackets →
      base.level < reader.level ∨ reader.level = 0) :
    Grown Extra base (reader.stepSkipping brackets token) := by
  have skip (brackets : List Bracket) :
      Grown Extra base ((reader.absorb token).enter (.skipping brackets)) :=
    (grown.absorb token).enter _ (by simp [Mode.origin])
  unfold Reader.stepSkipping
  dsimp only
  split
  · next isBreak =>
      split
      · exact grown.stepStatement token atToken (by simp [isBreak])
      · exact skip _
  · exact skip _
  · exact skip _
  · next closes =>
      split
      · exact skip _
      · next absent => exact grown.stepStatement token atToken fun _ => room closes absent
  · split <;> exact skip _
  · exact skip _

theorem fail (expectation : Expectation) (brackets : List Bracket)
    (room : token.kind = .rightBrace → .curly ∉ brackets →
      base.level < reader.level ∨ reader.level = 0) :
    Grown Extra base (reader.fail expectation brackets token) :=
  (grown.expected expectation token).stepSkipping token atToken brackets (by simpa using room)

theorem stepStatementEnd
    (room : token.kind = .rightBrace → base.level < reader.level ∨ reader.level = 0) :
    Grown Extra base (reader.stepStatementEnd token) := by
  unfold Reader.stepStatementEnd
  split
  · exact grown.stepStatement token atToken room
  · exact grown.stepStatement token atToken room
  · exact grown.fail token atToken _ _ fun closes _ => room closes

theorem stepAttributeEnd {attr : Attribute} (atAttribute : Extra attr.position)
    (room : token.kind = .rightBrace → base.level < reader.level ∨ reader.level = 0) :
    Grown Extra base (reader.stepAttributeEnd attr token) := by
  rw [Reader.stepAttributeEnd_eq]
  refine Grown.stepStatementEnd (grown.addAttribute ?_) _ ?_ ?_
  · exact atAttribute
  · rw [Reader.position_lineComment]
    exact atToken
  · rw [Reader.kind_lineComment, Reader.level_addAttribute]
    exact room

theorem stepActionEnd {action : Action} (atAction : Extra action.position)
    (room : token.kind = .rightBrace → base.level < reader.level ∨ reader.level = 0) :
    Grown Extra base (reader.stepActionEnd action token) := by
  rw [Reader.stepActionEnd_eq]
  refine Grown.stepStatementEnd (grown.addAction ?_) _ ?_ ?_
  · exact atAction
  · rw [Reader.position_lineComment]
    exact atToken
  · rw [Reader.kind_lineComment, Reader.level_addAction]
    exact room

theorem stepValue {head : Head} (atHead : Extra head.position) (outer : List OpenValue)
    (room : token.kind = .rightBrace → .curly ∉ outer.map OpenValue.bracket →
      base.level < reader.level ∨ reader.level = 0) :
    Grown Extra base (reader.stepValue head outer token) := by
  have absorbed := grown.absorb token
  refine reader.stepValue_cases head token ?_ ?_ outer (grown.fail token atToken _ _ room)
  · intro place
    exact absorbed.enter _ (by simpa [Mode.origin] using atHead)
  · intro value
    exact absorbed.enter _ (by simpa [Mode.origin] using atHead)

theorem stepPlace {head : Head} (atHead : Extra head.position) (place : ValuePlace)
    (room : token.kind = .rightBrace → .curly ∉ place.brackets →
      base.level < reader.level ∨ reader.level = 0) :
    Grown Extra base (reader.stepPlace head place token) := by
  have absorbed := grown.absorb token
  refine reader.stepPlace_cases head token ?_ ?_ place fun _ =>
    grown.fail token atToken _ _ room
  · intro place
    exact absorbed.enter _ (by simpa [Mode.origin] using atHead)
  · intro value
    exact absorbed.enter _ (by simpa [Mode.origin] using atHead)

theorem stepNamed (name : String) {position : Position} (atName : Extra position)
    (noGroup : reader.group = none)
    (room : token.kind = .rightBrace → base.level < reader.level ∨ reader.level = 0) :
    Grown Extra base (reader.stepNamed name position token) := by
  have taken := grown.release.absorb token
  unfold Reader.stepNamed
  dsimp only
  split
  · exact taken.enter _ (by simpa [Mode.origin, Reader.head] using atName)
  · exact taken.enter _ (by simpa [Mode.origin, Reader.head] using atName)
  · split
    · exact ⟨grown.blocks, grown.openBlocks, absurd (grown.group_eq_none noGroup),
        by simp [Mode.origin]⟩
    · exact taken.openBlock atName none noGroup
  · split <;> exact taken.enter _ (by simpa [Mode.origin, Reader.head] using atName)
  · split <;> exact taken.enter _ (by simpa [Mode.origin, Reader.head] using atName)
  · exact grown.fail token atToken _ _ fun closes _ => room closes

/-- A step at a token of the line only adds what is at positions of the line. -/
theorem step (outside : reader.HeadsOutside)
    (room : token.kind = .rightBrace → .curly ∉ reader.mode.brackets →
      base.level < reader.level ∨ reader.level = 0) :
    Grown Extra base (reader.step token) := by
  have absorbed := grown.absorb token
  have origin := grown.origin
  unfold Reader.step
  cases mode : reader.mode with
  | statement =>
      exact grown.stepStatement token atToken fun closes => room closes (by simp [mode, Mode.brackets])
  | statementEnd =>
      exact grown.stepStatementEnd token atToken fun closes =>
        room closes (by simp [mode, Mode.brackets])
  | skipping brackets =>
      exact grown.stepSkipping token atToken brackets (by simpa [mode, Mode.brackets] using room)
  | header head =>
      have noGroup := outside (by rw [mode]; rfl)
      rw [mode] at origin room
      simp only [Reader.stepHeader]
      split
      · exact absorbed.enter _ origin
      · exact absorbed.openBlock (origin _ rfl) none noGroup
      · exact grown.fail token atToken _ _ room
  | named name position =>
      have noGroup := outside (by rw [mode]; rfl)
      rw [mode] at origin room
      exact grown.stepNamed token atToken name (origin _ rfl) noGroup fun closes =>
        room closes (by simp [Mode.brackets])
  | labelled head label =>
      have noGroup := outside (by rw [mode]; rfl)
      rw [mode] at origin room
      simp only [Reader.stepLabelled]
      split
      · exact absorbed.openBlock (origin _ rfl) _ noGroup
      · exact absorbed.enter _ origin
      · exact grown.fail token atToken _ _ room
  | actionKey head =>
      rw [mode] at origin room
      simp only [Reader.stepActionKey]
      split
      · exact grown.release.enter _ (by simpa [Mode.origin] using atToken)
      · exact grown.stepValue token atToken (origin _ rfl) [] room
  | value head place =>
      rw [mode] at origin room
      exact grown.stepPlace token atToken (origin _ rfl) place room
  | attributeEnd attr =>
      rw [mode] at origin room
      exact grown.stepAttributeEnd token atToken (origin _ rfl) fun closes =>
        room closes (by simp [Mode.brackets])
  | actionTarget head =>
      rw [mode] at origin room
      simp only [Reader.stepActionTarget]
      split
      · exact absorbed.enter _ origin
      · exact absorbed.enter _ origin
      · exact grown.fail token atToken _ _ room
  | actionArrow head target =>
      rw [mode] at origin room
      simp only [Reader.stepActionArrow]
      split
      · exact absorbed.enter _ origin
      · exact grown.fail token atToken _ _ room
  | actionHandler head target =>
      rw [mode] at origin room
      simp only [Reader.stepActionHandler]
      split
      · exact absorbed.enter _ origin
      · exact absorbed.enter _ origin
      · exact grown.fail token atToken _ _ room
  | actionEnd action =>
      rw [mode] at origin room
      exact grown.stepActionEnd token atToken (origin _ rfl) fun closes =>
        room closes (by simp [Mode.brackets])

end Grown

/-! ## Lines -/

/-- A closing brace behind which the level is at least `base` did not close that level. -/
theorem Reader.room_of_level_le {reader : Reader} {token : Token} {base : Nat}
    (outside : reader.HeadsOutside) (kept : base ≤ (reader.step token).level)
    (closes : token.kind = .rightBrace) (absent : .curly ∉ reader.mode.brackets) :
    base < reader.level ∨ reader.level = 0 := by
  have stepped := reader.bracketStep_step outside token
  rw [closes] at stepped
  obtain ⟨member, -⟩ | ⟨-, after⟩ := stepped
  · exact absurd member absent
  · have level : (reader.step token).level = reader.level - 1 := congrArg Prod.snd after
    omega

/-- Along a line with nested brackets, a reader that misses no brace, or began outside of all
blocks, only adds what is at positions of the line, and keeps the levels right. -/
theorem Grown.run {base reader : Reader} {opened others : List Bracket} {tokens : List Token}
    (grown : Grown Extra base reader) (outside : reader.HeadsOutside)
    (atTokens : ∀ token ∈ tokens, Extra token.position)
    (levelled : Levelled base.level opened reader.shape)
    (nests : nesting opened tokens = some others)
    (counted : base.level = 0 ∨ reader.missesBrace tokens = false) :
    Grown Extra base (reader.run tokens) ∧
      Levelled base.level others (reader.run tokens).shape := by
  induction tokens generalizing reader opened with
  | nil =>
      obtain rfl := Option.some.inj nests
      exact ⟨grown, levelled⟩
  | cons token tokens inductionHypothesis =>
      obtain ⟨middle, first, rest⟩ := nesting_cons_eq_some.1 nests
      rw [List.forall_mem_cons] at atTokens
      rw [Reader.missesBrace, Bool.or_eq_false_iff, decide_eq_false_iff_not] at counted
      have stepped := Reader.levelled_step outside levelled first fun brace between =>
        counted.resolve_right fun noneMissed => noneMissed.1 ⟨brace, between⟩
      exact inductionHypothesis
        (grown.step token atTokens.1 outside (Reader.room_of_level_le outside stepped.base_le))
        (outside.step token) atTokens.2 stepped rest (counted.imp_right And.right)

/-- Back at its level, a reader waits for a statement in the same block or group as before. -/
theorem Grown.openBlocks_of_level {base reader : Reader} (grown : Grown Extra base reader)
    (level : reader.level = base.level) :
    reader.group = base.group ∧
      List.Forall₂ (BlockGrows Extra) base.openBlocks reader.openBlocks := by
  cases group : base.group with
  | some position =>
      rw [← group]
      exact grown.group (by simp [group])
  | none =>
      have lengths := grown.openBlocks.length_le
      rw [Reader.level, Reader.level, group] at level
      cases readerGroup : reader.group with
      | some position => simp [readerGroup] at level; omega
      | none =>
          rw [readerGroup] at level
          exact ⟨rfl, grown.openBlocks.forall₂ (by simpa using level)⟩

end ServiceDef
