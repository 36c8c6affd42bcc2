import ServiceDef.Proofs.Reader.Operations

/-!
# Brackets and levels of a reader

A reader keeps count of the braces around it in two ways. The brackets of a value, or of what is
skipped, stand in its mode; the open blocks and the open group make up its level.
`Reader.bracketStep_step` says once and for all what a token does to the two.

An opening bracket between two statements is consumed without being kept count of. All other
opening brackets are counted, and a closing brace always takes the innermost brace away.
-/

namespace ServiceDef

/-- Whether the brace of a block or group can come next. -/
def Mode.isHead : Mode → Bool
  | .header _ | .named _ _ | .labelled _ _ => true
  | _ => false

/-- The brackets that are open in the current statement, innermost first. -/
def Mode.brackets : Mode → List Bracket
  | .skipping brackets => brackets
  | .value _ place => place.brackets
  | _ => []

namespace Reader

/-- The number of blocks and groups that are open. -/
def level (reader : Reader) : Nat :=
  reader.openBlocks.length + reader.group.toList.length

/-- The open brackets of the statement and the level around it. -/
def shape (reader : Reader) : List Bracket × Nat :=
  (reader.mode.brackets, reader.level)

end Reader

/-- What a token does to open brackets and the level around them. Between two statements, `ready`
holds, and opening brackets are not counted. -/
def BracketStep (ready : Prop) (kind : TokenKind) (before after : List Bracket × Nat) : Prop :=
  match kind with
  | .leftBrace =>
    (ready ∧ after = before) ∨
      (¬ ready ∧ (after = (.curly :: before.1, before.2) ∨
        (before.1 = [] ∧ after = ([], before.2 + 1))))
  | .leftBracket =>
    (ready ∧ after = before) ∨ (¬ ready ∧ after = (.square :: before.1, before.2))
  | .rightBrace =>
    (.curly ∈ before.1 ∧ after = ((before.1.dropWhile (· ≠ .curly)).tail, before.2)) ∨
      (.curly ∉ before.1 ∧ after = ([], before.2 - 1))
  | .rightBracket =>
    (.square ∈ before.1 ∧ after = ((before.1.dropWhile (· ≠ .square)).tail, before.2)) ∨
      (.square ∉ before.1 ∧ after = before)
  | _ => after = before

namespace Reader

variable (reader : Reader)

/-! ## Heads of statements -/

/-- Groups hold no blocks and no other groups: in front of the brace of one, no group is open. -/
def HeadsOutside (reader : Reader) : Prop :=
  reader.mode.isHead = true → reader.group = none

theorem headsOutside_enter {mode : Mode} (plain : mode.isHead = false) :
    (reader.enter mode).HeadsOutside := by
  intro isHead
  rw [show (reader.enter mode).mode = mode from rfl, plain] at isHead
  cases isHead

theorem headsOutside_begin (name : String) (token : Token) :
    (reader.begin name token).HeadsOutside := by
  intro isHead
  cases group : reader.group with
  | some position =>
      rw [begin_of_group reader name token group] at isHead
      cases isHead
  | none =>
      cases opened : reader.openBlocks with
      | nil =>
          rw [begin_of_top reader name token group opened]
          exact group
      | cons block outer =>
          rw [begin_of_block reader name token group opened]
          exact group

theorem headsOutside_close (token : Token) : (reader.close token).HeadsOutside := by
  intro isHead
  cases group : reader.group with
  | some position => rw [close_of_group reader token group]
  | none =>
      cases opened : reader.openBlocks with
      | nil =>
          rw [close_of_top reader token group opened] at isHead
          cases isHead
      | cons block outer =>
          rw [close_of_block reader token group opened, closeBlock_eq, mode_addBlock] at isHead
          cases isHead

theorem headsOutside_stepStatement (token : Token) : (reader.stepStatement token).HeadsOutside := by
  unfold stepStatement
  split
  · exact headsOutside_enter _ rfl
  · exact reader.headsOutside_close token
  · exact reader.headsOutside_begin _ token
  · exact headsOutside_enter _ rfl

theorem headsOutside_stepSkipping (brackets : List Bracket) (token : Token) :
    (reader.stepSkipping brackets token).HeadsOutside := by
  have statement := reader.headsOutside_stepStatement token
  unfold stepSkipping
  split
  · split
    · exact statement
    · exact headsOutside_enter _ rfl
  · exact headsOutside_enter _ rfl
  · exact headsOutside_enter _ rfl
  · split
    · exact headsOutside_enter _ rfl
    · exact statement
  · split <;> exact headsOutside_enter _ rfl
  · exact headsOutside_enter _ rfl

theorem headsOutside_fail (expectation : Expectation) (brackets : List Bracket) (token : Token) :
    (reader.fail expectation brackets token).HeadsOutside :=
  headsOutside_stepSkipping _ brackets token

theorem headsOutside_stepStatementEnd (token : Token) :
    (reader.stepStatementEnd token).HeadsOutside := by
  unfold stepStatementEnd
  split
  · exact reader.headsOutside_stepStatement token
  · exact reader.headsOutside_stepStatement token
  · exact reader.headsOutside_fail _ _ token

theorem headsOutside_stepValue (head : Head) (outer : List OpenValue) (token : Token) :
    (reader.stepValue head outer token).HeadsOutside := by
  refine reader.stepValue_cases head token ?_ ?_ outer (reader.headsOutside_fail _ _ token)
  · intro place
    exact headsOutside_enter _ rfl
  · intro value
    exact headsOutside_enter _ rfl

theorem headsOutside_stepPlace (head : Head) (place : ValuePlace) (token : Token) :
    (reader.stepPlace head place token).HeadsOutside := by
  refine reader.stepPlace_cases head token ?_ ?_ place fun _ =>
    reader.headsOutside_fail _ _ token
  · intro place
    exact headsOutside_enter _ rfl
  · intro value
    exact headsOutside_enter _ rfl

/-- Every step keeps the heads of statements outside of groups. -/
theorem HeadsOutside.step {reader : Reader} (outside : reader.HeadsOutside) (token : Token) :
    (reader.step token).HeadsOutside := by
  have fail (expectation : Expectation) := reader.headsOutside_fail expectation [] token
  unfold Reader.step
  cases mode : reader.mode with
  | statement => exact reader.headsOutside_stepStatement token
  | statementEnd => exact reader.headsOutside_stepStatementEnd token
  | skipping brackets => exact reader.headsOutside_stepSkipping brackets token
  | header head =>
      have group := outside (by rw [mode]; rfl)
      simp only [stepHeader]
      split
      · exact fun _ => group
      · exact fun _ => group
      · exact fail _
  | named name position =>
      have group := outside (by rw [mode]; rfl)
      simp only [stepNamed]
      split
      · exact fun _ => group
      · exact fun _ => group
      · split
        · exact headsOutside_enter { reader.absorb token with group := some position } rfl
        · exact fun _ => group
      · split <;> exact fun _ => group
      · split <;> exact fun _ => group
      · exact fail _
  | labelled head label =>
      have group := outside (by rw [mode]; rfl)
      simp only [stepLabelled]
      split
      · exact fun _ => group
      · exact fun _ => group
      · exact fail _
  | actionKey head =>
      simp only [stepActionKey]
      split
      · exact headsOutside_enter _ rfl
      · exact reader.headsOutside_stepValue head [] token
  | value head place => exact reader.headsOutside_stepPlace head place token
  | attributeEnd attr => exact headsOutside_stepStatementEnd _ _
  | actionTarget head =>
      simp only [stepActionTarget]
      split
      · exact headsOutside_enter _ rfl
      · exact headsOutside_enter _ rfl
      · exact fail _
  | actionArrow head target =>
      simp only [stepActionArrow]
      split
      · exact headsOutside_enter _ rfl
      · exact fail _
  | actionHandler head target =>
      simp only [stepActionHandler]
      split
      · exact headsOutside_enter _ rfl
      · exact headsOutside_enter _ rfl
      · exact fail _
  | actionEnd action => exact headsOutside_stepStatementEnd _ _

theorem HeadsOutside.run {reader : Reader} (outside : reader.HeadsOutside) (tokens : List Token) :
    (reader.run tokens).HeadsOutside := by
  induction tokens generalizing reader with
  | nil => exact outside
  | cons token tokens inductionHypothesis => exact inductionHypothesis (outside.step token)

/-! ## Levels -/

/-- The level is zero outside of all blocks and groups. -/
theorem level_eq_zero_iff : reader.level = 0 ↔ reader.openBlocks = [] ∧ reader.group = none := by
  cases group : reader.group <;> simp [level, group]

@[simp] theorem shape_enter (mode : Mode) :
    (reader.enter mode).shape = (mode.brackets, reader.level) := rfl

@[simp] theorem level_absorb (token : Token) : (reader.absorb token).level = reader.level := rfl

@[simp] theorem level_expected (expectation : Expectation) (token : Token) :
    (reader.expected expectation token).level = reader.level := by
  obtain ⟨found, same⟩ := reader.expected_eq expectation token
  rw [same]
  rfl

@[simp] theorem level_addAttribute (attr : Attribute) :
    (reader.addAttribute attr).level = reader.level := by
  simp [level, addAttribute]

@[simp] theorem level_addAction (action : Action) :
    (reader.addAction action).level = reader.level := by
  simp [level, addAction]

@[simp] theorem shape_openBlock (head : Head) (label : Option String) :
    (reader.openBlock head label).shape = ([], reader.level + 1) := by
  simp [shape, openBlock, level, Mode.brackets]
  omega

@[simp] theorem level_addBlock (block : Block) : (reader.addBlock block).level = reader.level := by
  unfold addBlock
  split <;> simp_all [level]

/-! ## Between statements -/

theorem shape_begin (name : String) (token : Token) :
    (reader.begin name token).shape = ([], reader.level) := by
  unfold begin
  dsimp only
  split <;> rfl

/-- A closing brace leaves the innermost block or group. -/
theorem shape_close (token : Token) : (reader.close token).shape = ([], reader.level - 1) := by
  cases group : reader.group with
  | some position =>
      rw [close_of_group reader token group]
      simp [shape, Mode.brackets, level, group, absorb]
  | none =>
      cases opened : reader.openBlocks with
      | nil =>
          rw [close_of_top reader token group opened]
          simp [shape, Mode.brackets, level, group, opened, absorb, report, enter]
      | cons block outer =>
          rw [close_of_block reader token group opened, closeBlock_eq, shape, level_addBlock,
            mode_addBlock]
          simp [level, release, absorb, group, opened, Mode.brackets]

/-- Between two statements, only a closing brace changes the level. -/
theorem shape_stepStatement (token : Token) :
    (reader.stepStatement token).shape =
      ([], if token.kind = .rightBrace then reader.level - 1 else reader.level) := by
  unfold stepStatement
  split
  · next kind => simp [kind, Mode.brackets]
  · next kind => simp [kind, shape_close]
  · next name kind => simp [kind, shape_begin]
  · next other _ => rw [if_neg other]; simp [Mode.brackets]

/-! ## Broken statements -/

/-- What a token does to the brackets of a statement that is skipped. -/
theorem bracketStep_stepSkipping (brackets : List Bracket) (token : Token) :
    BracketStep False token.kind (brackets, reader.level)
      (reader.stepSkipping brackets token).shape := by
  have statement := reader.shape_stepStatement token
  unfold stepSkipping
  split
  · next kind =>
      rw [kind] at statement ⊢
      split
      · next empty =>
          rw [List.isEmpty_iff] at empty
          rw [statement, empty]
          rfl
      · rfl
  · next kind =>
      rw [kind]
      exact .inr ⟨not_false, .inl rfl⟩
  · next kind =>
      rw [kind]
      exact .inr ⟨not_false, rfl⟩
  · next kind =>
      rw [kind] at statement ⊢
      split
      · next member => exact .inl ⟨member, rfl⟩
      · next absent => exact .inr ⟨absent, statement⟩
  · next kind =>
      rw [kind]
      split
      · next member => exact .inl ⟨member, rfl⟩
      · next absent => exact .inr ⟨absent, rfl⟩
  · next noBreak noBrace noBracket noClose noClose' =>
      cases kind : token.kind with
      | newline => exact absurd kind noBreak
      | leftBrace => exact absurd kind noBrace
      | leftBracket => exact absurd kind noBracket
      | rightBrace => exact absurd kind noClose
      | rightBracket => exact absurd kind noClose'
      | _ => rfl

theorem bracketStep_fail (expectation : Expectation) (brackets : List Bracket) (token : Token) :
    BracketStep False token.kind (brackets, reader.level)
      (reader.fail expectation brackets token).shape := by
  have skipped := (reader.expected expectation token).bracketStep_stepSkipping brackets token
  rw [level_expected] at skipped
  exact skipped

/-- The line of a complete statement goes on, or ends, or its block does. -/
theorem bracketStep_stepStatementEnd (token : Token) :
    BracketStep False token.kind ([], reader.level) (reader.stepStatementEnd token).shape := by
  have statement := reader.shape_stepStatement token
  unfold stepStatementEnd
  split
  · next kind =>
      rw [kind] at statement ⊢
      exact statement
  · next kind =>
      rw [kind] at statement ⊢
      exact .inr ⟨List.not_mem_nil, statement⟩
  · exact reader.bracketStep_fail _ _ token

/-! ## Values -/

theorem shape_complete (head : Head) (outer : List OpenValue) (value : Value) :
    (reader.complete head outer value).shape = (outer.map OpenValue.bracket, reader.level) := by
  unfold complete
  split <;> rfl

theorem bracketStep_stepValue (head : Head) (outer : List OpenValue) (token : Token) :
    BracketStep False token.kind (outer.map OpenValue.bracket, reader.level)
      (reader.stepValue head outer token).shape := by
  unfold stepValue
  split
  · next kind => rw [kind]; exact shape_complete _ head outer _
  · next kind => rw [kind]; exact shape_complete _ head outer _
  · next kind => rw [kind]; exact shape_complete _ head outer _
  · next kind => rw [kind]; exact .inr ⟨not_false, rfl⟩
  · next kind => rw [kind]; exact .inr ⟨not_false, .inl rfl⟩
  · exact reader.bracketStep_fail _ _ token

theorem bracketStep_stepPlace (head : Head) (place : ValuePlace) (token : Token) :
    BracketStep False token.kind (place.brackets, reader.level)
      (reader.stepPlace head place token).shape := by
  have wrong := reader.bracketStep_fail place.expectation place.brackets token
  -- A list or map that is complete closes the innermost bracket, which is its own.
  have listEnd (items : List Value) (outer : List OpenValue) :
      BracketStep False .rightBracket (.square :: outer.map OpenValue.bracket, reader.level)
        ((reader.absorb token).complete head outer (.list items)).shape :=
    .inl ⟨List.mem_cons_self, shape_complete _ head outer _⟩
  have mapEnd (entries : List (Entry Value)) (outer : List OpenValue) :
      BracketStep False .rightBrace (.curly :: outer.map OpenValue.bracket, reader.level)
        ((reader.absorb token).complete head outer (.map entries)).shape :=
    .inl ⟨List.mem_cons_self, shape_complete _ head outer _⟩
  cases place with
  | value outer => exact reader.bracketStep_stepValue head outer token
  | item items outer =>
      simp only [stepPlace]
      split
      · next kind => rw [kind]; rfl
      · next kind => rw [kind]; exact listEnd items outer
      · exact reader.bracketStep_stepValue head (.list items :: outer) token
  | itemEnd items outer =>
      simp only [stepPlace]
      split
      · next kind => rw [kind]; rfl
      · next kind => rw [kind]; rfl
      · next kind => rw [kind]; exact listEnd items outer
      · exact wrong
  | key entries outer =>
      simp only [stepPlace]
      split
      · next kind => rw [kind]; rfl
      · next kind => rw [kind]; rfl
      · next kind => rw [kind]; exact mapEnd entries outer
      · next kind => rw [kind]; rfl
      · exact wrong
  | keyEnd entries name position outer =>
      simp only [stepPlace]
      split
      · next kind => rw [kind]; rfl
      · next kind => rw [kind]; rfl
      · exact wrong
  | entryEnd entries outer =>
      simp only [stepPlace]
      split
      · next kind => rw [kind]; rfl
      · next kind => rw [kind]; rfl
      · next kind => rw [kind]; exact mapEnd entries outer
      · exact wrong

/-! ## Statements -/

theorem bracketStep_stepHeader (head : Head) (token : Token) :
    BracketStep False token.kind ([], reader.level) (reader.stepHeader head token).shape := by
  unfold stepHeader
  split
  · next kind => rw [kind]; rfl
  · next kind =>
      rw [kind, shape_openBlock]
      exact .inr ⟨not_false, .inr ⟨rfl, rfl⟩⟩
  · exact reader.bracketStep_fail _ _ token

/-- The token behind the first identifier of a statement. The brace of a group opens a level, as
that of a block does. -/
theorem bracketStep_stepNamed (name : String) (position : Position) (token : Token)
    (noGroup : reader.group = none) :
    BracketStep False token.kind ([], reader.level)
      (reader.stepNamed name position token).shape := by
  unfold stepNamed
  split
  · next kind => rw [kind]; rfl
  · next kind => rw [kind]; rfl
  · next kind =>
      rw [kind]
      refine .inr ⟨not_false, .inr ⟨rfl, ?_⟩⟩
      split
      · simp [shape, Mode.brackets, level, absorb, noGroup]
      · rw [shape_openBlock]
        rfl
  · next kind =>
      rw [kind]
      split <;> rfl
  · next kind =>
      rw [kind]
      split <;> rfl
  · exact reader.bracketStep_fail _ _ token

theorem bracketStep_stepLabelled (head : Head) (label : String) (token : Token) :
    BracketStep False token.kind ([], reader.level)
      (reader.stepLabelled head label token).shape := by
  unfold stepLabelled
  split
  · next kind =>
      rw [kind, shape_openBlock]
      exact .inr ⟨not_false, .inr ⟨rfl, rfl⟩⟩
  · next kind _ => rw [kind]; rfl
  · exact reader.bracketStep_fail _ _ token

theorem bracketStep_stepActionKey (head : Head) (token : Token) :
    BracketStep False token.kind ([], reader.level) (reader.stepActionKey head token).shape := by
  unfold stepActionKey
  split
  · next kind => rw [kind]; rfl
  · exact reader.bracketStep_stepValue head [] token

theorem bracketStep_stepActionTarget (head : Head) (token : Token) :
    BracketStep False token.kind ([], reader.level) (reader.stepActionTarget head token).shape := by
  unfold stepActionTarget
  split
  · next kind => rw [kind]; rfl
  · next kind => rw [kind]; rfl
  · exact reader.bracketStep_fail _ _ token

theorem bracketStep_stepActionArrow (head : Head) (target : String) (token : Token) :
    BracketStep False token.kind ([], reader.level)
      (reader.stepActionArrow head target token).shape := by
  unfold stepActionArrow
  split
  · next kind => rw [kind]; rfl
  · exact reader.bracketStep_fail _ _ token

theorem bracketStep_stepActionHandler (head : Head) (target : String) (token : Token) :
    BracketStep False token.kind ([], reader.level)
      (reader.stepActionHandler head target token).shape := by
  unfold stepActionHandler
  split
  · next kind => rw [kind]; rfl
  · next kind => rw [kind]; rfl
  · exact reader.bracketStep_fail _ _ token

theorem bracketStep_stepAttributeEnd (attr : Attribute) (token : Token) :
    BracketStep False token.kind ([], reader.level) (reader.stepAttributeEnd attr token).shape := by
  rw [stepAttributeEnd_eq, ← kind_lineComment token]
  have ended := bracketStep_stepStatementEnd
    (reader.addAttribute { attr with trailingComment := (lineComment token).1 })
    (lineComment token).2
  rw [level_addAttribute] at ended
  exact ended

theorem bracketStep_stepActionEnd (action : Action) (token : Token) :
    BracketStep False token.kind ([], reader.level) (reader.stepActionEnd action token).shape := by
  rw [stepActionEnd_eq, ← kind_lineComment token]
  have ended := bracketStep_stepStatementEnd
    (reader.addAction { action with trailingComment := (lineComment token).1 })
    (lineComment token).2
  rw [level_addAction] at ended
  exact ended

/-- Between two statements, an opening bracket is consumed like any other wrong token. -/
theorem bracketStep_stepStatement (token : Token) :
    BracketStep True token.kind ([], reader.level) (reader.stepStatement token).shape := by
  rw [shape_stepStatement]
  cases kind : token.kind with
  | leftBrace => exact .inl ⟨trivial, by simp⟩
  | leftBracket => exact .inl ⟨trivial, by simp⟩
  | rightBrace => exact .inr ⟨List.not_mem_nil, by simp⟩
  | rightBracket => exact .inr ⟨List.not_mem_nil, by simp⟩
  | _ => simp [BracketStep]

/-- What a token does to the open brackets and the level of a reader. -/
theorem bracketStep_step (outside : reader.HeadsOutside) (token : Token) :
    BracketStep (reader.mode = .statement) token.kind reader.shape (reader.step token).shape := by
  unfold step
  cases mode : reader.mode with
  | statement =>
      simpa [shape, mode, Mode.brackets] using reader.bracketStep_stepStatement token
  | statementEnd =>
      simpa [shape, mode, Mode.brackets] using reader.bracketStep_stepStatementEnd token
  | skipping brackets =>
      simpa [shape, mode, Mode.brackets] using reader.bracketStep_stepSkipping brackets token
  | header head =>
      simpa [shape, mode, Mode.brackets] using reader.bracketStep_stepHeader head token
  | named name position =>
      simpa [shape, mode, Mode.brackets] using
        reader.bracketStep_stepNamed name position token (outside (by rw [mode]; rfl))
  | labelled head label =>
      simpa [shape, mode, Mode.brackets] using reader.bracketStep_stepLabelled head label token
  | actionKey head =>
      simpa [shape, mode, Mode.brackets] using reader.bracketStep_stepActionKey head token
  | value head place =>
      simpa [shape, mode, Mode.brackets] using reader.bracketStep_stepPlace head place token
  | attributeEnd attr =>
      simpa [shape, mode, Mode.brackets] using reader.bracketStep_stepAttributeEnd attr token
  | actionTarget head =>
      simpa [shape, mode, Mode.brackets] using reader.bracketStep_stepActionTarget head token
  | actionArrow head target =>
      simpa [shape, mode, Mode.brackets] using
        reader.bracketStep_stepActionArrow head target token
  | actionHandler head target =>
      simpa [shape, mode, Mode.brackets] using
        reader.bracketStep_stepActionHandler head target token
  | actionEnd action =>
      simpa [shape, mode, Mode.brackets] using reader.bracketStep_stepActionEnd action token

end Reader

end ServiceDef
