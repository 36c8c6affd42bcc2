import Mathlib.Data.List.Perm.Subperm
import ServiceDef.Proofs.Reader.Anchors
import ServiceDef.Proofs.Reader.Rooted
import ServiceDef.Proofs.Scanning.Stream

/-!
# What is open, and how often a token is reported

The statement, the group and the blocks that a reader is inside of all start at tokens that it has
read. A step opens something new only at an identifier at which it reports nothing
(`Reader.openings_step`), and it reports a token at most once, unless the token is a closing brace
outside of all blocks that stands in the place of an opening one (`Reader.length_step_le`).
-/

namespace ServiceDef

open scoped List

/-- How often a token may be reported when it is read: an invalid one was reported before. -/
def Token.reportable (token : Token) : Nat :=
  if token.kind.isInvalid then 0 else 1

namespace Reader

/-- The names and places of the group and the blocks that are open, innermost first. -/
def enclosing (reader : Reader) : List (String × Position) :=
  (reader.group.map (Word.actions, ·)).toList ++
    reader.openBlocks.map fun block => (block.kind, block.position)

/-- The names and places of all that has started and not ended: the current statement, and the
group and the blocks around it. -/
def openings (reader : Reader) : List (String × Position) :=
  reader.mode.start?.toList ++ reader.enclosing

/-- Outside of all blocks, the token closes a block where the brace that opens one is missing. -/
def refuses (reader : Reader) (token : Token) : Bool :=
  token.kind = .rightBrace && reader.openBlocks.isEmpty &&
    match reader.mode with
    | .header _ | .labelled _ _ => true
    | _ => false

variable (reader : Reader) (token : Token)

/-! ## What encloses a statement -/

@[simp] theorem enclosing_absorb : (reader.absorb token).enclosing = reader.enclosing := rfl

@[simp] theorem enclosing_expected (expectation : Expectation) :
    (reader.expected expectation token).enclosing = reader.enclosing := by
  obtain ⟨found, same⟩ := reader.expected_eq expectation token
  rw [same]
  rfl

/-- A change of the innermost block that keeps its name and place changes nothing around the
statement. -/
theorem enclosing_modifyHead {change : Block → Block}
    (same : ∀ block,
      ((change block).kind, (change block).position) = (block.kind, block.position)) :
    ({ reader with openBlocks := reader.openBlocks.modifyHead change } : Reader).enclosing =
      reader.enclosing := by
  cases opened : reader.openBlocks <;> simp [enclosing, opened, same]

@[simp] theorem enclosing_addAttribute (attr : Attribute) :
    (reader.addAttribute attr).enclosing = reader.enclosing :=
  reader.enclosing_modifyHead fun _ => rfl

@[simp] theorem enclosing_addAction (action : Action) :
    (reader.addAction action).enclosing = reader.enclosing :=
  reader.enclosing_modifyHead fun _ => rfl

@[simp] theorem enclosing_addBlock (block : Block) :
    (reader.addBlock block).enclosing = reader.enclosing := by
  unfold addBlock
  split
  · rfl
  · next opened => simp [enclosing, opened]

@[simp] theorem openings_enter (mode : Mode) :
    (reader.enter mode).openings = mode.start?.toList ++ reader.enclosing := rfl

/-- Inside of a statement, the statement is open and what encloses it. -/
theorem openings_of_start {opening : String × Position}
    (start : reader.mode.start? = some opening) :
    reader.openings = opening :: reader.enclosing := by
  simp [openings, start]

theorem enclosing_sublist : reader.enclosing <+ reader.openings :=
  List.sublist_append_right _ _

/-! ## What a step leaves open -/

/-- A closing brace opens nothing. -/
theorem openings_close : (reader.close token).openings <+~ reader.enclosing := by
  cases group : reader.group with
  | some position =>
      rw [reader.close_of_group token group]
      have fewer : (reader.openBlocks.map fun block => (block.kind, block.position)) <+
          reader.enclosing := List.sublist_append_right _ _
      exact fewer.subperm
  | none =>
      cases opened : reader.openBlocks with
      | nil =>
          rw [reader.close_of_top token group opened]
          exact List.Subperm.refl _
      | cons block outer =>
          rw [reader.close_of_block token group opened, closeBlock_eq]
          simp only [openings, mode_addBlock, enclosing_addBlock]
          have fewer : (outer.map fun block => (block.kind, block.position)) <+
              reader.enclosing := by
            simp [enclosing, group, opened]
          simpa [enclosing, absorb, release, group, Mode.start?] using fewer.subperm

/-- Between two statements, an identifier opens a statement and is not reported, and nothing else
opens anything. -/
theorem openings_stepStatement :
    (reader.stepStatement token).openings <+~ reader.enclosing ∨
      ∃ name, token.kind = .identifier name ∧
        (reader.stepStatement token).openings = (name, token.position) :: reader.enclosing ∧
        (reader.stepStatement token).diagnostics = reader.diagnostics := by
  unfold stepStatement
  split
  · exact .inl (List.Subperm.refl _)
  · exact .inl (reader.openings_close token)
  · next name kind =>
      refine .inr ⟨name, kind, ?_⟩
      cases group : reader.group with
      | some position =>
          rw [reader.begin_of_group name token group]
          exact ⟨rfl, rfl⟩
      | none =>
          cases opened : reader.openBlocks with
          | nil =>
              rw [reader.begin_of_top name token group opened]
              exact ⟨rfl, rfl⟩
          | cons block outer =>
              rw [reader.begin_of_block name token group opened]
              exact ⟨rfl, rfl⟩
  · refine .inl ?_
    rw [openings_enter, enclosing_absorb, enclosing_expected]
    exact List.Subperm.refl _

/-- A token that is no identifier opens nothing between two statements. -/
theorem openings_stepStatement_of_ne (other : ∀ name, token.kind ≠ .identifier name) :
    (reader.stepStatement token).openings <+~ reader.enclosing := by
  rcases reader.openings_stepStatement token with closed | ⟨name, kind, -⟩
  · exact closed
  · exact absurd kind (other name)

/-- What is skipped opens nothing. -/
theorem openings_stepSkipping (brackets : List Bracket) :
    (reader.stepSkipping brackets token).openings <+~ reader.enclosing := by
  have skipped (brackets : List Bracket) :
      ((reader.absorb token).enter (.skipping brackets)).openings <+~ reader.enclosing :=
    List.Subperm.refl _
  unfold stepSkipping
  dsimp only
  split
  · next kind =>
      split
      · exact reader.openings_stepStatement_of_ne token (by simp [kind])
      · exact skipped _
  · exact skipped _
  · exact skipped _
  · next kind =>
      split
      · exact skipped _
      · exact reader.openings_stepStatement_of_ne token (by simp [kind])
  · split <;> exact skipped _
  · exact skipped _

theorem openings_fail (expectation : Expectation) (brackets : List Bracket) :
    (reader.fail expectation brackets token).openings <+~ reader.enclosing := by
  have skipped := (reader.expected expectation token).openings_stepSkipping token brackets
  rwa [enclosing_expected] at skipped

/-- The end of a statement opens nothing. -/
theorem openings_stepStatementEnd :
    (reader.stepStatementEnd token).openings <+~ reader.enclosing := by
  unfold stepStatementEnd
  split
  · next kind => exact reader.openings_stepStatement_of_ne token (by simp [kind])
  · next kind => exact reader.openings_stepStatement_of_ne token (by simp [kind])
  · exact reader.openings_fail token _ _

/-- A statement that is given up leaves nothing but what encloses it. -/
theorem openings_fail_cons (opening : String × Position) (expectation : Expectation)
    (brackets : List Bracket) :
    (reader.fail expectation brackets token).openings <+~ opening :: reader.enclosing :=
  (reader.openings_fail token expectation brackets).cons_right opening

/-- A block takes the place of the statement that it starts as. -/
theorem openings_openBlock (head : Head) (label : Option String) :
    (reader.openBlock head label).openings <+~ (head.name, head.position) :: reader.enclosing := by
  have moved : (reader.openBlock head label).openings =
      (reader.group.map (Word.actions, ·)).toList ++ (head.name, head.position) ::
        reader.openBlocks.map fun block => (block.kind, block.position) := rfl
  rw [moved]
  exact List.perm_middle.subperm

theorem openings_stepValue (head : Head) (outer : List OpenValue) :
    (reader.stepValue head outer token).openings <+~
      (head.name, head.position) :: reader.enclosing := by
  refine reader.stepValue_cases head token
    (motive := fun after => after.openings <+~ (head.name, head.position) :: reader.enclosing)
    ?_ ?_ outer ?_
  · intro place
    exact List.Subperm.refl _
  · intro value
    exact List.Subperm.refl _
  · exact reader.openings_fail_cons token _ _ _

theorem openings_stepPlace (head : Head) (place : ValuePlace) :
    (reader.stepPlace head place token).openings <+~
      (head.name, head.position) :: reader.enclosing := by
  refine reader.stepPlace_cases head token
    (motive := fun after => after.openings <+~ (head.name, head.position) :: reader.enclosing)
    ?_ ?_ place ?_
  · intro place
    exact List.Subperm.refl _
  · intro value
    exact List.Subperm.refl _
  · intro expectation
    exact reader.openings_fail_cons token _ _ _

theorem openings_stepHeader (head : Head) :
    (reader.stepHeader head token).openings <+~
      (head.name, head.position) :: reader.enclosing := by
  unfold stepHeader
  split
  · exact List.Subperm.refl _
  · exact (reader.absorb token).openings_openBlock head none
  · exact reader.openings_fail_cons token _ _ _

theorem openings_stepLabelled (head : Head) (label : String) :
    (reader.stepLabelled head label token).openings <+~
      (head.name, head.position) :: reader.enclosing := by
  unfold stepLabelled
  split
  · exact (reader.absorb token).openings_openBlock head (some label)
  · exact List.Subperm.refl _
  · exact reader.openings_fail_cons token _ _ _

/-- The group takes the place of the identifier that it starts with. -/
theorem openings_stepNamed (name : String) (position : Position) :
    (reader.stepNamed name position token).openings <+~ (name, position) :: reader.enclosing := by
  unfold stepNamed
  dsimp only
  split
  · exact List.Subperm.refl _
  · exact List.Subperm.refl _
  · split
    · next isGroup =>
        have fewer : ((Word.actions, position) :: reader.openBlocks.map fun block =>
              (block.kind, block.position)) <+ ((name, position) :: reader.enclosing) := by
          rw [isGroup]
          exact (List.sublist_append_right _ _).cons_cons _
        exact fewer.subperm
    · exact (reader.release.absorb token).openings_openBlock (reader.head name position) none
  · split <;> exact List.Subperm.refl _
  · split <;> exact List.Subperm.refl _
  · exact reader.openings_fail_cons token _ _ _

/-- A step opens nothing, or it opens something at an identifier and reports nothing. -/
theorem openings_step :
    (reader.step token).openings <+~ reader.openings ∨
      ∃ name, token.kind = .identifier name ∧
        (reader.step token).openings <+~ (name, token.position) :: reader.openings ∧
        (reader.step token).diagnostics = reader.diagnostics := by
  have enclosed {after : Reader} (closed : after.openings <+~ reader.enclosing) :
      after.openings <+~ reader.openings :=
    closed.trans reader.enclosing_sublist.subperm
  -- In all modes but the first three, the statement is what `Mode.start?` says.
  have inside := @reader.openings_of_start
  unfold step
  cases mode : reader.mode with
  | statement =>
      have same : reader.openings = reader.enclosing := by simp [openings, mode, Mode.start?]
      rw [same]
      rcases reader.openings_stepStatement token with closed | ⟨name, kind, opened, silent⟩
      · exact .inl closed
      · exact .inr ⟨name, kind, by rw [opened], silent⟩
  | statementEnd => exact .inl (enclosed (reader.openings_stepStatementEnd token))
  | skipping brackets => exact .inl (enclosed (reader.openings_stepSkipping token brackets))
  | header head =>
      rw [inside (by rw [mode]; rfl)]
      exact .inl (reader.openings_stepHeader token head)
  | named name position =>
      rw [inside (by rw [mode]; rfl)]
      exact .inl (reader.openings_stepNamed token name position)
  | labelled head label =>
      rw [inside (by rw [mode]; rfl)]
      exact .inl (reader.openings_stepLabelled token head label)
  | actionKey head =>
      rw [inside (by rw [mode]; rfl)]
      simp only [stepActionKey]
      split
      · next method kind =>
          refine .inr ⟨method, kind, ?_, rfl⟩
          exact ((List.sublist_cons_self _ _).cons_cons _).subperm
      · exact .inl (reader.openings_stepValue token head [])
  | value head place =>
      rw [inside (by rw [mode]; rfl)]
      exact .inl (reader.openings_stepPlace token head place)
  | attributeEnd attr =>
      have ended := (reader.addAttribute
        { attr with trailingComment := (lineComment token).1 }).openings_stepStatementEnd
          (lineComment token).2
      rw [enclosing_addAttribute] at ended
      exact .inl (enclosed ended)
  | actionTarget head =>
      rw [inside (by rw [mode]; rfl)]
      simp only [stepActionTarget]
      split
      · exact .inl (List.Subperm.refl _)
      · exact .inl (List.Subperm.refl _)
      · exact .inl (reader.openings_fail_cons token _ _ _)
  | actionArrow head target =>
      rw [inside (by rw [mode]; rfl)]
      simp only [stepActionArrow]
      split
      · exact .inl (List.Subperm.refl _)
      · exact .inl (reader.openings_fail_cons token _ _ _)
  | actionHandler head target =>
      rw [inside (by rw [mode]; rfl)]
      simp only [stepActionHandler]
      split
      · exact .inl (List.Subperm.refl _)
      · exact .inl (List.Subperm.refl _)
      · exact .inl (reader.openings_fail_cons token _ _ _)
  | actionEnd action =>
      have ended := (reader.addAction
        { action with trailingComment := (lineComment token).1 }).openings_stepStatementEnd
          (lineComment token).2
      rw [enclosing_addAction] at ended
      exact .inl (enclosed ended)

/-! ## How often a token is reported -/

@[simp] theorem reportable_lineComment : (lineComment token).2.reportable = token.reportable := by
  simp [Token.reportable]

/-- Outside of all blocks, no group is open. -/
theorem Rooted.group_eq_none {reader : Reader} (rooted : reader.Rooted)
    (top : reader.openBlocks = []) : reader.group = none := by
  cases group : reader.group with
  | none => rfl
  | some position => exact absurd top (rooted.group position group)

/-- A token in the place of something else is reported once, unless it is invalid. -/
theorem length_expected (expectation : Expectation) :
    (reader.expected expectation token).diagnostics.length =
      reader.diagnostics.length + token.reportable := by
  unfold expected Token.reportable
  split
  · next text kind => simp [kind, TokenKind.isInvalid]
  · next valid =>
      have notInvalid : token.kind.isInvalid = false := by
        cases kind : token.kind <;> simp_all [TokenKind.isInvalid]
      simp [report, notInvalid]

/-- A closing brace inside of a block is not reported. -/
theorem diagnostics_close (inside : reader.openBlocks ≠ []) :
    (reader.close token).diagnostics = reader.diagnostics := by
  cases group : reader.group with
  | some position => rw [reader.close_of_group token group]; rfl
  | none =>
      obtain ⟨block, outer, opened⟩ := List.exists_cons_of_ne_nil inside
      rw [reader.close_of_block token group opened]
      cases outer <;> rfl

/-- A closing brace outside of all blocks is reported once. -/
theorem length_close_of_top (group : reader.group = none) (top : reader.openBlocks = []) :
    (reader.close token).diagnostics.length = reader.diagnostics.length + 1 := by
  rw [reader.close_of_top token group top]
  simp [report, enter, absorb]

/-- Between two statements, a token is reported at most once. -/
theorem length_stepStatement_le (rooted : reader.Rooted) :
    (reader.stepStatement token).diagnostics.length ≤
      reader.diagnostics.length + token.reportable := by
  unfold stepStatement
  split
  · exact Nat.le_add_right _ _
  · next kind =>
      have once : token.reportable = 1 := by simp [Token.reportable, kind, TokenKind.isInvalid]
      rw [once]
      by_cases top : reader.openBlocks = []
      · exact Nat.le_of_eq (reader.length_close_of_top token (rooted.group_eq_none top) top)
      · rw [reader.diagnostics_close token top]
        exact Nat.le_add_right _ _
  · next name kind =>
      have silent : (reader.begin name token).diagnostics = reader.diagnostics := by
        unfold begin
        dsimp only
        split <;> rfl
      rw [silent]
      exact Nat.le_add_right _ _
  · exact Nat.le_of_eq (reader.length_expected token _)

/-- What is skipped is not reported, unless it is a closing brace outside of all blocks. -/
theorem diagnostics_stepSkipping (brackets : List Bracket)
    (inside : token.kind = .rightBrace → reader.openBlocks ≠ []) :
    (reader.stepSkipping brackets token).diagnostics = reader.diagnostics := by
  unfold stepSkipping
  dsimp only
  split
  · next kind =>
      split
      · simp only [stepStatement, kind]
        rfl
      · rfl
  · rfl
  · rfl
  · next kind =>
      split
      · rfl
      · simp only [stepStatement, kind]
        exact reader.diagnostics_close token (inside kind)
  · split <;> rfl
  · rfl

/-- A statement is given up with one report, unless this is at a closing brace outside of all
blocks. -/
theorem length_fail (expectation : Expectation) (brackets : List Bracket)
    (inside : token.kind = .rightBrace → reader.openBlocks ≠ []) :
    (reader.fail expectation brackets token).diagnostics.length =
      reader.diagnostics.length + token.reportable := by
  have same : (reader.expected expectation token).openBlocks = reader.openBlocks := by
    obtain ⟨found, reported⟩ := reader.expected_eq expectation token
    rw [reported]
  rw [fail, diagnostics_stepSkipping _ _ _ (by rwa [same]), length_expected]

theorem length_stepStatementEnd_le (rooted : reader.Rooted) :
    (reader.stepStatementEnd token).diagnostics.length ≤
      reader.diagnostics.length + token.reportable := by
  unfold stepStatementEnd
  split
  · exact reader.length_stepStatement_le token rooted
  · exact reader.length_stepStatement_le token rooted
  · next other => exact Nat.le_of_eq (reader.length_fail token _ _ fun kind => absurd kind other)

/-- What is skipped is reported at most once. -/
theorem length_stepSkipping_le (brackets : List Bracket) (rooted : reader.Rooted) :
    (reader.stepSkipping brackets token).diagnostics.length ≤
      reader.diagnostics.length + token.reportable := by
  by_cases inside : token.kind = .rightBrace → reader.openBlocks ≠ []
  · rw [reader.diagnostics_stepSkipping token brackets inside]
    exact Nat.le_add_right _ _
  · have kind : token.kind = .rightBrace := by
      by_contra other
      exact inside fun kind => absurd kind other
    simp only [stepSkipping, kind]
    split
    · exact Nat.le_add_right _ _
    · exact reader.length_stepStatement_le token rooted

/-- The first token of a value is reported at most once. -/
theorem length_stepValue_le (head : Head) (outer : List OpenValue)
    (inside : reader.openBlocks ≠ []) :
    (reader.stepValue head outer token).diagnostics.length ≤
      reader.diagnostics.length + token.reportable := by
  refine reader.stepValue_cases head token
    (motive := fun after =>
      after.diagnostics.length ≤ reader.diagnostics.length + token.reportable) ?_ ?_ outer ?_
  · intro place
    exact Nat.le_add_right _ _
  · intro value
    exact Nat.le_add_right _ _
  · exact Nat.le_of_eq (reader.length_fail token _ _ fun _ => inside)

/-- A token inside of a value is reported at most once. -/
theorem length_stepPlace_le (head : Head) (place : ValuePlace) (inside : reader.openBlocks ≠ []) :
    (reader.stepPlace head place token).diagnostics.length ≤
      reader.diagnostics.length + token.reportable := by
  refine reader.stepPlace_cases head token
    (motive := fun after =>
      after.diagnostics.length ≤ reader.diagnostics.length + token.reportable) ?_ ?_ place ?_
  · intro place
    exact Nat.le_add_right _ _
  · intro value
    exact Nat.le_add_right _ _
  · intro expectation
    exact Nat.le_of_eq (reader.length_fail token _ _ fun _ => inside)

/-- The token behind the first identifier of a statement is reported at most once. -/
theorem length_stepNamed_le (name : String) (position : Position)
    (inside : reader.openBlocks ≠ []) :
    (reader.stepNamed name position token).diagnostics.length ≤
      reader.diagnostics.length + token.reportable := by
  unfold stepNamed
  dsimp only
  split
  · exact Nat.le_add_right _ _
  · exact Nat.le_add_right _ _
  · split <;> exact Nat.le_add_right _ _
  · split <;> exact Nat.le_add_right _ _
  · split <;> exact Nat.le_add_right _ _
  · exact Nat.le_of_eq (reader.length_fail token _ _ fun _ => inside)

/-- A step reports its token at most once, unless the token is a closing brace in the place of the
opening one of a top-level block. -/
theorem length_step_le (rooted : reader.Rooted) (accepts : reader.refuses token = false) :
    (reader.step token).diagnostics.length ≤ reader.diagnostics.length + token.reportable := by
  have inner := rooted.mode
  have wrong (expectation : Expectation)
      (inside : token.kind = .rightBrace → reader.openBlocks ≠ []) :
      (reader.fail expectation [] token).diagnostics.length ≤
        reader.diagnostics.length + token.reportable :=
    Nat.le_of_eq (reader.length_fail token expectation [] inside)
  unfold step
  cases mode : reader.mode with
  | statement => exact reader.length_stepStatement_le token rooted
  | statementEnd => exact reader.length_stepStatementEnd_le token rooted
  | skipping brackets => exact reader.length_stepSkipping_le token brackets rooted
  | header head =>
      have inside : token.kind = .rightBrace → reader.openBlocks ≠ [] := by
        simpa [refuses, mode] using accepts
      simp only [stepHeader]
      split
      · exact Nat.le_add_right _ _
      · exact Nat.le_add_right _ _
      · exact wrong _ inside
  | named name position =>
      rw [mode] at inner
      exact reader.length_stepNamed_le token name position (inner rfl)
  | labelled head label =>
      have inside : token.kind = .rightBrace → reader.openBlocks ≠ [] := by
        simpa [refuses, mode] using accepts
      simp only [stepLabelled]
      split
      · exact Nat.le_add_right _ _
      · exact Nat.le_add_right _ _
      · exact wrong _ inside
  | actionKey head =>
      rw [mode] at inner
      simp only [stepActionKey]
      split
      · exact Nat.le_add_right _ _
      · exact reader.length_stepValue_le token head [] (inner rfl)
  | value head place =>
      rw [mode] at inner
      exact reader.length_stepPlace_le token head place (inner rfl)
  | attributeEnd attr =>
      rw [mode] at inner
      have added : (reader.addAttribute
          { attr with trailingComment := (lineComment token).1 }).Rooted :=
        .of_inside (by simpa [addAttribute] using inner rfl)
      have ended := length_stepStatementEnd_le _ (lineComment token).2 added
      rwa [reportable_lineComment] at ended
  | actionTarget head =>
      rw [mode] at inner
      simp only [stepActionTarget]
      split
      · exact Nat.le_add_right _ _
      · exact Nat.le_add_right _ _
      · exact wrong _ fun _ => inner rfl
  | actionArrow head target =>
      rw [mode] at inner
      simp only [stepActionArrow]
      split
      · exact Nat.le_add_right _ _
      · exact wrong _ fun _ => inner rfl
  | actionHandler head target =>
      rw [mode] at inner
      simp only [stepActionHandler]
      split
      · exact Nat.le_add_right _ _
      · exact Nat.le_add_right _ _
      · exact wrong _ fun _ => inner rfl
  | actionEnd action =>
      rw [mode] at inner
      have added : (reader.addAction
          { action with trailingComment := (lineComment token).1 }).Rooted :=
        .of_inside (by simpa [addAction] using inner rfl)
      have ended := length_stepStatementEnd_le _ (lineComment token).2 added
      rwa [reportable_lineComment] at ended

/-- A closing brace in the place of the opening one of a top-level block is reported twice: as a
wrong token, and as a brace without a block. -/
theorem length_step_of_refuses (rooted : reader.Rooted) (refused : reader.refuses token = true) :
    (reader.step token).diagnostics.length = reader.diagnostics.length + 2 := by
  simp only [refuses, Bool.and_eq_true, decide_eq_true_eq, List.isEmpty_iff] at refused
  obtain ⟨⟨kind, top⟩, waits⟩ := refused
  have group := rooted.group_eq_none top
  have twice (expectation : Expectation) :
      (reader.fail expectation [] token).diagnostics.length = reader.diagnostics.length + 2 := by
    obtain ⟨found, reported⟩ := reader.expected_eq expectation token
    have once : (reader.expected expectation token).diagnostics.length =
        reader.diagnostics.length + 1 := by
      simpa [Token.reportable, kind, TokenKind.isInvalid] using
        reader.length_expected token expectation
    have closed := (reader.expected expectation token).length_close_of_top token
      (by rw [reported]; exact group) (by rw [reported]; exact top)
    rw [once] at closed
    simpa [fail, stepSkipping, stepStatement, kind] using closed
  unfold step
  split at waits
  · next head mode =>
      rw [mode]
      simpa [stepHeader, kind] using twice _
  · next head label mode =>
      rw [mode]
      simpa [stepLabelled, kind] using twice _
  · cases waits

end Reader

end ServiceDef
