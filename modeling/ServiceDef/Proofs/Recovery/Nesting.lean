import ServiceDef.Proofs.Recovery.Brackets
import ServiceDef.Proofs.Reader.Reports

/-!
# Lines with nested brackets

The brackets of a line are properly nested when every closing bracket is that of the innermost
open one, and none is left open. A reader that keeps count of all braces is back at its level
behind such a line, which follows from `Levelled.step`. A reader that has missed an opening brace
inside of a block is not: `Reader.depth_run_of_missed` finds it at least one level further out.
-/

namespace ServiceDef

/-- The open brackets behind a token, innermost first, if it does not break the nesting. -/
def TokenKind.nest (kind : TokenKind) (opened : List Bracket) : Option (List Bracket) :=
  match kind, opened with
  | .leftBrace, opened => some (.curly :: opened)
  | .leftBracket, opened => some (.square :: opened)
  | .rightBrace, .curly :: opened => some opened
  | .rightBrace, _ => none
  | .rightBracket, .square :: opened => some opened
  | .rightBracket, _ => none
  | _, opened => some opened

/-- A closing brace has to meet the opening one. -/
theorem nest_rightBrace_eq_some {opened others : List Bracket} :
    TokenKind.nest .rightBrace opened = some others ↔ opened = .curly :: others := by
  rcases opened with _ | ⟨_ | _, opened⟩ <;> simp [TokenKind.nest]

theorem nest_rightBracket_eq_some {opened others : List Bracket} :
    TokenKind.nest .rightBracket opened = some others ↔ opened = .square :: others := by
  rcases opened with _ | ⟨_ | _, opened⟩ <;> simp [TokenKind.nest]

/-- The open brackets behind some tokens, innermost first, if all are properly nested. -/
def nesting (opened : List Bracket) (tokens : List Token) : Option (List Bracket) :=
  tokens.foldlM (fun opened token => token.kind.nest opened) opened

theorem nesting_cons_eq_some {opened others : List Bracket} {token : Token} {tokens : List Token} :
    nesting opened (token :: tokens) = some others ↔
      ∃ middle, token.kind.nest opened = some middle ∧ nesting middle tokens = some others := by
  simp [nesting, List.foldlM_cons, Option.bind_eq_some_iff]

/-! ## Levels inside of a line -/

/-- Inside of a line that began at the level `base` and has opened the given brackets, the
innermost brackets are those of the statement, and the braces of the others are levels. Only a
line outside of all blocks can have `uncounted` braces. -/
def Levelled (base : Nat) (opened : List Bracket) (shape : List Bracket × Nat) : Prop :=
  ∃ others uncounted, opened = shape.1 ++ others ∧
    shape.2 + uncounted = base + others.count .curly ∧ (uncounted = 0 ∨ base = 0)

namespace Levelled

variable {base : Nat} {opened others : List Bracket} {before after : List Bracket × Nat}
  {ready : Prop} {kind : TokenKind}

/-- The line never leaves the block that it began in. -/
theorem base_le (levelled : Levelled base opened before) : base ≤ before.2 := by
  obtain ⟨rest, uncounted, -, counts, allowed⟩ := levelled
  omega

/-- Behind the last bracket of the line, the statement has none, and the level is that at its
beginning. -/
theorem of_closed (levelled : Levelled base [] before) : before = ([], base) := by
  obtain ⟨rest, uncounted, split, counts, allowed⟩ := levelled
  obtain ⟨noBrackets, noRest⟩ := List.append_eq_nil_iff.1 split.symm
  rw [noRest, List.count_nil] at counts
  refine Prod.ext noBrackets ?_
  show before.2 = base
  omega

theorem closeBrace (levelled : Levelled base (.curly :: others) before)
    (stepped : BracketStep ready .rightBrace before after) : Levelled base others after := by
  obtain ⟨rest, uncounted, split, counts, allowed⟩ := levelled
  obtain ⟨brackets, level⟩ := before
  cases brackets with
  | nil =>
      obtain rfl : rest = .curly :: others := split.symm
      obtain ⟨member, -⟩ | ⟨-, rfl⟩ := stepped
      · cases member
      · rw [List.count_cons_self] at counts
        by_cases top : level = 0
        · exact ⟨others, uncounted - 1, rfl, by omega, by omega⟩
        · exact ⟨others, uncounted, rfl, by omega, allowed⟩
  | cons bracket brackets =>
      obtain ⟨rfl, rfl⟩ := List.cons.inj split
      obtain ⟨-, rfl⟩ | ⟨absent, -⟩ := stepped
      · exact ⟨rest, uncounted, by simp, counts, allowed⟩
      · exact absurd List.mem_cons_self absent

theorem closeBracket (levelled : Levelled base (.square :: others) before)
    (stepped : BracketStep ready .rightBracket before after) : Levelled base others after := by
  obtain ⟨rest, uncounted, split, counts, allowed⟩ := levelled
  obtain ⟨brackets, level⟩ := before
  cases brackets with
  | nil =>
      -- The opening bracket stood between two statements and was not counted either.
      obtain rfl : rest = .square :: others := split.symm
      obtain ⟨member, -⟩ | ⟨-, rfl⟩ := stepped
      · cases member
      · exact ⟨others, uncounted, rfl, by simpa using counts, allowed⟩
  | cons bracket brackets =>
      obtain ⟨rfl, rfl⟩ := List.cons.inj split
      obtain ⟨-, rfl⟩ | ⟨absent, -⟩ := stepped
      · exact ⟨rest, uncounted, by simp, counts, allowed⟩
      · exact absurd List.mem_cons_self absent

theorem openBrace (levelled : Levelled base opened before)
    (stepped : BracketStep ready .leftBrace before after) (bare : ready → before.1 = [])
    (counted : ready → base = 0) : Levelled base (.curly :: opened) after := by
  obtain ⟨rest, uncounted, rfl, counts, allowed⟩ := levelled
  obtain ⟨isReady, rfl⟩ | ⟨-, rfl | ⟨noBrackets, rfl⟩⟩ := stepped
  · refine ⟨.curly :: rest, uncounted + 1, by simp [bare isReady], ?_, .inr (counted isReady)⟩
    rw [List.count_cons_self]
    omega
  · exact ⟨rest, uncounted, rfl, counts, allowed⟩
  · refine ⟨.curly :: rest, uncounted, by simp [noBrackets], ?_, allowed⟩
    rw [List.count_cons_self]
    omega

theorem openBracket (levelled : Levelled base opened before)
    (stepped : BracketStep ready .leftBracket before after) (bare : ready → before.1 = []) :
    Levelled base (.square :: opened) after := by
  obtain ⟨rest, uncounted, rfl, counts, allowed⟩ := levelled
  obtain ⟨isReady, rfl⟩ | ⟨-, rfl⟩ := stepped
  · exact ⟨.square :: rest, uncounted, by simp [bare isReady], by simpa using counts, allowed⟩
  · exact ⟨rest, uncounted, rfl, counts, allowed⟩

/-- Every token of a line keeps the levels right, but an opening brace between two statements
only does so outside of all blocks. -/
theorem step (levelled : Levelled base opened before) (stepped : BracketStep ready kind before after)
    (nests : kind.nest opened = some others) (bare : ready → before.1 = [])
    (counted : kind = .leftBrace → ready → base = 0) : Levelled base others after := by
  cases kind with
  | leftBrace =>
      obtain rfl := Option.some.inj nests
      exact levelled.openBrace stepped bare (counted rfl)
  | leftBracket =>
      obtain rfl := Option.some.inj nests
      exact levelled.openBracket stepped bare
  | rightBrace =>
      obtain rfl := nest_rightBrace_eq_some.1 nests
      exact levelled.closeBrace stepped
  | rightBracket =>
      obtain rfl := nest_rightBracket_eq_some.1 nests
      exact levelled.closeBracket stepped
  | _ =>
      obtain rfl := Option.some.inj nests
      obtain rfl : after = before := stepped
      exact levelled

end Levelled

/-! ## Depth -/

/-- The number of open braces: those of the statement and those around it. -/
def depth (shape : List Bracket × Nat) : Nat :=
  shape.1.count .curly + shape.2

theorem count_curly_tail_dropWhile {brackets : List Bracket} (member : .curly ∈ brackets) :
    (brackets.dropWhile (· ≠ .curly)).tail.count .curly + 1 = brackets.count .curly := by
  induction brackets with
  | nil => cases member
  | cons bracket brackets inductionHypothesis =>
      cases bracket with
      | curly => simp
      | square =>
          have inner : Bracket.curly ∈ brackets := by simpa using member
          simpa using inductionHypothesis inner

variable {ready : Prop} {kind : TokenKind} {before after : List Bracket × Nat}

/-- A closing brace takes one of the open braces away, if there is any. -/
theorem depth_closeBrace (stepped : BracketStep ready .rightBrace before after) :
    depth after = depth before - 1 := by
  obtain ⟨member, rfl⟩ | ⟨absent, rfl⟩ := stepped
  · have removed := count_curly_tail_dropWhile member
    simp only [depth]
    omega
  · simp [depth, List.count_eq_zero.2 absent]

theorem depth_openBrace (stepped : BracketStep ready .leftBrace before after) :
    (ready ∧ depth after = depth before) ∨ (¬ ready ∧ depth after = depth before + 1) := by
  obtain ⟨isReady, rfl⟩ | ⟨notReady, rfl | ⟨noBrackets, rfl⟩⟩ := stepped
  · exact .inl ⟨isReady, rfl⟩
  · refine .inr ⟨notReady, ?_⟩
    simp only [depth, List.count_cons_self]
    omega
  · exact .inr ⟨notReady, by simp [depth, noBrackets]⟩

/-- Only an opening brace adds to the depth. -/
theorem depth_le (stepped : BracketStep ready kind before after) (other : kind ≠ .leftBrace) :
    depth after ≤ depth before := by
  cases kind with
  | leftBrace => exact absurd rfl other
  | rightBrace =>
      rw [depth_closeBrace stepped]
      omega
  | leftBracket =>
      obtain ⟨-, rfl⟩ | ⟨-, rfl⟩ := stepped
      · exact Nat.le_refl _
      · simp [depth]
  | rightBracket =>
      obtain ⟨-, rfl⟩ | ⟨-, rfl⟩ := stepped
      · have fewer := ((List.tail_sublist _).trans
          (List.dropWhile_sublist (l := before.1) (· ≠ Bracket.square))).count_le .curly
        simp only [depth]
        omega
      · exact Nat.le_refl _
  | _ =>
      obtain rfl : after = before := stepped
      exact Nat.le_refl _

namespace Reader

variable {reader : Reader}

/-! ## Steps of a reader -/

theorem brackets_of_statement (between : reader.mode = .statement) : reader.shape.1 = [] := by
  simp [shape, between, Mode.brackets]

theorem depth_of_statement (between : reader.mode = .statement) :
    depth reader.shape = reader.level := by
  rw [depth, brackets_of_statement between, List.count_nil, Nat.zero_add]
  rfl

section LineBreak

variable {token : Token} (isBreak : token.kind = .newline)

include isBreak

theorem mode_stepStatement_newline (reader : Reader) :
    (reader.stepStatement token).mode = .statement := by
  simp [stepStatement, isBreak, enter]

theorem mode_stepStatementEnd_newline (reader : Reader) :
    (reader.stepStatementEnd token).mode = .statement := by
  simp [stepStatementEnd, isBreak, mode_stepStatement_newline isBreak]

theorem mode_fail_newline (reader : Reader) (expectation : Expectation) :
    (reader.fail expectation [] token).mode = .statement := by
  simp [fail, stepSkipping, isBreak, mode_stepStatement_newline isBreak]

/-- A line break behind the last bracket of a statement ends it. -/
theorem mode_step_newline (noBrackets : reader.mode.brackets = []) :
    (reader.step token).mode = .statement := by
  have fail := mode_fail_newline isBreak reader
  have ended : (lineComment token).2.kind = .newline := (kind_lineComment token).trans isBreak
  unfold step
  cases mode : reader.mode with
  | statement => exact mode_stepStatement_newline isBreak reader
  | statementEnd => exact mode_stepStatementEnd_newline isBreak reader
  | skipping brackets =>
      obtain rfl : brackets = [] := by simpa [mode, Mode.brackets] using noBrackets
      simp [stepSkipping, isBreak, mode_stepStatement_newline isBreak]
  | header head => simpa [stepHeader, isBreak] using fail _
  | named name position => simpa [stepNamed, isBreak] using fail _
  | labelled head label => simpa [stepLabelled, isBreak] using fail _
  | actionKey head => simpa [stepActionKey, stepValue, isBreak] using fail _
  | value head place =>
      cases place with
      | value outer =>
          obtain rfl : outer = [] := by
            simpa [mode, Mode.brackets, ValuePlace.brackets] using noBrackets
          simpa [stepPlace, stepValue, isBreak] using fail _
      | _ => simp [mode, Mode.brackets, ValuePlace.brackets] at noBrackets
  | attributeEnd attr => exact mode_stepStatementEnd_newline ended _
  | actionTarget head => simpa [stepActionTarget, isBreak] using fail _
  | actionArrow head target => simpa [stepActionArrow, isBreak] using fail _
  | actionHandler head target => simpa [stepActionHandler, isBreak] using fail _
  | actionEnd action => exact mode_stepStatementEnd_newline ended _

end LineBreak

section StrayBrace

variable {token : Token} (closes : token.kind = .rightBrace)

include closes

theorem diagnostics_stepStatement_stray (reader : Reader) (top : reader.level = 0) :
    (reader.stepStatement token).diagnostics ≠ reader.diagnostics := by
  obtain ⟨noBlock, noGroup⟩ := reader.level_eq_zero_iff.1 top
  rw [stepStatement, closes]
  simp [close_of_top reader token noGroup noBlock, report, enter, absorb]

theorem diagnostics_stepStatementEnd_stray (reader : Reader) (top : reader.level = 0) :
    (reader.stepStatementEnd token).diagnostics ≠ reader.diagnostics := by
  rw [stepStatementEnd, closes]
  exact diagnostics_stepStatement_stray closes reader top

theorem diagnostics_fail_brace (reader : Reader) (expectation : Expectation)
    (brackets : List Bracket) :
    (reader.fail expectation brackets token).diagnostics ≠ reader.diagnostics := by
  obtain ⟨found, reported, -⟩ :=
    Reports.stepSkipping (reader.expected expectation token) token brackets
  rw [fail, reported, expected, closes]
  simp [report]

/-- A closing brace that closes nothing is reported. -/
theorem diagnostics_step_stray (nothing : depth reader.shape = 0) :
    (reader.step token).diagnostics ≠ reader.diagnostics := by
  have fail := diagnostics_fail_brace closes reader
  have ended : (lineComment token).2.kind = .rightBrace := (kind_lineComment token).trans closes
  obtain ⟨noBrace, top⟩ : reader.mode.brackets.count .curly = 0 ∧ reader.level = 0 :=
    Nat.add_eq_zero_iff.1 nothing
  rw [List.count_eq_zero] at noBrace
  unfold step
  cases mode : reader.mode with
  | statement => exact diagnostics_stepStatement_stray closes reader top
  | statementEnd => exact diagnostics_stepStatementEnd_stray closes reader top
  | skipping brackets =>
      have absent : .curly ∉ brackets := by simpa [mode, Mode.brackets] using noBrace
      simp only [stepSkipping, closes, if_neg absent]
      exact diagnostics_stepStatement_stray closes reader top
  | header head => simpa [stepHeader, closes] using fail _ _
  | named name position => simpa [stepNamed, closes] using fail _ _
  | labelled head label => simpa [stepLabelled, closes] using fail _ _
  | actionKey head => simpa [stepActionKey, stepValue, closes] using fail _ _
  | value head place =>
      rw [mode] at noBrace
      cases place with
      | value outer => simpa [stepPlace, stepValue, closes] using fail _ _
      | item items outer => simpa [stepPlace, stepValue, closes] using fail _ _
      | itemEnd items outer => simpa [stepPlace, closes] using fail _ _
      | _ => simp [Mode.brackets, ValuePlace.brackets] at noBrace
  | attributeEnd attr => exact diagnostics_stepStatementEnd_stray ended _ (by simpa using top)
  | actionTarget head => simpa [stepActionTarget, closes] using fail _ _
  | actionArrow head target => simpa [stepActionArrow, closes] using fail _ _
  | actionHandler head target => simpa [stepActionHandler, closes] using fail _ _
  | actionEnd action => exact diagnostics_stepStatementEnd_stray ended _ (by simpa using top)

end StrayBrace

/-! ## Runs of a reader -/

/-- Whether an opening brace among the tokens comes between two statements. -/
def missesBrace (reader : Reader) : List Token → Bool
  | [] => false
  | token :: tokens =>
    (token.kind = .leftBrace ∧ reader.mode = .statement) || (reader.step token).missesBrace tokens

/-- The line up to some token keeps the levels right if no brace in it is missed. -/
theorem levelled_step {base : Nat} {opened others : List Bracket} {token : Token}
    (outside : reader.HeadsOutside) (levelled : Levelled base opened reader.shape)
    (nests : token.kind.nest opened = some others)
    (counted : token.kind = .leftBrace → reader.mode = .statement → base = 0) :
    Levelled base others (reader.step token).shape :=
  levelled.step (reader.bracketStep_step outside token) nests brackets_of_statement counted

variable {base : Nat} {opened others : List Bracket}

/-- If `lost` of the levels are missing at some token of a line, they are missing behind it. -/
theorem depth_step_of_nest (lost : Nat) {token : Token} (outside : reader.HeadsOutside)
    (nests : token.kind.nest opened = some others) (small : lost ≤ base)
    (bound : depth reader.shape + lost ≤ base + opened.count .curly) :
    depth (reader.step token).shape + lost ≤ base + others.count .curly := by
  have stepped := reader.bracketStep_step outside token
  have square (opened : List Bracket) :
      (Bracket.square :: opened).count .curly = opened.count .curly := by simp
  cases kind : token.kind with
  | leftBrace =>
      rw [kind] at stepped nests
      obtain rfl := Option.some.inj nests
      rw [List.count_cons_self]
      rcases depth_openBrace stepped with ⟨-, same⟩ | ⟨-, more⟩ <;> omega
  | rightBrace =>
      rw [kind] at stepped nests
      obtain rfl := nest_rightBrace_eq_some.1 nests
      rw [List.count_cons_self] at bound
      rw [depth_closeBrace stepped]
      omega
  | rightBracket =>
      have fewer := depth_le stepped (by simp [kind])
      rw [kind] at nests
      obtain rfl := nest_rightBracket_eq_some.1 nests
      rw [square] at bound
      omega
  | leftBracket =>
      have fewer := depth_le stepped (by simp [kind])
      rw [kind] at nests
      obtain rfl := Option.some.inj nests
      rw [square]
      omega
  | _ =>
      have fewer := depth_le stepped (by simp [kind])
      rw [kind] at nests
      obtain rfl := Option.some.inj nests
      omega

/-- The levels that are missing stay missing to the end of the line. -/
theorem depth_run_of_nesting (lost : Nat) {tokens : List Token} (outside : reader.HeadsOutside)
    (nests : nesting opened tokens = some others) (small : lost ≤ base)
    (bound : depth reader.shape + lost ≤ base + opened.count .curly) :
    depth (reader.run tokens).shape + lost ≤ base + others.count .curly := by
  induction tokens generalizing reader opened with
  | nil =>
      obtain rfl := Option.some.inj nests
      exact bound
  | cons token tokens inductionHypothesis =>
      obtain ⟨middle, first, rest⟩ := nesting_cons_eq_some.1 nests
      exact inductionHypothesis (outside.step token) rest
        (depth_step_of_nest lost outside first small bound)

/-- A line inside of a block that holds a missed brace ends outside of that block. -/
theorem depth_run_of_missed {tokens : List Token} (outside : reader.HeadsOutside)
    (nests : nesting opened tokens = some others) (inside : 0 < base)
    (bound : depth reader.shape ≤ base + opened.count .curly)
    (missed : reader.missesBrace tokens = true) :
    depth (reader.run tokens).shape + 1 ≤ base + others.count .curly := by
  induction tokens generalizing reader opened with
  | nil => cases missed
  | cons token tokens inductionHypothesis =>
      obtain ⟨middle, first, rest⟩ := nesting_cons_eq_some.1 nests
      rw [missesBrace, Bool.or_eq_true, decide_eq_true_eq] at missed
      rcases missed with ⟨brace, between⟩ | later
      · have stepped := reader.bracketStep_step outside token
        rw [brace] at stepped first
        obtain rfl := Option.some.inj first
        rw [run_cons]
        refine depth_run_of_nesting 1 (outside.step token) rest inside ?_
        rw [List.count_cons_self]
        rcases depth_openBrace stepped with ⟨-, same⟩ | ⟨notReady, -⟩
        · omega
        · exact absurd between notReady
      · exact inductionHypothesis (outside.step token) rest
          (depth_step_of_nest 0 outside first (Nat.zero_le _) bound) later

/-- A token about which there is nothing to report can only close a brace that is open. -/
theorem depth_step_of_silent {token : Token} (outside : reader.HeadsOutside)
    (silent : (reader.step token).diagnostics = reader.diagnostics) :
    depth (reader.step token).shape + [token.kind].count .rightBrace ≤
      depth reader.shape + [token.kind].count .leftBrace := by
  have stepped := reader.bracketStep_step outside token
  by_cases closes : token.kind = .rightBrace
  · have notStray : depth reader.shape ≠ 0 := fun nothing =>
      diagnostics_step_stray closes nothing silent
    rw [closes] at stepped ⊢
    rw [depth_closeBrace stepped, List.count_singleton_self]
    omega
  · rw [List.count_singleton, if_neg (by simpa using closes)]
    by_cases opens : token.kind = .leftBrace
    · rw [opens] at stepped ⊢
      rw [List.count_singleton_self]
      rcases depth_openBrace stepped with ⟨-, same⟩ | ⟨-, more⟩ <;> omega
    · have fewer := depth_le stepped opens
      omega

/-- Among tokens about which there is nothing to report, only as many braces are closed as were
open before or are opened among them. -/
theorem depth_run_of_silent {tokens : List Token} (outside : reader.HeadsOutside)
    (silent : (reader.run tokens).diagnostics = reader.diagnostics) :
    depth (reader.run tokens).shape + (tokens.map (·.kind)).count .rightBrace ≤
      depth reader.shape + (tokens.map (·.kind)).count .leftBrace := by
  induction tokens generalizing reader with
  | nil => simp
  | cons token tokens inductionHypothesis =>
      obtain ⟨found, stepEq, -⟩ := Reports.step reader token
      obtain ⟨others, runEq, -⟩ := diagnostics_run (reader.step token) tokens
      rw [run_cons, runEq, stepEq, List.append_assoc, List.append_right_eq_self,
        List.append_eq_nil_iff] at silent
      rw [silent.1, List.append_nil] at stepEq
      rw [silent.2, List.append_nil] at runEq
      have first := depth_step_of_silent outside stepEq
      have rest := inductionHypothesis (outside.step token) runEq
      rw [run_cons, List.map_cons, ← List.singleton_append, List.count_append, List.count_append]
      omega

end Reader

end ServiceDef
