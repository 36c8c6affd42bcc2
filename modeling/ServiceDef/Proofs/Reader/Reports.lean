import ServiceDef.Proofs.Reader.Operations

/-!
# What a step reports

A reader never takes a diagnostic back, and all that it finds wrong at a token is reported at
the position of that token. `Reader.Reports.step` says so for one token and
`Reader.diagnostics_run` for a run of tokens.
-/

namespace ServiceDef.Reader

/-- Every diagnostic that `after` has beyond those of `before` is about malformed text at
`position`. -/
def Reports (position : Position) (before after : Reader) : Prop :=
  ∃ found, after.diagnostics = before.diagnostics ++ found ∧
    ∀ d ∈ found, ∃ message, d = Diagnostic.malformed message position

namespace Reports

variable {position : Position} {before middle after : Reader}

/-- A change that leaves the diagnostics alone reports nothing. -/
theorem of_eq (same : after.diagnostics = before.diagnostics) : Reports position before after :=
  ⟨[], by simp [same], by simp⟩

theorem refl (reader : Reader) : Reports position reader reader :=
  of_eq rfl

theorem trans (first : Reports position before middle) (second : Reports position middle after) :
    Reports position before after := by
  obtain ⟨found, middleEq, atPosition⟩ := first
  obtain ⟨more, afterEq, moreAtPosition⟩ := second
  refine ⟨found ++ more, by rw [afterEq, middleEq, List.append_assoc], ?_⟩
  intro d member
  rcases List.mem_append.1 member with inFound | inMore
  · exact atPosition d inFound
  · exact moreAtPosition d inMore

variable (reader : Reader) (token : Token)

theorem report (fault : ReadFault) :
    Reports token.position reader (reader.report fault token.position) :=
  ⟨[Diagnostic.malformed fault.message token.position], rfl, fun _ member =>
    ⟨fault.message, List.mem_singleton.1 member⟩⟩

theorem expected (expectation : Expectation) :
    Reports token.position reader (reader.expected expectation token) := by
  unfold Reader.expected
  split
  · exact refl reader
  · exact report reader token _

theorem close : Reports token.position reader (reader.close token) := by
  cases group : reader.group with
  | some place => exact of_eq (by simp [reader.close_of_group token group, absorb])
  | none =>
      cases opened : reader.openBlocks with
      | nil =>
          rw [reader.close_of_top token group opened]
          exact report (reader.absorb token) token .strayBrace
      | cons block outer =>
          rw [reader.close_of_block token group opened]
          cases outer <;> exact of_eq rfl

theorem begin (name : String) : Reports token.position reader (reader.begin name token) := by
  unfold Reader.begin
  dsimp only
  split <;> exact of_eq rfl

theorem stepStatement : Reports token.position reader (reader.stepStatement token) := by
  unfold Reader.stepStatement
  split
  · exact of_eq rfl
  · exact close reader token
  · exact begin reader token _
  · exact (expected reader token _).trans (of_eq rfl)

theorem stepSkipping (brackets : List Bracket) :
    Reports token.position reader (reader.stepSkipping brackets token) := by
  unfold Reader.stepSkipping
  dsimp only
  split
  · split
    · exact stepStatement reader token
    · exact of_eq rfl
  · exact of_eq rfl
  · exact of_eq rfl
  · split
    · exact of_eq rfl
    · exact stepStatement reader token
  · split <;> exact of_eq rfl
  · exact of_eq rfl

theorem fail (expectation : Expectation) (brackets : List Bracket) :
    Reports token.position reader (reader.fail expectation brackets token) :=
  (expected reader token expectation).trans (stepSkipping _ token brackets)

theorem stepStatementEnd : Reports token.position reader (reader.stepStatementEnd token) := by
  unfold Reader.stepStatementEnd
  split
  · exact stepStatement reader token
  · exact stepStatement reader token
  · exact fail reader token _ _

theorem stepValue (head : Head) (outer : List OpenValue) :
    Reports token.position reader (reader.stepValue head outer token) := by
  refine reader.stepValue_cases head token ?_ ?_ outer (fail reader token _ _)
  · intro place
    exact of_eq rfl
  · intro value
    exact of_eq rfl

theorem stepPlace (head : Head) (place : ValuePlace) :
    Reports token.position reader (reader.stepPlace head place token) := by
  refine reader.stepPlace_cases head token ?_ ?_ place fun _ => fail reader token _ _
  · intro place
    exact of_eq rfl
  · intro value
    exact of_eq rfl

theorem stepAttributeEnd (attr : Attribute) :
    Reports token.position reader (reader.stepAttributeEnd attr token) := by
  rw [stepAttributeEnd_eq, ← position_lineComment token]
  exact (of_eq rfl).trans (stepStatementEnd _ _)

theorem stepActionEnd (action : Action) :
    Reports token.position reader (reader.stepActionEnd action token) := by
  rw [stepActionEnd_eq, ← position_lineComment token]
  exact (of_eq rfl).trans (stepStatementEnd _ _)

/-- All that a step reports is at its token. -/
theorem step : Reports token.position reader (reader.step token) := by
  unfold Reader.step
  split
  · exact stepStatement reader token
  · exact stepStatementEnd reader token
  · exact stepSkipping reader token _
  · unfold stepHeader
    split
    · exact of_eq rfl
    · exact of_eq rfl
    · exact fail reader token _ _
  · unfold stepNamed
    dsimp only
    split
    · exact of_eq rfl
    · exact of_eq rfl
    · split <;> exact of_eq rfl
    · split <;> exact of_eq rfl
    · split <;> exact of_eq rfl
    · exact fail reader token _ _
  · unfold stepLabelled
    split
    · exact of_eq rfl
    · exact of_eq rfl
    · exact fail reader token _ _
  · unfold stepActionKey
    split
    · exact of_eq rfl
    · exact stepValue reader token _ _
  · exact stepPlace reader token _ _
  · exact stepAttributeEnd reader token _
  · unfold stepActionTarget
    split
    · exact of_eq rfl
    · exact of_eq rfl
    · exact fail reader token _ _
  · unfold stepActionArrow
    split
    · exact of_eq rfl
    · exact fail reader token _ _
  · unfold stepActionHandler
    split
    · exact of_eq rfl
    · exact of_eq rfl
    · exact fail reader token _ _
  · exact stepActionEnd reader token _

end Reports

/-- A run only adds diagnostics, each at one of its tokens. -/
theorem diagnostics_run (reader : Reader) (tokens : List Token) :
    ∃ found, (reader.run tokens).diagnostics = reader.diagnostics ++ found ∧
      ∀ d ∈ found, ∃ token ∈ tokens, d.position = token.position := by
  induction tokens generalizing reader with
  | nil => exact ⟨[], by simp, by simp⟩
  | cons token tokens inductionHypothesis =>
      obtain ⟨first, stepEq, atToken⟩ := Reports.step reader token
      obtain ⟨others, runEq, atTokens⟩ := inductionHypothesis (reader.step token)
      refine ⟨first ++ others, by rw [run_cons, runEq, stepEq, List.append_assoc], ?_⟩
      intro d member
      rcases List.mem_append.1 member with inFirst | inOthers
      · obtain ⟨message, rfl⟩ := atToken d inFirst
        exact ⟨token, List.mem_cons_self, rfl⟩
      · obtain ⟨other, inTokens, same⟩ := atTokens d inOthers
        exact ⟨other, List.mem_cons_of_mem _ inTokens, same⟩

/-! ## The end of the file -/

/-- A token that is not invalid is reported where it is not expected. -/
theorem diagnostics_expected_ne_nil (reader : Reader) (expectation : Expectation) {token : Token}
    (valid : ∀ text, token.kind ≠ .invalid text) :
    (reader.expected expectation token).diagnostics ≠ [] := by
  unfold expected
  split
  · next text isInvalid => exact absurd isInvalid (valid text)
  · simp [report]

/-- A statement is not given up in silence, unless its token was reported before. -/
theorem diagnostics_fail_ne_nil (reader : Reader) (expectation : Expectation)
    (brackets : List Bracket) {token : Token} (valid : ∀ text, token.kind ≠ .invalid text) :
    (reader.fail expectation brackets token).diagnostics ≠ [] := by
  intro silent
  obtain ⟨found, failEq, -⟩ :=
    Reports.stepSkipping (reader.expected expectation token) token brackets
  rw [fail, failEq, List.append_eq_nil_iff] at silent
  exact diagnostics_expected_ne_nil reader expectation valid silent.1

/-- The reader that has reported what is missing at the end of the file. -/
def reportMissing (reader : Reader) (token : Token) : Reader :=
  match missing reader.mode with
  | some expectation => reader.expected expectation token
  | none => reader

/-- At the end of the file, what is missing is reported, and a complete statement is added. -/
theorem finishStatement_match (reader : Reader) (token : Token) :
    reader.finishStatement token =
      match (reader.reportMissing token).mode with
      | .attributeEnd attr => ((reader.reportMissing token).addAttribute attr).enter .statement
      | .actionEnd action => ((reader.reportMissing token).addAction action).enter .statement
      | _ => (reader.reportMissing token).enter .statement := rfl

/-- Reporting what is missing only adds to the diagnostics. -/
theorem reportMissing_eq (reader : Reader) (token : Token) :
    ∃ found, reader.reportMissing token =
      { reader with diagnostics := reader.diagnostics ++ found } := by
  unfold reportMissing
  split
  · exact reader.expected_eq _ token
  · exact ⟨[], by simp⟩

/-- Ending a statement can add an attribute or action, and changes nothing else of blocks and
groups. -/
theorem finishStatement_eq (reader : Reader) (token : Token) :
    ∃ change : Block → Block, reader.finishStatement token =
      { reader.reportMissing token with
        openBlocks := reader.openBlocks.modifyHead change
        mode := .statement } := by
  have same : (reader.reportMissing token).openBlocks = reader.openBlocks := by
    obtain ⟨found, reported⟩ := reader.reportMissing_eq token
    rw [reported]
  rw [finishStatement_match]
  split
  · exact ⟨_, by rw [← same]; rfl⟩
  · exact ⟨_, by rw [← same]; rfl⟩
  · exact ⟨id, by simp [enter, same]⟩

/-- The end of the file only adds to the diagnostics. -/
theorem subset_diagnostics_finish (reader : Reader) (token : Token) :
    reader.diagnostics ⊆ (reader.finish token).diagnostics := by
  have group (reader : Reader) : reader.diagnostics ⊆ reader.finishGroup.diagnostics := by
    unfold finishGroup
    split
    · exact List.subset_append_left _ _
    · exact List.Subset.refl _
  have blocks (reader : Reader) : reader.diagnostics ⊆ reader.finishBlocks.diagnostics := by
    unfold finishBlocks
    split
    · exact List.Subset.refl _
    · exact List.subset_append_left _ _
  have statement : reader.diagnostics ⊆ (reader.finishStatement token).diagnostics := by
    obtain ⟨change, statementEq⟩ := reader.finishStatement_eq token
    obtain ⟨found, reported⟩ := reader.reportMissing_eq token
    rw [statementEq, reported]
    exact List.subset_append_left _ _
  exact List.Subset.trans (List.Subset.trans statement (group _)) (blocks _)

/-- The end of the file is silent exactly when nothing was reported before it and it comes
between two statements outside of all groups and blocks. -/
theorem diagnostics_finish_eq_nil_iff (reader : Reader) {token : Token}
    (valid : ∀ text, token.kind ≠ .invalid text) :
    (reader.finish token).diagnostics = [] ↔
      reader.diagnostics = [] ∧ missing reader.mode = none ∧ reader.group = none ∧
        reader.openBlocks = [] := by
  obtain ⟨change, statementEq⟩ := reader.finishStatement_eq token
  have group : (reader.reportMissing token).group = reader.group := by
    obtain ⟨found, reported⟩ := reader.reportMissing_eq token
    rw [reported]
  have missed : (reader.reportMissing token).diagnostics = [] ↔
      reader.diagnostics = [] ∧ missing reader.mode = none := by
    unfold reportMissing
    split
    · next expectation found =>
        simp [found, diagnostics_expected_ne_nil reader expectation valid]
    · next found => simp [found]
  rw [← and_assoc, ← missed, show (reader.finish token).diagnostics =
    (reader.finishStatement token).finishGroup.finishBlocks.diagnostics from rfl, statementEq]
  cases noGroup : reader.group with
  | none =>
      cases opened : reader.openBlocks with
      | nil => simp [finishGroup, finishBlocks, group, noGroup]
      | cons block outer => simp [finishGroup, finishBlocks, group, noGroup]
  | some position =>
      cases opened : reader.openBlocks with
      | nil => simp [finishGroup, finishBlocks, group, noGroup, report]
      | cons block outer => simp [finishGroup, finishBlocks, group, noGroup, report]

/-- Where nothing is reported in the end, nothing was reported before. -/
theorem diagnostics_eq_nil_of_finish (reader : Reader) (tokens : List Token) {last : Token}
    (isLast : last.kind = .endOfFile)
    (silent : ((reader.run tokens).finish last).diagnostics = []) : reader.diagnostics = [] := by
  obtain ⟨found, reported, -⟩ := diagnostics_run reader tokens
  have before := ((diagnostics_finish_eq_nil_iff _ (by simp [isLast])).1 silent).1
  rw [reported] at before
  exact (List.append_eq_nil_iff.1 before).1

end ServiceDef.Reader
