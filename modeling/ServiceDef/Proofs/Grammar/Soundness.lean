import ServiceDef.Proofs.Grammar.ValueSoundness

/-!
# Documents that are read without a fault

What a reader accepts between two statements derives from a series of statements, and what it
accepts from the start derives from a document. The steps follow the decisions of the reader:
the token behind the first identifier of a statement tells the sorts of statements apart.
-/

namespace ServiceDef.Grammar

open Reader

/-! ## Actions -/

/-- Behind the arrow of an action stands a handler. -/
theorem handler_of_accepts {reader : Reader} {head : Head} {target : String}
    {input : List TokenKind} (accepts : Accepts (reader.enter (.actionHandler head target)) input) :
    ∃ kind handler rest, IsHandler kind handler ∧ input = kind :: rest := by
  match input with
  | [] => exact (accepts.not_missing rfl).elim
  | kind :: rest =>
      cases kind with
      | identifier handler => exact ⟨_, handler, rest, .identifier handler, rfl⟩
      | string handler => exact ⟨_, handler, rest, .string handler, rfl⟩
      | _ => exact (accepts.not_fail .handler [] rfl).elim

/-- Behind the target of an action stand an arrow and a handler. -/
theorem arrow_of_accepts {reader : Reader} {head : Head} {target : String}
    {input : List TokenKind} (accepts : Accepts (reader.enter (.actionArrow head target)) input) :
    ∃ kind handler rest, IsHandler kind handler ∧ input = .arrow :: kind :: rest := by
  match input with
  | [] => exact (accepts.not_missing rfl).elim
  | kind :: others =>
      have step := accepts.step
      cases kind with
      | arrow =>
          rw [step_arrow] at step
          obtain ⟨kind, handler, rest, answer, rfl⟩ := handler_of_accepts step
          exact ⟨kind, handler, rest, answer, rfl⟩
      | _ => exact (accepts.not_fail .arrow [] rfl).elim

/-- Behind the method of an action stand its target, an arrow and a handler. -/
theorem action_of_accepts {reader : Reader} {head : Head} {input : List TokenKind}
    (accepts : Accepts (reader.enter (.actionTarget head)) input) (method : String) :
    ∃ action rest, DerivesAction (.identifier method :: input) action rest ∧ rest <:+ input := by
  have aimed : ∀ {kind : TokenKind} {target : String} {others : List TokenKind},
      IsTarget kind target → Accepts (reader.enter (.actionTarget head)) (kind :: others) →
      ∃ action rest, DerivesAction (.identifier method :: kind :: others) action rest ∧
        rest <:+ kind :: others := by
    intro kind target others aim accepts
    have step := accepts.step
    rw [step_target aim] at step
    obtain ⟨answer, handler, rest, answers, rfl⟩ := arrow_of_accepts step
    exact ⟨_, rest, .action aim answers, ⟨[kind, .arrow, answer], rfl⟩⟩
  match input with
  | [] => exact (accepts.not_missing rfl).elim
  | kind :: others =>
      cases kind with
      | path target => exact aimed (.path target) accepts
      | string target => exact aimed (.string target) accepts
      | _ => exact (accepts.not_fail .actionTarget [] rfl).elim

/-! ## The ends of statements -/

/-- What can be accepted between two statements: only where one may start, an identifier is
accepted. -/
theorem Accepts.between {reader : Reader} {ready : Bool} {kind : TokenKind}
    {kinds : List TokenKind} (accepts : Accepts (reader.enter (statementMode ready)) (kind :: kinds)) :
    kind = .newline ∨ kind = .rightBrace ∨ ready = true ∧ ∃ name, kind = .identifier name := by
  by_cases expected : kind = .newline ∨ kind = .rightBrace ∨
      ready = true ∧ ∃ name, kind = .identifier name
  · exact expected
  · exfalso
    cases ready with
    | false =>
        cases kind with
        | newline => exact expected (.inl rfl)
        | rightBrace => exact expected (.inr (.inl rfl))
        | _ => exact accepts.not_fail .lineEnd [] rfl
    | true =>
        have silent := accepts.step.diagnostics_eq
        have valid : ∀ text, (Token.bare kind).kind ≠ .invalid text :=
          accepts.valid kind List.mem_cons_self
        have reported := diagnostics_expected_ne_nil (reader.enter .statement)
          (reader.enter .statement).statementExpectation valid
        cases kind with
        | newline => exact expected (.inl rfl)
        | rightBrace => exact expected (.inr (.inl rfl))
        | identifier name => exact expected (.inr (.inr ⟨rfl, name, rfl⟩))
        | _ => exact reported silent

/-- In a block, an accepted statement ends at a line break or a closing brace. -/
theorem endsStatement_of_accepts {reader : Reader} {input : List TokenKind}
    (accepts : Accepts (reader.enter .statementEnd) input) (inside : reader.openBlocks ≠ []) :
    EndsStatement input := by
  match input with
  | [] => exact absurd accepts.atEnd.2.2.2 inside
  | kind :: others =>
      cases kind with
      | newline => exact ⟨_, others, rfl, .inl rfl⟩
      | rightBrace => exact ⟨_, others, rfl, .inr rfl⟩
      | _ => exact (accepts.not_fail .lineEnd [] rfl).elim

theorem endsStatement_of_attributeEnd {reader : Reader} {input : List TokenKind}
    {attr : Attribute} (accepts : Accepts (reader.enter (.attributeEnd attr)) input)
    (inside : reader.openBlocks ≠ []) : EndsStatement input := by
  match input with
  | [] => exact absurd accepts.atEnd.2.2.2 inside
  | kind :: others =>
      cases kind with
      | newline => exact ⟨_, others, rfl, .inl rfl⟩
      | rightBrace => exact ⟨_, others, rfl, .inr rfl⟩
      | _ =>
          exact (accepts.not_fail_from
            ((reader.enter (.attributeEnd attr)).addAttribute { attr with trailingComment := none })
            .lineEnd [] rfl).elim

theorem endsStatement_of_actionEnd {reader : Reader} {input : List TokenKind}
    {action : Action} (accepts : Accepts (reader.enter (.actionEnd action)) input)
    (inside : reader.openBlocks ≠ []) : EndsStatement input := by
  match input with
  | [] => exact absurd accepts.atEnd.2.2.2 inside
  | kind :: others =>
      cases kind with
      | newline => exact ⟨_, others, rfl, .inl rfl⟩
      | rightBrace => exact ⟨_, others, rfl, .inr rfl⟩
      | _ =>
          exact (accepts.not_fail_from
            ((reader.enter (.actionEnd action)).addAction { action with trailingComment := none })
            .lineEnd [] rfl).elim

/-! ## Groups -/

/-- What a reader accepts in a group starts with actions and the closing brace. -/
def GroupSound (input : List TokenKind) : Prop :=
  ∀ (ready : Bool) (reader : Reader) (position : Position) (block : Block) (outer : List Block),
    reader.group = some position → reader.openBlocks = block :: outer → reader.pending = [] →
    Accepts (reader.enter (statementMode ready)) input →
    ∃ actions rest, Series IsNewline DerivesAction ready input actions (.rightBrace :: rest) ∧
      .rightBrace :: rest <:+ input

/-- Behind an accepted action stand the others of its group. -/
theorem group_of_action {method : String} {input : List TokenKind}
    (shorterSound : ∀ shorter, shorter.length ≤ input.length → GroupSound shorter)
    {reader : Reader} {position : Position} {block : Block} {outer : List Block}
    (group : reader.group = some position) (inside : reader.openBlocks = block :: outer)
    (idle : reader.pending = [])
    (accepts : Accepts (reader.enter .statement) (.identifier method :: input)) :
    ∃ actions rest, Series IsNewline DerivesAction true (.identifier method :: input) actions
        (.rightBrace :: rest) ∧
      .rightBrace :: rest <:+ .identifier method :: input := by
  have step := accepts.step
  rw [step_identifier_of_group reader group] at step
  obtain ⟨action, middle, route, suffix⟩ := action_of_accepts step method
  have atEnd := accepts.of_reads (route.reads_of_group reader group)
    (suffix.trans (List.suffix_cons _ _))
  rw [release_of_pending idle] at atEnd
  have bare : action.trailingComment = none := by
    cases route
    rfl
  have ends := endsStatement_of_actionEnd atEnd (by simp [inside])
  have behind := atEnd.of_reads
    (reads_actionEnd reader { action with comments := reader.pending } bare ends)
    (List.suffix_refl _)
  rw [addAction_eq inside] at behind
  obtain ⟨actions, rest, series, tailSuffix⟩ :=
    shorterSound middle suffix.length_le false
      { reader with
        openBlocks := extend block [.routes [{ action with comments := reader.pending }]] :: outer }
      position _ outer group rfl idle behind
  exact ⟨action :: actions, rest, .item route series,
    tailSuffix.trans (suffix.trans (List.suffix_cons _ _))⟩

theorem groupSound_of_shorter {input : List TokenKind}
    (shorterSound : ∀ shorter, shorter.length < input.length → GroupSound shorter) :
    GroupSound input := by
  intro ready reader position block outer group inside idle accepts
  match input with
  | [] => exact absurd (accepts.atEnd.2.2.2.symm.trans inside) (by simp)
  | kind :: others =>
      rcases accepts.between with rfl | rfl | ⟨rfl, method, rfl⟩
      · have step := accepts.step
        rw [step_newline] at step
        obtain ⟨actions, rest, series, suffix⟩ :=
          shorterSound others (by simp) true reader position block outer group inside idle step
        exact ⟨actions, rest, .separator rfl series, suffix.trans (List.suffix_cons _ _)⟩
      · exact ⟨[], others, .done, List.suffix_refl _⟩
      · exact group_of_action (fun shorter le => shorterSound shorter (by simp; omega)) group inside
          idle accepts

/-- What a reader accepts in a group starts with actions and the closing brace. -/
theorem groupSound (input : List TokenKind) : GroupSound input := by
  induction length : input.length using Nat.strongRecOn generalizing input with
  | ind _ inductionHypothesis =>
      exact groupSound_of_shorter fun shorter lt =>
        inductionHypothesis _ (length ▸ lt) shorter rfl

/-! ## Statements and blocks -/

/-- What a reader accepts in a block starts with statements and the closing brace. -/
def BodySound (input : List TokenKind) : Prop :=
  ∀ (ready : Bool) (reader : Reader) (block : Block) (outer : List Block), reader.group = none →
    reader.openBlocks = block :: outer → reader.pending = [] → block.trailingComments = [] →
    Accepts (reader.enter (statementMode ready)) input →
    ∃ statements rest, Series IsNewline DerivesStatement ready input statements
        (.rightBrace :: rest) ∧ .rightBrace :: rest <:+ input

/-- What a reader accepts behind the opening brace of a block is the body of the block. -/
theorem body_of_openBlock {input : List TokenKind} (body : BodySound input) {reader : Reader}
    {head : Head} {label : Option String} (group : reader.group = none)
    (idle : reader.pending = []) (accepts : Accepts (reader.openBlock head label) input) :
    ∃ statements rest, Series IsNewline DerivesStatement true input statements
        (.rightBrace :: rest) ∧ .rightBrace :: rest <:+ input :=
  body true (reader.openBlock head label) _ reader.openBlocks group rfl idle rfl accepts

section Named

variable {name : String} {others : List TokenKind} {reader : Reader} {block : Block}
  {outer : List Block}

/-- A statement that goes on with a string is an action or a labelled block. -/
theorem statement_of_string {label : String}
    (bodies : ∀ shorter, shorter.length ≤ others.length → BodySound shorter)
    (group : reader.group = none) (inside : reader.openBlocks = block :: outer)
    (idle : reader.pending = [])
    (accepts : Accepts (reader.enter (.labelled (headOf reader name) label)) others) :
    ∃ statement rest, DerivesStatement (.identifier name :: .string label :: others) statement rest ∧
      rest <:+ others := by
  match others with
  | [] => exact (accepts.not_missing rfl).elim
  | kind :: others =>
      have step := accepts.step
      cases kind with
      | leftBrace =>
          rw [step_labelled_brace] at step
          obtain ⟨statements, rest, series, suffix⟩ :=
            body_of_openBlock (bodies others (by simp)) group idle step
          refine ⟨_, rest, .nested (.labelled series) (by simp [extend]), ?_⟩
          exact (List.suffix_cons _ _).trans (suffix.trans (List.suffix_cons _ _))
      | arrow =>
          rw [step_labelled_arrow reader _ _ inside] at step
          obtain ⟨kind, handler, rest, answer, rfl⟩ := handler_of_accepts step
          exact ⟨_, rest, .action (.action (.string label) answer),
            ⟨[.arrow, kind], rfl⟩⟩
      | _ => exact (accepts.not_fail (.openBrace name) [] rfl).elim

/-- A statement that goes on with a sign is an attribute or an action behind its key. -/
theorem statement_of_sign {sign : TokenKind} (assigns : IsSign sign)
    (accepts : Accepts (reader.enter (.named name {})) (sign :: others)) :
    ∃ statement rest, DerivesStatement (.identifier name :: sign :: others) statement rest ∧
      rest <:+ others := by
  have assigned : ∀ head, Accepts (reader.release.enter (.value head (.value []))) others →
      ∃ statement rest, DerivesStatement (.identifier name :: sign :: others) statement rest ∧
        rest <:+ others := by
    intro head atValue
    obtain ⟨value, rest, derivation, suffix, -⟩ := valueSound others reader.release head [] atValue
    exact ⟨_, rest, .assignment assigns derivation, suffix⟩
  have step := accepts.step
  by_cases action : name = Word.action
  · subst action
    rw [step_named_actionSign reader assigns] at step
    match others with
    | [] => exact (step.not_missing rfl).elim
    | kind :: others =>
        cases kind with
        | identifier method =>
            have target := step.step
            rw [step_actionKey_identifier] at target
            obtain ⟨action, rest, route, suffix⟩ := action_of_accepts target method
            exact ⟨_, rest, .actionKey assigns route, suffix.trans (List.suffix_cons _ _)⟩
        | string contents => exact assigned _ (step.of_reads rfl (List.suffix_refl _))
        | number lexeme => exact assigned _ (step.of_reads rfl (List.suffix_refl _))
        | boolean value => exact assigned _ (step.of_reads rfl (List.suffix_refl _))
        | leftBracket => exact assigned _ (step.of_reads rfl (List.suffix_refl _))
        | leftBrace => exact assigned _ (step.of_reads rfl (List.suffix_refl _))
        | _ => exact (step.not_fail .value [] rfl).elim
  · rw [step_named_sign reader assigns action] at step
    exact assigned _ step

/-- A statement that goes on with a brace is a group or a block without a label. -/
theorem statement_of_brace
    (bodies : ∀ shorter, shorter.length ≤ others.length → BodySound shorter)
    (group : reader.group = none) (inside : reader.openBlocks = block :: outer)
    (idle : reader.pending = [])
    (accepts : Accepts (reader.enter (.named name {})) (.leftBrace :: others)) :
    ∃ statement rest, DerivesStatement (.identifier name :: .leftBrace :: others) statement rest ∧
      rest <:+ others := by
  have step := accepts.step
  by_cases isGroup : name = Word.actions
  · subst isGroup
    rw [step_named_group] at step
    obtain ⟨actions, rest, series, suffix⟩ := groupSound others true
      { reader with group := some {} } {} block outer rfl inside idle step
    exact ⟨_, rest, .group series, (List.suffix_cons _ _).trans suffix⟩
  · rw [step_named_brace reader isGroup, release_of_pending idle] at step
    obtain ⟨statements, rest, series, suffix⟩ :=
      body_of_openBlock (bodies others (Nat.le_refl _)) group idle step
    refine ⟨_, rest, .nested (.unlabelled series) (by simp [extend, isGroup]), ?_⟩
    exact (List.suffix_cons _ _).trans suffix

/-- What a reader accepts behind the first identifier of a statement completes the
statement. -/
theorem statement_of_named
    (bodies : ∀ shorter, shorter.length ≤ others.length → BodySound shorter)
    (group : reader.group = none) (inside : reader.openBlocks = block :: outer)
    (idle : reader.pending = []) (accepts : Accepts (reader.enter (.named name {})) others) :
    ∃ statement rest, DerivesStatement (.identifier name :: others) statement rest ∧
      rest <:+ others := by
  match others with
  | [] => exact (accepts.not_missing rfl).elim
  | kind :: others =>
      have step := accepts.step
      have shorterBodies : ∀ shorter, shorter.length ≤ others.length → BodySound shorter :=
        fun shorter le => bodies shorter (Nat.le_succ_of_le le)
      have weaken : (∃ statement rest,
          DerivesStatement (.identifier name :: kind :: others) statement rest ∧ rest <:+ others) →
          ∃ statement rest, DerivesStatement (.identifier name :: kind :: others) statement rest ∧
            rest <:+ kind :: others := by
        rintro ⟨statement, rest, derivation, suffix⟩
        exact ⟨statement, rest, derivation, suffix.trans (List.suffix_cons _ _)⟩
      cases kind with
      | path target =>
          rw [step_named_path] at step
          obtain ⟨kind, handler, rest, answer, rfl⟩ := arrow_of_accepts step
          exact ⟨_, rest, .action (.action (.path target) answer),
            ⟨[.path target, .arrow, kind], rfl⟩⟩
      | string label =>
          rw [step_named_string, release_of_pending idle] at step
          exact weaken (statement_of_string shorterBodies group inside idle step)
      | leftBrace => exact weaken (statement_of_brace shorterBodies group inside idle accepts)
      | equals => exact weaken (statement_of_sign (.inl rfl) accepts)
      | colon => exact weaken (statement_of_sign (.inr rfl) accepts)
      | _ => exact (accepts.not_fail (.statementRest name) [] rfl).elim

end Named

/-- Behind an accepted statement of a block stands a line break or a closing brace, and the
reader is at the end of the statement. -/
theorem behind_of_statement {input rest : List TokenKind} {statement : Statement}
    (derivation : DerivesStatement input statement rest) (suffix : rest <:+ input)
    {reader : Reader} {block : Block} {outer : List Block} (group : reader.group = none)
    (inside : reader.openBlocks = block :: outer) (idle : reader.pending = [])
    (accepts : Accepts (reader.enter .statement) input) :
    Accepts (({ reader with openBlocks := extend block [statement] :: outer } : Reader).enter
      .statementEnd) rest := by
  have ends : EndsStatement rest := by
    cases derivation with
    | action route =>
        exact endsStatement_of_actionEnd
          (accepts.of_reads (route.reads_of_block reader group inside) suffix)
          (by simp [release, inside])
    | group series =>
        have actions := (reads_groupHeader reader _ group inside).trans
          (reads_group series rfl { reader with group := some {} } rfl inside idle)
        exact endsStatement_of_accepts (accepts.of_reads actions suffix) (by simp)
    | actionKey assigns route =>
        exact endsStatement_of_actionEnd
          (accepts.of_reads (route.reads_of_key assigns reader group inside) suffix)
          (by simp [release, inside])
    | assignment assigns part =>
        exact endsStatement_of_attributeEnd
          (accepts.of_reads (part.reads_assignment assigns _ reader group inside) suffix)
          (by simp [release, inside])
    | nested part noGroup =>
        have behind := accepts.of_reads (part.readsBlock reader group idle (.inr noGroup)) suffix
        have opened : (reader.enter .statementEnd).openBlocks = block :: outer := inside
        rw [addBlock_eq opened, show ({ reader.enter .statementEnd with
            openBlocks := extend block [.nested _] :: outer } : Reader) =
          ({ reader with openBlocks := extend block [.nested _] :: outer } : Reader).enter
            .statementEnd from rfl] at behind
        exact endsStatement_of_accepts behind (by simp)
  exact accepts.of_reads
    (derivation.readsStatement reader block outer group inside idle ends) suffix

theorem bodySound_of_shorter {input : List TokenKind}
    (shorterSound : ∀ shorter, shorter.length < input.length → BodySound shorter) :
    BodySound input := by
  intro ready reader block outer group inside idle bare accepts
  match input with
  | [] => exact absurd (accepts.atEnd.2.2.2.symm.trans inside) (by simp)
  | kind :: others =>
      rcases accepts.between with rfl | rfl | ⟨rfl, name, rfl⟩
      · have step := accepts.step
        rw [step_newline] at step
        obtain ⟨statements, rest, series, suffix⟩ :=
          shorterSound others (by simp) true reader block outer group inside idle bare step
        exact ⟨statements, rest, .separator rfl series, suffix.trans (List.suffix_cons _ _)⟩
      · exact ⟨[], others, .done, List.suffix_refl _⟩
      · have step := accepts.step
        rw [show statementMode true = .statement from rfl,
          step_identifier_of_block reader group inside] at step
        obtain ⟨statement, middle, derivation, suffix⟩ :=
          statement_of_named (fun shorter le => shorterSound shorter (Nat.lt_succ_of_le le)) group
            inside idle step
        have behind := behind_of_statement derivation (suffix.trans (List.suffix_cons _ _)) group
          inside idle accepts
        obtain ⟨statements, rest, series, tailSuffix⟩ :=
          shorterSound middle (Nat.lt_succ_of_le suffix.length_le) false
            { reader with openBlocks := extend block [statement] :: outer } _ outer group rfl idle
            bare behind
        exact ⟨statement :: statements, rest, .item derivation series,
          tailSuffix.trans (suffix.trans (List.suffix_cons _ _))⟩

/-- What a reader accepts in a block starts with statements and the closing brace. -/
theorem bodySound (input : List TokenKind) : BodySound input := by
  induction length : input.length using Nat.strongRecOn generalizing input with
  | ind _ inductionHypothesis =>
      exact bodySound_of_shorter fun shorter lt =>
        inductionHypothesis _ (length ▸ lt) shorter rfl

/-! ## Documents -/

/-- What a reader accepts at the top level behind an identifier completes a block. -/
theorem block_of_header {kind : String} {others : List TokenKind} {reader : Reader}
    (group : reader.group = none) (top : reader.openBlocks = []) (idle : reader.pending = [])
    (accepts : Accepts (reader.enter (.header (headOf reader kind))) others) :
    ∃ block rest, DerivesBlock (.identifier kind :: others) block rest ∧ rest <:+ others := by
  match others with
  | [] => exact (accepts.not_missing rfl).elim
  | next :: others =>
      have step := accepts.step
      cases next with
      | leftBrace =>
          rw [step_header_brace] at step
          obtain ⟨statements, rest, series, suffix⟩ :=
            body_of_openBlock (bodySound others) group idle step
          exact ⟨_, rest, .unlabelled series,
            (List.suffix_cons _ _).trans (suffix.trans (List.suffix_cons _ _))⟩
      | string label =>
          rw [step_header_string] at step
          match others with
          | [] => exact (step.not_missing rfl).elim
          | brace :: others =>
              have opened := step.step
              cases brace with
              | leftBrace =>
                  rw [step_labelled_brace] at opened
                  obtain ⟨statements, rest, series, suffix⟩ :=
                    body_of_openBlock (bodySound others) group idle opened
                  refine ⟨_, rest, .labelled series, ?_⟩
                  exact (List.suffix_cons _ _).trans
                    (suffix.trans ((List.suffix_cons _ _).trans (List.suffix_cons _ _)))
              | _ =>
                  exact (step.not_fail (.openBrace kind) []
                    (by simp [Reader.step, enter, stepLabelled, headOf, top])).elim
      | _ => exact (accepts.not_fail (.openBrace kind) [] rfl).elim

/-- What a reader accepts at the top level is a series of blocks. -/
theorem blocks_of_accepts (input : List TokenKind) (ready : Bool) (reader : Reader)
    (group : reader.group = none) (top : reader.openBlocks = []) (idle : reader.pending = [])
    (accepts : Accepts (reader.enter (statementMode ready)) input) :
    ∃ blocks, Series IsNewline DerivesBlock ready input blocks [] := by
  induction length : input.length using Nat.strongRecOn generalizing input ready reader with
  | ind _ inductionHypothesis =>
      match input with
      | [] => exact ⟨[], .done⟩
      | kind :: others =>
          have step := accepts.step
          rcases accepts.between with rfl | rfl | ⟨rfl, name, rfl⟩
          · rw [step_newline] at step
            obtain ⟨blocks, series⟩ := inductionHypothesis _ (by simp [← length]) others true reader
              group top idle step rfl
            exact ⟨blocks, .separator rfl series⟩
          · -- A closing brace outside of all blocks is reported.
            have silent := step.diagnostics_eq
            have close : (reader.enter (statementMode ready)).step (.bare .rightBrace) =
                (reader.enter (statementMode ready)).close (.bare .rightBrace) := by
              cases ready <;> rfl
            have noGroup : (reader.enter (statementMode ready)).group = none := group
            have outside : (reader.enter (statementMode ready)).openBlocks = [] := top
            rw [close, close_of_top _ _ noGroup outside] at silent
            simp [report, enter] at silent
          · rw [show statementMode true = .statement from rfl,
              step_identifier_of_top reader group top, release_of_pending idle] at step
            obtain ⟨block, middle, derivation, suffix⟩ := block_of_header group top idle step
            have behind := accepts.of_reads
              (derivation.readsBlock reader group idle (.inl top))
              (suffix.trans (List.suffix_cons _ _))
            have added : (reader.enter .statementEnd).addBlock block =
                ({ reader with blocks := reader.blocks ++ [block] } : Reader).enter
                  (statementMode false) := by
              simp [addBlock, enter, top, statementMode]
            rw [added] at behind
            have shorter : middle.length < (TokenKind.identifier name :: others).length :=
              Nat.lt_succ_of_le suffix.length_le
            obtain ⟨blocks, series⟩ := inductionHypothesis _ (length ▸ shorter) middle false
              { reader with blocks := reader.blocks ++ [block] } group top idle behind rfl
            exact ⟨block :: blocks, .item derivation series⟩

end ServiceDef.Grammar
