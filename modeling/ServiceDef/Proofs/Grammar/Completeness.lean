import ServiceDef.Proofs.Grammar.Reading

/-!
# Documents that derive from the grammar are read

From the readings of single values, actions and headers follow those of groups, blocks and
whole documents. Nothing is reported on the way, and the document that is read is the tree of
the derivation.
-/

namespace ServiceDef.Grammar

open Reader

/-! ## Blocks and their statements -/

@[simp] theorem extend_nil (block : Block) : extend block [] = block := by
  cases block
  simp [extend]

theorem extend_cons (block : Block) (statement : Statement) (statements : List Statement) :
    extend block (statement :: statements) = extend (extend block [statement]) statements := by
  simp [extend]

@[simp] theorem extend_noRoutes (block : Block) : extend block [.routes []] = block := by
  cases block
  simp [extend, Statement.attributes, Statement.actions, Statement.blocks]

theorem extend_routes_cons (block : Block) (action : Action) (actions : List Action) :
    extend block [.routes (action :: actions)] =
      extend (extend block [.routes [action]]) [.routes actions] := by
  simp [extend, Statement.attributes, Statement.actions, Statement.blocks]

/-- An added attribute extends the innermost block. -/
theorem addAttribute_eq {reader : Reader} {block : Block} {outer : List Block}
    (inside : reader.openBlocks = block :: outer) (attr : Attribute) :
    reader.addAttribute attr =
      { reader with openBlocks := extend block [.assignment attr] :: outer } := by
  simp [addAttribute, inside, extend, Statement.attributes, Statement.actions, Statement.blocks]

/-- An added action extends the innermost block. -/
theorem addAction_eq {reader : Reader} {block : Block} {outer : List Block}
    (inside : reader.openBlocks = block :: outer) (action : Action) :
    reader.addAction action =
      { reader with openBlocks := extend block [.routes [action]] :: outer } := by
  simp [addAction, inside, extend, Statement.attributes, Statement.actions, Statement.blocks]

/-- An added block extends the innermost block. -/
theorem addBlock_eq {reader : Reader} {block : Block} {outer : List Block}
    (inside : reader.openBlocks = block :: outer) (child : Block) :
    reader.addBlock child =
      { reader with openBlocks := extend block [.nested child] :: outer } := by
  simp [addBlock, inside, extend, Statement.attributes, Statement.actions, Statement.blocks]

/-! ## Between statements -/

/-- The mode of a reader that a statement may follow, or of one behind a statement. -/
def statementMode (ready : Bool) : Mode :=
  if ready then .statement else .statementEnd

/-- What stands behind a statement: a line break or a closing brace. -/
def EndsStatement (rest : List TokenKind) : Prop :=
  ∃ kind behind, rest = kind :: behind ∧ (kind = .newline ∨ kind = .rightBrace)

/-- Behind an item of a series that a closing brace ends stands a line break or the brace. -/
theorem Series.endsStatement {α : Type} {Item : List TokenKind → α → List TokenKind → Prop}
    {input behind : List TokenKind} {items : List α}
    (series : Series IsNewline Item false input items (.rightBrace :: behind)) :
    EndsStatement input := by
  cases series with
  | done => exact ⟨_, _, rfl, .inr rfl⟩
  | separator separates others => exact ⟨_, _, rfl, .inl separates⟩

/-- An attribute is added to its block at the end of its line. -/
theorem reads_attributeEnd (reader : Reader) (attr : Attribute) {rest : List TokenKind}
    (plain : attr.trailingComment = none) (ends : EndsStatement rest) :
    (reader.enter (.attributeEnd attr)).reads rest =
      ((reader.addAttribute attr).enter .statementEnd).reads rest := by
  obtain ⟨key, value, comments, trailing, position⟩ := attr
  obtain ⟨kind, behind, rfl, rfl | rfl⟩ := ends <;> subst plain <;> rfl

/-- An action is added to its block at the end of its line. -/
theorem reads_actionEnd (reader : Reader) (action : Action) {rest : List TokenKind}
    (plain : action.trailingComment = none) (ends : EndsStatement rest) :
    (reader.enter (.actionEnd action)).reads rest =
      ((reader.addAction action).enter .statementEnd).reads rest := by
  obtain ⟨method, target, handler, comments, trailing, position⟩ := action
  obtain ⟨kind, behind, rfl, rfl | rfl⟩ := ends <;> subst plain <;> rfl

/-- A line break makes room for the next statement. -/
theorem step_newline (reader : Reader) (ready : Bool) :
    (reader.enter (statementMode ready)).step (.bare .newline) = reader.enter .statement := by
  cases ready <;> simp [statementMode, step, enter, stepStatementEnd, stepStatement, absorb,
    Token.bare]

/-- A closing brace closes the open group. -/
theorem step_closeGroup (reader : Reader) (ready : Bool) {position : Position}
    (group : reader.group = some position) :
    (reader.enter (statementMode ready)).step (.bare .rightBrace) =
      ({ reader with group := none } : Reader).enter .statementEnd := by
  have close : (reader.enter (statementMode ready)).step (.bare .rightBrace) =
      (reader.enter (statementMode ready)).close (.bare .rightBrace) := by
    cases ready <;> rfl
  have inGroup : (reader.enter (statementMode ready)).group = some position := group
  rw [close, close_of_group _ _ inGroup]
  simp [enter]

/-- A closing brace closes the innermost block. -/
theorem step_closeBlock (reader : Reader) (ready : Bool) {block : Block} {outer : List Block}
    (group : reader.group = none) (inside : reader.openBlocks = block :: outer) :
    (reader.enter (statementMode ready)).step (.bare .rightBrace) =
      ({ reader.release with openBlocks := outer, mode := .statementEnd } : Reader).addBlock
        { block with trailingComments := reader.pending } := by
  have close : (reader.enter (statementMode ready)).step (.bare .rightBrace) =
      (reader.enter (statementMode ready)).close (.bare .rightBrace) := by
    cases ready <;> rfl
  have noGroup : (reader.enter (statementMode ready)).group = none := group
  rw [close, close_of_block _ _ noGroup inside, closeBlock_eq]
  simp [release, enter]

theorem release_of_pending {reader : Reader} (idle : reader.pending = []) :
    reader.release = reader := by
  obtain ⟨done, opened, group, mode, pending, diagnostics⟩ := reader
  subst idle
  rfl

/-- A reader in a group reads the actions of the group and its closing brace. -/
theorem reads_group {ready : Bool} {input rest behind : List TokenKind} {actions : List Action}
    (series : Series IsNewline DerivesAction ready input actions rest)
    (closed : rest = .rightBrace :: behind) (reader : Reader) {position : Position}
    {block : Block} {outer : List Block} (group : reader.group = some position)
    (inside : reader.openBlocks = block :: outer) (idle : reader.pending = []) :
    (reader.enter (statementMode ready)).reads input =
      (({ reader with
          group := none
          openBlocks := extend block [.routes actions] :: outer } : Reader).enter
        .statementEnd).reads behind := by
  induction series generalizing reader block with
  | done =>
      subst closed
      rw [reads_cons, step_closeGroup reader _ group, extend_noRoutes, ← inside]
  | separator separates others inductionHypothesis =>
      cases separates
      rw [reads_cons, step_newline]
      exact inductionHypothesis closed reader group inside idle
  | @item input action middle actions rest first others inductionHypothesis =>
      subst closed
      have plain : action.comments = [] ∧ action.trailingComment = none := by
        cases first
        exact ⟨rfl, rfl⟩
      have added : { action with comments := reader.pending } = action := by
        rw [idle, ← plain.1]
      have tail := inductionHypothesis rfl (reader.addAction action) group
        (by rw [addAction_eq inside]) idle
      rw [show statementMode true = .statement from rfl, first.reads_of_group reader group,
        added, release_of_pending idle, reads_actionEnd reader action plain.2 others.endsStatement,
        extend_routes_cons]
      exact tail

/-- A reader between two statements of a block reads the statement. -/
def ReadsStatement (input : List TokenKind) (statement : Statement) (rest : List TokenKind) :
    Prop :=
  ∀ (reader : Reader) (block : Block) (outer : List Block), reader.group = none →
    reader.openBlocks = block :: outer → reader.pending = [] → EndsStatement rest →
    (reader.enter .statement).reads input =
      (({ reader with openBlocks := extend block [statement] :: outer } : Reader).enter
        .statementEnd).reads rest

/-- A reader between two statements reads the block, unless it would be taken for a group. -/
def ReadsBlock (input : List TokenKind) (block : Block) (rest : List TokenKind) : Prop :=
  ∀ reader : Reader, reader.group = none → reader.pending = [] →
    (reader.openBlocks = [] ∨ ¬ (block.kind = Word.actions ∧ block.label = none)) →
    (reader.enter .statement).reads input =
      ((reader.enter .statementEnd).addBlock block).reads rest

/-- A reader in a block reads the statements and the closing brace of the block. -/
def ReadsBody (ready : Bool) (input : List TokenKind) (statements : List Statement)
    (rest : List TokenKind) : Prop :=
  ∀ (behind : List TokenKind) (reader : Reader) (block : Block) (outer : List Block),
    rest = .rightBrace :: behind → reader.group = none → reader.openBlocks = block :: outer →
    reader.pending = [] → block.trailingComments = [] →
    (reader.enter (statementMode ready)).reads input =
      (({ reader with openBlocks := outer, mode := .statementEnd } : Reader).addBlock
        (extend block statements)).reads behind

/-- An action that is read as such is a statement. -/
theorem readsStatement_of_action {input rest source behind : List TokenKind} {action : Action}
    (route : DerivesAction source action behind)
    (reads : ∀ (reader : Reader) (block : Block) (outer : List Block), reader.group = none →
      reader.openBlocks = block :: outer →
      (reader.enter .statement).reads input =
        (reader.release.enter (.actionEnd { action with comments := reader.pending })).reads rest) :
    ReadsStatement input (.routes [action]) rest := by
  intro reader block outer group inside idle ends
  have bare : action.comments = [] ∧ action.trailingComment = none := by
    cases route
    exact ⟨rfl, rfl⟩
  have added : { action with comments := reader.pending } = action := by
    rw [idle, ← bare.1]
  rw [reads reader block outer group inside, added, release_of_pending idle,
    reads_actionEnd reader action bare.2 ends, addAction_eq inside]

theorem readsStatement_action {input rest : List TokenKind} {action : Action}
    (route : DerivesAction input action rest) : ReadsStatement input (.routes [action]) rest :=
  readsStatement_of_action route fun reader _ _ => route.reads_of_block reader

theorem readsStatement_actionKey {sign : TokenKind} {input rest : List TokenKind}
    {action : Action} (assigns : IsSign sign) (route : DerivesAction input action rest) :
    ReadsStatement (.identifier Word.action :: sign :: input) (.routes [action]) rest :=
  readsStatement_of_action route fun reader _ _ => route.reads_of_key assigns reader

theorem readsStatement_group {input rest : List TokenKind} {actions : List Action}
    (inside : Series IsNewline DerivesAction true input actions (.rightBrace :: rest)) :
    ReadsStatement (.identifier Word.actions :: .leftBrace :: input) (.routes actions) rest := by
  intro reader block outer group opened idle _
  have actions := reads_group inside rfl { reader with group := some {} } rfl opened idle
  rw [reads_groupHeader reader input group opened, group]
  exact actions

theorem readsStatement_assignment {input rest : List TokenKind} {key : String}
    {sign : TokenKind} {value : Value} (assigns : IsSign sign)
    (part : DerivesValue input value rest) :
    ReadsStatement (.identifier key :: sign :: input)
      (.assignment { key := key, value := value }) rest := by
  intro reader block outer group inside idle ends
  have assigned := part.reads_assignment assigns key reader group inside
  rw [release_of_pending idle, idle] at assigned
  rw [assigned, reads_attributeEnd reader _ rfl ends, addAttribute_eq inside]

theorem readsStatement_nested {input rest : List TokenKind} {child : Block}
    (reads : ReadsBlock input child rest)
    (noGroup : ¬ (child.kind = Word.actions ∧ child.label = none)) :
    ReadsStatement input (.nested child) rest := by
  intro reader block outer group inside idle _
  have behind : (reader.enter .statementEnd).openBlocks = block :: outer := inside
  rw [reads reader group idle (.inr noGroup), addBlock_eq behind]
  rfl

/-- A block is read by its header and its body. -/
theorem readsBlock_of_body (header : List TokenKind) {input rest : List TokenKind} {kind : String}
    {label : Option String} {statements : List Statement}
    (opens : ∀ reader : Reader, reader.group = none →
      (reader.openBlocks = [] ∨ ¬ (kind = Word.actions ∧ label = none)) →
      (reader.enter .statement).reads (header ++ input) =
        (reader.release.openBlock (headOf reader kind) label).reads input)
    (body : ReadsBody true input statements (.rightBrace :: rest)) :
    ReadsBlock (header ++ input) (extend { kind := kind, label := label } statements) rest := by
  intro reader group idle noGroup
  have bare : headOf reader kind = { name := kind, comments := [], position := {} } := by
    simp [headOf, idle]
  rw [opens reader group noGroup, release_of_pending idle, bare]
  exact body rest (reader.openBlock { name := kind, comments := [], position := {} } label) _ _
    rfl group rfl idle rfl

/-- A reader between two statements reads what derives from a block. The readings of statements
and bodies are the companions that the nesting of blocks asks for. -/
theorem DerivesBlock.readsBlock {input rest : List TokenKind} {block : Block}
    (derivation : DerivesBlock input block rest) : ReadsBlock input block rest := by
  refine @DerivesBlock.rec
    (fun input statement rest _ => ReadsStatement input statement rest)
    (fun input block rest _ => ReadsBlock input block rest)
    (fun ready input statements rest _ => ReadsBody ready input statements rest)
    ?action ?group ?actionKey ?assignment ?nested ?unlabelled ?labelled ?done ?separator ?item
    input block rest derivation
  case action =>
    intro input action rest route
    exact readsStatement_action route
  case group =>
    intro input actions rest inside
    exact readsStatement_group inside
  case actionKey =>
    intro sign input action rest assigns route
    exact readsStatement_actionKey assigns route
  case assignment =>
    intro key sign input value rest assigns part
    exact readsStatement_assignment assigns part
  case nested =>
    intro input child rest _ noGroup reads
    exact readsStatement_nested reads noGroup
  case unlabelled =>
    intro kind input statements rest _ body
    refine readsBlock_of_body [.identifier kind, .leftBrace] ?_ body
    intro reader group noGroup
    exact reads_header reader kind input group (noGroup.imp_right (by simp))
  case labelled =>
    intro kind label input statements rest _ body
    refine readsBlock_of_body [.identifier kind, .string label, .leftBrace] ?_ body
    intro reader group _
    exact reads_labelledHeader reader kind label input group
  case done =>
    rintro ready _ behind reader block outer rfl group inside idle bare
    have closed : { block with trailingComments := reader.pending } = block := by
      cases block
      simp_all
    rw [reads_cons, step_closeBlock reader ready group inside, extend_nil, closed,
      release_of_pending idle]
  case separator =>
    rintro ready _ input statements rest rfl _ body behind reader block outer closed group inside
      idle bare
    rw [reads_cons, step_newline]
    exact body behind reader block outer closed group inside idle bare
  case item =>
    rintro input statement middle statements rest _ series reads body behind reader block outer
      rfl group inside idle bare
    have tail := body behind { reader with openBlocks := extend block [statement] :: outer }
      (extend block [statement]) outer rfl group rfl idle bare
    rw [show statementMode true = .statement from rfl,
      reads reader block outer group inside idle series.endsStatement,
      extend_cons block statement statements]
    exact tail

/-- A reader between two statements of a block reads what derives from a statement. -/
theorem DerivesStatement.readsStatement {input rest : List TokenKind} {statement : Statement}
    (derivation : DerivesStatement input statement rest) : ReadsStatement input statement rest := by
  cases derivation with
  | action route => exact readsStatement_action route
  | group inside => exact readsStatement_group inside
  | actionKey assigns route => exact readsStatement_actionKey assigns route
  | assignment assigns part => exact readsStatement_assignment assigns part
  | nested part noGroup => exact readsStatement_nested part.readsBlock noGroup

/-- At the top level, a reader reads blocks one after the other. -/
theorem reads_blocks {ready : Bool} {input rest : List TokenKind} {blocks : List Block}
    (series : Series IsNewline DerivesBlock ready input blocks rest) (reader : Reader)
    (group : reader.group = none) (top : reader.openBlocks = []) (idle : reader.pending = []) :
    ∃ last, (reader.enter (statementMode ready)).reads input =
      (({ reader with blocks := reader.blocks ++ blocks } : Reader).enter
        (statementMode last)).reads rest := by
  induction series generalizing reader with
  | @done ready rest => exact ⟨ready, by simp⟩
  | separator separates others inductionHypothesis =>
      cases separates
      rw [reads_cons, step_newline]
      exact inductionHypothesis reader group top idle
  | @item input block middle blocks rest first others inductionHypothesis =>
      obtain ⟨last, tail⟩ := inductionHypothesis
        { reader with blocks := reader.blocks ++ [block] } group top idle
      refine ⟨last, ?_⟩
      rw [show statementMode true = .statement from rfl,
        first.readsBlock reader group idle (.inl top)]
      have added : (reader.enter .statementEnd).addBlock block =
          ({ reader with blocks := reader.blocks ++ [block] } : Reader).enter
            (statementMode false) := by
        simp [addBlock, enter, top, statementMode]
      rw [added, tail]
      simp

/-- A reader that is given the kinds of a document holds its tree at the end, and has nothing to
report. -/
theorem finish_reads_of_series {content : List TokenKind} {blocks : List Block}
    (series : Series IsNewline DerivesBlock true content blocks []) :
    (({} : Reader).reads content).finish (.bare .endOfFile) = { blocks := blocks } := by
  obtain ⟨last, reads⟩ := reads_blocks series {} rfl rfl rfl
  rw [show ({} : Reader) = ({} : Reader).enter (statementMode true) from rfl, reads]
  cases last <;> rfl

end ServiceDef.Grammar
