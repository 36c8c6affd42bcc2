import ServiceDef.Proofs.Layout.Carrying
import ServiceDef.Proofs.Reader.Erasure

/-!
# Printing and parsing

Parsing the canonical text of a well-formed document gives the document back, up to its file name
and its positions. The induction is on the nesting of blocks: the lines of a block carry a reader
to the one that has the block in addition.
-/

namespace ServiceDef

open Grammar Reader

/-! ## Blocks -/

namespace Block

theorem erasePositionsAll_eq_map (blocks : List Block) :
    erasePositionsAll blocks = blocks.map erasePositions := by
  induction blocks with
  | nil => rfl
  | cons block blocks inductionHypothesis => simp [erasePositionsAll, inductionHypothesis]

/-- The block as its header opens it, with the comments above it. -/
def heading (block : Block) : Block where
  kind := block.kind
  label := block.label
  comments := block.comments

/-- The statements of a block in the order in which they are printed, without positions. -/
def statements (block : Block) : List Statement :=
  block.attributes.map (fun attr => .assignment attr.erasePositions) ++
    ([.routes (block.actions.map Action.erasePosition)] ++
      block.blocks.map fun child => .nested child.erasePositions)

/-- A block without positions is made of its statements. -/
theorem erasePositions_eq_extend (block : Block) :
    block.erasePositions =
      { extend block.heading block.statements with
        trailingComments := block.trailingComments } := by
  obtain ⟨kind, label, attributes, blocks, actions, comments, trailingComments, position⟩ := block
  have nothing {α β : Type} (parts : List α) : parts.flatMap (fun _ => ([] : List β)) = [] :=
    List.flatMap_eq_nil_iff.2 fun _ _ => rfl
  simp [erasePositions, extend, heading, statements, erasePositionsAll_eq_map, List.flatMap_map,
    Statement.attributes, Statement.actions, Statement.blocks, ← List.map_eq_flatMap, nothing]

end Block

theorem extend_append (block : Block) (first second : List Statement) :
    extend block (first ++ second) = extend (extend block first) second := by
  simp [extend]

/-- The tokens of the kind and label of a block and of its opening brace. -/
def headerKinds (kind : String) (label : Option String) : List TokenKind :=
  .identifier kind :: (label.map .string).toList ++ [.leftBrace]

theorem spells_headerKinds {kind : String} (identifier : Word.isIdentifier kind = true)
    (label : Option String) :
    Spells Anywhere ((Layout.headerText kind label).toList ++ [' ', '{'])
      ((headerKinds kind label).map Token.bare) := by
  have brace : Spells Anywhere [' ', '{'] [.bare .leftBrace] :=
    spells_space.followedBy (spells_mark '{' rfl rfl (by decide))
  have stops (text rest : List Char) : Stops (' ' :: text ++ rest) := by
    simp [Word.isIdentifierPart]
  cases label with
  | none => exact (spells_identifier identifier).stopped brace (stops _)
  | some label =>
      have labelled := (spells_identifier identifier).stopped
        (spells_space.followedBy ((spells_quote label).followedBy brace)) (stops _)
      simpa [Layout.headerText, headerKinds] using labelled

/-- The kind of a block, its label and its opening brace open the block. The comments above it
have been read. -/
theorem spells_headerText {kind : String} (identifier : Word.isIdentifier kind = true)
    (label : Option String) :
    ∃ kinds : List TokenKind,
      Spells Anywhere ((Layout.headerText kind label).toList ++ [' ', '{'])
        (kinds.map Token.bare) ∧
      ∀ (reader : Reader) (rest : List TokenKind), reader.group = none →
        (reader.openBlocks = [] ∨ Word.startsGroup kind label = false) →
        (reader.enter .statement).reads (kinds ++ rest) =
          (reader.release.openBlock (headOf reader kind) label).reads rest := by
  refine ⟨headerKinds kind label, spells_headerKinds identifier label,
    fun reader rest group noGroup => ?_⟩
  cases label with
  | none =>
      refine reads_header reader kind rest group (noGroup.imp_right ?_)
      simp [Word.startsGroup]
  | some label => exact reads_labelledHeader reader kind label rest group

/-- Reading the lines of a block adds it, unless it would be taken for a group. -/
def CarriesBlock (settings : PrintSettings) (block : Block) : Prop :=
  ∀ (depth : Nat) (reader : Reader), reader.group = none → reader.pending = [] →
    (reader.openBlocks = [] ∨ Word.startsGroup block.kind block.label = false) →
    Carries (Layout.blockLines settings depth block) reader (reader.addBlock block.erasePositions)

/-- The blocks of a block, one after the other. -/
theorem carriesEach_nested (settings : PrintSettings) (depth : Nat) {blocks : List Block}
    (carries : ∀ child ∈ blocks, CarriesBlock settings child)
    (noGroup : ∀ child ∈ blocks, Word.startsGroup child.kind child.label = false)
    (reader : Reader) (block : Block) (outer : List Block) :
    CarriesEach (Layout.blockGroups settings depth blocks) (reader.within none block outer)
      (reader.within none (extend block (blocks.map fun child => .nested child.erasePositions))
        outer) := by
  induction blocks generalizing block with
  | nil => rw [List.map_nil, extend_nil]; rfl
  | cons child blocks inductionHypothesis =>
      have first := carries child List.mem_cons_self depth (reader.within none block outer) rfl rfl
        (.inr (noGroup child List.mem_cons_self))
      have others := inductionHypothesis
        (fun other member => carries other (List.mem_cons_of_mem child member))
        (fun other member => noGroup other (List.mem_cons_of_mem child member))
        (extend block [.nested child.erasePositions])
      have inside : (reader.within none block outer).openBlocks = block :: outer := rfl
      rw [addBlock_eq inside] at first
      rw [List.map_cons, extend_cons]
      exact ⟨_, first, others⟩

section Block

variable {settings : PrintSettings} {reader : Reader} (group : reader.group = none)
  (idle : reader.pending = [])

theorem addBlock_enter (reader : Reader) (mode : Mode) (block : Block) :
    (reader.enter mode).addBlock block = (reader.addBlock block).enter mode := by
  obtain ⟨done, opened, group, current, pending, diagnostics⟩ := reader
  cases opened <;> rfl

include group idle

/-- The closing brace of a block adds it to what was open around it. -/
theorem reads_blockEnd (block : Block) (comments : List String) (rest : List TokenKind) :
    (({ reader.within none block reader.openBlocks with pending := comments } : Reader).enter
      .statement).reads (.rightBrace :: .newline :: rest) =
        ((reader.addBlock { block with trailingComments := comments }).enter .statement).reads
          rest := by
  have outside : ({ reader.release with
      group := none, openBlocks := reader.openBlocks, mode := .statementEnd } : Reader) =
        reader.enter .statementEnd := by
    ext <;> simp [release, enter, group, idle]
  rw [reads_cons, show Mode.statement = statementMode true from rfl,
    step_closeBlock _ true rfl rfl]
  refine (congrArg (fun reader : Reader => (reader.addBlock _).reads _) outside).trans ?_
  rw [addBlock_enter, reads_cons]
  exact congrArg (Reader.reads · rest) (step_newline _ false)

omit idle in
/-- The header of a block opens it, with the comments above it. -/
theorem openBlock_eq_within (block : Block) :
    ({ reader with pending := block.comments } : Reader).release.openBlock
        (headOf { reader with pending := block.comments } block.kind) block.label =
      (reader.within none block.heading reader.openBlocks).enter .statement := by
  ext <;> simp [release, openBlock, enter, Reader.within, Block.heading, headOf, group]

end Block

/-- The lines of a block, by its parts. -/
theorem blockLines_eq (settings : PrintSettings) (depth : Nat) (block : Block) :
    Layout.blockLines settings depth block =
      Layout.commentLines depth block.comments ++
        if block.hasBody then
          [{ depth := depth, content := Layout.headerText block.kind block.label ++ " \x7b" }] ++
            Line.separate
              (Layout.groupOf block.attributes
                (block.attributes.flatMap (Layout.attributeLines settings.limit (depth + 1))) ++
               Layout.groupOf block.actions (Layout.actionsLines settings depth block.actions) ++
               Layout.blockGroups settings (depth + 1) block.blocks) ++
            Layout.commentLines (depth + 1) block.trailingComments ++
            [{ depth := depth, content := "\x7d" }]
        else
          [{ depth := depth
             content := Layout.headerText block.kind block.label ++ " \x7b\x7d" }] := by
  cases block
  rw [Layout.blockLines, Block.hasBody]
  split <;> simp_all

/-- The body of a block adds its statements. -/
theorem carries_body {settings : PrintSettings} {block : Block}
    (wellFormed : block.wellFormed = true)
    (nested : ∀ child ∈ block.blocks, CarriesBlock settings child) (depth : Nat) (reader : Reader)
    (start : Block) (outer : List Block) :
    Carries
      (Line.separate
        (Layout.groupOf block.attributes
          (block.attributes.flatMap (Layout.attributeLines settings.limit (depth + 1))) ++
         Layout.groupOf block.actions (Layout.actionsLines settings depth block.actions) ++
         Layout.blockGroups settings (depth + 1) block.blocks))
      (reader.within none start outer)
      (reader.within none (extend start block.statements) outer) := by
  obtain ⟨-, attributesFormed, actionsFormed, -, -, blocksFormed⟩ := block.wellFormed_iff.1 wellFormed
  have assignments := carries_attributes settings (depth + 1) reader outer attributesFormed start
  have routes := carries_actionsLines settings depth reader outer actionsFormed
    (extend start (block.attributes.map fun attr => .assignment attr.erasePositions))
  have children := carriesEach_nested settings (depth + 1) nested
    (fun child member => ((Block.wellFormedNested_iff _).1 blocksFormed child member).1) reader
    (extend (extend start (block.attributes.map fun attr => .assignment attr.erasePositions))
      [.routes (block.actions.map Action.erasePosition)]) outer
  rw [Block.statements, extend_append, extend_append]
  refine CarriesEach.separate (((CarriesEach.groupOf assignments ?_).append
    (CarriesEach.groupOf routes ?_)).append children)
  · intro none
    rw [none, List.map_nil, extend_nil]
  · intro none
    rw [none, List.map_nil, extend_noRoutes]

/-- The lines of a block add it, if this holds of the blocks in it. -/
theorem carriesBlock_of_nested {settings : PrintSettings} {block : Block}
    (wellFormed : block.wellFormed = true)
    (nested : ∀ child ∈ block.blocks, CarriesBlock settings child) :
    CarriesBlock settings block := by
  intro depth reader group idle noGroup
  obtain ⟨identifier, -, -, commentsFormed, trailingFormed, -⟩ :=
    block.wellFormed_iff.1 wellFormed
  obtain ⟨kinds, spells, opens⟩ := spells_headerText identifier block.label
  have opened (rest : List TokenKind) :
      (({ reader with pending := block.comments } : Reader).enter .statement).reads
          (kinds ++ rest) =
        ((reader.within none block.heading reader.openBlocks).enter .statement).reads rest := by
    rw [← openBlock_eq_within group block]
    exact opens _ rest group noGroup
  have above := carries_commentLines depth commentsFormed reader
  rw [idle, List.nil_append] at above
  have brace : Spells Anywhere (['}'] ++ ['\n']) ([.bare .rightBrace] ++ [.bare .newline]) :=
    (spells_mark '}' rfl rfl (by decide)).followedBy spells_newline
  rw [blockLines_eq, Block.erasePositions_eq_extend]
  refine above.append ?_
  split
  · have header : Carries
        [{ depth := depth, content := Layout.headerText block.kind block.label ++ " \x7b" }]
        { reader with pending := block.comments }
        (reader.within none block.heading reader.openBlocks) := by
      refine .lineOfKinds (kinds ++ [.newline])
        (by simpa using spells.followedBy spells_newline) ?_
      exact (opened [.newline]).trans (step_newline _ true)
    have body := carries_body wellFormed nested depth reader block.heading reader.openBlocks
    have trailing := carries_commentLines (depth + 1) trailingFormed
      (reader.within none (extend block.heading block.statements) reader.openBlocks)
    have ending := reads_blockEnd group idle (extend block.heading block.statements)
      block.trailingComments []
    exact ((header.append body).append trailing).append (.line (by simpa using brace) ending)
  · next empty =>
      simp only [Block.hasBody, Bool.not_eq_true, Bool.not_eq_false', Bool.and_eq_true,
        List.isEmpty_iff] at empty
      obtain ⟨⟨⟨attributes, blocks⟩, actions⟩, trailing⟩ := empty
      have bare : extend block.heading block.statements = block.heading := by
        simp [Block.statements, attributes, blocks, actions]
      have ending := reads_blockEnd group idle block.heading [] []
      rw [bare, trailing]
      refine .lineOfKinds (kinds ++ [.rightBrace, .newline])
        (by simpa using spells.followedBy brace) ?_
      exact (opened _).trans ending

/-- The lines of every well-formed block add it. -/
theorem carriesBlock (settings : PrintSettings) (block : Block)
    (wellFormed : block.wellFormed = true) : CarriesBlock settings block := by
  induction block using Block.induction with
  | step block inductionHypothesis =>
      refine carriesBlock_of_nested wellFormed fun child member => ?_
      have nested := (block.wellFormed_iff.1 wellFormed).2.2.2.2.2
      exact inductionHypothesis child member
        ((Block.wellFormedNested_iff _).1 nested child member).2

/-! ## Documents -/

/-- The top-level blocks of a document, one after the other. -/
theorem carriesEach_top (settings : PrintSettings) {blocks : List Block}
    (wellFormed : blocks.all Block.wellFormed = true) (before : List Block) :
    CarriesEach (Layout.blockGroups settings 0 blocks) { blocks := before }
      { blocks := before ++ Block.erasePositionsAll blocks } := by
  induction blocks generalizing before with
  | nil =>
      rw [Block.erasePositionsAll, List.append_nil]
      rfl
  | cons block blocks inductionHypothesis =>
      rw [List.all_cons, Bool.and_eq_true] at wellFormed
      have first := carriesBlock settings block wellFormed.1 0 { blocks := before } rfl rfl
        (.inl rfl)
      have others := inductionHypothesis wellFormed.2 (before ++ [block.erasePositions])
      rw [List.append_assoc] at others
      exact ⟨_, first, others⟩

/-- The lines of a document carry an empty reader to its blocks and comments. -/
theorem carries_documentLines (settings : PrintSettings) {document : Document}
    (wellFormed : document.wellFormed = true) :
    Carries (Layout.documentLines settings document) {}
      { blocks := Block.erasePositionsAll document.blocks
        pending := document.trailingComments } := by
  simp only [Document.wellFormed, Bool.and_eq_true] at wellFormed
  have blocks := carriesEach_top settings wellFormed.1 []
  have comments := carries_commentLines 0 wellFormed.2
    { blocks := Block.erasePositionsAll document.blocks }
  refine CarriesEach.separate (blocks.append (CarriesEach.groupOf comments ?_))
  intro none
  rw [none]
  rfl

/-- A document is printed, and its text is parsed without a diagnostic to the same structure. -/
theorem parse_print_of_wellFormed (file : String) (settings : PrintSettings) {document : Document}
    (wellFormed : document.wellFormed = true) :
    (parse file (document.print settings)).diagnostics = [] ∧
      (parse file (document.print settings)).document.erasePositions =
        document.erasePositions := by
  obtain ⟨tokens, spells, run⟩ := carries_documentLines settings wellFormed
  have stream := spells.scans [] trivial
  rw [List.append_nil, tokensOf_nil] at stream
  have finished : (({} : Reader).run tokens).finish (.bare .endOfFile) =
      { blocks := Block.erasePositionsAll document.blocks
        pending := document.trailingComments } := by
    refine (congrArg (Reader.finish · _) run).trans ?_
    simp [finish, finishStatement, finishGroup, finishBlocks, enter, missing]
  obtain ⟨erased, silent⟩ := parse_of_tokensOf file stream
  rw [finished] at erased silent
  refine ⟨silent.2 ⟨?_, rfl⟩, erased⟩
  intro token member
  rcases List.mem_append.1 member with member | member
  · exact spells.valid token member
  · rw [List.mem_singleton.1 member]
    rfl

/-- Parsing the canonical text of a well-formed document gives the document back: nothing is
reported, and the two documents have the same structure. -/
theorem parse_print (file : String) (settings : PrintSettings) (document : Document)
    (wellFormed : document.wellFormed = true) :
    (parse file (document.print settings)).diagnostics = [] ∧
      (parse file (document.print settings)).document.sameStructure document = true := by
  obtain ⟨silent, same⟩ := parse_print_of_wellFormed file settings wellFormed
  exact ⟨silent, decide_eq_true same⟩

/-- A document with a comment before a closing brace, a labelled block of the kind `actions`, a
quoted target and a map in a list. -/
def mixedDocument : Document where
  blocks :=
    [{ kind := "service"
       label := some "a \"b\""
       comments := ["# above"]
       attributes :=
         [{ key := "action"
            value := .list [.map [{ key := "k", value := .scalar (.number "-1.50") }]]
            trailingComment := some "# behind" }]
       actions :=
         [{ method := "actions", target := "/x/\x7bid\x7d", handler := "true" },
          { method := "get", target := "a -> b", handler := "h", comments := ["# route"] }]
       blocks := [{ kind := "actions", label := some "", trailingComments := ["# last"] }] }]
  trailingComments := ["#"]

theorem parse_print_mixedDocument :
    mixedDocument.wellFormed = true ∧
      (parse "f" (mixedDocument.print { style := .multi, limit := 1 })).diagnostics = [] ∧
      (parse "f" (mixedDocument.print { style := .multi, limit := 1 })).document.sameStructure
        mixedDocument = true :=
  have wellFormed : mixedDocument.wellFormed = true := by decide
  ⟨wellFormed, parse_print "f" { style := .multi, limit := 1 } mixedDocument wellFormed⟩

end ServiceDef
