import ServiceDef.Proofs.Reader.Reports
import ServiceDef.Proofs.Scanning.Regularity

/-!
# Readers that hold well-formed parts

A reader of regular tokens holds only parts of well-formed documents, whatever it has read
before: a statement that is given up leaves nothing behind, and the comments in it wait for the
next part. The parts of a reader are those it has completed or opened, the comments that wait,
and what its mode remembers of the current statement.
-/

namespace ServiceDef

/-- The name is an identifier and the comments are comments of one line. -/
def Head.wellFormed (head : Head) : Bool :=
  Word.isIdentifier head.name && head.comments.all Word.isComment

/-- What has been read of the list or map is well formed. -/
def OpenValue.wellFormed : OpenValue → Bool
  | .list items => Value.wellFormedItems items
  | .map entries key _ => Value.wellFormedEntries entries && Word.isIdentifier key

/-- What has been read of the value is well formed. -/
def ValuePlace.wellFormed : ValuePlace → Bool
  | .value outer => outer.all OpenValue.wellFormed
  | .item items outer => Value.wellFormedItems items && outer.all OpenValue.wellFormed
  | .itemEnd items outer => Value.wellFormedItems items && outer.all OpenValue.wellFormed
  | .key entries outer => Value.wellFormedEntries entries && outer.all OpenValue.wellFormed
  | .keyEnd entries name _ outer =>
    Value.wellFormedEntries entries && Word.isIdentifier name && outer.all OpenValue.wellFormed
  | .entryEnd entries outer => Value.wellFormedEntries entries && outer.all OpenValue.wellFormed

/-- What has been read of the current statement is well formed. -/
def Mode.wellFormed : Mode → Bool
  | .statement | .statementEnd | .skipping _ => true
  | .header head | .labelled head _ | .actionKey head => head.wellFormed
  | .actionTarget head | .actionArrow head _ | .actionHandler head _ => head.wellFormed
  | .named name _ => Word.isIdentifier name
  | .value head place => head.wellFormed && place.wellFormed
  | .attributeEnd attr => attr.wellFormed
  | .actionEnd action => action.wellFormed

/-- The open blocks, innermost first, are well formed, and only the outermost one may be written
like a group. -/
def Block.wellFormedOpen : List Block → Bool
  | [] => true
  | block :: outer =>
    block.wellFormed && (outer.isEmpty || !Word.startsGroup block.kind block.label) &&
      wellFormedOpen outer

/-- The name of a regular identifier is one. -/
theorem identifier_of_regular {token : Token} {name : String} (regular : token.regular = true)
    (kind : token.kind = .identifier name) : Word.isIdentifier name = true := by
  simp only [Token.regular, kind, TokenKind.regular, Bool.and_eq_true] at regular
  exact regular.1

/-- The text of a regular number is one. -/
theorem number_of_regular {token : Token} {lexeme : String} (regular : token.regular = true)
    (kind : token.kind = .number lexeme) : Word.isNumber lexeme = true := by
  simp only [Token.regular, kind, TokenKind.regular, Bool.and_eq_true] at regular
  exact regular.1

namespace Value

@[simp] theorem wellFormedItems_append (left right : List Value) :
    wellFormedItems (left ++ right) = (wellFormedItems left && wellFormedItems right) := by
  induction left with
  | nil => rfl
  | cons item items inductionHypothesis =>
      simp [wellFormedItems, inductionHypothesis, Bool.and_assoc]

@[simp] theorem wellFormedEntries_append (left right : List (Entry Value)) :
    wellFormedEntries (left ++ right) = (wellFormedEntries left && wellFormedEntries right) := by
  induction left with
  | nil => rfl
  | cons entry entries inductionHypothesis =>
      simp [wellFormedEntries, inductionHypothesis, Bool.and_assoc]

end Value

namespace Reader

/-- All blocks and all waiting comments of the reader are well formed. -/
structure Settled (reader : Reader) : Prop where
  blocks : reader.blocks.all Block.wellFormed = true
  openBlocks : Block.wellFormedOpen reader.openBlocks = true
  pending : reader.pending.all Word.isComment = true

/-- All parts of the reader are well formed, and the header of a top-level block is read at the
top level. -/
structure Formed (reader : Reader) : Prop extends Settled reader where
  mode : reader.mode.wellFormed = true
  header : ∀ head, reader.mode = .header head → reader.openBlocks = []

/-! ## Operations -/

namespace Settled

variable {reader : Reader} {token : Token}

/-- Between two statements, nothing is remembered of one. -/
theorem enter (settled : reader.Settled) {mode : Mode} (formed : mode.wellFormed = true)
    (noHeader : ∀ head, mode ≠ .header head) : (reader.enter mode).Formed where
  toSettled := ⟨settled.blocks, settled.openBlocks, settled.pending⟩
  mode := formed
  header head same := absurd same (noHeader head)

theorem enterPlain (settled : reader.Settled) {mode : Mode}
    (plain : mode = .statement ∨ mode = .statementEnd ∨ ∃ brackets, mode = .skipping brackets) :
    (reader.enter mode).Formed := by
  rcases plain with rfl | rfl | ⟨brackets, rfl⟩ <;> exact settled.enter rfl (by simp)

theorem absorb (settled : reader.Settled) (regular : token.regular = true) :
    (reader.absorb token).Settled where
  blocks := settled.blocks
  openBlocks := settled.openBlocks
  pending := by
    simp only [Token.regular, Bool.and_eq_true] at regular
    simp only [Reader.absorb, List.all_append, settled.pending, regular.2, Bool.and_self]

theorem release (settled : reader.Settled) : reader.release.Settled where
  blocks := settled.blocks
  openBlocks := settled.openBlocks
  pending := rfl

theorem expected (settled : reader.Settled) (expectation : Expectation) (token : Token) :
    (reader.expected expectation token).Settled := by
  obtain ⟨found, same⟩ := expected_eq reader expectation token
  rw [same]
  exact ⟨settled.blocks, settled.openBlocks, settled.pending⟩

theorem head (settled : reader.Settled) {name : String} (identifier : Word.isIdentifier name = true)
    (position : Position) : (reader.head name position).wellFormed = true := by
  simp only [Head.wellFormed, Reader.head, identifier, settled.pending, Bool.and_self]

/-- A change of the innermost open block that leaves its kind and label alone. -/
theorem modifyHead (settled : reader.Settled) (change : Block → Block)
    (same : ∀ block, (change block).kind = block.kind ∧ (change block).label = block.label)
    (formed : ∀ block, block.wellFormed = true → (change block).wellFormed = true) :
    ({ reader with openBlocks := reader.openBlocks.modifyHead change } : Reader).Settled := by
  refine ⟨settled.blocks, ?_, settled.pending⟩
  have opened := settled.openBlocks
  cases openBlocks : reader.openBlocks with
  | nil => rfl
  | cons block outer =>
      simp only [openBlocks, Block.wellFormedOpen, Bool.and_eq_true] at opened
      simp only [List.modifyHead_cons, Block.wellFormedOpen, (same block).1, (same block).2,
        formed block opened.1.1, opened.1.2, opened.2, Bool.and_self]

theorem addAttribute (settled : reader.Settled) {attr : Attribute}
    (formed : attr.wellFormed = true) : (reader.addAttribute attr).Settled := by
  refine settled.modifyHead _ (fun _ => ⟨rfl, rfl⟩) fun block blockFormed => ?_
  rw [Block.wellFormed_iff] at blockFormed ⊢
  simpa [formed] using blockFormed

theorem addAction (settled : reader.Settled) {action : Action}
    (formed : action.wellFormed = true) : (reader.addAction action).Settled := by
  refine settled.modifyHead _ (fun _ => ⟨rfl, rfl⟩) fun block blockFormed => ?_
  rw [Block.wellFormed_iff] at blockFormed ⊢
  simpa [formed] using blockFormed

/-- A well-formed block is added, unless it stands in another one and is written like a group. -/
theorem addBlock (settled : reader.Settled) {block : Block} (formed : block.wellFormed = true)
    (noGroup : reader.openBlocks = [] ∨ Word.startsGroup block.kind block.label = false) :
    (reader.addBlock block).Settled := by
  obtain ⟨done, opened, group, mode, pending, diagnostics⟩ := reader
  obtain ⟨blocksFormed, openFormed, pendingFormed⟩ := settled
  cases opened with
  | nil => exact ⟨by simpa [Reader.addBlock, formed] using blocksFormed, rfl, pendingFormed⟩
  | cons parent outer =>
      have plain : Word.startsGroup block.kind block.label = false := by simpa using noGroup
      refine ⟨blocksFormed, ?_, pendingFormed⟩
      simp only [Block.wellFormedOpen, Bool.and_eq_true] at openFormed
      have extended := Block.wellFormed_addChild openFormed.1.1 formed plain
      simp only [Reader.addBlock, Block.wellFormedOpen, extended, openFormed.1.2, openFormed.2,
        Bool.and_self]

theorem openBlock (settled : reader.Settled) {head : Head} (formed : head.wellFormed = true)
    (label : Option String)
    (noGroup : reader.openBlocks = [] ∨ Word.startsGroup head.name label = false) :
    (reader.openBlock head label).Formed := by
  simp only [Head.wellFormed, Bool.and_eq_true] at formed
  refine ⟨⟨settled.blocks, ?_, settled.pending⟩, rfl, fun head same => by cases same⟩
  have outermost : (reader.openBlocks.isEmpty || !Word.startsGroup head.name label) = true := by
    rcases noGroup with top | plain
    · simp [top]
    · simp [plain]
  have opened : Block.wellFormed
      { kind := head.name
        label := label
        comments := head.comments
        position := head.position } = true := by
    simp only [Block.wellFormed, Block.wellFormedNested, List.all_nil, formed.1, formed.2,
      Bool.and_self]
  simp only [Reader.openBlock, Block.wellFormedOpen, opened, outermost, settled.openBlocks,
    Bool.and_self]

/-- The innermost open block is complete at its closing brace. -/
theorem closeBlock (settled : reader.Settled) {block : Block} {outer : List Block}
    (inside : reader.openBlocks = block :: outer) : (reader.closeBlock block outer).Formed := by
  have opened := settled.openBlocks
  simp only [inside, Block.wellFormedOpen, Bool.and_eq_true, Bool.or_eq_true] at opened
  have closed := Block.wellFormed_trailing opened.1.1 settled.pending
  rw [closeBlock_eq]
  have outside : ({ reader.release with openBlocks := outer, mode := .statementEnd } :
      Reader).Settled := ⟨settled.blocks, opened.2, rfl⟩
  have added := outside.addBlock closed (by simpa using opened.1.2)
  exact ⟨added, by simp [Mode.wellFormed], fun head same => by simp at same⟩

/-! ## Between statements -/

theorem begin (settled : reader.Settled) (regular : token.regular = true) {name : String}
    (identifier : Word.isIdentifier name = true) : (reader.begin name token).Formed := by
  have absorbed := settled.absorb regular
  have formed := absorbed.head identifier token.position
  cases group : reader.group with
  | some position =>
      rw [begin_of_group reader name token group]
      exact absorbed.release.enter formed (by simp)
  | none =>
      cases opened : reader.openBlocks with
      | nil =>
          rw [begin_of_top reader name token group opened]
          exact ⟨⟨absorbed.blocks, absorbed.openBlocks, rfl⟩, formed, fun _ _ => opened⟩
      | cons block outer =>
          rw [begin_of_block reader name token group opened]
          exact absorbed.enter identifier (by simp)

theorem close (settled : reader.Settled) (regular : token.regular = true) :
    (reader.close token).Formed := by
  have absorbed := settled.absorb regular
  cases group : reader.group with
  | some position =>
      rw [close_of_group reader token group]
      exact ⟨⟨absorbed.blocks, absorbed.openBlocks, absorbed.pending⟩, rfl,
        fun head same => by cases same⟩
  | none =>
      cases opened : reader.openBlocks with
      | nil =>
          rw [close_of_top reader token group opened]
          exact ⟨⟨absorbed.blocks, absorbed.openBlocks, absorbed.pending⟩, rfl,
            fun head same => by cases same⟩
      | cons block outer =>
          rw [close_of_block reader token group opened]
          exact absorbed.closeBlock opened

theorem stepStatement (settled : reader.Settled) (regular : token.regular = true) :
    (reader.stepStatement token).Formed := by
  unfold Reader.stepStatement
  split
  · exact (settled.absorb regular).enterPlain (by simp)
  · exact settled.close regular
  · next name kind =>
      exact settled.begin regular (identifier_of_regular regular kind)
  · exact ((settled.expected _ token).absorb regular).enterPlain (by simp)

theorem stepSkipping (settled : reader.Settled) (regular : token.regular = true)
    (brackets : List Bracket) : (reader.stepSkipping brackets token).Formed := by
  have skip (brackets : List Bracket) :
      ((reader.absorb token).enter (.skipping brackets)).Formed :=
    (settled.absorb regular).enterPlain (by simp)
  have statement := settled.stepStatement regular
  unfold Reader.stepSkipping
  split
  · split
    · exact statement
    · exact skip _
  · exact skip _
  · exact skip _
  · split
    · exact skip _
    · exact statement
  · split <;> exact skip _
  · exact skip _

theorem fail (settled : reader.Settled) (regular : token.regular = true)
    (expectation : Expectation) (brackets : List Bracket) :
    (reader.fail expectation brackets token).Formed :=
  (settled.expected expectation token).stepSkipping regular brackets

theorem stepStatementEnd (settled : reader.Settled) (regular : token.regular = true) :
    (reader.stepStatementEnd token).Formed := by
  unfold Reader.stepStatementEnd
  split
  · exact settled.stepStatement regular
  · exact settled.stepStatement regular
  · exact settled.fail regular _ _

/-! ## Values -/

section Values

variable {head : Head} {outer : List OpenValue}

theorem complete (settled : reader.Settled) (formed : head.wellFormed = true)
    (outerFormed : outer.all OpenValue.wellFormed = true) {value : Value}
    (valueFormed : value.wellFormed = true) : (reader.complete head outer value).Formed := by
  simp only [Head.wellFormed, Bool.and_eq_true] at formed
  unfold Reader.complete
  split
  · refine settled.enter ?_ (by simp)
    simp only [Mode.wellFormed, Attribute.wellFormed, formed.1, formed.2, valueFormed,
      Option.all_none, Bool.and_self]
  · simp only [List.all_cons, OpenValue.wellFormed, Bool.and_eq_true] at outerFormed
    refine settled.enter ?_ (by simp)
    simp only [Mode.wellFormed, Head.wellFormed, ValuePlace.wellFormed, formed.1, formed.2,
      Value.wellFormedItems_append, Value.wellFormedItems, valueFormed, outerFormed.1,
      outerFormed.2, Bool.and_self]
  · simp only [List.all_cons, OpenValue.wellFormed, Bool.and_eq_true] at outerFormed
    refine settled.enter ?_ (by simp)
    simp only [Mode.wellFormed, Head.wellFormed, ValuePlace.wellFormed, formed.1, formed.2,
      Value.wellFormedEntries_append, Value.wellFormedEntries, valueFormed, outerFormed.1.1,
      outerFormed.1.2, outerFormed.2, Bool.and_self]

theorem enterPlace (settled : reader.Settled) (formed : head.wellFormed = true)
    {place : ValuePlace} (placeFormed : place.wellFormed = true) :
    (reader.enter (.value head place)).Formed :=
  settled.enter (by simp only [Mode.wellFormed, formed, placeFormed, Bool.and_self]) (by simp)

theorem stepValue (settled : reader.Settled) (regular : token.regular = true)
    (formed : head.wellFormed = true) (outerFormed : outer.all OpenValue.wellFormed = true) :
    (reader.stepValue head outer token).Formed := by
  have absorbed := settled.absorb regular
  unfold Reader.stepValue
  split
  · exact absorbed.complete formed outerFormed rfl
  · next lexeme kind =>
      exact absorbed.complete formed outerFormed (number_of_regular regular kind)
  · exact absorbed.complete formed outerFormed rfl
  · exact absorbed.enterPlace formed outerFormed
  · exact absorbed.enterPlace formed outerFormed
  · exact settled.fail regular _ _

theorem stepPlace (settled : reader.Settled) (regular : token.regular = true)
    (formed : head.wellFormed = true) {place : ValuePlace} (placeFormed : place.wellFormed = true) :
    (reader.stepPlace head place token).Formed := by
  have absorbed := settled.absorb regular
  have wrong := settled.fail regular place.expectation place.brackets
  cases place with
  | value outer => exact settled.stepValue regular formed placeFormed
  | item items outer =>
      have parts := placeFormed
      simp only [ValuePlace.wellFormed, Bool.and_eq_true] at parts
      simp only [Reader.stepPlace]
      split
      · exact absorbed.enterPlace formed placeFormed
      · exact absorbed.complete formed parts.2 parts.1
      · refine settled.stepValue regular formed ?_
        simp only [List.all_cons, OpenValue.wellFormed, parts.1, parts.2, Bool.and_self]
  | itemEnd items outer =>
      have parts := placeFormed
      simp only [ValuePlace.wellFormed, Bool.and_eq_true] at parts
      simp only [Reader.stepPlace]
      split
      · exact absorbed.enterPlace formed placeFormed
      · exact absorbed.enterPlace formed placeFormed
      · exact absorbed.complete formed parts.2 parts.1
      · exact wrong
  | key entries outer =>
      have parts := placeFormed
      simp only [ValuePlace.wellFormed, Bool.and_eq_true] at parts
      simp only [Reader.stepPlace]
      split
      · exact absorbed.enterPlace formed placeFormed
      · exact absorbed.enterPlace formed placeFormed
      · exact absorbed.complete formed parts.2 parts.1
      · next name kind =>
          refine absorbed.enterPlace formed ?_
          simp only [ValuePlace.wellFormed, parts.1, parts.2, identifier_of_regular regular kind,
            Bool.and_self]
      · exact wrong
  | keyEnd entries name position outer =>
      have parts := placeFormed
      simp only [ValuePlace.wellFormed, Bool.and_eq_true] at parts
      have inside : (ValuePlace.value (.map entries name position :: outer)).wellFormed = true := by
        simp only [ValuePlace.wellFormed, List.all_cons, OpenValue.wellFormed, parts.1.1,
          parts.1.2, parts.2, Bool.and_self]
      simp only [Reader.stepPlace]
      split
      · exact absorbed.enterPlace formed inside
      · exact absorbed.enterPlace formed inside
      · exact wrong
  | entryEnd entries outer =>
      have parts := placeFormed
      simp only [ValuePlace.wellFormed, Bool.and_eq_true] at parts
      simp only [Reader.stepPlace]
      split
      · exact absorbed.enterPlace formed placeFormed
      · exact absorbed.enterPlace formed placeFormed
      · exact absorbed.complete formed parts.2 parts.1
      · exact wrong

end Values

/-! ## Statements -/

section Statements

variable {head : Head}

theorem stepHeader (settled : reader.Settled) (regular : token.regular = true)
    (formed : head.wellFormed = true) (top : reader.openBlocks = []) :
    (reader.stepHeader head token).Formed := by
  have absorbed := settled.absorb regular
  unfold Reader.stepHeader
  split
  · exact absorbed.enter formed (by simp)
  · exact absorbed.openBlock formed none (.inl top)
  · exact settled.fail regular _ _

theorem stepNamed (settled : reader.Settled) (regular : token.regular = true) {name : String}
    (identifier : Word.isIdentifier name = true) (position : Position) :
    (reader.stepNamed name position token).Formed := by
  have formed := settled.head identifier position
  have taken := settled.release.absorb regular
  have absorbed := settled.absorb regular
  have assigned : Formed
      (if name = Word.action then
        (reader.release.absorb token).enter (.actionKey (reader.head name position))
      else (reader.release.absorb token).enter
        (.value (reader.head name position) (.value []))) := by
    split
    · exact taken.enter formed (by simp)
    · exact taken.enterPlace formed rfl
  unfold Reader.stepNamed
  split
  · exact taken.enter formed (by simp)
  · exact taken.enter formed (by simp)
  · split
    · exact ⟨⟨absorbed.blocks, absorbed.openBlocks, absorbed.pending⟩, rfl,
        fun head same => by cases same⟩
    · next other =>
        exact taken.openBlock formed none (.inr (by simp [Word.startsGroup, Reader.head, other]))
  · exact assigned
  · exact assigned
  · exact settled.fail regular _ _

theorem stepLabelled (settled : reader.Settled) (regular : token.regular = true)
    (formed : head.wellFormed = true) (label : String) :
    (reader.stepLabelled head label token).Formed := by
  have absorbed := settled.absorb regular
  unfold Reader.stepLabelled
  split
  · exact absorbed.openBlock formed (some label) (.inr (by simp [Word.startsGroup]))
  · exact absorbed.enter formed (by simp)
  · exact settled.fail regular _ _

theorem stepActionKey (settled : reader.Settled) (regular : token.regular = true)
    (formed : head.wellFormed = true) : (reader.stepActionKey head token).Formed := by
  unfold Reader.stepActionKey
  split
  · next method kind =>
      simp only [Head.wellFormed, Bool.and_eq_true] at formed
      have comments := (settled.absorb regular).pending
      simp only [Reader.absorb, List.all_append, Bool.and_eq_true] at comments
      refine settled.release.enter ?_ (by simp)
      simp only [Mode.wellFormed, Head.wellFormed, List.all_append, formed.2, comments.1,
        comments.2, identifier_of_regular regular kind, Bool.and_self]
  · exact settled.stepValue regular formed rfl

theorem stepActionTarget (settled : reader.Settled) (regular : token.regular = true)
    (formed : head.wellFormed = true) : (reader.stepActionTarget head token).Formed := by
  have absorbed := settled.absorb regular
  unfold Reader.stepActionTarget
  split
  · exact absorbed.enter formed (by simp)
  · exact absorbed.enter formed (by simp)
  · exact settled.fail regular _ _

theorem stepActionArrow (settled : reader.Settled) (regular : token.regular = true)
    (formed : head.wellFormed = true) (target : String) :
    (reader.stepActionArrow head target token).Formed := by
  unfold Reader.stepActionArrow
  split
  · exact (settled.absorb regular).enter formed (by simp)
  · exact settled.fail regular _ _

theorem stepActionHandler (settled : reader.Settled) (regular : token.regular = true)
    (formed : head.wellFormed = true) (target : String) :
    (reader.stepActionHandler head target token).Formed := by
  have absorbed := settled.absorb regular
  have route (handler : String) : Action.wellFormed
      { method := head.name
        target := target
        handler := handler
        comments := head.comments
        position := head.position } = true := by
    simp only [Head.wellFormed, Bool.and_eq_true] at formed
    simp only [Action.wellFormed, formed.1, formed.2, Option.all_none, Bool.and_self]
  unfold Reader.stepActionHandler
  split
  · exact absorbed.enter (route _) (by simp)
  · exact absorbed.enter (route _) (by simp)
  · exact settled.fail regular _ _

/-- The comment of a line break and what is left of the line break are regular. -/
theorem lineComment_regular (regular : token.regular = true) :
    (lineComment token).1.all Word.isComment = true ∧ (lineComment token).2.regular = true := by
  unfold lineComment
  split
  · next comment comments kind all =>
      simp only [Token.regular, all, List.all_cons, Bool.and_eq_true] at regular
      exact ⟨regular.2.1, by simp only [Token.regular, regular.1, regular.2.2, Bool.and_self]⟩
  · exact ⟨rfl, regular⟩

theorem stepAttributeEnd (settled : reader.Settled) (regular : token.regular = true)
    {attr : Attribute} (formed : attr.wellFormed = true) :
    (reader.stepAttributeEnd attr token).Formed := by
  obtain ⟨comment, rest⟩ := lineComment_regular regular
  rw [stepAttributeEnd_eq]
  refine (settled.addAttribute ?_).stepStatementEnd rest
  simp only [Attribute.wellFormed, Bool.and_eq_true] at formed ⊢
  exact ⟨formed.1, comment⟩

theorem stepActionEnd (settled : reader.Settled) (regular : token.regular = true)
    {action : Action} (formed : action.wellFormed = true) :
    (reader.stepActionEnd action token).Formed := by
  obtain ⟨comment, rest⟩ := lineComment_regular regular
  rw [stepActionEnd_eq]
  refine (settled.addAction ?_).stepStatementEnd rest
  simp only [Action.wellFormed, Bool.and_eq_true] at formed ⊢
  exact ⟨formed.1, comment⟩

end Statements

end Settled

/-! ## Runs -/

namespace Formed

variable {reader : Reader} {token : Token}

/-- A regular token keeps a reader well formed, in every mode. -/
theorem step (formed : reader.Formed) (regular : token.regular = true) :
    (reader.step token).Formed := by
  have settled := formed.toSettled
  have mode := formed.mode
  unfold Reader.step
  cases current : reader.mode with
  | statement => exact settled.stepStatement regular
  | statementEnd => exact settled.stepStatementEnd regular
  | skipping brackets => exact settled.stepSkipping regular brackets
  | header head =>
      rw [current] at mode
      exact settled.stepHeader regular mode (formed.header head current)
  | named name position =>
      rw [current] at mode
      exact settled.stepNamed regular mode position
  | labelled head label =>
      rw [current] at mode
      exact settled.stepLabelled regular mode label
  | actionKey head =>
      rw [current] at mode
      exact settled.stepActionKey regular mode
  | value head place =>
      rw [current] at mode
      simp only [Mode.wellFormed, Bool.and_eq_true] at mode
      exact settled.stepPlace regular mode.1 mode.2
  | attributeEnd attr =>
      rw [current] at mode
      exact settled.stepAttributeEnd regular mode
  | actionTarget head =>
      rw [current] at mode
      exact settled.stepActionTarget regular mode
  | actionArrow head target =>
      rw [current] at mode
      exact settled.stepActionArrow regular mode target
  | actionHandler head target =>
      rw [current] at mode
      exact settled.stepActionHandler regular mode target
  | actionEnd action =>
      rw [current] at mode
      exact settled.stepActionEnd regular mode

/-- Regular tokens keep a reader well formed. -/
theorem run (formed : reader.Formed) {tokens : List Token}
    (regular : ∀ token ∈ tokens, token.regular = true) : (reader.run tokens).Formed := by
  induction tokens generalizing reader with
  | nil => exact formed
  | cons token tokens inductionHypothesis =>
      exact inductionHypothesis (formed.step (regular token List.mem_cons_self))
        fun other member => regular other (List.mem_cons_of_mem token member)

/-- A reader stays well formed when its statement ends with the file. -/
theorem finishStatement (formed : reader.Formed) (token : Token) :
    (reader.finishStatement token).Settled := by
  obtain ⟨found, reported⟩ := reader.reportMissing_eq token
  have settled : (reader.reportMissing token).Settled := by
    rw [reported]
    exact ⟨formed.blocks, formed.openBlocks, formed.pending⟩
  have mode := formed.mode
  rw [show reader.mode = (reader.reportMissing token).mode by rw [reported]] at mode
  rw [finishStatement_match]
  split
  · next attr current =>
      rw [current] at mode
      exact ((settled.addAttribute mode).enterPlain (.inl rfl)).toSettled
  · next action current =>
      rw [current] at mode
      exact ((settled.addAction mode).enterPlain (.inl rfl)).toSettled
  · exact (settled.enterPlain (.inl rfl)).toSettled

end Formed

/-- Open blocks that end together are one well-formed block. -/
theorem wellFormed_nest {block : Block} {outer : List Block} (formed : block.wellFormed = true)
    (noGroup : outer.isEmpty = true ∨ Word.startsGroup block.kind block.label = false)
    (outerFormed : Block.wellFormedOpen outer = true) : (nest block outer).wellFormed = true := by
  induction outer generalizing block with
  | nil => exact formed
  | cons parent outer inductionHypothesis =>
      simp only [Block.wellFormedOpen, Bool.and_eq_true, Bool.or_eq_true,
        Bool.not_eq_true'] at outerFormed
      have plain : Word.startsGroup block.kind block.label = false := by simpa using noGroup
      exact inductionHypothesis (Block.wellFormed_addChild outerFormed.1.1 formed plain)
        outerFormed.1.2 outerFormed.2

theorem Settled.finishBlocks {reader : Reader} (settled : reader.Settled) :
    reader.finishBlocks.Settled := by
  unfold Reader.finishBlocks
  split
  · exact settled
  · next block outer opened =>
      have openFormed := settled.openBlocks
      simp only [opened, Block.wellFormedOpen, Bool.and_eq_true, Bool.or_eq_true,
        Bool.not_eq_true'] at openFormed
      have closed := wellFormed_nest
        (Block.wellFormed_trailing openFormed.1.1 settled.pending) openFormed.1.2 openFormed.2
      refine ⟨?_, rfl, rfl⟩
      have blocks := settled.blocks
      simp only [List.all_append, List.all_cons, List.all_nil, blocks, closed, Bool.and_self]

/-- A reader is well formed at the end of the file. -/
theorem Formed.finish {reader : Reader} {token : Token} (formed : reader.Formed)
    (regular : token.regular = true) : (reader.finish token).Settled := by
  have statement := formed.finishStatement token
  have group : (reader.finishStatement token).finishGroup.Settled := by
    unfold Reader.finishGroup
    split
    · exact ⟨statement.blocks, statement.openBlocks, statement.pending⟩
    · exact statement
  exact group.finishBlocks.absorb regular

end Reader

end ServiceDef
