import ServiceDef.Proofs.Reader.Operations

/-!
# Relabelled tokens

What a reader does with a token is decided by the kind of the token alone. Positions and
comments are only passed on to the document and to the diagnostics. A `Relabelling` renames
positions and may drop all comments, and `Relabelling.reader_run` says that reading relabelled
tokens is the same as relabelling what was read.

Proofs about readers can thus choose how much of the labels they want to see: erasing
positions gives structural equality of documents, and erasing comments as well leaves the
kinds of tokens.
-/

namespace ServiceDef

/-- A change of the labels of tokens that leaves their kinds alone. -/
structure Relabelling where
  position : Position → Position
  keepsComments : Bool

namespace Relabelling

variable (change : Relabelling)

/-- The comments that are left of some comments. -/
def comments (texts : List String) : List String :=
  if change.keepsComments then texts else []

/-- The comment that is left of a comment behind a statement. -/
def comment (text : Option String) : Option String :=
  if change.keepsComments then text else none

/-- The relabelled token. -/
def token (token : Token) : Token where
  kind := token.kind
  position := change.position token.position
  comments := change.comments token.comments

/-- The relabelled diagnostic. -/
def diagnostic (diagnostic : Diagnostic) : Diagnostic :=
  { diagnostic with position := change.position diagnostic.position }

mutual

/-- The relabelled value. -/
def value : Value → Value
  | .scalar s => .scalar s
  | .list values => .list (items values)
  | .map parts => .map (entries parts)

/-- The relabelled items of a list. -/
def items : List Value → List Value
  | [] => []
  | item :: rest => value item :: items rest

/-- The relabelled entries of a map. -/
def entries : List (Entry Value) → List (Entry Value)
  | [] => []
  | ⟨key, part, position⟩ :: rest =>
    { key := key, value := value part, position := change.position position } :: entries rest

end

/-- The relabelled attribute. -/
def attr (attr : Attribute) : Attribute where
  key := attr.key
  value := change.value attr.value
  comments := change.comments attr.comments
  trailingComment := change.comment attr.trailingComment
  position := change.position attr.position

/-- The relabelled action. -/
def action (action : Action) : Action where
  method := action.method
  target := action.target
  handler := action.handler
  comments := change.comments action.comments
  trailingComment := change.comment action.trailingComment
  position := change.position action.position

mutual

/-- The relabelled block. -/
def block : Block → Block
  | ⟨kind, label, attributes, children, actions, comments, trailingComments, position⟩ =>
    { kind := kind
      label := label
      attributes := attributes.map change.attr
      blocks := blocks children
      actions := actions.map change.action
      comments := change.comments comments
      trailingComments := change.comments trailingComments
      position := change.position position }

/-- The relabelled blocks. -/
def blocks : List Block → List Block
  | [] => []
  | child :: rest => block child :: blocks rest

end

/-- The relabelled head of a statement. -/
def head (head : Head) : Head where
  name := head.name
  comments := change.comments head.comments
  position := change.position head.position

/-- The relabelled list or map around a value. -/
def openValue : OpenValue → OpenValue
  | .list values => .list (change.items values)
  | .map parts key position => .map (change.entries parts) key (change.position position)

/-- The relabelled place inside of a value. -/
def place : ValuePlace → ValuePlace
  | .value outer => .value (outer.map change.openValue)
  | .item values outer => .item (change.items values) (outer.map change.openValue)
  | .itemEnd values outer => .itemEnd (change.items values) (outer.map change.openValue)
  | .key parts outer => .key (change.entries parts) (outer.map change.openValue)
  | .keyEnd parts key position outer =>
    .keyEnd (change.entries parts) key (change.position position) (outer.map change.openValue)
  | .entryEnd parts outer => .entryEnd (change.entries parts) (outer.map change.openValue)

/-- The relabelled mode. -/
def mode : Mode → Mode
  | .statement => .statement
  | .statementEnd => .statementEnd
  | .skipping brackets => .skipping brackets
  | .header head => .header (change.head head)
  | .named name position => .named name (change.position position)
  | .labelled head label => .labelled (change.head head) label
  | .actionKey head => .actionKey (change.head head)
  | .value head place => .value (change.head head) (change.place place)
  | .attributeEnd attr => .attributeEnd (change.attr attr)
  | .actionTarget head => .actionTarget (change.head head)
  | .actionArrow head target => .actionArrow (change.head head) target
  | .actionHandler head target => .actionHandler (change.head head) target
  | .actionEnd action => .actionEnd (change.action action)

/-- The relabelled reader. -/
def reader (reader : Reader) : Reader where
  blocks := change.blocks reader.blocks
  openBlocks := change.blocks reader.openBlocks
  group := reader.group.map change.position
  mode := change.mode reader.mode
  pending := change.comments reader.pending
  diagnostics := reader.diagnostics.map change.diagnostic

@[simp] theorem comments_nil : change.comments [] = [] := by
  simp [comments]

@[simp] theorem comments_append (left right : List String) :
    change.comments (left ++ right) = change.comments left ++ change.comments right := by
  unfold comments
  split <;> simp

@[simp] theorem comment_none : change.comment none = none := by
  simp [comment]

@[simp] theorem items_append (left right : List Value) :
    change.items (left ++ right) = change.items left ++ change.items right := by
  induction left with
  | nil => rfl
  | cons item rest inductionHypothesis => simp [items, inductionHypothesis]

@[simp] theorem entries_append (left right : List (Entry Value)) :
    change.entries (left ++ right) = change.entries left ++ change.entries right := by
  induction left with
  | nil => rfl
  | cons entry rest inductionHypothesis => simp [entries, inductionHypothesis]

@[simp] theorem blocks_append (left right : List Block) :
    change.blocks (left ++ right) = change.blocks left ++ change.blocks right := by
  induction left with
  | nil => rfl
  | cons child rest inductionHypothesis => simp [blocks, inductionHypothesis]

/-- The relabelled block by its parts. -/
theorem block_eq (parent : Block) :
    change.block parent =
      { kind := parent.kind
        label := parent.label
        attributes := parent.attributes.map change.attr
        blocks := change.blocks parent.blocks
        actions := parent.actions.map change.action
        comments := change.comments parent.comments
        trailingComments := change.comments parent.trailingComments
        position := change.position parent.position } := by
  cases parent
  rfl

@[simp] theorem bracket_openValue (outer : OpenValue) :
    (change.openValue outer).bracket = outer.bracket := by
  cases outer <;> rfl

@[simp] theorem bracket_comp_openValue :
    OpenValue.bracket ∘ change.openValue = OpenValue.bracket :=
  funext change.bracket_openValue

/-- Relabelling leaves the open brackets of a value as they are. -/
@[simp] theorem brackets_place (place : ValuePlace) :
    (change.place place).brackets = place.brackets := by
  cases place <;> simp [Relabelling.place, ValuePlace.brackets]

@[simp] theorem expectation_place (place : ValuePlace) :
    (change.place place).expectation = place.expectation := by
  cases place <;> rfl

/-! ## Operations of a reader -/

@[simp] theorem reader_enter (reader : Reader) (mode : Mode) :
    change.reader (reader.enter mode) = (change.reader reader).enter (change.mode mode) := rfl

@[simp] theorem reader_absorb (reader : Reader) (token : Token) :
    change.reader (reader.absorb token) = (change.reader reader).absorb (change.token token) := by
  simp [Relabelling.reader, Reader.absorb, Relabelling.token]

@[simp] theorem reader_release (reader : Reader) :
    change.reader reader.release = (change.reader reader).release := by
  simp [Relabelling.reader, Reader.release]

@[simp] theorem reader_head (reader : Reader) (name : String) (position : Position) :
    change.head (reader.head name position) =
      (change.reader reader).head name (change.position position) := rfl

@[simp] theorem reader_report (reader : Reader) (fault : ReadFault) (position : Position) :
    change.reader (reader.report fault position) =
      (change.reader reader).report fault (change.position position) := by
  simp [Relabelling.reader, Reader.report, diagnostic, Diagnostic.malformed]

@[simp] theorem reader_expected (reader : Reader) (expectation : Expectation) (token : Token) :
    change.reader (reader.expected expectation token) =
      (change.reader reader).expected expectation (change.token token) := by
  obtain ⟨kind, position, comments⟩ := token
  cases kind <;> simp [Reader.expected, Relabelling.token]

@[simp] theorem reader_addAttribute (reader : Reader) (attr : Attribute) :
    change.reader (reader.addAttribute attr) =
      (change.reader reader).addAttribute (change.attr attr) := by
  obtain ⟨done, opened, group, mode, pending, diagnostics⟩ := reader
  cases opened <;> simp [Relabelling.reader, Reader.addAttribute, blocks, block_eq]

@[simp] theorem reader_addAction (reader : Reader) (action : Action) :
    change.reader (reader.addAction action) =
      (change.reader reader).addAction (change.action action) := by
  obtain ⟨done, opened, group, mode, pending, diagnostics⟩ := reader
  cases opened <;> simp [Relabelling.reader, Reader.addAction, blocks, block_eq]

@[simp] theorem reader_openBlock (reader : Reader) (head : Head) (label : Option String) :
    change.reader (reader.openBlock head label) =
      (change.reader reader).openBlock (change.head head) label := by
  simp [Relabelling.reader, Reader.openBlock, Relabelling.head, blocks, block_eq, mode]

@[simp] theorem reader_closeBlock (reader : Reader) (block : Block) (outer : List Block) :
    change.reader (reader.closeBlock block outer) =
      (change.reader reader).closeBlock (change.block block) (change.blocks outer) := by
  cases outer <;>
    simp [Relabelling.reader, Reader.closeBlock, Reader.release, blocks, block_eq, mode]

@[simp] theorem reader_complete (reader : Reader) (head : Head) (outer : List OpenValue)
    (value : Value) :
    change.reader (reader.complete head outer value) =
      (change.reader reader).complete (change.head head) (outer.map change.openValue)
        (change.value value) := by
  match outer with
  | [] => simp [Reader.complete, mode, attr, Relabelling.head]
  | .list values :: outer => simp [Reader.complete, openValue, mode, place, items]
  | .map parts key position :: outer => simp [Reader.complete, openValue, mode, place, entries]

@[simp] theorem statementExpectation_reader (reader : Reader) :
    (change.reader reader).statementExpectation = reader.statementExpectation := by
  obtain ⟨done, opened, group, mode, pending, diagnostics⟩ := reader
  cases group <;> cases opened <;> rfl

/-! ## Steps -/

theorem group_reader {reader : Reader} {group : Option Position} (same : reader.group = group) :
    (change.reader reader).group = group.map change.position := by
  simp [Relabelling.reader, same]

theorem openBlocks_reader {reader : Reader} {opened : List Block}
    (same : reader.openBlocks = opened) :
    (change.reader reader).openBlocks = change.blocks opened := by
  simp [Relabelling.reader, same]

@[simp] theorem reader_begin (reader : Reader) (name : String) (token : Token) :
    change.reader (reader.begin name token) =
      (change.reader reader).begin name (change.token token) := by
  cases group : reader.group with
  | some position =>
      rw [reader.begin_of_group name token group,
        (change.reader reader).begin_of_group name _ (change.group_reader group)]
      simp [mode]
      rfl
  | none =>
      cases opened : reader.openBlocks with
      | nil =>
          rw [reader.begin_of_top name token group opened,
            (change.reader reader).begin_of_top name _ (change.group_reader group)
              (change.openBlocks_reader opened)]
          simp [mode]
          rfl
      | cons block outer =>
          rw [reader.begin_of_block name token group opened,
            (change.reader reader).begin_of_block name _ (change.group_reader group)
              (change.openBlocks_reader opened)]
          simp [mode]
          rfl

@[simp] theorem reader_close (reader : Reader) (token : Token) :
    change.reader (reader.close token) = (change.reader reader).close (change.token token) := by
  cases group : reader.group with
  | some position =>
      rw [reader.close_of_group token group,
        (change.reader reader).close_of_group _ (change.group_reader group), ← reader_absorb]
      rfl
  | none =>
      cases opened : reader.openBlocks with
      | nil =>
          rw [reader.close_of_top token group opened,
            (change.reader reader).close_of_top _ (change.group_reader group)
              (change.openBlocks_reader opened)]
          simp [mode]
          rfl
      | cons block outer =>
          rw [reader.close_of_block token group opened,
            (change.reader reader).close_of_block _ (change.group_reader group)
              (change.openBlocks_reader opened)]
          simp

@[simp] theorem reader_stepStatement (reader : Reader) (token : Token) :
    change.reader (reader.stepStatement token) =
      (change.reader reader).stepStatement (change.token token) := by
  obtain ⟨kind, position, comments⟩ := token
  cases kind <;> simp [Reader.stepStatement, Relabelling.token, Relabelling.mode]

@[simp] theorem reader_stepSkipping (reader : Reader) (brackets : List Bracket) (token : Token) :
    change.reader (reader.stepSkipping brackets token) =
      (change.reader reader).stepSkipping brackets (change.token token) := by
  unfold Reader.stepSkipping
  simp only [show (change.token token).kind = token.kind from rfl]
  split
  · split <;> simp [mode]
  · simp [mode]
  · simp [mode]
  · split <;> simp [mode]
  · split <;> simp [mode]
  · simp [mode]

@[simp] theorem reader_fail (reader : Reader) (expectation : Expectation)
    (brackets : List Bracket) (token : Token) :
    change.reader (reader.fail expectation brackets token) =
      (change.reader reader).fail expectation brackets (change.token token) := by
  simp [Reader.fail]

@[simp] theorem reader_stepStatementEnd (reader : Reader) (token : Token) :
    change.reader (reader.stepStatementEnd token) =
      (change.reader reader).stepStatementEnd (change.token token) := by
  unfold Reader.stepStatementEnd
  simp only [show (change.token token).kind = token.kind from rfl]
  split <;> simp

@[simp] theorem reader_stepValue (reader : Reader) (head : Head) (outer : List OpenValue)
    (token : Token) :
    change.reader (reader.stepValue head outer token) =
      (change.reader reader).stepValue (change.head head) (outer.map change.openValue)
        (change.token token) := by
  unfold Reader.stepValue
  simp only [show (change.token token).kind = token.kind from rfl]
  split <;> simp [mode, place, items, entries, value]

@[simp] theorem reader_stepPlace (reader : Reader) (head : Head) (place : ValuePlace)
    (token : Token) :
    change.reader (reader.stepPlace head place token) =
      (change.reader reader).stepPlace (change.head head) (change.place place)
        (change.token token) := by
  have wrong : change.reader (reader.fail place.expectation place.brackets token) =
      (change.reader reader).fail (change.place place).expectation (change.place place).brackets
        (change.token token) := by simp
  have kind : (change.token token).kind = token.kind := rfl
  unfold Reader.stepPlace
  cases place with
  | value outer => simp [Relabelling.place]
  | item values outer =>
      simp only [Relabelling.place, kind]
      split <;> simp [mode, Relabelling.place, value, openValue]
  | itemEnd values outer =>
      simp only [Relabelling.place, kind] at wrong ⊢
      split
      · simp [mode, Relabelling.place]
      · simp [mode, Relabelling.place]
      · simp [value]
      · exact wrong
  | key parts outer =>
      simp only [Relabelling.place, kind] at wrong ⊢
      split
      · simp [mode, Relabelling.place]
      · simp [mode, Relabelling.place]
      · simp [value]
      · simp [mode, Relabelling.place, Relabelling.token]
      · exact wrong
  | keyEnd parts key position outer =>
      simp only [Relabelling.place, kind] at wrong ⊢
      split
      · simp [mode, Relabelling.place, openValue]
      · simp [mode, Relabelling.place, openValue]
      · exact wrong
  | entryEnd parts outer =>
      simp only [Relabelling.place, kind] at wrong ⊢
      split
      · simp [mode, Relabelling.place]
      · simp [mode, Relabelling.place]
      · simp [value]
      · exact wrong

@[simp] theorem reader_stepHeader (reader : Reader) (head : Head) (token : Token) :
    change.reader (reader.stepHeader head token) =
      (change.reader reader).stepHeader (change.head head) (change.token token) := by
  unfold Reader.stepHeader
  simp only [show (change.token token).kind = token.kind from rfl]
  split <;> simp [mode, Relabelling.head]

@[simp] theorem reader_stepNamed (reader : Reader) (name : String) (position : Position)
    (token : Token) :
    change.reader (reader.stepNamed name position token) =
      (change.reader reader).stepNamed name (change.position position) (change.token token) := by
  unfold Reader.stepNamed
  simp only [show (change.token token).kind = token.kind from rfl]
  split
  · simp [mode]
  · simp [mode]
  · split
    · rw [← reader_absorb]
      rfl
    · simp
  · split <;> simp [mode, place]
  · split <;> simp [mode, place]
  · simp

@[simp] theorem reader_stepLabelled (reader : Reader) (head : Head) (label : String)
    (token : Token) :
    change.reader (reader.stepLabelled head label token) =
      (change.reader reader).stepLabelled (change.head head) label (change.token token) := by
  unfold Reader.stepLabelled
  simp only [show (change.token token).kind = token.kind from rfl]
  cases opened : reader.openBlocks with
  | nil =>
      rw [change.openBlocks_reader opened]
      split <;> simp_all [blocks, Relabelling.head]
  | cons block outer =>
      rw [change.openBlocks_reader opened]
      split <;> simp_all [blocks, mode, Relabelling.head]

@[simp] theorem reader_stepActionKey (reader : Reader) (head : Head) (token : Token) :
    change.reader (reader.stepActionKey head token) =
      (change.reader reader).stepActionKey (change.head head) (change.token token) := by
  unfold Reader.stepActionKey
  simp only [show (change.token token).kind = token.kind from rfl]
  split
  · rw [reader_enter, reader_release]
    simp only [mode, Relabelling.head, comments_append]
    rfl
  · simp

/-- The comment that a line break ends is kept or dropped with all others. -/
theorem lineComment_token (token : Token) :
    Reader.lineComment (change.token token) =
      (change.comment (Reader.lineComment token).1, change.token (Reader.lineComment token).2) := by
  obtain ⟨position, keeps⟩ := change
  obtain ⟨kind, place, texts⟩ := token
  cases keeps <;> cases kind <;> cases texts <;> rfl

@[simp] theorem reader_stepAttributeEnd (reader : Reader) (attr : Attribute) (token : Token) :
    change.reader (reader.stepAttributeEnd attr token) =
      (change.reader reader).stepAttributeEnd (change.attr attr) (change.token token) := by
  simp [Reader.stepAttributeEnd, lineComment_token, Relabelling.attr]

@[simp] theorem reader_stepActionEnd (reader : Reader) (action : Action) (token : Token) :
    change.reader (reader.stepActionEnd action token) =
      (change.reader reader).stepActionEnd (change.action action) (change.token token) := by
  simp [Reader.stepActionEnd, lineComment_token, Relabelling.action]

@[simp] theorem reader_stepActionTarget (reader : Reader) (head : Head) (token : Token) :
    change.reader (reader.stepActionTarget head token) =
      (change.reader reader).stepActionTarget (change.head head) (change.token token) := by
  unfold Reader.stepActionTarget
  simp only [show (change.token token).kind = token.kind from rfl]
  split <;> simp [mode]

@[simp] theorem reader_stepActionArrow (reader : Reader) (head : Head) (target : String)
    (token : Token) :
    change.reader (reader.stepActionArrow head target token) =
      (change.reader reader).stepActionArrow (change.head head) target (change.token token) := by
  unfold Reader.stepActionArrow
  simp only [show (change.token token).kind = token.kind from rfl]
  split <;> simp [mode]

@[simp] theorem reader_stepActionHandler (reader : Reader) (head : Head) (target : String)
    (token : Token) :
    change.reader (reader.stepActionHandler head target token) =
      (change.reader reader).stepActionHandler (change.head head) target
        (change.token token) := by
  unfold Reader.stepActionHandler
  simp only [show (change.token token).kind = token.kind from rfl]
  split <;> simp [mode, Relabelling.action, Relabelling.head]

/-- Reading a relabelled token is relabelling what reading the token gives. -/
theorem reader_step (reader : Reader) (token : Token) :
    change.reader (reader.step token) = (change.reader reader).step (change.token token) := by
  unfold Reader.step
  rw [show (change.reader reader).mode = change.mode reader.mode from rfl]
  cases reader.mode <;> simp [mode]

/-- Reading relabelled tokens is relabelling what reading the tokens gives. -/
theorem reader_run (reader : Reader) (tokens : List Token) :
    change.reader (reader.run tokens) = (change.reader reader).run (tokens.map change.token) := by
  induction tokens generalizing reader with
  | nil => rfl
  | cons token tokens inductionHypothesis =>
      have step := change.reader_step reader token
      simp only [Reader.run, List.foldl_cons, List.map_cons] at inductionHypothesis ⊢
      rw [inductionHypothesis, step]

/-! ## The end of the file -/

theorem missing_mode (mode : Mode) : Reader.missing (change.mode mode) = Reader.missing mode := by
  cases mode <;> simp [Relabelling.mode, Reader.missing, Relabelling.head]

theorem reader_finishStatement (reader : Reader) (token : Token) :
    change.reader (reader.finishStatement token) =
      (change.reader reader).finishStatement (change.token token) := by
  have found : (change.reader reader).mode = change.mode reader.mode := rfl
  unfold Reader.finishStatement
  rw [found, missing_mode]
  cases Reader.missing reader.mode with
  | some expectation =>
      simp only [← reader_expected]
      rw [show (change.reader (reader.expected expectation token)).mode =
        change.mode (reader.expected expectation token).mode from rfl]
      cases (reader.expected expectation token).mode <;> simp [mode]
  | none =>
      simp only [found]
      cases reader.mode <;> simp [mode]

theorem reader_finishGroup (reader : Reader) :
    change.reader reader.finishGroup = (change.reader reader).finishGroup := by
  unfold Reader.finishGroup
  cases group : reader.group with
  | none => simp [change.group_reader group]
  | some position =>
      simp only [change.group_reader group, Option.map_some, ← reader_report]
      rfl

theorem block_nest (block : Block) (outer : List Block) :
    change.block (Reader.nest block outer) = Reader.nest (change.block block) (change.blocks outer) := by
  induction outer generalizing block with
  | nil => rfl
  | cons parent outer inductionHypothesis =>
      simp only [Reader.nest, blocks, inductionHypothesis]
      congr 1
      simp [block_eq, blocks]

theorem reader_finishBlocks (reader : Reader) :
    change.reader reader.finishBlocks = (change.reader reader).finishBlocks := by
  have unclosed : ∀ opened : List Block,
      (opened.map fun block => Diagnostic.malformed
          (ReadFault.unclosedBlock block.kind block.label).message block.position).map
        change.diagnostic =
      (change.blocks opened).map fun block => Diagnostic.malformed
          (ReadFault.unclosedBlock block.kind block.label).message block.position := by
    intro opened
    induction opened with
    | nil => rfl
    | cons block outer inductionHypothesis =>
        rw [blocks, List.map_cons, List.map_cons, List.map_cons, inductionHypothesis]
        simp [block_eq, diagnostic, Diagnostic.malformed]
  unfold Reader.finishBlocks
  cases opened : reader.openBlocks with
  | nil => simp [change.openBlocks_reader opened, blocks]
  | cons block outer =>
      have nested := change.block_nest { block with trailingComments := reader.pending } outer
      have messages := unclosed (block :: outer)
      rw [change.openBlocks_reader opened]
      simp only [blocks] at messages ⊢
      rw [← reader_release]
      simp only [Relabelling.reader, Reader.release, blocks_append, List.map_append, messages,
        blocks, nested]
      simp [block_eq]

/-- Ending with a relabelled end of the file is relabelling the ended reader. -/
theorem reader_finish (reader : Reader) (token : Token) :
    change.reader (reader.finish token) = (change.reader reader).finish (change.token token) := by
  simp [Reader.finish, reader_finishStatement, reader_finishGroup, reader_finishBlocks]

end Relabelling

end ServiceDef
