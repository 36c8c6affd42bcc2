import ServiceDef.Layout.Document
import ServiceDef.Proofs.Grammar.Completeness
import ServiceDef.Proofs.Layout.ValueSpelling

/-!
# What reading some lines does

Some lines carry a reader between two statements to another one when reading their tokens does.
The lines of comments, attributes and actions carry a reader to the one that has them in
addition, and what is carried one after the other is carried at once.
-/

namespace ServiceDef

open Grammar Reader

/-- Reading the lines takes a reader between two statements to another one. -/
def Carries (lines : List Line) (before after : Reader) : Prop :=
  ∃ tokens, Spells Anywhere (Line.join lines).toList tokens ∧
    (before.enter .statement).run tokens = after.enter .statement

/-- Reading each of some groups of lines takes a reader from one to the next. -/
def CarriesEach : List (List Line) → Reader → Reader → Prop
  | [], before, after => before = after
  | lines :: groups, before, after =>
    ∃ middle, Carries lines before middle ∧ CarriesEach groups middle after

namespace Carries

variable {before middle after : Reader} {first second : List Line}

theorem nil (reader : Reader) : Carries [] reader reader :=
  ⟨[], .nil, rfl⟩

theorem append (front : Carries first before middle) (back : Carries second middle after) :
    Carries (first ++ second) before after := by
  obtain ⟨left, spellsLeft, runLeft⟩ := front
  obtain ⟨right, spellsRight, runRight⟩ := back
  refine ⟨left ++ right, ?_, ?_⟩
  · rw [Line.toList_join_append]
    exact spellsLeft.followedBy spellsRight
  · rw [run_append, runLeft, runRight]

/-- A line by the tokens of its content and its line break. -/
theorem line {depth : Nat} {content : String} {tokens : List Token}
    (spelling : Spells Anywhere (content.toList ++ ['\n']) tokens)
    (run : (before.enter .statement).run tokens = after.enter .statement) :
    Carries [{ depth := depth, content := content }] before after := by
  refine ⟨tokens, ?_, run⟩
  rw [Line.toList_join_cons]
  exact (spells_spaces _).followedBy spelling

/-- A line by the kinds of the tokens of its content and its line break. -/
theorem lineOfKinds {depth : Nat} {content : String} (kinds : List TokenKind)
    (spelling : Spells Anywhere (content.toList ++ ['\n']) (kinds.map Token.bare))
    (reads : (before.enter .statement).reads kinds = after.enter .statement) :
    Carries [{ depth := depth, content := content }] before after :=
  line spelling reads

/-- A blank line changes nothing. -/
theorem blank (reader : Reader) : Carries [Line.blank] reader reader :=
  line spells_newline (step_newline reader true)

end Carries

namespace CarriesEach

variable {before middle after : Reader}

theorem append {first second : List (List Line)} (front : CarriesEach first before middle)
    (back : CarriesEach second middle after) : CarriesEach (first ++ second) before after := by
  induction first generalizing before with
  | nil =>
      cases front
      exact back
  | cons lines groups inductionHypothesis =>
      obtain ⟨next, carries, others⟩ := front
      exact ⟨next, carries, inductionHypothesis others⟩

/-- Groups of lines with blank lines between them. -/
theorem separate {groups : List (List Line)} (each : CarriesEach groups before after) :
    Carries (Line.separate groups) before after := by
  induction groups generalizing before with
  | nil =>
      cases each
      exact .nil _
  | cons lines groups inductionHypothesis =>
      obtain ⟨next, carries, others⟩ := each
      have back := inductionHypothesis others
      unfold Line.separate at back ⊢
      cases groups with
      | nil =>
          cases others
          simpa using carries
      | cons second groups =>
          rw [List.intercalate_cons_cons, List.append_assoc]
          exact carries.append ((Carries.blank next).append back)

/-- A group of lines, unless there are no parts. -/
theorem groupOf {α : Type} {parts : List α} {lines : List Line}
    (carries : Carries lines before after) (empty : parts = [] → before = after) :
    CarriesEach (Layout.groupOf parts lines) before after := by
  unfold Layout.groupOf
  cases parts with
  | nil => exact empty rfl
  | cons part parts => exact ⟨after, carries, rfl⟩

end CarriesEach

/-! ## Comments -/

/-- The line break behind a statement, with the comment on the line. -/
def lineBreak (comment : Option String) : Token where
  kind := .newline
  comments := comment.toList

theorem spells_lineBreak {comment : Option String}
    (wellFormed : comment.all Word.isComment = true) :
    Spells Anywhere ((Layout.trailingText comment).toList ++ ['\n']) [lineBreak comment] := by
  cases comment with
  | none => exact spells_newline
  | some comment =>
      have text : (Layout.trailingText (some comment)).toList ++ ['\n'] =
          [' '] ++ (comment.toList ++ ['\n']) := by
        simp [Layout.trailingText]
      rw [text]
      exact spells_space.followedBy (spells_comment wellFormed)

/-- What stands behind a statement goes on with a space or a line break. -/
theorem stops_trailingText (comment : Option String) (rest : List Char) :
    Stops ((Layout.trailingText comment).toList ++ ['\n'] ++ rest) := by
  cases comment <;> simp [Layout.trailingText, Word.isIdentifierPart]

/-- Comments wait for the next part of the document. -/
theorem carries_commentLines (depth : Nat) {comments : List String}
    (wellFormed : comments.all Word.isComment = true) (reader : Reader) :
    Carries (Layout.commentLines depth comments) reader
      { reader with pending := reader.pending ++ comments } := by
  induction comments generalizing reader with
  | nil =>
      rw [List.append_nil]
      exact .nil reader
  | cons comment comments inductionHypothesis =>
      rw [List.all_cons, Bool.and_eq_true] at wellFormed
      have first : Carries [{ depth := depth, content := comment }] reader
          { reader with pending := reader.pending ++ [comment] } :=
        .line (spells_comment wellFormed.1) rfl
      have others := inductionHypothesis wellFormed.2
        { reader with pending := reader.pending ++ [comment] }
      rw [List.append_assoc] at others
      exact first.append others

/-! ## Attributes -/

/-- The reader inside of a block, and inside of a group of its actions if there is one, with no
comments waiting. -/
def Reader.within (reader : Reader) (group : Option Position) (block : Block)
    (outer : List Block) : Reader :=
  { reader with group := group, openBlocks := block :: outer, pending := [] }

/-- The line break behind an attribute adds the attribute with the comment on its line. -/
theorem step_attributeLine (reader : Reader) (attr : Attribute) (comment : Option String) :
    (reader.enter (.attributeEnd attr)).step (lineBreak comment) =
      (reader.addAttribute { attr with trailingComment := comment }).enter .statement := by
  cases comment <;>
    simp [step, enter, stepAttributeEnd, lineComment, lineBreak, addAttribute, stepStatementEnd,
      stepStatement, absorb]

/-- The line break behind an action adds the action with the comment on its line. -/
theorem step_actionLine (reader : Reader) (action : Action) (comment : Option String) :
    (reader.enter (.actionEnd action)).step (lineBreak comment) =
      (reader.addAction { action with trailingComment := comment }).enter .statement := by
  cases comment <;>
    simp [step, enter, stepActionEnd, lineComment, lineBreak, addAction, stepStatementEnd,
      stepStatement, absorb]

/-- The lines of an attribute add it to the block. -/
theorem carries_attributeLines (limit depth : Nat) {attr : Attribute}
    (wellFormed : attr.wellFormed = true) (reader : Reader) (block : Block) (outer : List Block) :
    Carries (Layout.attributeLines limit depth attr) (reader.within none block outer)
      (reader.within none (extend block [.assignment attr.erasePositions]) outer) := by
  simp only [Attribute.wellFormed, Bool.and_eq_true] at wellFormed
  obtain ⟨⟨⟨identifier, value⟩, comments⟩, trailing⟩ := wellFormed
  have above := carries_commentLines depth comments (reader.within none block outer)
  refine above.append ?_
  obtain ⟨kinds, spells, derives⟩ := attr.value.laid_of_wellFormed value limit depth
    (indentWidth depth + (Value.keyText attr.key).length)
  refine ⟨(.identifier attr.key :: .equals :: kinds).map Token.bare ++
    [lineBreak attr.trailingComment], spells_lines _ depth ?_, ?_⟩
  · have line := (spells_keyText identifier).followedBy
      (spells.stopped (spells_lineBreak trailing) (stops_trailingText attr.trailingComment))
    simpa [Flow.text_lead, Flow.text_trail] using line
  · have assigned := (derives []).reads_assignment (.inl rfl) attr.key
      { reader.within none block outer with pending := attr.comments } rfl rfl
    rw [List.append_nil, reads_nil] at assigned
    rw [run_append]
    refine (congrArg (Reader.run · _) assigned).trans ?_
    rw [run_cons, step_attributeLine, run_nil]
    simp [addAttribute, Reader.within, release, enter, extend, Statement.attributes,
      Statement.actions, Statement.blocks, Attribute.erasePositions]

/-! ## Actions -/

theorem spells_targetText (target : String) :
    ∃ kind, IsTarget kind target ∧
      Spells Spaced (Layout.targetText target).toList [.bare kind] := by
  unfold Layout.targetText
  split
  · next bare => exact ⟨.path target, .path target, spells_path bare⟩
  · exact ⟨.string target, .string target, (spells_quote target).weaken⟩

theorem spells_handlerText (handler : String) :
    ∃ kind, IsHandler kind handler ∧
      Spells Stops (Layout.handlerText handler).toList [.bare kind] := by
  unfold Layout.handlerText
  split
  · next identifier => exact ⟨.identifier handler, .identifier handler, spells_identifier identifier⟩
  · exact ⟨.string handler, .string handler, (spells_quote handler).weaken⟩

/-- The text of an action is read as tokens that derive from the action. -/
theorem spells_actionText {action : Action} (identifier : Word.isIdentifier action.method = true) :
    ∃ kinds : List TokenKind,
      Spells Stops (Layout.actionText action).toList (kinds.map Token.bare) ∧
      ∀ rest, DerivesAction (kinds ++ rest)
        { method := action.method, target := action.target, handler := action.handler } rest := by
  obtain ⟨targetKind, aim, target⟩ := spells_targetText action.target
  obtain ⟨handlerKind, answer, handler⟩ := spells_handlerText action.handler
  refine ⟨[.identifier action.method, targetKind, .arrow, handlerKind], ?_,
    fun rest => .action aim answer⟩
  have arrow : Spells Anywhere ([' '] ++ ['-', '>'] ++ [' ']) ([] ++ [.bare .arrow] ++ []) :=
    (spells_space.followedBy spells_arrow).followedBy spells_space
  have behind := (target.append arrow fun rest _ => rfl).followedBy handler
  have whole := (spells_identifier identifier).append (spells_space.followedBy behind)
    fun rest _ => by simp [Word.isIdentifierPart]
  simpa [Layout.actionText] using whole

/-- A reader between two statements of a block or of a group reads an action. -/
theorem reads_action {input rest : List TokenKind} {action : Action}
    (derivation : DerivesAction input action rest) (reader : Reader) (group : Option Position)
    (block : Block) (outer : List Block) (comments : List String) :
    (({ reader.within group block outer with pending := comments } : Reader).enter
      .statement).reads input =
      ((reader.within group block outer).enter
        (.actionEnd { action with comments := comments })).reads rest := by
  cases group with
  | none => exact derivation.reads_of_block _ rfl rfl
  | some position => exact derivation.reads_of_group _ rfl

/-- The lines of an action add it to the block. -/
theorem carries_actionLines (depth : Nat) {action : Action} (wellFormed : action.wellFormed = true)
    (reader : Reader) (group : Option Position) (block : Block) (outer : List Block) :
    Carries (Layout.actionLines depth action) (reader.within group block outer)
      (reader.within group (extend block [.routes [action.erasePosition]]) outer) := by
  simp only [Action.wellFormed, Bool.and_eq_true] at wellFormed
  obtain ⟨⟨identifier, comments⟩, trailing⟩ := wellFormed
  have above := carries_commentLines depth comments (reader.within group block outer)
  refine above.append ?_
  obtain ⟨kinds, spells, derives⟩ := spells_actionText identifier
  have line := spells.stopped (spells_lineBreak trailing)
    (stops_trailingText action.trailingComment)
  refine .line (by simpa using line) ?_
  have route := reads_action (derives []) reader group block outer action.comments
  rw [List.append_nil, reads_nil] at route
  rw [run_append]
  refine (congrArg (Reader.run · _) route).trans ?_
  rw [run_cons, step_actionLine, run_nil]
  simp [addAction, Reader.within, enter, extend, Statement.attributes, Statement.actions,
    Statement.blocks, Action.erasePosition]

/-! ## Parts of a block -/

section Parts

variable (settings : PrintSettings) (depth : Nat) (reader : Reader) (outer : List Block)

/-- The attributes of a block, one after the other. -/
theorem carries_attributes {attributes : List Attribute}
    (wellFormed : attributes.all Attribute.wellFormed = true) (block : Block) :
    Carries (attributes.flatMap (Layout.attributeLines settings.limit depth))
      (reader.within none block outer)
      (reader.within none
        (extend block (attributes.map fun attr => .assignment attr.erasePositions)) outer) := by
  induction attributes generalizing block with
  | nil =>
      rw [List.map_nil, extend_nil]
      exact .nil _
  | cons attr attributes inductionHypothesis =>
      rw [List.all_cons, Bool.and_eq_true] at wellFormed
      have first := carries_attributeLines settings.limit depth wellFormed.1 reader block outer
      have others := inductionHypothesis wellFormed.2
        (extend block [.assignment attr.erasePositions])
      rw [List.map_cons, extend_cons]
      exact first.append others

/-- Actions one after the other, in a block or in a group. -/
theorem carries_flatMap_actionLines {actions : List Action}
    (wellFormed : actions.all Action.wellFormed = true) (group : Option Position)
    (block : Block) :
    Carries (actions.flatMap (Layout.actionLines depth)) (reader.within group block outer)
      (reader.within group (extend block [.routes (actions.map Action.erasePosition)]) outer) := by
  induction actions generalizing block with
  | nil =>
      rw [List.map_nil, extend_noRoutes]
      exact .nil _
  | cons action actions inductionHypothesis =>
      rw [List.all_cons, Bool.and_eq_true] at wellFormed
      have first := carries_actionLines depth wellFormed.1 reader group block outer
      have others := inductionHypothesis wellFormed.2
        (extend block [.routes [action.erasePosition]])
      rw [List.map_cons, extend_routes_cons]
      exact first.append others

/-- A group of actions starts. -/
theorem carries_groupHeader (block : Block) :
    Carries [{ depth := depth, content := Word.actions ++ " \x7b" }]
      (reader.within none block outer) (reader.within (some {}) block outer) := by
  have header : Spells Anywhere ([' '] ++ ['{'] ++ ['\n'])
      ([] ++ [.bare .leftBrace] ++ [.bare .newline]) :=
    (spells_space.followedBy (spells_mark '{' rfl rfl (by decide))).followedBy spells_newline
  have line := (@spells_identifier Word.actions (by decide)).stopped header
    fun rest => by simp [Word.isIdentifierPart]
  refine .line (by simpa using line) ?_
  exact reads_groupHeader (reader.within none block outer) [.newline] rfl rfl

/-- A group of actions ends. -/
theorem carries_groupEnd (block : Block) :
    Carries [{ depth := depth, content := "\x7d" }]
      (reader.within (some {}) block outer) (reader.within none block outer) := by
  have line : Spells Anywhere (['}'] ++ ['\n']) ([.bare .rightBrace] ++ [.bare .newline]) :=
    (spells_mark '}' rfl rfl (by decide)).followedBy spells_newline
  exact .line (by simpa using line) rfl

/-- The actions of a block, in both layouts. -/
theorem carries_actionsLines {actions : List Action}
    (wellFormed : actions.all Action.wellFormed = true) (block : Block) :
    Carries (Layout.actionsLines settings depth actions) (reader.within none block outer)
      (reader.within none (extend block [.routes (actions.map Action.erasePosition)]) outer) := by
  unfold Layout.actionsLines
  split
  · exact carries_flatMap_actionLines (depth + 1) reader outer wellFormed none block
  · have actions := carries_flatMap_actionLines (depth + 2) reader outer wellFormed (some {}) block
    exact (carries_groupHeader (depth + 1) reader outer block).append
      (actions.append (carries_groupEnd (depth + 1) reader outer _))

end Parts

end ServiceDef
