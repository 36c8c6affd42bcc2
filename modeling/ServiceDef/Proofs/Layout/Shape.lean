import ServiceDef.Proofs.Grammar.Nesting
import ServiceDef.Proofs.Layout.Width

/-!
# The shape of canonical text

Canonical text is made of lines with balanced brackets, and of lines that stand deeper between a
line that opens a bracket and one that closes it. A blank line stands only between two other groups
of lines. This is the inductive description `Line.Shaped`; values over several lines, groups of
actions, blocks and whole documents have this shape.
-/

namespace ServiceDef

open Grammar

/-! ## Solid texts -/

/-- The text starts with a character that is no white space. -/
def StartsSolid (text : String) : Prop :=
  ∃ c rest, text.toList = c :: rest ∧ Text.isWhiteSpace c = false

/-- The text ends with a character that is no white space. -/
def EndsSolid (text : String) : Prop :=
  ∃ front c, text.toList = front ++ [c] ∧ Text.isWhiteSpace c = false

/-- The text has no white space at either end. -/
structure Solid (text : String) : Prop where
  starts : StartsSolid text
  ends : EndsSolid text

theorem StartsSolid.append {first : String} (starts : StartsSolid first) (second : String) :
    StartsSolid (first ++ second) := by
  obtain ⟨c, rest, chars, solid⟩ := starts
  exact ⟨c, rest ++ second.toList, by simp [chars], solid⟩

theorem EndsSolid.append (first : String) {second : String} (ends : EndsSolid second) :
    EndsSolid (first ++ second) := by
  obtain ⟨front, c, chars, solid⟩ := ends
  exact ⟨first.toList ++ front, c, by simp [chars], solid⟩

/-- Only the ends of a text matter. -/
theorem Solid.append {first second : String} (front : Solid first) (back : EndsSolid second) :
    Solid (first ++ second) :=
  ⟨front.starts.append second, back.append first⟩

theorem Solid.between {first last : String} (starts : StartsSolid first) (middle : String)
    (ends : EndsSolid last) : Solid (first ++ middle ++ last) :=
  ⟨(starts.append middle).append last, ends.append (first ++ middle)⟩

/-- A text without any white space. -/
theorem solid_of_forall {text : String} (notEmpty : text.toList ≠ [])
    (noSpace : ∀ c ∈ text.toList, Text.isWhiteSpace c = false) : Solid text where
  starts := by
    obtain ⟨c, rest, chars⟩ := List.exists_cons_of_ne_nil notEmpty
    exact ⟨c, rest, chars, noSpace c (by simp [chars])⟩
  ends := ⟨text.toList.dropLast, text.toList.getLast notEmpty,
    (List.dropLast_concat_getLast notEmpty).symm, noSpace _ (List.getLast_mem notEmpty)⟩

theorem solid_identifier {name : String} (identifier : Word.isIdentifier name = true) :
    Solid name := by
  refine solid_of_forall (fun empty => ?_) (noSpace_identifier identifier)
  rw [Word.isIdentifier, empty] at identifier
  cases identifier

theorem solid_number {lexeme : String} (number : Word.isNumber lexeme = true) : Solid lexeme := by
  refine solid_of_forall (fun empty => ?_) (noSpace_number number)
  rw [Word.isNumber, empty] at number
  cases number

theorem solid_quote (contents : String) : Solid (Text.quote contents) where
  starts := ⟨'"', contents.toList.flatMap Text.escape ++ ['"'], by simp [Text.quote], rfl⟩
  ends := ⟨'"' :: contents.toList.flatMap Text.escape, '"', by simp [Text.quote], rfl⟩

theorem solid_scalar {s : Scalar} (wellFormed : s.wellFormed = true) : Solid s.text := by
  cases s with
  | string contents => exact solid_quote contents
  | number lexeme => exact solid_number wellFormed
  | boolean value =>
      cases value with
      | true => exact ⟨⟨'t', ['r', 'u', 'e'], rfl, rfl⟩, ['t', 'r', 'u'], 'e', rfl, rfl⟩
      | false => exact ⟨⟨'f', ['a', 'l', 's', 'e'], rfl, rfl⟩, ['f', 'a', 'l', 's'], 'e', rfl, rfl⟩

theorem solid_comment {comment : String} (wellFormed : Word.isComment comment = true) :
    Solid comment := by
  simp only [Word.isComment, Bool.and_eq_true, Bool.not_eq_true', decide_eq_true_eq] at wellFormed
  obtain ⟨⟨hash, -⟩, last⟩ := wellFormed
  obtain ⟨rest, chars⟩ := List.head?_eq_some_iff.1 hash
  have notEmpty : comment.toList ≠ [] := by simp [chars]
  rw [List.getLast?_eq_some_getLast notEmpty] at last
  exact ⟨⟨'#', rest, chars, rfl⟩,
    comment.toList.dropLast, _, (List.dropLast_concat_getLast notEmpty).symm, last⟩

theorem solid_headerText {kind : String} (identifier : Word.isIdentifier kind = true)
    (label : Option String) : Solid (Layout.headerText kind label) := by
  cases label with
  | none => exact solid_identifier identifier
  | some label =>
      rw [Layout.headerText, String.append_assoc]
      exact (solid_identifier identifier).append ((solid_quote label).ends.append " ")

theorem solid_actionText {action : Action} (identifier : Word.isIdentifier action.method = true) :
    Solid (Layout.actionText action) := by
  have handler : Solid (Layout.handlerText action.handler) := by
    unfold Layout.handlerText
    split
    · next name => exact solid_identifier name
    · exact solid_quote _
  refine ⟨?_, handler.ends.append _⟩
  simp only [Layout.actionText, String.append_assoc]
  exact (solid_identifier identifier).starts.append _

/-! ## Code -/

/-- Code on a line, with the kinds of its tokens and no white space at either end. -/
structure SolidCode (code : String) (kinds : List TokenKind) : Prop where
  solid : Solid code
  spells : Spells Stops code.toList (kinds.map Token.bare)

/-- The kinds of the tokens on a line. -/
def Line.kinds (line : Line) : List TokenKind :=
  Text.lineKinds line.text

namespace SolidCode

variable {code : String} {kinds : List TokenKind}

/-- A key in front of code. -/
theorem lead {key : String} (identifier : Word.isIdentifier key = true)
    (piece : SolidCode code kinds) :
    SolidCode (Value.keyText key ++ code) (.identifier key :: .equals :: kinds) where
  solid := by
    rw [Value.keyText, String.append_assoc]
    exact (solid_identifier identifier).append (piece.solid.ends.append " = ")
  spells := by simpa using (spells_keyText identifier).followedBy piece.spells

/-- A bracket on its own. -/
theorem bracket (c : Char) {kind : TokenKind} (chars : code.toList = [c])
    (mark : Lexeme.markKind? c = some kind) (noBlank : isBlank c = false) (noComment : c ≠ '#')
    (visible : Text.isWhiteSpace c = false) : SolidCode code [kind] where
  solid := solid_of_forall (by simp [chars]) (by simpa [chars] using visible)
  spells := by
    rw [chars]
    exact (spells_mark c mark noBlank noComment).weaken

/-- The tokens of code on a line of its own. -/
theorem kinds_eq (piece : SolidCode code kinds) (depth : Nat) :
    Line.kinds { depth := depth, content := code } = kinds := by
  have alone := @Line.lineKinds_code depth code kinds none piece.spells rfl
  simpa [Line.kinds, Layout.trailingText] using alone

end SolidCode

/-- A text that can stand behind code at the end of a line, with the kinds of its tokens. -/
def EndsLine (tail : String) (more : List TokenKind) : Prop :=
  ∀ {depth : Nat} {code : String} {kinds : List TokenKind}, SolidCode code kinds →
    Solid (code ++ tail) ∧ Line.kinds { depth := depth, content := code ++ tail } = kinds ++ more

theorem endsLine_trailingText {comment : Option String}
    (wellFormed : comment.all Word.isComment = true) :
    EndsLine (Layout.trailingText comment) [] := by
  intro depth code kinds piece
  refine ⟨?_, by rw [Line.kinds, Line.lineKinds_code piece.spells wellFormed, List.append_nil]⟩
  cases comment with
  | none => simpa [Layout.trailingText] using piece.solid
  | some comment => exact piece.solid.append ((solid_comment wellFormed).ends.append " ")

theorem endsLine_comma : EndsLine "," [.comma] := by
  intro depth code kinds piece
  have solid : Solid (code ++ ",") := piece.solid.append ⟨[], ',', rfl, rfl⟩
  exact ⟨solid, SolidCode.kinds_eq ⟨solid, piece.spells.comma⟩ depth⟩

/-! ## Lines -/

/-- Lines at the given depth. What one of them opens, another one closes, and the lines between
them are one level deeper. -/
inductive Line.Shaped : Nat → List Line → Prop
  | nil {depth : Nat} : Shaped depth []
  | statement {depth : Nat} {content : String} (solid : Solid content)
      (balanced : Balanced (kinds { depth := depth, content := content })) :
      Shaped depth [{ depth := depth, content := content }]
  | enclosed {depth : Nat} {opening closing : String} {bracket : Bracket}
      {front back : List TokenKind} {inner : List Line} (openingSolid : Solid opening)
      (opens : kinds { depth := depth, content := opening } = front ++ [bracket.opening])
      (frontBalanced : Balanced front) (inside : Shaped (depth + 1) inner)
      (closingSolid : Solid closing)
      (closes : kinds { depth := depth, content := closing } = bracket.closing :: back)
      (backBalanced : Balanced back) :
      Shaped depth ({ depth := depth, content := opening } :: inner ++
        [{ depth := depth, content := closing }])
  | append {depth : Nat} {first second : List Line} (front : Shaped depth first)
      (back : Shaped depth second) : Shaped depth (first ++ second)
  | separate {depth : Nat} {first second : List Line} (front : Shaped depth first)
      (back : Shaped depth second) (firstLines : first ≠ []) (secondLines : second ≠ []) :
      Shaped depth (first ++ Line.blank :: second)

namespace Line.Shaped

variable {depth : Nat}

theorem flatMap {α : Type} {parts : List α} {lines : α → List Line}
    (each : ∀ part ∈ parts, Shaped depth (lines part)) : Shaped depth (parts.flatMap lines) := by
  induction parts with
  | nil => exact .nil
  | cons part parts inductionHypothesis =>
      rw [List.forall_mem_cons] at each
      exact .append each.1 (inductionHypothesis each.2)

end Line.Shaped

/-- Groups of lines with blank lines between them are empty only if there is no group. -/
theorem Line.separate_eq_nil_iff {groups : List (List Line)}
    (each : ∀ group ∈ groups, group ≠ []) : separate groups = [] ↔ groups = [] := by
  cases groups with
  | nil => simp [separate]
  | cons first groups =>
      simp [separate, Layout.intercalate_cons_eq, each first List.mem_cons_self]

theorem Line.Shaped.separateAll {depth : Nat} {groups : List (List Line)}
    (each : ∀ group ∈ groups, Shaped depth group ∧ group ≠ []) :
    Shaped depth (Line.separate groups) := by
  induction groups with
  | nil => exact .nil
  | cons first groups inductionHypothesis =>
      rw [List.forall_mem_cons] at each
      obtain ⟨⟨shaped, firstLines⟩, others⟩ := each
      cases groups with
      | nil => simpa [Line.separate] using shaped
      | cons second groups =>
          have lines := (separate_eq_nil_iff fun group member => (others group member).2).not.2
            (List.cons_ne_nil second groups)
          have whole := shaped.separate (inductionHypothesis others) firstLines lines
          simpa [Line.separate, List.intercalate_cons_cons] using whole

/-! ## Flows -/

/-- A flow on a line at the given depth: balanced code, or lines between two brackets. -/
inductive Flow.Shaped (depth : Nat) : Flow → Prop
  | inline {code : String} {kinds : List TokenKind} (piece : SolidCode code kinds)
      (balanced : Balanced kinds) : Shaped depth { first := code }
  | broken {opening closing : String} {bracket : Bracket} {front : List TokenKind}
      {inner : List Line} (starts : SolidCode opening (front ++ [bracket.opening]))
      (balanced : Balanced front) (inside : Line.Shaped (depth + 1) inner)
      (ends : SolidCode closing [bracket.closing]) :
      Shaped depth
        { first := opening, rest := inner ++ [{ depth := depth, content := closing }] }

namespace Flow.Shaped

variable {depth : Nat} {flow : Flow}

/-- A key in front of a flow. -/
theorem lead {key : String} (identifier : Word.isIdentifier key = true)
    (shaped : flow.Shaped depth) : (flow.lead (Value.keyText key)).Shaped depth := by
  have neutral {kinds : List TokenKind} (balanced : Balanced kinds) :
      Balanced (.identifier key :: .equals :: kinds) := .cons rfl (.cons rfl balanced)
  cases shaped with
  | inline piece balanced => exact .inline (piece.lead identifier) (neutral balanced)
  | broken starts balanced inside ends =>
      exact .broken (starts.lead identifier) (neutral balanced) inside ends

/-- The lines of a flow, with more text at its end. -/
theorem lines_trail {tail : String} {more : List TokenKind} (shaped : flow.Shaped depth)
    (ending : EndsLine tail more) (moreBalanced : Balanced more) :
    Line.Shaped depth ((flow.trail tail).lines depth) := by
  cases shaped with
  | inline piece balanced =>
      obtain ⟨solid, kinds⟩ := @ending depth _ _ piece
      exact .statement solid (kinds ▸ balanced.append moreBalanced)
  | broken starts balanced inside ends =>
      obtain ⟨solid, kinds⟩ := @ending depth _ _ ends
      rw [trail_append]
      exact .enclosed starts.solid (starts.kinds_eq depth) balanced inside solid kinds
        moreBalanced

theorem lines (shaped : flow.Shaped depth) : Line.Shaped depth (flow.lines depth) := by
  have whole := shaped.lines_trail (@endsLine_trailingText none rfl) .nil
  rwa [Layout.trailingText, trail_empty] at whole

end Flow.Shaped

/-! ## Values -/

namespace Value

/-- The layout of the value is shaped, whatever the limit, depth and column. -/
def LaidShaped (value : Value) : Prop :=
  ∀ limit depth column, (layout limit depth column value).Shaped depth

theorem shaped_layoutItems {items : List Value} (laid : ∀ item ∈ items, item.LaidShaped)
    (limit depth : Nat) : Line.Shaped depth (layoutItems limit depth items) := by
  induction items with
  | nil => exact .nil
  | cons item items inductionHypothesis =>
      rw [List.forall_mem_cons] at laid
      have first := (laid.1 limit depth (indentWidth depth)).lines_trail endsLine_comma
        (.cons rfl .nil)
      rw [layoutItems]
      exact first.append (inductionHypothesis laid.2)

theorem shaped_layoutEntries {entries : List (Entry Value)}
    (laid : ∀ entry ∈ entries, entry.value.LaidShaped)
    (identifiers : ∀ entry ∈ entries, Word.isIdentifier entry.key = true) (limit depth : Nat) :
    Line.Shaped depth (layoutEntries limit depth entries) := by
  induction entries with
  | nil => exact .nil
  | cons entry entries inductionHypothesis =>
      rw [List.forall_mem_cons] at laid identifiers
      have first := ((laid.1 limit depth (indentWidth depth + (keyText entry.key).length)).lead
        identifiers.1).lines
      rw [layoutEntries]
      exact first.append (inductionHypothesis laid.2 identifiers.2)

/-- A value on one line. -/
theorem shaped_inline {limit depth column : Nat} {value : Value} {text : String}
    (wellFormed : value.wellFormed = true)
    (inline : layout limit depth column value = { first := text }) (solid : Solid text) :
    (layout limit depth column value).Shaped depth := by
  obtain ⟨kinds, spells, derives⟩ := laid_of_wellFormed value wellFormed limit depth column
  have derivation := derives []
  rw [List.append_nil] at derivation
  rw [inline] at spells ⊢
  exact .inline ⟨solid, by simpa [Flow.text] using spells⟩ derivation.balanced

theorem solid_inlineItems {items : List Value} {text : String}
    (inline : inlineItems? items = some text) : Solid text := by
  unfold inlineItems? at inline
  split at inline
  · cases inline
    exact .between ⟨'[', [], rfl, rfl⟩ _ ⟨[], ']', rfl, rfl⟩
  · cases inline

theorem solid_inlineEntries {entries : List (Entry Value)} {text : String}
    (inline : inlineEntries? entries = some text) : Solid text := by
  unfold inlineEntries? at inline
  split at inline
  · cases inline
    exact .between ⟨'{', [' '], rfl, rfl⟩ _ ⟨[' '], '}', rfl, rfl⟩
  · cases inline

/-- The layout of a well-formed value is shaped. -/
theorem laidShaped_of_wellFormed (value : Value) (wellFormed : value.wellFormed = true) :
    value.LaidShaped := by
  induction value using Value.induction with
  | scalar s =>
      intro limit depth column
      exact shaped_inline wellFormed rfl (solid_scalar wellFormed)
  | list items inductionHypothesis =>
      intro limit depth column
      have laid : ∀ item ∈ items, item.LaidShaped := fun item member =>
        inductionHypothesis item member ((wellFormedItems_iff items).1 wellFormed item member)
      cases items with
      | nil => exact shaped_inline wellFormed rfl ⟨⟨'[', [']'], rfl, rfl⟩, ['['], ']', rfl, rfl⟩
      | cons item items =>
          cases fitting : fitting? limit column (inlineItems? (item :: items)) with
          | some text =>
              exact shaped_inline wellFormed (by rw [layout, fitting])
                (solid_inlineItems (fitting?_eq_some fitting))
          | none =>
              rw [layout, fitting]
              exact @Flow.Shaped.broken depth "[" "]" .square [] _
                (.bracket '[' rfl rfl rfl (by decide) rfl) .nil
                (shaped_layoutItems laid limit (depth + 1))
                (.bracket ']' rfl rfl rfl (by decide) rfl)
  | map entries inductionHypothesis =>
      intro limit depth column
      have parts := (wellFormedEntries_iff entries).1 wellFormed
      have laid : ∀ entry ∈ entries, entry.value.LaidShaped := fun entry member =>
        inductionHypothesis entry member (parts entry member).2
      cases entries with
      | nil => exact shaped_inline wellFormed rfl ⟨⟨'{', ['}'], rfl, rfl⟩, ['{'], '}', rfl, rfl⟩
      | cons entry entries =>
          cases fitting : fitting? limit column (inlineEntries? (entry :: entries)) with
          | some text =>
              exact shaped_inline wellFormed (by rw [layout, fitting])
                (solid_inlineEntries (fitting?_eq_some fitting))
          | none =>
              rw [layout, fitting]
              exact @Flow.Shaped.broken depth "\x7b" "\x7d" .curly [] _
                (.bracket '{' rfl rfl rfl (by decide) rfl) .nil
                (shaped_layoutEntries laid (fun entry member => (parts entry member).1) limit
                  (depth + 1))
                (.bracket '}' rfl rfl rfl (by decide) rfl)

end Value

/-! ## Attributes and actions -/

namespace Layout

theorem shaped_commentLines {comments : List String}
    (wellFormed : comments.all Word.isComment = true) (depth : Nat) :
    Line.Shaped depth (commentLines depth comments) := by
  rw [commentLines, List.map_eq_flatMap]
  refine .flatMap fun comment member => ?_
  have isComment := List.all_eq_true.1 wellFormed comment member
  refine .statement (solid_comment isComment) ?_
  rw [Line.kinds, Line.lineKinds_comment isComment]
  exact .nil

theorem shaped_attributeLines {attr : Attribute} (wellFormed : attr.wellFormed = true)
    (limit depth : Nat) : Line.Shaped depth (attributeLines limit depth attr) := by
  simp only [Attribute.wellFormed, Bool.and_eq_true] at wellFormed
  obtain ⟨⟨⟨identifier, value⟩, comments⟩, trailing⟩ := wellFormed
  have flow := (attr.value.laidShaped_of_wellFormed value limit depth
    (indentWidth depth + (Value.keyText attr.key).length)).lead identifier
  exact (shaped_commentLines comments depth).append
    (flow.lines_trail (endsLine_trailingText trailing) .nil)

theorem shaped_actionLines {action : Action} (wellFormed : action.wellFormed = true)
    (depth : Nat) : Line.Shaped depth (actionLines depth action) := by
  simp only [Action.wellFormed, Bool.and_eq_true] at wellFormed
  obtain ⟨⟨identifier, comments⟩, trailing⟩ := wellFormed
  obtain ⟨kinds, spells, derives⟩ := spells_actionText identifier
  have derivation := derives []
  rw [List.append_nil] at derivation
  have flow : (Flow.mk (actionText action) []).Shaped depth :=
    .inline ⟨solid_actionText identifier, spells⟩ derivation.balanced
  exact (shaped_commentLines comments depth).append
    (flow.lines_trail (endsLine_trailingText trailing) .nil)

/-- Lines between the header of a block and its closing brace. -/
theorem shaped_braces {kind : String} (identifier : Word.isIdentifier kind = true)
    (label : Option String) {depth : Nat} {inner : List Line}
    (inside : Line.Shaped (depth + 1) inner) :
    Line.Shaped depth ({ depth := depth, content := headerText kind label ++ " \x7b" } :: inner ++
      [{ depth := depth, content := "\x7d" }]) := by
  have header : SolidCode (headerText kind label ++ " \x7b") (headerKinds kind label) :=
    ⟨(solid_headerText identifier label).append ⟨[' '], '{', rfl, rfl⟩,
      by simpa using (spells_headerKinds identifier label).weaken⟩
  have closing : SolidCode "\x7d" [.rightBrace] := .bracket '}' rfl rfl rfl (by decide) rfl
  have balanced : Balanced (.identifier kind :: (label.map TokenKind.string).toList) := by
    cases label <;> exact fun _ => rfl
  exact @Line.Shaped.enclosed depth _ _ .curly _ [] _ header.solid (header.kinds_eq depth) balanced
    inside closing.solid (closing.kinds_eq depth) .nil

/-- The header of a block and its braces with nothing between them. -/
theorem shaped_emptyBlock {kind : String} (identifier : Word.isIdentifier kind = true)
    (label : Option String) (depth : Nat) :
    Line.Shaped depth [{ depth := depth, content := headerText kind label ++ " \x7b\x7d" }] := by
  have piece := @piece_emptyBlock 0 kind label identifier 0
  have code : SolidCode (headerText kind label ++ " \x7b\x7d")
      (headerKinds kind label ++ [.rightBrace]) :=
    ⟨(solid_headerText identifier label).append ⟨[' ', '{'], '}', rfl, rfl⟩, piece.spells⟩
  refine .statement code.solid ?_
  rw [code.kinds_eq]
  cases label <;> exact fun _ => rfl

theorem shaped_actionsLines (settings : PrintSettings) {actions : List Action}
    (wellFormed : actions.all Action.wellFormed = true) (depth : Nat) :
    Line.Shaped (depth + 1) (actionsLines settings depth actions) := by
  have parts (depth : Nat) : Line.Shaped depth (actions.flatMap (actionLines depth)) :=
    .flatMap fun action member =>
      shaped_actionLines (List.all_eq_true.1 wellFormed action member) depth
  unfold actionsLines
  split
  · exact parts (depth + 1)
  · exact @shaped_braces Word.actions (by decide) none _ _ (parts (depth + 2))

/-! ## Blocks and documents -/

theorem flatMap_ne_nil {α : Type} {parts : List α} {lines : α → List Line} (notEmpty : parts ≠ [])
    (each : ∀ part, lines part ≠ []) : parts.flatMap lines ≠ [] := by
  obtain ⟨part, parts, rfl⟩ := List.exists_cons_of_ne_nil notEmpty
  exact List.append_ne_nil_of_left_ne_nil (each part) _

theorem attributeLines_ne_nil (limit depth : Nat) (attr : Attribute) :
    attributeLines limit depth attr ≠ [] :=
  List.append_ne_nil_of_right_ne_nil _ (List.cons_ne_nil _ _)

theorem actionsLines_ne_nil (settings : PrintSettings) {actions : List Action}
    (notEmpty : actions ≠ []) (depth : Nat) : actionsLines settings depth actions ≠ [] := by
  unfold actionsLines
  split
  · exact flatMap_ne_nil notEmpty fun action =>
      List.append_ne_nil_of_right_ne_nil _ (List.cons_ne_nil _ _)
  · exact List.cons_ne_nil _ _

theorem blockLines_ne_nil (settings : PrintSettings) (depth : Nat) (block : Block) :
    blockLines settings depth block ≠ [] := by
  rw [blockLines_eq]
  refine List.append_ne_nil_of_right_ne_nil _ ?_
  split <;> simp

/-- A group for some parts, if their lines are shaped. -/
theorem shaped_groupOf {α : Type} {parts : List α} {depth : Nat} {lines : List Line}
    (shaped : Line.Shaped depth lines) (notEmpty : parts ≠ [] → lines ≠ []) :
    ∀ group ∈ groupOf parts lines, Line.Shaped depth group ∧ group ≠ [] := by
  unfold groupOf
  split
  · simp
  · next present =>
      exact List.forall_mem_singleton.2 ⟨shaped, notEmpty (by simpa using present)⟩

theorem shaped_blockLines (settings : PrintSettings) (block : Block)
    (wellFormed : block.wellFormed = true) :
    ∀ depth, Line.Shaped depth (blockLines settings depth block) := by
  induction block using Block.induction with
  | step block inductionHypothesis =>
      intro depth
      obtain ⟨identifier, attributes, actions, comments, trailing, nested⟩ :=
        block.wellFormed_iff.1 wellFormed
      rw [blockLines_eq]
      refine (shaped_commentLines comments depth).append ?_
      split
      · have groups : ∀ group ∈ groupOf block.attributes
              (block.attributes.flatMap (attributeLines settings.limit (depth + 1))) ++
            groupOf block.actions (actionsLines settings depth block.actions) ++
            blockGroups settings (depth + 1) block.blocks,
            Line.Shaped (depth + 1) group ∧ group ≠ [] := by
          -- No group is empty, so that every blank line has lines on both of its sides.
          rw [blockGroups_eq_map]
          refine List.forall_mem_append.2 ⟨List.forall_mem_append.2 ⟨?_, ?_⟩, ?_⟩
          · refine shaped_groupOf (.flatMap fun attr member => ?_) fun notEmpty =>
              flatMap_ne_nil notEmpty (attributeLines_ne_nil settings.limit (depth + 1))
            exact shaped_attributeLines (List.all_eq_true.1 attributes attr member) _ _
          · exact shaped_groupOf (shaped_actionsLines settings actions depth) fun notEmpty =>
              actionsLines_ne_nil settings notEmpty depth
          · refine List.forall_mem_map.2 fun child member =>
              ⟨inductionHypothesis child member ?_ (depth + 1),
                blockLines_ne_nil settings (depth + 1) child⟩
            exact ((Block.wellFormedNested_iff _).1 nested child member).2
        have body := (Line.Shaped.separateAll groups).append
          (shaped_commentLines trailing (depth + 1))
        simpa using shaped_braces identifier block.label body
      · exact shaped_emptyBlock identifier block.label depth

/-- The groups of lines of a well-formed document. -/
theorem shaped_documentGroups (settings : PrintSettings) {document : Document}
    (wellFormed : document.wellFormed = true) :
    ∀ group ∈ blockGroups settings 0 document.blocks ++
        groupOf document.trailingComments (commentLines 0 document.trailingComments),
      Line.Shaped 0 group ∧ group ≠ [] := by
  simp only [Document.wellFormed, Bool.and_eq_true] at wellFormed
  rw [blockGroups_eq_map]
  refine List.forall_mem_append.2 ⟨List.forall_mem_map.2 fun block member => ?_, ?_⟩
  · exact ⟨shaped_blockLines settings block (List.all_eq_true.1 wellFormed.1 block member) 0,
      blockLines_ne_nil settings 0 block⟩
  · exact shaped_groupOf (shaped_commentLines wellFormed.2 0) fun notEmpty => by
      simpa [commentLines] using notEmpty

/-- The lines of a well-formed document are shaped. -/
theorem shaped_documentLines (settings : PrintSettings) {document : Document}
    (wellFormed : document.wellFormed = true) :
    Line.Shaped 0 (documentLines settings document) :=
  .separateAll (shaped_documentGroups settings wellFormed)

/-- Only a document without blocks and comments has no lines. -/
theorem documentLines_eq_nil_iff (settings : PrintSettings) {document : Document}
    (wellFormed : document.wellFormed = true) :
    documentLines settings document = [] ↔
      document.blocks = [] ∧ document.trailingComments = [] := by
  rw [documentLines, Line.separate_eq_nil_iff fun group member =>
    (shaped_documentGroups settings wellFormed group member).2, List.append_eq_nil_iff,
    blockGroups_eq_map, List.map_eq_nil_iff]
  simp [groupOf]

end Layout

end ServiceDef
