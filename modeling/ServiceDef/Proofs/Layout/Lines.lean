import ServiceDef.Proofs.Layout.RoundTrip

/-!
# The lines of canonical text

The only line breaks of the canonical text of a well-formed document are those behind its lines.
Each line is a comment, or code with at most one comment behind it, and a list or map on a line
has been measured before it was put there. The column at which it was measured leaves out the
comma that follows the items of a list (`Line.Proper`).
-/

namespace ServiceDef

/-- The lines of a text. What stands behind the last line break is a line unless it is empty. -/
def Text.lines (text : String) : List String :=
  let pieces := (text.toList.splitOn '\n').map String.ofList
  if pieces.getLast? = some "" then pieces.dropLast else pieces

/-! ## Texts without line breaks -/

/-- A text without a line break. -/
def OneLine (text : String) : Prop :=
  '\n' ∉ text.toList

instance (text : String) : Decidable (OneLine text) :=
  inferInstanceAs (Decidable ('\n' ∉ text.toList))

@[simp] theorem oneLine_append (first second : String) :
    OneLine (first ++ second) ↔ OneLine first ∧ OneLine second := by
  simp [OneLine]

theorem oneLine_quote (contents : String) : OneLine (Text.quote contents) := by
  have escaped (c : Char) : '\n' ∉ Text.escape c := by
    unfold Text.escape
    repeat' split
    all_goals simp_all [eq_comm]
  simp [OneLine, Text.quote, escaped]

/-- White space includes line breaks. -/
theorem oneLine_of_noSpace {text : String}
    (noSpace : ∀ c ∈ text.toList, Text.isWhiteSpace c = false) : OneLine text :=
  fun member => absurd (noSpace '\n' member) (by decide)

/-- The code points of letters and digits. -/
theorem toNat_of_isAlphanum {c : Char} (word : c.isAlphanum = true) :
    48 ≤ c.toNat ∧ c.toNat ≤ 122 := by
  have between {low high : Char} (above : low.val ≤ c.val) (below : c.val ≤ high.val) :
      low.toNat ≤ c.toNat ∧ c.toNat ≤ high.toNat :=
    ⟨UInt32.le_iff_toNat_le.1 above, UInt32.le_iff_toNat_le.1 below⟩
  rcases Bool.or_eq_true_iff.1 word with letter | digit
  · rcases Bool.or_eq_true_iff.1 letter with upper | lower
    · obtain ⟨above, below⟩ := of_decide_eq_true upper
      have bounds : 65 ≤ c.toNat ∧ c.toNat ≤ 90 := between above below
      omega
    · obtain ⟨above, below⟩ := Bool.and_eq_true_iff.1 lower
      have bounds : 97 ≤ c.toNat ∧ c.toNat ≤ 122 :=
        between (of_decide_eq_true above) (of_decide_eq_true below)
      omega
  · obtain ⟨above, below⟩ := Bool.and_eq_true_iff.1 digit
    have bounds : 48 ≤ c.toNat ∧ c.toNat ≤ 57 :=
      between (of_decide_eq_true above) (of_decide_eq_true below)
    omega

/-- The characters of words and numbers are no white space. -/
theorem isWhiteSpace_of_part {c : Char} (part : Word.isIdentifierPart c = true) :
    Text.isWhiteSpace c = false := by
  simp only [Word.isIdentifierPart, Bool.or_eq_true, decide_eq_true_eq] at part
  rcases part with (word | rfl) | rfl
  · have bounds := toNat_of_isAlphanum word
    simp [Text.isWhiteSpace, Text.whiteSpaceRanges]
    omega
  · rfl
  · rfl

theorem noSpace_identifier {name : String} (identifier : Word.isIdentifier name = true) :
    ∀ c ∈ name.toList, Text.isWhiteSpace c = false := by
  unfold Word.isIdentifier at identifier
  split at identifier
  · cases identifier
  · next c text chars =>
      simp only [Bool.and_eq_true, List.all_eq_true] at identifier
      obtain ⟨⟨⟨start, inside⟩, -⟩, -⟩ := identifier
      rw [chars, List.forall_mem_cons]
      exact ⟨isWhiteSpace_of_part (isIdentifierPart_of_start start),
        fun d member => isWhiteSpace_of_part (inside d member)⟩

theorem oneLine_identifier {name : String} (identifier : Word.isIdentifier name = true) :
    OneLine name :=
  oneLine_of_noSpace (noSpace_identifier identifier)

theorem part_of_isUnsigned {text : List Char} (unsigned : Word.isUnsigned text = true) :
    ∀ c ∈ text, Word.isIdentifierPart c = true := by
  have parts {digits : List Char} (all : Word.isDigits digits = true) :
      ∀ c ∈ digits, Word.isIdentifierPart c = true :=
    fun c member => isIdentifierPart_of_digit (((Word.isDigits_iff digits).1 all).2 c member)
  obtain ⟨whole, digits, rfl | ⟨fraction, more, rfl⟩⟩ := (Word.isUnsigned_iff text).1 unsigned
  · exact parts digits
  · exact List.forall_mem_append.2 ⟨parts digits, List.forall_mem_cons.2 ⟨rfl, parts more⟩⟩

theorem noSpace_number {lexeme : String} (number : Word.isNumber lexeme = true) :
    ∀ c ∈ lexeme.toList, Text.isWhiteSpace c = false := by
  unfold Word.isNumber at number
  split at number
  · next text chars =>
      rw [chars, List.forall_mem_cons]
      exact ⟨rfl, fun c member => isWhiteSpace_of_part (part_of_isUnsigned number c member)⟩
  · exact fun c member => isWhiteSpace_of_part (part_of_isUnsigned number c member)

theorem oneLine_number {lexeme : String} (number : Word.isNumber lexeme = true) :
    OneLine lexeme :=
  oneLine_of_noSpace (noSpace_number number)

theorem oneLine_path {target : String} (bare : Word.isBarePath target = true) :
    OneLine target := by
  simp only [Word.isBarePath, Bool.and_eq_true, Bool.not_eq_true', List.any_eq_false,
    Bool.not_eq_true] at bare
  exact oneLine_of_noSpace bare.1.2

theorem oneLine_comment {comment : String} (wellFormed : Word.isComment comment = true) :
    OneLine comment := by
  simp only [Word.isComment, Bool.and_eq_true, Bool.not_eq_true', List.contains_eq_mem,
    decide_eq_false_iff_not] at wellFormed
  exact wellFormed.1.2

theorem oneLine_trailingText {comment : Option String}
    (wellFormed : comment.all Word.isComment = true) : OneLine (Layout.trailingText comment) := by
  cases comment with
  | none => decide
  | some comment => simpa [Layout.trailingText] using ⟨by decide, oneLine_comment wellFormed⟩

theorem oneLine_scalar {s : Scalar} (wellFormed : s.wellFormed = true) : OneLine s.text := by
  cases s with
  | string contents => exact oneLine_quote contents
  | number lexeme => exact oneLine_number wellFormed
  | boolean value => cases value <;> decide

theorem oneLine_keyText {key : String} (identifier : Word.isIdentifier key = true) :
    OneLine (Value.keyText key) := by
  simpa [Value.keyText] using ⟨oneLine_identifier identifier, by decide⟩

theorem oneLine_headerText {kind : String} (identifier : Word.isIdentifier kind = true)
    (label : Option String) : OneLine (Layout.headerText kind label) := by
  cases label with
  | none => exact oneLine_identifier identifier
  | some label =>
      simpa [Layout.headerText] using
        ⟨⟨oneLine_identifier identifier, by decide⟩, oneLine_quote label⟩

theorem oneLine_actionText {action : Action} (identifier : Word.isIdentifier action.method = true) :
    OneLine (Layout.actionText action) := by
  have target : OneLine (Layout.targetText action.target) := by
    unfold Layout.targetText
    split
    · next bare => exact oneLine_path bare
    · exact oneLine_quote _
  have handler : OneLine (Layout.handlerText action.handler) := by
    unfold Layout.handlerText
    split
    · next name => exact oneLine_identifier name
    · exact oneLine_quote _
  simpa [Layout.actionText] using
    ⟨⟨⟨⟨oneLine_identifier identifier, by decide⟩, target⟩, by decide⟩, handler⟩

/-- Texts without line breaks with commas between them. -/
theorem newline_notMem_intercalate {parts : List (List Char)}
    (oneLine : ∀ part ∈ parts, '\n' ∉ part) : '\n' ∉ [',', ' '].intercalate parts := by
  induction parts with
  | nil => simp
  | cons first parts inductionHypothesis =>
      have others := inductionHypothesis fun part member =>
        oneLine part (List.mem_cons_of_mem first member)
      cases parts with
      | nil => simpa using oneLine first List.mem_cons_self
      | cons second parts =>
          rw [List.intercalate_cons_cons]
          simpa [others] using oneLine first List.mem_cons_self

namespace Value

theorem oneLine_inlineItems {items : List Value} {text : String}
    (inline : inlineItems? items = some text) (wellFormed : wellFormedItems items = true) :
    OneLine text := by
  obtain ⟨scalars, rfl, chars⟩ := inlineItems?_eq_some inline
  have parts : '\n' ∉ [',', ' '].intercalate (scalars.map (·.text.toList)) := by
    refine newline_notMem_intercalate (List.forall_mem_map.2 fun s member => ?_)
    exact oneLine_scalar ((wellFormedItems_iff _).1 wellFormed _ (List.mem_map_of_mem member))
  simpa [OneLine, chars] using parts

theorem oneLine_inlineEntries {entries : List (Entry Value)} {text : String}
    (inline : inlineEntries? entries = some text)
    (wellFormed : wellFormedEntries entries = true) : OneLine text := by
  obtain ⟨scalars, rfl, chars⟩ := inlineEntries?_eq_some inline
  have parts : '\n' ∉ [',', ' '].intercalate
      (scalars.map fun part => (keyText part.key).toList ++ part.value.text.toList) := by
    refine newline_notMem_intercalate (List.forall_mem_map.2 fun part member => ?_)
    obtain ⟨identifier, scalar⟩ :=
      (wellFormedEntries_iff _).1 wellFormed _ (List.mem_map_of_mem member)
    rw [List.mem_append, not_or]
    exact ⟨oneLine_keyText identifier, oneLine_scalar scalar⟩
  simpa [OneLine, chars] using parts

end Value

/-! ## Lists and maps on a line -/

/-- The bracket that closes what a bracket opens. -/
def TokenKind.closing? : TokenKind → Option TokenKind
  | .leftBracket => some .rightBracket
  | .leftBrace => some .rightBrace
  | _ => none

/-- Whether a list or map that is not empty starts and ends among the tokens: a bracket, something
else, and later the bracket that closes it. -/
def holdsContainer : List TokenKind → Bool
  | [] => false
  | kind :: kinds =>
    kind.closing?.any (fun closing => kinds.tail.contains closing) || holdsContainer kinds

/-- Code on one line, behind `column` characters. A list or map in it has been measured. -/
structure CodePiece (limit column : Nat) (code : String) (kinds : List TokenKind) : Prop where
  spells : Spells Stops code.toList (kinds.map Token.bare)
  oneLine : OneLine code
  measured : holdsContainer kinds = true → fits limit (column + code.length) = true

namespace CodePiece

variable {limit column : Nat} {code : String} {kinds : List TokenKind}

/-- Code without a list or map stands behind any number of characters. -/
theorem plain (spells : Spells Stops code.toList (kinds.map Token.bare)) (oneLine : OneLine code)
    (noContainer : holdsContainer kinds = false) : CodePiece limit column code kinds :=
  ⟨spells, oneLine, by simp [noContainer]⟩

/-- Code that has been measured, whatever it holds. -/
theorem ofFits (spells : Spells Stops code.toList (kinds.map Token.bare)) (oneLine : OneLine code)
    (fitting : fits limit (column + code.length) = true) : CodePiece limit column code kinds :=
  ⟨spells, oneLine, fun _ => fitting⟩

/-- A bracket on its own. -/
theorem bracket (c : Char) {kind : TokenKind} (chars : code.toList = [c])
    (mark : Lexeme.markKind? c = some kind) (solid : isBlank c = false) (noComment : c ≠ '#')
    (noBreak : '\n' ≠ c) : CodePiece limit column code [kind] := by
  refine plain ?_ ?_ (by cases kind <;> rfl)
  · rw [chars]
    exact (spells_mark c mark solid noComment).weaken
  · simpa [OneLine, chars] using noBreak

/-- A key in front of code. -/
theorem lead {key : String} (identifier : Word.isIdentifier key = true)
    (piece : CodePiece limit (column + (Value.keyText key).length) code kinds) :
    CodePiece limit column (Value.keyText key ++ code) (.identifier key :: .equals :: kinds) where
  spells := by simpa using (spells_keyText identifier).followedBy piece.spells
  oneLine := (oneLine_append _ _).2 ⟨oneLine_keyText identifier, piece.oneLine⟩
  measured holds := by
    have fitting := piece.measured (by simpa [holdsContainer, TokenKind.closing?] using holds)
    simpa [Nat.add_assoc] using fitting

end CodePiece

/-! ## Lines -/

/-- What a line of canonical text can be: a comment, code with at most one comment behind it, or
the end of an item of a list. -/
inductive Line.Proper (limit : Nat) : Line → Prop
  | comment {depth : Nat} {content : String} (isComment : Word.isComment content = true) :
      Proper limit { depth := depth, content := content }
  | code {depth : Nat} {code : String} {kinds : List TokenKind} {comment : Option String}
      (piece : CodePiece limit (indentWidth depth) code kinds)
      (commentFormed : comment.all Word.isComment = true) :
      Proper limit { depth := depth, content := code ++ Layout.trailingText comment }
  | item {depth : Nat} {code : String} {kinds : List TokenKind}
      (piece : CodePiece limit (indentWidth depth) code kinds) :
      Proper limit { depth := depth, content := code ++ "," }

namespace Line

variable {limit depth : Nat}

/-- A line of code without a comment. -/
theorem Proper.bare {code : String} {kinds : List TokenKind}
    (piece : CodePiece limit (indentWidth depth) code kinds) :
    Proper limit { depth := depth, content := code } := by
  simpa [Layout.trailingText] using @Proper.code limit depth code kinds none piece rfl

theorem Proper.blank : Proper limit Line.blank :=
  bare (@CodePiece.plain limit 0 "" [] .nil (by decide) rfl)

/-- A line has no line break. -/
theorem Proper.oneLine {line : Line} (proper : line.Proper limit) : OneLine line.content := by
  cases proper with
  | comment isComment => exact oneLine_comment isComment
  | code piece commentFormed =>
      exact (oneLine_append _ _).2 ⟨piece.oneLine, oneLine_trailingText commentFormed⟩
  | item piece => exact (oneLine_append _ _).2 ⟨piece.oneLine, by decide⟩

/-- The lines of the text of some lines. -/
theorem lines_join {lines : List Line} (oneLine : ∀ line ∈ lines, OneLine line.content) :
    Text.lines (join lines) = lines.map text := by
  -- Behind the last line break stands an empty piece, which is no line.
  have pieces : (join lines).toList.splitOn '\n' = lines.map (·.text.toList) ++ [[]] := by
    induction lines with
    | nil => rfl
    | cons line lines inductionHypothesis =>
        have others := inductionHypothesis fun other member =>
          oneLine other (List.mem_cons_of_mem line member)
        have chars : (join (line :: lines)).toList =
            line.text.toList ++ '\n' :: (join lines).toList := by
          simp [text]
        have noBreak : OneLine line.text :=
          (oneLine_append _ _).2 ⟨by simp [OneLine], oneLine line List.mem_cons_self⟩
        rw [List.splitOn] at others ⊢
        rw [chars, List.splitOnP_append_cons _ _ (by simp), others, List.map_cons, List.cons_append]
        exact congrArg (· ++ _) (List.splitOn_eq_singleton noBreak)
  simp [Text.lines, pieces, Function.comp_def]

end Line

/-! ## Flows -/

namespace Flow

theorem appendLast_append (tail : String) (lines : List Line) (last : Line) :
    appendLast tail (lines ++ [last]) = lines ++ [last.append tail] := by
  induction lines with
  | nil => rfl
  | cons line lines inductionHypothesis =>
      cases lines with
      | nil => rfl
      | cons next lines => simpa [appendLast] using inductionHypothesis

theorem trail_append (first : String) (inner : List Line) (last : Line) (tail : String) :
    (Flow.mk first (inner ++ [last])).trail tail = ⟨first, inner ++ [last.append tail]⟩ := by
  rw [← appendLast_append]
  cases inner <;> rfl

/-- A flow that starts behind `column` characters of a line: one piece of a line, or the start of
a list or map, its lines and its closing bracket. -/
structure Proper (limit column : Nat) (flow : Flow) : Prop where
  first : ∃ kinds, CodePiece limit column flow.first kinds
  rest : flow.rest = [] ∨ ∃ inner last kinds, flow.rest = inner ++ [last] ∧
    (∀ line ∈ inner, line.Proper limit) ∧
    CodePiece limit (indentWidth last.depth) last.content kinds

/-- The lines of a flow with a tail that can stand behind any piece. -/
theorem Proper.lines_trail {limit depth : Nat} {flow : Flow} {tail : String}
    (proper : flow.Proper limit (indentWidth depth))
    (ends : ∀ {depth code kinds}, CodePiece limit (indentWidth depth) code kinds →
      Line.Proper limit { depth := depth, content := code ++ tail }) :
    ∀ line ∈ (flow.trail tail).lines depth, line.Proper limit := by
  obtain ⟨first, rest⟩ := flow
  obtain ⟨⟨kinds, piece⟩, none | ⟨inner, last, lastKinds, split, inside, closing⟩⟩ := proper
  · dsimp only at none
    subst none
    simpa [trail, Flow.lines] using ends piece
  · dsimp only at split
    subst split
    rw [trail_append]
    simp only [Flow.lines, List.mem_cons, List.mem_append, List.not_mem_nil, or_false]
    rintro line (rfl | member | rfl)
    · exact .bare piece
    · exact inside line member
    · exact ends closing

theorem appendLast_empty (lines : List Line) : appendLast "" lines = lines := by
  fun_induction appendLast with
  | case1 => rfl
  | case2 line => simp [Line.append]
  | case3 line next lines inductionHypothesis => rw [inductionHypothesis]

theorem trail_empty (flow : Flow) : flow.trail "" = flow := by
  obtain ⟨first, rest⟩ := flow
  cases rest with
  | nil => simp [trail]
  | cons line lines => simp only [trail, appendLast_empty]

/-- The lines of a flow with nothing at its end. -/
theorem Proper.lines {limit depth : Nat} {flow : Flow}
    (proper : flow.Proper limit (indentWidth depth)) :
    ∀ line ∈ flow.lines depth, line.Proper limit := by
  have lines := @lines_trail limit depth flow "" proper fun piece => by simpa using .bare piece
  rwa [trail_empty] at lines

/-- A key in front of a flow. -/
theorem Proper.lead {limit column : Nat} {flow : Flow} {key : String}
    (identifier : Word.isIdentifier key = true)
    (proper : flow.Proper limit (column + (Value.keyText key).length)) :
    (flow.lead (Value.keyText key)).Proper limit column :=
  ⟨proper.first.elim fun _ piece => ⟨_, piece.lead identifier⟩, proper.rest⟩

/-- A flow of one piece. -/
theorem Proper.ofPiece {limit column : Nat} {code : String} {kinds : List TokenKind}
    (piece : CodePiece limit column code kinds) : (Flow.mk code []).Proper limit column :=
  ⟨⟨kinds, piece⟩, .inl rfl⟩

/-- A flow of lines between two brackets. -/
theorem Proper.broken {limit depth column : Nat} {opening closing : String}
    {openKinds closeKinds : List TokenKind} {inner : List Line}
    (starts : CodePiece limit column opening openKinds)
    (ends : CodePiece limit (indentWidth depth) closing closeKinds)
    (inside : ∀ line ∈ inner, line.Proper limit) :
    (Flow.mk opening (inner ++ [{ depth := depth, content := closing }])).Proper limit column :=
  ⟨⟨openKinds, starts⟩, .inr ⟨inner, _, closeKinds, rfl, inside, ends⟩⟩

end Flow

/-! ## Values -/

namespace Value

/-- The layout of the value is proper, whatever the limit, depth and column. -/
def LaidProper (value : Value) : Prop :=
  ∀ limit depth column, (layout limit depth column value).Proper limit column

theorem proper_layoutItems {items : List Value} (laid : ∀ item ∈ items, item.LaidProper)
    (limit depth : Nat) : ∀ line ∈ layoutItems limit depth items, line.Proper limit := by
  induction items with
  | nil => simp [layoutItems]
  | cons item items inductionHypothesis =>
      have first := (laid item List.mem_cons_self limit depth (indentWidth depth)).lines_trail .item
      have others := inductionHypothesis fun other member =>
        laid other (List.mem_cons_of_mem item member)
      rw [layoutItems]
      exact List.forall_mem_append.2 ⟨first, others⟩

theorem proper_layoutEntries {entries : List (Entry Value)}
    (laid : ∀ entry ∈ entries, entry.value.LaidProper)
    (identifiers : ∀ entry ∈ entries, Word.isIdentifier entry.key = true) (limit depth : Nat) :
    ∀ line ∈ layoutEntries limit depth entries, line.Proper limit := by
  induction entries with
  | nil => simp [layoutEntries]
  | cons entry entries inductionHypothesis =>
      have first := ((laid entry List.mem_cons_self limit depth
        (indentWidth depth + (keyText entry.key).length)).lead
          (identifiers entry List.mem_cons_self)).lines
      have others := inductionHypothesis
        (fun other member => laid other (List.mem_cons_of_mem entry member))
        (fun other member => identifiers other (List.mem_cons_of_mem entry member))
      rw [layoutEntries]
      exact List.forall_mem_append.2 ⟨first, others⟩

theorem fits_of_fitting? {limit column : Nat} {inline : Option String} {text : String}
    (fitting : fitting? limit column inline = some text) :
    fits limit (column + text.length) = true :=
  (Option.filter_eq_some_iff.1 fitting).2

/-- The layout of a well-formed value is proper. -/
theorem laidProper_of_wellFormed (value : Value) (wellFormed : value.wellFormed = true) :
    value.LaidProper := by
  induction value using Value.induction with
  | scalar s =>
      intro limit depth column
      refine .ofPiece (@CodePiece.plain _ _ _ [s.kind] (spells_scalar wellFormed)
        (oneLine_scalar wellFormed) ?_)
      cases s <;> rfl
  | list items inductionHypothesis =>
      intro limit depth column
      have laid : ∀ item ∈ items, item.LaidProper := fun item member =>
        inductionHypothesis item member ((wellFormedItems_iff items).1 wellFormed item member)
      cases items with
      | nil =>
          have brackets : Spells Anywhere ['[', ']'] [.bare .leftBracket, .bare .rightBracket] :=
            (spells_mark '[' rfl rfl (by decide)).followedBy (spells_mark ']' rfl rfl (by decide))
          exact .ofPiece (@CodePiece.plain _ _ "[]" [.leftBracket, .rightBracket] brackets.weaken
            (by decide) rfl)
      | cons item items =>
          rw [layout]
          split
          · next text fitting =>
              have inline := fitting?_eq_some fitting
              obtain ⟨kinds, spells, -⟩ := spellsValue_inlineItems inline wellFormed
              exact .ofPiece (.ofFits spells (oneLine_inlineItems inline wellFormed)
                (fits_of_fitting? fitting))
          · exact .broken (.bracket '[' rfl rfl rfl (by decide) (by decide))
              (.bracket ']' rfl rfl rfl (by decide) (by decide))
              (proper_layoutItems laid limit (depth + 1))
  | map entries inductionHypothesis =>
      intro limit depth column
      have parts := (wellFormedEntries_iff entries).1 wellFormed
      have laid : ∀ entry ∈ entries, entry.value.LaidProper := fun entry member =>
        inductionHypothesis entry member (parts entry member).2
      cases entries with
      | nil =>
          have braces : Spells Anywhere ['{', '}'] [.bare .leftBrace, .bare .rightBrace] :=
            (spells_mark '{' rfl rfl (by decide)).followedBy (spells_mark '}' rfl rfl (by decide))
          exact .ofPiece (@CodePiece.plain _ _ "\x7b\x7d" [.leftBrace, .rightBrace] braces.weaken
            (by decide) rfl)
      | cons entry entries =>
          rw [layout]
          split
          · next text fitting =>
              have inline := fitting?_eq_some fitting
              obtain ⟨kinds, spells, -⟩ := spellsValue_inlineEntries inline wellFormed
              exact .ofPiece (.ofFits spells (oneLine_inlineEntries inline wellFormed)
                (fits_of_fitting? fitting))
          · exact .broken (.bracket '{' rfl rfl rfl (by decide) (by decide))
              (.bracket '}' rfl rfl rfl (by decide) (by decide))
              (proper_layoutEntries laid (fun entry member => (parts entry member).1) limit
                (depth + 1))

end Value

/-! ## Attributes, actions and headers -/

namespace Layout

variable {settings : PrintSettings} {limit : Nat}

theorem proper_commentLines {comments : List String}
    (wellFormed : comments.all Word.isComment = true) (depth : Nat) :
    ∀ line ∈ commentLines depth comments, line.Proper limit :=
  List.forall_mem_map.2 fun comment member =>
    .comment (List.all_eq_true.1 wellFormed comment member)

theorem proper_attributeLines {attr : Attribute} (wellFormed : attr.wellFormed = true)
    (depth : Nat) : ∀ line ∈ attributeLines limit depth attr, line.Proper limit := by
  simp only [Attribute.wellFormed, Bool.and_eq_true] at wellFormed
  obtain ⟨⟨⟨identifier, value⟩, comments⟩, trailing⟩ := wellFormed
  have flow := (attr.value.laidProper_of_wellFormed value limit depth
    (indentWidth depth + (Value.keyText attr.key).length)).lead identifier
  exact List.forall_mem_append.2
    ⟨proper_commentLines comments depth, flow.lines_trail fun piece => .code piece trailing⟩

/-- The code of an action holds no list or map. -/
theorem piece_actionText {action : Action} (identifier : Word.isIdentifier action.method = true)
    (column : Nat) : ∃ kinds, kinds ≠ [] ∧ CodePiece limit column (actionText action) kinds := by
  obtain ⟨kinds, spells, derives⟩ := spells_actionText identifier
  have derivation := derives []
  rw [List.append_nil] at derivation
  cases derivation with
  | action aim answer =>
      refine ⟨_, List.cons_ne_nil _ _, .plain spells (oneLine_actionText identifier) ?_⟩
      cases aim <;> cases answer <;> rfl

theorem proper_actionLines {action : Action} (wellFormed : action.wellFormed = true)
    (depth : Nat) : ∀ line ∈ actionLines depth action, line.Proper limit := by
  simp only [Action.wellFormed, Bool.and_eq_true] at wellFormed
  obtain ⟨⟨identifier, comments⟩, trailing⟩ := wellFormed
  obtain ⟨kinds, -, piece⟩ := @piece_actionText limit action identifier (indentWidth depth)
  exact List.forall_mem_append.2
    ⟨proper_commentLines comments depth, List.forall_mem_singleton.2 (.code piece trailing)⟩

/-- The kind and label of a block and its opening brace. -/
theorem piece_header {kind : String} {label : Option String}
    (identifier : Word.isIdentifier kind = true) (column : Nat) :
    CodePiece limit column (headerText kind label ++ " \x7b") (headerKinds kind label) := by
  refine .plain ?_ ((oneLine_append _ _).2 ⟨oneLine_headerText identifier label, by decide⟩) ?_
  · simpa using (spells_headerKinds identifier label).weaken
  · cases label <;> rfl

/-- The kind and label of a block and its braces, with nothing between them. -/
theorem piece_emptyBlock {kind : String} {label : Option String}
    (identifier : Word.isIdentifier kind = true) (column : Nat) :
    CodePiece limit column (headerText kind label ++ " \x7b\x7d")
      (headerKinds kind label ++ [.rightBrace]) := by
  refine .plain ?_ ((oneLine_append _ _).2 ⟨oneLine_headerText identifier label, by decide⟩) ?_
  · simpa using ((spells_headerKinds identifier label).followedBy
      (spells_mark '}' rfl rfl (by decide))).weaken
  · cases label <;> rfl

/-- The closing brace of a block or of a group. -/
theorem proper_closingBrace (depth : Nat) :
    Line.Proper limit { depth := depth, content := "\x7d" } :=
  .bare (.bracket '}' rfl rfl rfl (by decide) (by decide))

theorem proper_flatMap {α : Type} {parts : List α} {lines : α → List Line}
    (proper : ∀ part ∈ parts, ∀ line ∈ lines part, line.Proper limit) :
    ∀ line ∈ parts.flatMap lines, line.Proper limit := by
  intro line member
  obtain ⟨part, inside, member⟩ := List.mem_flatMap.1 member
  exact proper part inside line member

theorem proper_actionsLines {actions : List Action}
    (wellFormed : actions.all Action.wellFormed = true) (depth : Nat) :
    ∀ line ∈ actionsLines settings depth actions, line.Proper limit := by
  have parts (depth : Nat) : ∀ line ∈ actions.flatMap (actionLines depth), line.Proper limit :=
    proper_flatMap fun action member =>
      proper_actionLines (List.all_eq_true.1 wellFormed action member) depth
  unfold actionsLines
  split
  · exact parts (depth + 1)
  · have header := @piece_header limit Word.actions none (by decide) (indentWidth (depth + 1))
    refine List.forall_mem_cons.2 ⟨.bare header, List.forall_mem_append.2 ⟨parts (depth + 2), ?_⟩⟩
    exact List.forall_mem_singleton.2 (proper_closingBrace (depth + 1))

end Layout

end ServiceDef
