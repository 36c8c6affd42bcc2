import ServiceDef.Proofs.Grammar.Reading
import ServiceDef.Proofs.Layout.Text

/-!
# The tokens of laid out values

Whatever the limit, depth and column, the canonical text of a value is read as tokens that derive
from the value. The layout decides about line breaks and commas only, and the grammar takes both
where a layout puts them.
-/

namespace ServiceDef

open Grammar

/-- A text that is read as tokens that derive from the value. -/
def SpellsValue (text : List Char) (value : Value) : Prop :=
  ∃ kinds : List TokenKind, Spells Stops text (kinds.map Token.bare) ∧
    ∀ rest, DerivesValue (kinds ++ rest) value rest

/-! ## Scalars and keys -/

/-- The token of a scalar. -/
def Scalar.kind : Scalar → TokenKind
  | .string contents => .string contents
  | .number lexeme => .number lexeme
  | .boolean value => .boolean value

theorem spells_scalar {s : Scalar} (wellFormed : s.wellFormed = true) :
    Spells Stops s.text.toList [.bare s.kind] := by
  cases s with
  | string contents => exact (spells_quote contents).weaken
  | number lexeme => exact spells_number wellFormed
  | boolean value => exact spells_boolean value

theorem derivesValue_scalar (s : Scalar) (rest : List TokenKind) :
    DerivesValue (s.kind :: rest) (.scalar s) rest := by
  cases s with
  | string contents => exact .string contents rest
  | number lexeme => exact .number lexeme rest
  | boolean value => exact .boolean value rest

/-- A key and the sign behind it. -/
theorem spells_keyText {key : String} (identifier : Word.isIdentifier key = true) :
    Spells Anywhere (Value.keyText key).toList [.bare (.identifier key), .bare .equals] := by
  have sign : Spells Anywhere ([' '] ++ ['='] ++ [' ']) ([] ++ [.bare .equals] ++ []) :=
    (spells_space.followedBy (spells_mark '=' rfl rfl (by decide))).followedBy spells_space
  have text : (Value.keyText key).toList = key.toList ++ ([' '] ++ ['='] ++ [' ']) := by
    simp [Value.keyText]
  rw [text]
  exact (spells_identifier identifier).stopped sign fun rest => by simp [Word.isIdentifierPart]

/-! ## Parts on one line -/

section Inline

variable {α : Type} (text : α → List Char) (kinds : α → List TokenKind)

/-- The texts of some parts with commas between them. -/
theorem spells_intercalate {parts : List α}
    (spellings : ∀ part ∈ parts, Spells Stops (text part) ((kinds part).map Token.bare)) :
    Spells Stops ([',', ' '].intercalate (parts.map text))
      (([.comma].intercalate (parts.map kinds)).map Token.bare) := by
  have comma : Spells Anywhere [',', ' '] [.bare .comma] :=
    (spells_mark ',' rfl rfl (by decide)).followedBy spells_space
  induction parts with
  | nil => exact .nil
  | cons first parts inductionHypothesis =>
      have front := spellings first List.mem_cons_self
      cases parts with
      | nil => simpa using front
      | cons second parts =>
          have back := inductionHypothesis fun part member =>
            spellings part (List.mem_cons_of_mem first member)
          simp only [List.map_cons, List.intercalate_cons_cons, List.map_append] at back ⊢
          rw [List.append_assoc, List.append_assoc]
          exact front.append (comma.followedBy back) fun rest _ => by simp [Word.isIdentifierPart]

end Inline

/-- The items of a list with commas between them. -/
theorem derivesItems_intercalate (scalars : List Scalar) (rest : List TokenKind) :
    DerivesItems true ([.comma].intercalate (scalars.map fun s => [s.kind]) ++ rest)
      (scalars.map .scalar) rest := by
  induction scalars with
  | nil => exact .done
  | cons first scalars inductionHypothesis =>
      cases scalars with
      | nil => exact .item (derivesValue_scalar first _) .done
      | cons second scalars =>
          exact .item (derivesValue_scalar first _) (.comma inductionHypothesis)

/-- The entry of a map with a scalar for its value. -/
def Entry.ofScalar (part : Entry Scalar) : Entry Value where
  key := part.key
  value := .scalar part.value
  position := part.position

/-- The tokens of an entry with a scalar for its value. -/
def Entry.kinds (part : Entry Scalar) : List TokenKind :=
  [.identifier part.key, .equals, part.value.kind]

/-- The entries of a map with commas between them. -/
theorem derivesEntries_intercalate (parts : List (Entry Scalar)) (rest : List TokenKind) :
    Series IsSeparator DerivesEntry true ([.comma].intercalate (parts.map Entry.kinds) ++ rest)
      (parts.map fun part => { key := part.key, value := .scalar part.value }) rest := by
  induction parts with
  | nil => exact .done
  | cons first parts inductionHypothesis =>
      have entry (behind : List TokenKind) : DerivesEntry (first.kinds ++ behind)
          { key := first.key, value := .scalar first.value } behind :=
        .entry (.inl rfl) (derivesValue_scalar first.value behind)
      cases parts with
      | nil => exact .item (entry _) .done
      | cons second parts => exact .item (entry _) (.separator (.inr rfl) inductionHypothesis)

namespace Value

theorem eq_scalar_of_scalar? {value : Value} (isScalar : value.scalar?.isSome = true) :
    ∃ s, value = .scalar s := by
  cases value with
  | scalar s => exact ⟨s, rfl⟩
  | list items => cases isScalar
  | map entries => cases isScalar

/-- A list that can stand on one line has only scalars for its items. -/
theorem inlineItems?_eq_some {items : List Value} {text : String}
    (inline : inlineItems? items = some text) :
    ∃ scalars : List Scalar, items = scalars.map .scalar ∧
      text.toList = '[' :: ([',', ' '].intercalate (scalars.map (·.text.toList)) ++ [']']) := by
  unfold inlineItems? at inline
  split at inline
  · next all =>
      rw [List.all_eq_true] at all
      obtain ⟨scalars, rfl⟩ : ∃ scalars : List Scalar, items = scalars.map .scalar := by
        clear inline
        induction items with
        | nil => exact ⟨[], rfl⟩
        | cons item items inductionHypothesis =>
            obtain ⟨s, rfl⟩ := eq_scalar_of_scalar? (all item List.mem_cons_self)
            obtain ⟨scalars, rfl⟩ := inductionHypothesis fun other member =>
              all other (List.mem_cons_of_mem _ member)
            exact ⟨s :: scalars, rfl⟩
      refine ⟨scalars, rfl, ?_⟩
      cases inline
      simp [List.filterMap_map, Function.comp_def, scalar?]
  · cases inline

/-- A map that can stand on one line has only scalars for its values. -/
theorem inlineEntries?_eq_some {entries : List (Entry Value)} {text : String}
    (inline : inlineEntries? entries = some text) :
    ∃ parts : List (Entry Scalar), entries = parts.map Entry.ofScalar ∧
      text.toList = '{' :: ' ' ::
        ([',', ' '].intercalate
          (parts.map fun part => (keyText part.key).toList ++ part.value.text.toList) ++
          [' ', '}']) := by
  unfold inlineEntries? at inline
  split at inline
  · next all =>
      rw [List.all_eq_true] at all
      obtain ⟨parts, rfl⟩ : ∃ parts : List (Entry Scalar), entries = parts.map Entry.ofScalar := by
        clear inline
        induction entries with
        | nil => exact ⟨[], rfl⟩
        | cons entry entries inductionHypothesis =>
            obtain ⟨key, value, position⟩ := entry
            obtain ⟨s, rfl⟩ := eq_scalar_of_scalar? (all _ List.mem_cons_self)
            obtain ⟨parts, rfl⟩ := inductionHypothesis fun other member =>
              all other (List.mem_cons_of_mem _ member)
            exact ⟨⟨key, s, position⟩ :: parts, rfl⟩
      refine ⟨parts, rfl, ?_⟩
      cases inline
      simp [List.filterMap_map, Function.comp_def, scalar?, Entry.ofScalar]
  · cases inline

/-! ## Lists and maps -/

/-- A list on one line. -/
theorem spellsValue_inlineItems {items : List Value} {text : String}
    (inline : inlineItems? items = some text) (wellFormed : wellFormedItems items = true) :
    SpellsValue text.toList (.list (erasePositionsItems items)) := by
  obtain ⟨scalars, rfl, chars⟩ := inlineItems?_eq_some inline
  have inside := spells_intercalate (·.text.toList) (fun s : Scalar => [s.kind])
    fun s member => spells_scalar
      ((wellFormedItems_iff _).1 wellFormed _ (List.mem_map_of_mem member))
  have erased : erasePositionsItems (scalars.map .scalar) = scalars.map .scalar := by
    clear inline wellFormed chars inside
    induction scalars with
    | nil => rfl
    | cons s scalars inductionHypothesis =>
        simp [erasePositionsItems, erasePositions, inductionHypothesis]
  refine ⟨.leftBracket :: ([.comma].intercalate (scalars.map fun s => [s.kind]) ++
    [.rightBracket]), ?_, fun rest => ?_⟩
  · rw [chars, List.map_cons, List.map_append]
    exact ((spells_mark '[' rfl rfl (by decide)).followedBy (inside.stopped
      (spells_mark ']' rfl rfl (by decide)) fun rest => by simp [Word.isIdentifierPart])).weaken
  · rw [erased, List.cons_append, List.append_assoc]
    exact .list (derivesItems_intercalate scalars _)

/-- A map on one line. -/
theorem spellsValue_inlineEntries {entries : List (Entry Value)} {text : String}
    (inline : inlineEntries? entries = some text)
    (wellFormed : wellFormedEntries entries = true) :
    SpellsValue text.toList (.map (erasePositionsEntries entries)) := by
  obtain ⟨parts, rfl, chars⟩ := inlineEntries?_eq_some inline
  have inside := spells_intercalate
    (fun part : Entry Scalar => (keyText part.key).toList ++ part.value.text.toList) Entry.kinds
    fun part member => by
      obtain ⟨identifier, scalar⟩ :=
        (wellFormedEntries_iff _).1 wellFormed _ (List.mem_map_of_mem member)
      exact (spells_keyText identifier).followedBy (spells_scalar scalar)
  have erased : erasePositionsEntries (parts.map Entry.ofScalar) =
      parts.map fun part => { key := part.key, value := .scalar part.value } := by
    clear inline wellFormed chars inside
    induction parts with
    | nil => rfl
    | cons part parts inductionHypothesis =>
        simp [erasePositionsEntries, erasePositions, Entry.ofScalar, inductionHypothesis]
  refine ⟨.leftBrace :: ([.comma].intercalate (parts.map Entry.kinds) ++ [.rightBrace]), ?_,
    fun rest => ?_⟩
  · rw [chars, List.map_cons, List.map_append]
    have opening : Spells Anywhere (['{'] ++ [' ']) ([.bare .leftBrace] ++ []) :=
      (spells_mark '{' rfl rfl (by decide)).followedBy spells_space
    have closing : Spells Anywhere ([' '] ++ ['}']) ([] ++ [.bare .rightBrace]) :=
      spells_space.followedBy (spells_mark '}' rfl rfl (by decide))
    exact (opening.followedBy (inside.stopped closing fun rest => by
      simp [Word.isIdentifierPart])).weaken
  · rw [erased, List.cons_append, List.append_assoc]
    exact .map (derivesEntries_intercalate parts _)

/-- The value is spelled by its layout, whatever the limit, depth and column. -/
def Laid (value : Value) : Prop :=
  ∀ limit depth column,
    SpellsValue (layout limit depth column value).text.toList value.erasePositions

/-- The items of a list on lines of their own, each with a comma behind it. -/
theorem spells_layoutItems {items : List Value} (laid : ∀ item ∈ items, item.Laid)
    (limit depth : Nat) :
    ∃ kinds : List TokenKind,
      Spells Anywhere (Line.join (layoutItems limit depth items)).toList
        (kinds.map Token.bare) ∧
      ∀ rest, DerivesItems true (kinds ++ rest) (erasePositionsItems items) rest := by
  induction items with
  | nil => exact ⟨[], .nil, fun rest => .done⟩
  | cons item items inductionHypothesis =>
      obtain ⟨first, spells, derives⟩ := laid item List.mem_cons_self limit depth
        (indentWidth depth)
      obtain ⟨others, spellsOthers, derivesOthers⟩ := inductionHypothesis fun other member =>
        laid other (List.mem_cons_of_mem item member)
      refine ⟨first ++ .comma :: .newline :: others, ?_, fun rest => ?_⟩
      · have ending : Spells Anywhere [',', '\n'] [.bare .comma, .bare .newline] :=
          (spells_mark ',' rfl rfl (by decide)).followedBy spells_newline
        have line := spells.stopped ending fun rest => by simp [Word.isIdentifierPart]
        have lines := spells_lines ((layout limit depth (indentWidth depth) item).trail ",") depth
          (by simpa [Flow.text_trail] using line)
        rw [layoutItems, Line.toList_join_append]
        simpa using lines.followedBy spellsOthers
      · rw [List.append_assoc, erasePositionsItems]
        exact .item (derives _) (.comma (.newline (derivesOthers rest)))

/-- The entries of a map on lines of their own. -/
theorem spells_layoutEntries {entries : List (Entry Value)}
    (laid : ∀ entry ∈ entries, entry.value.Laid)
    (identifiers : ∀ entry ∈ entries, Word.isIdentifier entry.key = true) (limit depth : Nat) :
    ∃ kinds : List TokenKind,
      Spells Anywhere (Line.join (layoutEntries limit depth entries)).toList
        (kinds.map Token.bare) ∧
      ∀ rest, Series IsSeparator DerivesEntry true (kinds ++ rest)
        (erasePositionsEntries entries) rest := by
  induction entries with
  | nil => exact ⟨[], .nil, fun rest => .done⟩
  | cons entry entries inductionHypothesis =>
      obtain ⟨key, value, position⟩ := entry
      have identifier := identifiers _ List.mem_cons_self
      obtain ⟨first, spells, derives⟩ := laid _ List.mem_cons_self limit depth
        (indentWidth depth + (keyText key).length)
      obtain ⟨others, spellsOthers, derivesOthers⟩ := inductionHypothesis
        (fun other member => laid other (List.mem_cons_of_mem _ member))
        (fun other member => identifiers other (List.mem_cons_of_mem _ member))
      refine ⟨.identifier key :: .equals :: first ++ .newline :: others, ?_, fun rest => ?_⟩
      · have line := (spells_keyText identifier).followedBy
          (spells.stopped spells_newline fun rest => by simp [Word.isIdentifierPart])
        have lines := spells_lines ((layout limit depth _ value).lead (keyText key)) depth
          (by simpa [Flow.text_lead] using line)
        rw [layoutEntries, Line.toList_join_append]
        simpa using lines.followedBy spellsOthers
      · rw [List.append_assoc, erasePositionsEntries]
        exact .item (.entry (.inl rfl) (derives _)) (.separator (.inl rfl) (derivesOthers rest))

theorem fitting?_eq_some {limit column : Nat} {inline : Option String} {text : String}
    (fitting : fitting? limit column inline = some text) : inline = some text :=
  (Option.filter_eq_some_iff.1 fitting).1

/-- A list over several lines. -/
theorem spellsValue_brokenItems {items : List Value} (laid : ∀ item ∈ items, item.Laid)
    (limit depth : Nat) :
    SpellsValue
      (Flow.mk "[" (layoutItems limit (depth + 1) items ++
        [{ depth := depth, content := "]" }])).text.toList
      (.list (erasePositionsItems items)) := by
  obtain ⟨kinds, spells, derives⟩ := spells_layoutItems laid limit (depth + 1)
  refine ⟨.leftBracket :: .newline :: (kinds ++ [.rightBracket]), ?_, fun rest => ?_⟩
  · have opening : Spells Anywhere ['[', '\n'] [.bare .leftBracket, .bare .newline] :=
      (spells_mark '[' rfl rfl (by decide)).followedBy spells_newline
    have closing : Spells Anywhere _ ([] ++ [.bare .rightBracket]) :=
      (spells_spaces (indentWidth depth)).followedBy (spells_mark ']' rfl rfl (by decide))
    rw [Flow.toList_text_append]
    simpa using (opening.followedBy (spells.followedBy closing)).weaken
  · simpa using DerivesValue.list (.newline (derives (.rightBracket :: rest)))

/-- A map over several lines. -/
theorem spellsValue_brokenEntries {entries : List (Entry Value)}
    (laid : ∀ entry ∈ entries, entry.value.Laid)
    (identifiers : ∀ entry ∈ entries, Word.isIdentifier entry.key = true) (limit depth : Nat) :
    SpellsValue
      (Flow.mk "\x7b" (layoutEntries limit (depth + 1) entries ++
        [{ depth := depth, content := "\x7d" }])).text.toList
      (.map (erasePositionsEntries entries)) := by
  obtain ⟨kinds, spells, derives⟩ := spells_layoutEntries laid identifiers limit (depth + 1)
  refine ⟨.leftBrace :: .newline :: (kinds ++ [.rightBrace]), ?_, fun rest => ?_⟩
  · have opening : Spells Anywhere ['{', '\n'] [.bare .leftBrace, .bare .newline] :=
      (spells_mark '{' rfl rfl (by decide)).followedBy spells_newline
    have closing : Spells Anywhere _ ([] ++ [.bare .rightBrace]) :=
      (spells_spaces (indentWidth depth)).followedBy (spells_mark '}' rfl rfl (by decide))
    rw [Flow.toList_text_append]
    simpa using (opening.followedBy (spells.followedBy closing)).weaken
  · simpa using DerivesValue.map (.separator (.inl rfl) (derives (.rightBrace :: rest)))

/-- The canonical text of a value is read as tokens that derive from the value. -/
theorem laid_of_wellFormed (value : Value) (wellFormed : value.wellFormed = true) :
    value.Laid := by
  induction value using Value.induction with
  | scalar s =>
      intro limit depth column
      exact ⟨[s.kind], by simpa [layout, Flow.text] using spells_scalar wellFormed,
        derivesValue_scalar s⟩
  | list items inductionHypothesis =>
      intro limit depth column
      have laid : ∀ item ∈ items, item.Laid := fun item member =>
        inductionHypothesis item member ((wellFormedItems_iff items).1 wellFormed item member)
      cases items with
      | nil =>
          refine ⟨[.leftBracket, .rightBracket], ?_, fun rest => .list .done⟩
          have brackets : Spells Anywhere ['[', ']'] [.bare .leftBracket, .bare .rightBracket] :=
            (spells_mark '[' rfl rfl (by decide)).followedBy (spells_mark ']' rfl rfl (by decide))
          simpa [layout, Flow.text] using brackets.weaken
      | cons item items =>
          rw [layout]
          split
          · next text fitting =>
              simpa [Flow.text, erasePositions] using
                spellsValue_inlineItems (fitting?_eq_some fitting) wellFormed
          · exact spellsValue_brokenItems laid limit depth
  | map entries inductionHypothesis =>
      intro limit depth column
      have parts := (wellFormedEntries_iff entries).1 wellFormed
      have laid : ∀ entry ∈ entries, entry.value.Laid := fun entry member =>
        inductionHypothesis entry member (parts entry member).2
      cases entries with
      | nil =>
          refine ⟨[.leftBrace, .rightBrace], ?_, fun rest => .map .done⟩
          have braces : Spells Anywhere ['{', '}'] [.bare .leftBrace, .bare .rightBrace] :=
            (spells_mark '{' rfl rfl (by decide)).followedBy (spells_mark '}' rfl rfl (by decide))
          simpa [layout, Flow.text] using braces.weaken
      | cons entry entries =>
          rw [layout]
          split
          · next text fitting =>
              simpa [Flow.text, erasePositions] using
                spellsValue_inlineEntries (fitting?_eq_some fitting) wellFormed
          · exact spellsValue_brokenEntries laid (fun entry member => (parts entry member).1)
              limit depth

end Value

end ServiceDef
