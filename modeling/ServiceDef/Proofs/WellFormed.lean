import ServiceDef.Document
import ServiceDef.Word

/-!
# Well-formed documents

The documents that canonical text can express. Names have to be identifiers, numbers have to be
written as numbers, and comments have to be comments of one line. Labels, string values, targets
and handlers are arbitrary, because they can be quoted. Inside of a block, an unlabelled block of
the kind `actions` would be a group of actions.

This module contains no reader and no layout.
-/

namespace ServiceDef

namespace Word

/-- One or more ASCII digits. -/
def isDigits (text : List Char) : Bool :=
  !text.isEmpty && text.all Char.isDigit

/-- Digits, with more digits behind the dot if there is one. -/
def isUnsigned (text : List Char) : Bool :=
  isDigits (text.takeWhile (· ≠ '.')) &&
    match text.dropWhile (· ≠ '.') with
    | [] => true
    | _ :: fraction => isDigits fraction

/-- A number, with a minus sign in front if it is negative. -/
def isNumber (lexeme : String) : Bool :=
  match lexeme.toList with
  | '-' :: text => isUnsigned text
  | text => isUnsigned text

/-- A comment of one line, without white space at its end. -/
def isComment (text : String) : Bool :=
  text.toList.head? = some '#' && !text.toList.contains '\n' &&
    !text.toList.getLast?.any Text.isWhiteSpace

/-- A group of actions starts in the same way as an unlabelled block of this kind. -/
def startsGroup (kind : String) (label : Option String) : Bool :=
  kind = actions && label.isNone

end Word

/-- Numbers have to be written as numbers. -/
def Scalar.wellFormed : Scalar → Bool
  | .number lexeme => Word.isNumber lexeme
  | _ => true

namespace Value

mutual

/-- All numbers of the value are numbers, and all keys of its maps are identifiers. -/
def wellFormed : Value → Bool
  | .scalar s => s.wellFormed
  | .list items => wellFormedItems items
  | .map entries => wellFormedEntries entries

/-- All items of a list are well formed. -/
def wellFormedItems : List Value → Bool
  | [] => true
  | item :: items => item.wellFormed && wellFormedItems items

/-- All entries of a map are well formed. -/
def wellFormedEntries : List (Entry Value) → Bool
  | [] => true
  | ⟨key, value, _⟩ :: entries =>
    Word.isIdentifier key && value.wellFormed && wellFormedEntries entries

end

theorem wellFormedItems_iff (items : List Value) :
    wellFormedItems items = true ↔ ∀ item ∈ items, item.wellFormed = true := by
  induction items with
  | nil => simp [wellFormedItems]
  | cons item items inductionHypothesis => simp [wellFormedItems, inductionHypothesis]

theorem wellFormedEntries_iff (entries : List (Entry Value)) :
    wellFormedEntries entries = true ↔
      ∀ entry ∈ entries, Word.isIdentifier entry.key = true ∧ entry.value.wellFormed = true := by
  induction entries with
  | nil => simp [wellFormedEntries]
  | cons entry entries inductionHypothesis => simp [wellFormedEntries, inductionHypothesis]

end Value

/-- The attribute has an identifier for its key, a well-formed value and comments of one line. -/
def Attribute.wellFormed (attr : Attribute) : Bool :=
  Word.isIdentifier attr.key && attr.value.wellFormed && attr.comments.all Word.isComment &&
    attr.trailingComment.all Word.isComment

/-- The action has an identifier for its method and comments of one line. -/
def Action.wellFormed (action : Action) : Bool :=
  Word.isIdentifier action.method && action.comments.all Word.isComment &&
    action.trailingComment.all Word.isComment

namespace Block

mutual

/-- The block has an identifier for its kind, comments of one line and well-formed parts, and
none of its blocks is written like a group. -/
def wellFormed : Block → Bool
  | ⟨kind, _, attributes, blocks, actions, comments, trailingComments, _⟩ =>
    Word.isIdentifier kind && attributes.all Attribute.wellFormed &&
      actions.all Action.wellFormed && comments.all Word.isComment &&
      trailingComments.all Word.isComment && wellFormedNested blocks

/-- All of some nested blocks are well formed, and none is written like a group. -/
def wellFormedNested : List Block → Bool
  | [] => true
  | block :: blocks =>
    !Word.startsGroup block.kind block.label && block.wellFormed && wellFormedNested blocks

end

theorem wellFormedNested_iff (blocks : List Block) :
    wellFormedNested blocks = true ↔ ∀ block ∈ blocks,
      Word.startsGroup block.kind block.label = false ∧ block.wellFormed = true := by
  induction blocks with
  | nil => simp [wellFormedNested]
  | cons block blocks inductionHypothesis => simp [wellFormedNested, inductionHypothesis]

/-- What makes a block well formed, by its parts. -/
theorem wellFormed_iff (block : Block) :
    block.wellFormed = true ↔
      Word.isIdentifier block.kind = true ∧ block.attributes.all Attribute.wellFormed = true ∧
        block.actions.all Action.wellFormed = true ∧ block.comments.all Word.isComment = true ∧
        block.trailingComments.all Word.isComment = true ∧
        wellFormedNested block.blocks = true := by
  cases block
  simp [wellFormed, and_assoc]

/-- A block stays well formed when it gets another well-formed block that is not written like a
group. -/
theorem wellFormed_addChild {parent child : Block} (parentFormed : parent.wellFormed = true)
    (childFormed : child.wellFormed = true)
    (noGroup : Word.startsGroup child.kind child.label = false) :
    ({ parent with blocks := parent.blocks ++ [child] } : Block).wellFormed = true := by
  rw [wellFormed_iff, wellFormedNested_iff] at parentFormed ⊢
  refine ⟨parentFormed.1, parentFormed.2.1, parentFormed.2.2.1, parentFormed.2.2.2.1,
    parentFormed.2.2.2.2.1, fun block member => ?_⟩
  rcases List.mem_append.1 member with member | member
  · exact parentFormed.2.2.2.2.2 block member
  · rw [List.mem_singleton.1 member]
    exact ⟨noGroup, childFormed⟩

/-- A block stays well formed when comments are put before its closing brace. -/
theorem wellFormed_trailing {block : Block} (formed : block.wellFormed = true)
    {comments : List String} (commentsFormed : comments.all Word.isComment = true) :
    ({ block with trailingComments := comments } : Block).wellFormed = true := by
  rw [wellFormed_iff] at formed ⊢
  exact ⟨formed.1, formed.2.1, formed.2.2.1, formed.2.2.2.1, commentsFormed,
    formed.2.2.2.2.2⟩

end Block

/-- All blocks of the document are well formed and its comments are comments of one line. -/
def Document.wellFormed (document : Document) : Bool :=
  document.blocks.all Block.wellFormed && document.trailingComments.all Word.isComment

end ServiceDef
