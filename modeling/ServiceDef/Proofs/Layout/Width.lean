import Mathlib.Algebra.GroupWithZero.Nat
import ServiceDef.Proofs.Layout.Outline

/-!
# The width of lists and maps on one line

A list or map that is printed on one line fits within the limit, with everything in front of it
on its line. The items of a list over several lines are measured without the comma behind them,
so a line with a list or map on it can be one character too wide, but only in this way.

The statements are about the printed text: its lines, their tokens, and their widths without
comments.
-/

namespace ServiceDef

namespace Text

/-- The kinds of the tokens of a line, without the end of the text. -/
def lineKinds (line : String) : List TokenKind :=
  ((tokenize "" line).1.map (·.kind)).dropLast

/-- The width of a line in characters, without a comment at its end and the space in front of
it. -/
def codeWidth (line : String) : Nat :=
  line.length -
    (((tokenize "" line).1.flatMap (·.comments)).map fun comment => comment.length + 1).sum

end Text

namespace Line

/-- The tokens of a line of code. -/
theorem tokensOf_code {depth : Nat} {code : String} {kinds : List TokenKind}
    {comment : Option String} (spells : Spells Stops code.toList (kinds.map Token.bare))
    (commentFormed : comment.all Word.isComment = true) :
    tokensOf (Line.mk depth (code ++ Layout.trailingText comment)).text.toList =
      kinds.map Token.bare ++ [{ kind := .endOfFile, comments := comment.toList }] := by
  have stops : Stops (Layout.trailingText comment).toList := by
    cases comment <;> simp [Layout.trailingText, Word.isIdentifierPart, Stops]
  have ending : tokensOf (Layout.trailingText comment).toList =
      [{ kind := .endOfFile, comments := comment.toList }] := by
    cases comment with
    | none => exact tokensOf_nil
    | some comment =>
        refine Eq.trans ?_ (tokensOf_comment commentFormed)
        simpa [Layout.trailingText] using tokensOf_blank rfl comment.toList
  have chars : (Line.mk depth (code ++ Layout.trailingText comment)).text.toList =
      List.replicate (indentWidth depth) ' ' ++
        (code.toList ++ (Layout.trailingText comment).toList) := by
    simp [text]
  rw [chars, (spells_spaces _).scans _ trivial, spells.scans _ stops, ending, List.nil_append]

theorem kinds_tokenize (file line : String) :
    (tokenize file line).1.map (·.kind) = (tokensOf line.toList).map (·.kind) := by
  rw [← map_tokenize file line, List.map_map]
  rfl

theorem comments_tokenize (line : String) :
    (tokenize "" line).1.flatMap (·.comments) = (tokensOf line.toList).flatMap (·.comments) := by
  rw [← map_tokenize "" line, List.flatMap_map]
  rfl

section Code

variable {depth : Nat} {code : String} {kinds : List TokenKind} {comment : Option String}
  (spells : Spells Stops code.toList (kinds.map Token.bare))
  (commentFormed : comment.all Word.isComment = true)

include spells commentFormed

/-- The tokens of a line of code are those of the code. -/
theorem lineKinds_code :
    Text.lineKinds (Line.mk depth (code ++ Layout.trailingText comment)).text = kinds := by
  rw [Text.lineKinds, kinds_tokenize, tokensOf_code spells commentFormed]
  simp [Function.comp_def, Token.bare]

/-- The width of a line of code is that of its indentation and the code. -/
theorem codeWidth_code :
    Text.codeWidth (Line.mk depth (code ++ Layout.trailingText comment)).text =
      indentWidth depth + code.length := by
  have none : (kinds.map Token.bare).flatMap (·.comments) = [] := by
    simp [List.flatMap_map, Token.bare]
  rw [Text.codeWidth, comments_tokenize, tokensOf_code spells commentFormed, List.flatMap_append,
    none]
  cases comment with
  | none => simp [text, Layout.trailingText]
  | some comment =>
      have space : " ".length = 1 := rfl
      simp [text, Layout.trailingText, space]
      omega

end Code

/-- A comment is no code. -/
theorem lineKinds_comment {depth : Nat} {comment : String}
    (isComment : Word.isComment comment = true) :
    Text.lineKinds (Line.mk depth comment).text = [] := by
  have chars : (Line.mk depth comment).text.toList =
      List.replicate (indentWidth depth) ' ' ++ comment.toList := by
    simp [text]
  rw [Text.lineKinds, kinds_tokenize, chars, (spells_spaces _).scans _ trivial,
    tokensOf_comment isComment]
  rfl

end Line

theorem fits_iff {limit : Nat} (positive : 1 ≤ limit) (width : Nat) :
    fits limit width = true ↔ width ≤ limit := by
  simp [fits, Nat.ne_of_gt positive]

/-- A comma behind code. -/
theorem Spells.comma {code : String} {kinds : List TokenKind}
    (spells : Spells Stops code.toList (kinds.map Token.bare)) :
    Spells Stops (code ++ ",").toList ((kinds ++ [TokenKind.comma]).map .bare) := by
  have comma := spells.stopped (spells_mark ',' rfl rfl (by decide)) fun rest => by
    simp [Word.isIdentifierPart]
  simpa using comma.weaken

/-- A comma at the end is no part of a list or map. -/
theorem holdsContainer_append_comma (kinds : List TokenKind) :
    holdsContainer (kinds ++ [.comma]) = holdsContainer kinds := by
  induction kinds with
  | nil => rfl
  | cons kind kinds inductionHypothesis =>
      have closing : ∀ bracket ∈ kind.closing?,
          (bracket ∈ (kinds ++ [TokenKind.comma]).tail ↔ bracket ∈ kinds.tail) := by
        intro bracket closes
        have other : bracket ≠ .comma := by
          rintro rfl
          cases kind <;> cases closes
        cases kinds <;> simp [other]
      rw [List.cons_append, holdsContainer, holdsContainer, inductionHypothesis]
      cases closes : kind.closing? with
      | none => rfl
      | some bracket => simp [closing bracket closes]

/-- A list or map on a line fits within the limit, or is one character too wide because of the
comma behind it. -/
theorem Line.Proper.codeWidth_le {limit : Nat} (positive : 1 ≤ limit) {line : Line}
    (proper : line.Proper limit) (holds : holdsContainer (Text.lineKinds line.text) = true) :
    Text.codeWidth line.text ≤ limit ∨
      Text.codeWidth line.text = limit + 1 ∧ (Text.lineKinds line.text).getLast? = some .comma := by
  cases proper with
  | comment isComment =>
      rw [lineKinds_comment isComment] at holds
      cases holds
  | code piece commentFormed =>
      rw [lineKinds_code piece.spells commentFormed] at holds
      rw [codeWidth_code piece.spells commentFormed]
      exact .inl ((fits_iff positive _).1 (piece.measured holds))
  | @item depth code kinds piece =>
      -- A line of code of its own, with the comma as its last token.
      have spells := piece.spells.comma
      have bare : code ++ "," = code ++ "," ++ Layout.trailingText none := by
        simp [Layout.trailingText]
      rw [bare, lineKinds_code spells rfl] at holds ⊢
      rw [codeWidth_code spells rfl, String.length_append, ← Nat.add_assoc]
      rw [holdsContainer_append_comma] at holds
      have fitting := (fits_iff positive _).1 (piece.measured holds)
      rcases Nat.lt_or_eq_of_le fitting with less | exactly
      · exact .inl less
      · exact .inr ⟨congrArg (· + 1) exactly, by simp⟩

/-- Every line of the canonical text of a well-formed document on which a list or map stands that
is not empty has at most as many characters as the limit says, a comment behind it not counted.
The only exception is the line of an item of a list, which can have one more: the comma at its
end. -/
theorem containers_fit (document : Document) (wellFormed : document.wellFormed = true)
    (style : ActionStyle) (limit : Nat) (positive : 1 ≤ limit) :
    ∀ line ∈ Text.lines (document.print { style := style, limit := limit }),
      holdsContainer (Text.lineKinds line) = true →
        Text.codeWidth line ≤ limit ∨
          Text.codeWidth line = limit + 1 ∧ (Text.lineKinds line).getLast? = some .comma := by
  rw [lines_print _ wellFormed]
  refine List.forall_mem_map.2 fun line member holds => ?_
  exact (Layout.proper_documentLines _ wellFormed line member).codeWidth_le positive holds

/-- A list in a list. -/
def nestedListDocument : Document where
  blocks :=
    [{ kind := "config"
       attributes :=
         [{ key := "a"
            value := .list [.list [.scalar (.number "1"), .scalar (.number "2")]] }] }]

theorem containers_fit_nestedList :
    nestedListDocument.wellFormed = true ∧
      ∀ line ∈ Text.lines (nestedListDocument.print { style := .multi, limit := 10 }),
        holdsContainer (Text.lineKinds line) = true →
          Text.codeWidth line ≤ 10 ∨
            Text.codeWidth line = 11 ∧ (Text.lineKinds line).getLast? = some .comma :=
  have wellFormed : nestedListDocument.wellFormed = true := by decide
  ⟨wellFormed, containers_fit nestedListDocument wellFormed .multi 10 (by decide)⟩

/-- The line of the inner list has eleven characters when the limit is ten. -/
theorem nestedList_exceeds_limit :
    nestedListDocument.wellFormed = true ∧
      ¬ ∀ line ∈ Text.lines (nestedListDocument.print { limit := 10 }),
        holdsContainer (Text.lineKinds line) = true → Text.codeWidth line ≤ 10 := by
  decide +kernel

end ServiceDef
