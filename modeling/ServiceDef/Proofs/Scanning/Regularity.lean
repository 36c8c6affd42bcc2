import ServiceDef.Proofs.Scanning.Span
import ServiceDef.Proofs.Scanning.Stream

/-!
# Regular tokens

Whatever the text, a scanner makes identifiers only of identifiers, numbers only of numbers and
comments only of comments. What a reader builds from its tokens can thus be printed again.
-/

namespace ServiceDef

/-- Identifiers and numbers are written as such. -/
def TokenKind.regular : TokenKind → Bool
  | .identifier name => Word.isIdentifier name
  | .number lexeme => Word.isNumber lexeme
  | _ => true

/-- The kind of the token is regular, and its comments are comments of one line. -/
def Token.regular (token : Token) : Bool :=
  token.kind.regular && token.comments.all Word.isComment

/-! ## Comments -/

namespace Text

/-- What is trimmed of a text is white space at its end. -/
theorem eq_trimEnd_append (text : List Char) :
    ∃ spaces, text = trimEnd text ++ spaces ∧ ∀ c ∈ spaces, isWhiteSpace c = true := by
  have split := List.takeWhile_append_dropWhile (p := isWhiteSpace) (l := text.reverse)
  refine ⟨(text.reverse.takeWhile isWhiteSpace).reverse, ?_, fun c member => ?_⟩
  · rw [trimEnd, ← List.reverse_append, split, List.reverse_reverse]
  · exact List.all_eq_true.1 List.all_takeWhile c (List.mem_reverse.1 member)

theorem getLast?_trimEnd (text : List Char) :
    (trimEnd text).getLast?.any isWhiteSpace = false := by
  have first := List.head?_dropWhile_not isWhiteSpace text.reverse
  rw [trimEnd, List.getLast?_reverse]
  cases solid : (text.reverse.dropWhile isWhiteSpace).head? with
  | none => rfl
  | some c =>
      rw [solid] at first
      exact first

/-- A text that starts with a solid character still does when it is trimmed. -/
theorem head?_trimEnd {text : List Char} {c : Char} (first : text.head? = some c)
    (solid : isWhiteSpace c = false) : (trimEnd text).head? = some c := by
  obtain ⟨spaces, split, white⟩ := eq_trimEnd_append text
  rw [split] at first
  cases trimmed : trimEnd text with
  | nil =>
      rw [trimmed, List.nil_append] at first
      rw [white c (List.mem_of_head? first)] at solid
      cases solid
  | cons d rest =>
      rw [trimmed] at first
      exact first

end Text

/-- What is left of a hash and the rest of its line is a comment. -/
theorem isComment_trimEnd {rest : List Char} (oneLine : '\n' ∉ rest) :
    Word.isComment (String.ofList (Text.trimEnd ('#' :: rest))) = true := by
  obtain ⟨spaces, split, -⟩ := Text.eq_trimEnd_append ('#' :: rest)
  have noBreak : '\n' ∉ Text.trimEnd ('#' :: rest) := by
    intro member
    have inside : '\n' ∈ '#' :: rest := split ▸ List.mem_append_left spaces member
    exact oneLine (by simpa using inside)
  have first : (Text.trimEnd ('#' :: rest)).head? = some '#' := Text.head?_trimEnd rfl rfl
  simp [Word.isComment, first, noBreak, Text.getLast?_trimEnd]

/-- The comment of a gap is a comment of one line. -/
theorem Gap.comments_regular (text : List Char) :
    (Gap.read text).comments.all Word.isComment = true := by
  unfold Gap.read
  dsimp only
  split
  · next hash =>
      obtain ⟨rest, behind⟩ := List.head?_eq_some_iff.1 hash
      have oneLine : '\n' ∉ rest.takeWhile (· ≠ '\n') := by
        intro member
        have other := List.all_eq_true.1 List.all_takeWhile _ member
        simp at other
      rw [behind, List.takeWhile_cons, if_pos (by decide)]
      simp only [Gap.comments, List.all_cons, List.all_nil, Bool.and_true]
      exact isComment_trimEnd oneLine
  · rfl

/-! ## Lexemes -/

namespace Lexeme

/-- A word that is no truth value is an identifier. -/
theorem wordKind_regular {c : Char} {text : List Char} (start : Word.isIdentifierStart c = true)
    (inside : ∀ d ∈ text, Word.isIdentifierPart d = true) :
    (wordKind (c :: text)).regular = true := by
  unfold wordKind
  split
  · rfl
  · split
    · rfl
    · next notTrue notFalse =>
        have other {word : List Char} (differ : ¬ c :: text = word) :
            String.ofList (c :: text) ≠ String.ofList word := fun same =>
          differ (String.ofList_injective same)
        simp only [TokenKind.regular, Word.isIdentifier, String.toList_ofList, start,
          List.all_eq_true.2 inside, Bool.true_and, Bool.and_eq_true, decide_eq_true_eq]
        exact ⟨other notTrue, other notFalse⟩

/-- The longest run of digits with a fraction is a number. -/
theorem spanNumber_regular {c : Char} (rest : List Char) (digit : c.isDigit = true) :
    Word.isUnsigned (spanNumber (c :: rest)).1 = true := by
  have whole : Word.isDigits ((c :: rest).takeWhile Char.isDigit) = true := by
    rw [Word.isDigits_iff]
    exact ⟨by simp [digit], List.all_eq_true.1 List.all_takeWhile⟩
  rw [Word.isUnsigned_iff]
  refine ⟨_, whole, ?_⟩
  unfold spanNumber
  split
  · next d rest tail =>
      split
      · next fraction =>
          refine .inr ⟨d :: rest.takeWhile Char.isDigit, ?_, rfl⟩
          rw [Word.isDigits_iff]
          refine ⟨by simp, ?_⟩
          have others := List.all_eq_true.1
            (List.all_takeWhile (p := Char.isDigit) (l := rest))
          simpa [fraction] using others
      · exact .inl rfl
  · exact .inl rfl

/-- Every lexeme is regular. -/
theorem read_regular (c : Char) (rest : List Char) : (read c rest).kind.regular = true := by
  unfold read
  split
  · next kind mark =>
      unfold markKind? at mark
      repeat' split at mark
      all_goals cases mark <;> rfl
  · split
    · unfold readDash
      split
      · rfl
      · next d rest noArrow =>
          split
          · next digit =>
              have unsigned := spanNumber_regular rest digit
              simpa [TokenKind.regular, Word.isNumber] using unsigned
          · rfl
      · rfl
    · split
      · unfold readQuoted
        dsimp only
        split <;> rfl
      · split
        · rfl
        · split
          · next digit => exact Word.isNumber_of_isUnsigned (spanNumber_regular rest digit)
          · split
            · next start => exact wordKind_regular start (List.all_eq_true.1 List.all_takeWhile)
            · rfl

end Lexeme

/-- Every token of a text is regular. -/
theorem tokensOf_regular (text : List Char) : ∀ token ∈ tokensOf text, token.regular = true := by
  induction text using tokensOf_induction with
  | atEnd text split =>
      rw [tokensOf_of_end split]
      intro token member
      rw [List.mem_singleton.1 member, Token.regular, Gap.comments_regular]
      rfl
  | lexeme text c rest split inductionHypothesis =>
      rw [tokensOf_of_lexeme split]
      intro token member
      rcases List.mem_cons.1 member with rfl | member
      · rw [Token.regular, Lexeme.read_regular, Gap.comments_regular]
        rfl
      · exact inductionHypothesis token member

end ServiceDef
