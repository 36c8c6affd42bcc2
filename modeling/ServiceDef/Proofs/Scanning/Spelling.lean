import ServiceDef.Layout.Value
import ServiceDef.Proofs.Scanning.Span
import ServiceDef.Proofs.Scanning.Stream

/-!
# How tokens are spelled

A text spells some tokens when a scanner reads these tokens wherever the text stands. Words and
numbers go on as long as they can, so what stands behind a text may have to meet a condition.
Spellings are put together by `Spells.append`: the text in the middle has to meet the condition
of the one in front of it.
-/

namespace ServiceDef

/-- No condition on the text behind a spelling. -/
def Anywhere (_ : List Char) : Prop := True

/-- The text does not go on with a character of a word or number. -/
def Stops (text : List Char) : Prop :=
  ∀ c ∈ text.head?, Word.isIdentifierPart c = false

/-- The text goes on with a space. -/
def Spaced (text : List Char) : Prop :=
  text.head? = some ' '

/-- A text that is read as the given valid tokens when a text with the property `Before` stands
behind it. -/
structure Spells (Before : List Char → Prop) (text : List Char) (tokens : List Token) : Prop where
  scans : ∀ rest, Before rest → tokensOf (text ++ rest) = tokens ++ tokensOf rest
  valid : ∀ token ∈ tokens, token.kind.isInvalid = false

namespace Spells

variable {Before Behind : List Char → Prop} {first second : List Char} {left right : List Token}

/-- No text is read as no tokens. -/
theorem nil : Spells Before [] [] :=
  ⟨fun _ _ => rfl, by simp⟩

/-- Two spellings one after the other. -/
theorem append (front : Spells Before first left) (back : Spells Behind second right)
    (meets : ∀ rest, Behind rest → Before (second ++ rest)) :
    Spells Behind (first ++ second) (left ++ right) where
  scans rest behind := by
    rw [List.append_assoc, front.scans _ (meets rest behind), back.scans rest behind,
      List.append_assoc]
  valid token member := by
    rcases List.mem_append.1 member with member | member
    · exact front.valid token member
    · exact back.valid token member

/-- A spelling with no condition in front of another one. -/
theorem followedBy (front : Spells Anywhere first left) (back : Spells Behind second right) :
    Spells Behind (first ++ second) (left ++ right) :=
  front.append back fun _ _ => trivial

/-- A spelling with no condition stands everywhere. -/
theorem weaken (spelling : Spells Anywhere first left) : Spells Before first left :=
  ⟨fun rest _ => spelling.scans rest trivial, spelling.valid⟩

/-- A word or number in front of a text that does not go on with its characters. -/
theorem stopped (front : Spells Stops first left) (back : Spells Anywhere second right)
    (stops : ∀ rest, Stops (second ++ rest)) : Spells Anywhere (first ++ second) (left ++ right) :=
  front.append back fun rest _ => stops rest

end Spells

@[simp] theorem stops_cons (c : Char) (text : List Char) :
    Stops (c :: text) ↔ Word.isIdentifierPart c = false := by
  simp [Stops]

/-! ## Gaps -/

theorem Gap.read_cons_blank {c : Char} (blank : isBlank c = true) (text : List Char) :
    (Gap.read (c :: text)).rest = (Gap.read text).rest ∧
      (Gap.read (c :: text)).comments = (Gap.read text).comments := by
  simp only [Gap.read, List.takeWhile_cons, List.dropWhile_cons, blank, ite_true]
  split <;> exact ⟨rfl, rfl⟩

/-- Blanks mean nothing. -/
theorem tokensOf_blank {c : Char} (blank : isBlank c = true) (text : List Char) :
    tokensOf (c :: text) = tokensOf text := by
  obtain ⟨rest, comments⟩ := Gap.read_cons_blank blank text
  cases split : (Gap.read text).rest with
  | nil => rw [tokensOf_of_end split, tokensOf_of_end (rest.trans split), comments]
  | cons d behind => rw [tokensOf_of_lexeme split, tokensOf_of_lexeme (rest.trans split), comments]

/-- Where neither a blank nor a comment starts, a lexeme does. -/
theorem tokensOf_lexeme {c : Char} (solid : isBlank c = false) (noComment : c ≠ '#')
    (text : List Char) :
    tokensOf (c :: text) =
      { kind := (Lexeme.read c text).kind } :: tokensOf (Lexeme.read c text).rest := by
  have gap : Gap.read (c :: text) = { blanks := [], comment := [], rest := c :: text } := by
    simp [Gap.read, solid, noComment]
  have split : (Gap.read (c :: text)).rest = c :: text := by rw [gap]
  rw [tokensOf_of_lexeme split, gap]
  rfl

/-- The end of the text. -/
@[simp] theorem tokensOf_nil : tokensOf [] = [.bare .endOfFile] :=
  tokensOf_of_end rfl

/-- A lexeme whose extent does not depend on more than the given condition on the text behind
it. -/
theorem spells_lexeme {Before : List Char → Prop} {c : Char} {text : List Char} {kind : TokenKind}
    (solid : isBlank c = false) (noComment : c ≠ '#') (valid : kind.isInvalid = false)
    (read : ∀ rest, Before rest →
      (Lexeme.read c (text ++ rest)).kind = kind ∧ (Lexeme.read c (text ++ rest)).rest = rest) :
    Spells Before (c :: text) [.bare kind] where
  scans rest before := by
    obtain ⟨sameKind, behind⟩ := read rest before
    rw [List.cons_append, tokensOf_lexeme solid noComment, sameKind, behind]
    rfl
  valid := by simpa [Token.bare] using valid

/-! ## Blanks and marks -/

/-- Spaces are read as nothing. -/
theorem spells_spaces (count : Nat) : Spells Anywhere (List.replicate count ' ') [] := by
  induction count with
  | zero => exact .nil
  | succ count inductionHypothesis =>
      refine ⟨fun rest _ => ?_, by simp⟩
      rw [List.replicate_succ, List.cons_append, tokensOf_blank rfl]
      exact inductionHypothesis.scans rest trivial

theorem spells_space : Spells Anywhere [' '] [] :=
  spells_spaces 1

/-- A punctuation mark or a line break. -/
theorem spells_mark (c : Char) {kind : TokenKind} (mark : Lexeme.markKind? c = some kind)
    (solid : isBlank c = false) (noComment : c ≠ '#') : Spells Anywhere [c] [.bare kind] :=
  spells_lexeme solid noComment (Lexeme.kind_markKind?_ne mark).2 fun rest _ => by
    simp [Lexeme.read, mark]

theorem spells_newline : Spells Anywhere ['\n'] [.bare .newline] :=
  spells_mark '\n' rfl rfl (by decide)

/-- The arrow of an action. -/
theorem spells_arrow : Spells Anywhere ['-', '>'] [.bare .arrow] :=
  spells_lexeme rfl (by decide) rfl fun rest _ => by
    simp [Lexeme.read, Lexeme.markKind?, Lexeme.readDash]

/-! ## Words and numbers -/

/-- The characters of words and numbers start neither gaps nor marks. -/
theorem wordPart {c : Char} (part : Word.isIdentifierPart c = true) :
    isBlank c = false ∧ c ≠ '#' ∧ Lexeme.markKind? c = none ∧ c ≠ '-' ∧ c ≠ '"' ∧ c ≠ '/' := by
  have other (d : Char) (outside : Word.isIdentifierPart d = false) : c ≠ d := by
    rintro rfl
    rw [part] at outside
    cases outside
  refine ⟨?_, other _ rfl, ?_, other _ rfl, other _ rfl, other _ rfl⟩
  · simp [isBlank, other ' ' rfl, other '\t' rfl, other '\r' rfl]
  · simp [Lexeme.markKind?, other '\n' rfl, other '{' rfl, other '}' rfl, other '[' rfl,
      other ']' rfl, other ':' rfl, other ',' rfl, other '=' rfl]

theorem isIdentifierPart_of_start {c : Char} (start : Word.isIdentifierStart c = true) :
    Word.isIdentifierPart c = true := by
  simp only [Word.isIdentifierStart, Bool.or_eq_true] at start
  rcases start with letter | underscore
  · simp [Word.isIdentifierPart, Char.isAlphanum, letter]
  · simp [Word.isIdentifierPart, of_decide_eq_true underscore]

theorem isIdentifierPart_of_digit {c : Char} (digit : c.isDigit = true) :
    Word.isIdentifierPart c = true := by
  simp [Word.isIdentifierPart, Char.isAlphanum, digit]

/-- No digit starts a word. -/
theorem isDigit_of_start {c : Char} (start : Word.isIdentifierStart c = true) :
    c.isDigit = false := by
  by_cases underscore : c = '_'
  · subst underscore
    rfl
  · simp only [Word.isIdentifierStart, underscore, decide_false, Bool.or_false] at start
    cases digit : c.isDigit with
    | false => rfl
    | true =>
        have small : c.val ≤ '9'.val := of_decide_eq_true (Bool.and_eq_true_iff.1 digit).2
        have large : 'A'.val ≤ c.val := by
          rcases Bool.or_eq_true_iff.1 start with upper | lower
          · exact (of_decide_eq_true upper).1
          · exact UInt32.le_trans (by decide)
              (of_decide_eq_true (Bool.and_eq_true_iff.1 lower).1)
        exact absurd (UInt32.le_trans large small) (by decide)

/-- A word is read up to a text that does not go on with its characters. -/
theorem spells_word {c : Char} {text : List Char} (start : Word.isIdentifierStart c = true)
    (inside : ∀ d ∈ text, Word.isIdentifierPart d = true) :
    Spells Stops (c :: text) [.bare (Lexeme.wordKind (c :: text))] := by
  obtain ⟨solid, noComment, noMark, noDash, noQuote, noSlash⟩ :=
    wordPart (isIdentifierPart_of_start start)
  refine spells_lexeme solid noComment (Lexeme.wordKind_ne _).2 fun rest stops => ?_
  have span := span_eq text rest inside stops
  simp [Lexeme.read, noMark, noDash, noQuote, noSlash, isDigit_of_start start, start, span.1,
    span.2]

/-- A text that is no truth value is the word it is read as. -/
theorem wordKind_toList {name : String} (notTrue : name ≠ "true") (notFalse : name ≠ "false") :
    Lexeme.wordKind name.toList = .identifier name := by
  have spelled {text : List Char} (same : name.toList = text) : name = String.ofList text := by
    rw [← same, String.ofList_toList]
  rw [Lexeme.wordKind, if_neg fun same => notTrue (spelled same),
    if_neg fun same => notFalse (spelled same), String.ofList_toList]

/-- An identifier is read as it is written. -/
theorem spells_identifier {name : String} (identifier : Word.isIdentifier name = true) :
    Spells Stops name.toList [.bare (.identifier name)] := by
  unfold Word.isIdentifier at identifier
  split at identifier
  · cases identifier
  · next c text chars =>
      simp only [Bool.and_eq_true, List.all_eq_true, decide_eq_true_eq] at identifier
      obtain ⟨⟨⟨start, inside⟩, notTrue⟩, notFalse⟩ := identifier
      rw [← wordKind_toList notTrue notFalse, chars]
      exact spells_word start inside

/-- A truth value is read as it is written. -/
theorem spells_boolean (value : Bool) :
    Spells Stops (Scalar.boolean value).text.toList [.bare (.boolean value)] := by
  cases value with
  | true => exact @spells_word 't' ['r', 'u', 'e'] rfl (List.all_eq_true.1 rfl)
  | false => exact @spells_word 'f' ['a', 'l', 's', 'e'] rfl (List.all_eq_true.1 rfl)

/-- A number is read up to a text that does not go on with the characters of words. -/
theorem spanNumber_of_stops {text rest : List Char} (unsigned : Word.isUnsigned text = true)
    (stops : Stops rest) : Lexeme.spanNumber (text ++ rest) = (text, rest) := by
  refine Lexeme.spanNumber_append_of_isUnsigned unsigned fun c first => ?_
  have outside := stops c first
  simp only [Word.isIdentifierPart, Char.isAlphanum, Bool.or_eq_false_iff,
    decide_eq_false_iff_not] at outside
  exact ⟨outside.1.1.2, outside.2⟩

/-- A number is read as it is written. -/
theorem spells_number {lexeme : String} (number : Word.isNumber lexeme = true) :
    Spells Stops lexeme.toList [.bare (.number lexeme)] := by
  unfold Word.isNumber at number
  split at number
  · next text chars =>
      obtain ⟨d, behind, rfl, digit⟩ := Word.digit_of_isUnsigned number
      rw [chars]
      refine spells_lexeme rfl (by decide) rfl fun rest stops => ?_
      have span := spanNumber_of_stops number stops
      rw [List.cons_append] at span ⊢
      -- A digit behind the dash is no arrow, and the match sees this only from the inequality.
      have noArrow : d ≠ '>' := by
        rintro rfl
        cases digit
      simp [Lexeme.read, Lexeme.markKind?, Lexeme.readDash, digit, span, ← chars]
  · obtain ⟨d, behind, chars, digit⟩ := Word.digit_of_isUnsigned number
    obtain ⟨solid, noComment, noMark, noDash, noQuote, noSlash⟩ :=
      wordPart (isIdentifierPart_of_digit digit)
    rw [chars] at number ⊢
    refine spells_lexeme solid noComment rfl fun rest stops => ?_
    have span := spanNumber_of_stops number stops
    rw [List.cons_append] at span
    simp [Lexeme.read, noMark, noDash, noQuote, noSlash, digit, span, ← chars]

/-! ## String literals, paths and comments -/

/-- A string literal is read as what was quoted. -/
theorem spells_quote (contents : String) :
    Spells Anywhere (Text.quote contents).toList [.bare (.string contents)] := by
  rw [Text.quote, String.toList_ofList]
  refine spells_lexeme rfl (by decide) rfl fun rest _ => ?_
  simp [Lexeme.read, Lexeme.markKind?, Lexeme.readQuoted, Text.spanQuoted_escaped]

/-- A path is read as it is written in front of white space and at the end of a text. -/
theorem tokensOf_path {target : String} (bare : Word.isBarePath target = true) {rest : List Char}
    (stops : ∀ c ∈ rest.head?, Text.isWhiteSpace c = true) :
    tokensOf (target.toList ++ rest) = .bare (.path target) :: tokensOf rest := by
  simp only [Word.isBarePath, Bool.and_eq_true, Bool.not_eq_true', decide_eq_true_eq,
    List.any_eq_false, Bool.not_eq_true] at bare
  obtain ⟨⟨⟨slash, noArrow⟩, noSpace⟩, openFirst⟩ := bare
  obtain ⟨text, chars⟩ := List.head?_eq_some_iff.1 slash
  rw [chars] at noArrow noSpace openFirst
  have span := Lexeme.spanPath_append_of_stops 0 stops (Bool.or_eq_false_iff.1 noArrow).2
    (fun c member => noSpace c (List.mem_cons_of_mem _ member)) openFirst
  have read : Lexeme.read '/' (text ++ rest) =
      { kind := .path target, text := target.toList, rest := rest } := by
    simp [Lexeme.read, Lexeme.markKind?, span, ← chars]
  rw [chars, List.cons_append, tokensOf_lexeme rfl (by decide), read]
  rfl

/-- A path in front of a space is read as it is written. -/
theorem spells_path {target : String} (bare : Word.isBarePath target = true) :
    Spells Spaced target.toList [.bare (.path target)] where
  scans rest spaced := tokensOf_path bare fun c first => by
    rw [spaced, Option.mem_some_iff] at first
    rw [← first]
    rfl
  valid := by simp [Token.bare, TokenKind.isInvalid]

/-- A comment in front of the end of its line. -/
theorem Gap.read_comment {comment rest : List Char} (hash : comment.head? = some '#')
    (oneLine : '\n' ∉ comment) (lineEnd : ∀ c ∈ rest.head?, c = '\n') :
    Gap.read (comment ++ rest) = { blanks := [], comment := comment, rest := rest } := by
  obtain ⟨tail, rfl⟩ := List.head?_eq_some_iff.1 hash
  have span := span_eq (p := (· ≠ '\n')) ('#' :: tail) rest
    (fun c member => decide_eq_true fun newline => oneLine (newline ▸ member))
    (fun c member => by simp [lineEnd c member])
  rw [Gap.read, List.cons_append, List.takeWhile_cons, List.dropWhile_cons]
  simp only [isBlank]
  simpa using span

/-- A comment of one line is a gap, and is kept as it is written. -/
theorem Gap.read_isComment {comment : String} (wellFormed : Word.isComment comment = true)
    {rest : List Char} (lineEnd : ∀ c ∈ rest.head?, c = '\n') :
    (Gap.read (comment.toList ++ rest)).rest = rest ∧
      (Gap.read (comment.toList ++ rest)).comments = [comment] := by
  simp only [Word.isComment, Bool.and_eq_true, Bool.not_eq_true', decide_eq_true_eq,
    List.contains_eq_mem, decide_eq_false_iff_not] at wellFormed
  obtain ⟨⟨hash, oneLine⟩, solid⟩ := wellFormed
  rw [Gap.read_comment hash oneLine lineEnd]
  refine ⟨rfl, ?_⟩
  obtain ⟨text, chars⟩ := List.head?_eq_some_iff.1 hash
  have kept := Text.trimEnd_of_getLast? solid
  rw [chars] at kept
  rw [Gap.comments, chars]
  dsimp only
  rw [kept, ← chars, String.ofList_toList]

/-- A comment belongs to the line break behind it. -/
theorem spells_comment {comment : String} (wellFormed : Word.isComment comment = true) :
    Spells Anywhere (comment.toList ++ ['\n']) [{ kind := .newline, comments := [comment] }] := by
  refine ⟨fun rest _ => ?_, by simp [TokenKind.isInvalid]⟩
  obtain ⟨split, comments⟩ := @Gap.read_isComment comment wellFormed ('\n' :: rest) (by simp)
  rw [List.append_assoc, List.singleton_append, tokensOf_of_lexeme split, comments]
  simp [Lexeme.read, Lexeme.markKind?]

/-- A comment at the end of a text belongs to the end of the file. -/
theorem tokensOf_comment {comment : String} (wellFormed : Word.isComment comment = true) :
    tokensOf comment.toList = [{ kind := .endOfFile, comments := [comment] }] := by
  obtain ⟨split, comments⟩ := @Gap.read_isComment comment wellFormed [] (by simp)
  rw [List.append_nil] at split comments
  rw [tokensOf_of_end split, comments]

end ServiceDef
