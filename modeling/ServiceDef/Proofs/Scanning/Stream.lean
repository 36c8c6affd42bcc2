import ServiceDef.Parse
import ServiceDef.Proofs.Reader.Erasure

/-!
# The stream of tokens of a text

`tokensOf` reads a text as tokens without positions, one lexeme after the other. It is what a
scanner yields up to positions (`Scanner.map_drain`), and proofs about scanned texts compute
with it. Every stream ends with its only end of the file, and the diagnostics of a scanner tell
whether there is an invalid token in it.
-/

namespace ServiceDef

/-- Whether a token is text that is no part of the language. -/
def TokenKind.isInvalid : TokenKind → Bool
  | .invalid _ => true
  | _ => false

/-! ## Lexemes -/

namespace Lexeme

theorem kind_markKind?_ne {c : Char} {kind : TokenKind} (mark : markKind? c = some kind) :
    kind ≠ .endOfFile ∧ kind.isInvalid = false := by
  unfold markKind? at mark
  repeat' split at mark
  all_goals
    cases mark <;> exact ⟨by simp, rfl⟩

theorem wordKind_ne (word : List Char) :
    wordKind word ≠ .endOfFile ∧ (wordKind word).isInvalid = false := by
  unfold wordKind
  repeat' split
  all_goals exact ⟨by simp, rfl⟩

/-- No lexeme is the end of the file, and a lexeme has a fault exactly if it is invalid. -/
theorem read_kind (c : Char) (rest : List Char) :
    (read c rest).kind ≠ .endOfFile ∧
      ((read c rest).fault = none ↔ (read c rest).kind.isInvalid = false) := by
  unfold read
  split
  · next kind mark =>
      obtain ⟨notEnd, valid⟩ := kind_markKind?_ne mark
      exact ⟨notEnd, by simp [valid]⟩
  · split
    · unfold readDash
      split
      · simp [TokenKind.isInvalid]
      · split <;> simp [TokenKind.isInvalid]
      · simp [TokenKind.isInvalid]
    · split
      · unfold readQuoted
        dsimp only
        split <;> simp [TokenKind.isInvalid]
      · split
        · simp [TokenKind.isInvalid]
        · split
          · simp [TokenKind.isInvalid]
          · split
            · exact ⟨(wordKind_ne _).1, by simp [(wordKind_ne _).2]⟩
            · simp [TokenKind.isInvalid]

end Lexeme

/-! ## Tokens of a text -/

/-- The tokens of a text, without positions. -/
def tokensOf (text : List Char) : List Token :=
  match _split : (Gap.read text).rest with
  | [] => [{ kind := .endOfFile, comments := (Gap.read text).comments }]
  | c :: rest =>
    { kind := (Lexeme.read c rest).kind, comments := (Gap.read text).comments } ::
      tokensOf (Lexeme.read c rest).rest
termination_by text.length
decreasing_by
  have gapLength := Gap.length_rest_le text
  have lexemeLength := Lexeme.length_rest_lt c rest
  rw [_split] at gapLength
  omega

/-- Behind the last gap stands the end of the file. -/
theorem tokensOf_of_end {text : List Char} (split : (Gap.read text).rest = []) :
    tokensOf text = [{ kind := .endOfFile, comments := (Gap.read text).comments }] := by
  rw [tokensOf]
  split
  · rfl
  · next other => rw [split] at other; cases other

/-- Behind a gap stands a lexeme, which takes the comment of the gap. -/
theorem tokensOf_of_lexeme {text : List Char} {c : Char} {rest : List Char}
    (split : (Gap.read text).rest = c :: rest) :
    tokensOf text =
      { kind := (Lexeme.read c rest).kind, comments := (Gap.read text).comments } ::
        tokensOf (Lexeme.read c rest).rest := by
  rw [tokensOf]
  split
  · next other => rw [split] at other; cases other
  · next other => rw [split] at other; cases other; rfl

/-- A property of the tokens of all texts follows if the end of the file has it and it passes
from the tokens behind a lexeme to all tokens. -/
theorem tokensOf_induction {motive : List Char → Prop}
    (atEnd : ∀ text, (Gap.read text).rest = [] → motive text)
    (lexeme : ∀ text c rest, (Gap.read text).rest = c :: rest →
      motive (Lexeme.read c rest).rest → motive text)
    (text : List Char) : motive text := by
  fun_induction tokensOf text with
  | case1 text split => exact atEnd text split
  | case2 text c rest split inductionHypothesis =>
      exact lexeme text c rest split inductionHypothesis

/-- A stream of tokens ends with its only end of the file. -/
theorem tokensOf_eq_append (text : List Char) :
    ∃ content last, tokensOf text = content ++ [last] ∧ last.kind = .endOfFile ∧
      ∀ token ∈ content, token.kind ≠ .endOfFile := by
  induction text using tokensOf_induction with
  | atEnd text split =>
      exact ⟨[], _, tokensOf_of_end split, rfl, by simp⟩
  | lexeme text c rest split inductionHypothesis =>
      obtain ⟨content, last, tail, atEnd, others⟩ := inductionHypothesis
      refine ⟨_ :: content, last, by rw [tokensOf_of_lexeme split, tail]; rfl, atEnd, ?_⟩
      simpa using ⟨(Lexeme.read_kind c rest).1, others⟩

/-! ## Scanners -/

namespace Scanner

variable {scanner : Scanner}

theorem drain_of_finished (finished : scanner.finished = true) : scanner.drain = ([], scanner) := by
  rw [drain]
  split
  · rfl
  · next read => simp [next?, finished] at read

theorem drain_of_next? {token : Token} {after : Scanner}
    (read : scanner.next? = some (token, after)) :
    scanner.drain = (token :: after.drain.1, after.drain.2) := by
  rw [drain]
  split
  · next other => rw [read] at other; cases other
  · next other => rw [read] at other; cases other; rfl

/-- At the end of its text, a scanner yields the end of the file and nothing else. -/
theorem drain_of_end (running : scanner.finished = false)
    (split : (Gap.read scanner.rest).rest = []) :
    scanner.drain =
      ([{ kind := .endOfFile
          position := scanner.position.advance (Gap.read scanner.rest).text
          comments := (Gap.read scanner.rest).comments }],
        { scanner with
          position := scanner.position.advance (Gap.read scanner.rest).text
          rest := []
          finished := true }) := by
  have read : scanner.next? = some
      ({ kind := .endOfFile
         position := scanner.position.advance (Gap.read scanner.rest).text
         comments := (Gap.read scanner.rest).comments },
        { scanner with
          position := scanner.position.advance (Gap.read scanner.rest).text
          rest := []
          finished := true }) := by
    simp [next?, running, split]
  rw [drain_of_next? read, drain_of_finished rfl]

/-- In front of a lexeme, a scanner yields its token and then what stands behind it. A fault of
the lexeme is reported. -/
theorem drain_of_lexeme (running : scanner.finished = false) {c : Char} {rest : List Char}
    (split : (Gap.read scanner.rest).rest = c :: rest) :
    ∃ after : Scanner, scanner.drain =
        ({ kind := (Lexeme.read c rest).kind
           position := scanner.position.advance (Gap.read scanner.rest).text
           comments := (Gap.read scanner.rest).comments } :: after.drain.1, after.drain.2) ∧
      after.finished = false ∧ after.rest = (Lexeme.read c rest).rest ∧
      after.position =
        scanner.position.advance ((Gap.read scanner.rest).text ++ (Lexeme.read c rest).text) ∧
      after.diagnostics = scanner.diagnostics ++
        ((Lexeme.read c rest).fault.map fun fault => Diagnostic.malformed fault.message
          (scanner.position.advance (Gap.read scanner.rest).text)).toList := by
  let position := scanner.position.advance (Gap.read scanner.rest).text
  let after : Scanner :=
    { scanner with
      position := position.advance (Lexeme.read c rest).text
      rest := (Lexeme.read c rest).rest
      diagnostics := scanner.diagnostics ++
        ((Lexeme.read c rest).fault.map fun fault =>
          Diagnostic.malformed fault.message position).toList }
  have read : scanner.next? = some
      ({ kind := (Lexeme.read c rest).kind
         position := position
         comments := (Gap.read scanner.rest).comments }, after) := by
    simp [next?, running, split, position, after]
  exact ⟨after, drain_of_next? read, running, rfl, (Position.advance_append _ _ _).symm, rfl⟩

/-- Up to positions, a scanner yields the tokens of its text. -/
theorem map_drain (running : scanner.finished = false) :
    scanner.drain.1.map Relabelling.unplaced.token = tokensOf scanner.rest := by
  induction text : scanner.rest using tokensOf_induction generalizing scanner with
  | atEnd _ split =>
      subst text
      rw [drain_of_end running split, tokensOf_of_end split]
      rfl
  | lexeme _ c rest split inductionHypothesis =>
      subst text
      obtain ⟨after, drain, still, behind, -⟩ := drain_of_lexeme running split
      rw [drain, tokensOf_of_lexeme split, ← inductionHypothesis still behind]
      rfl

/-- A scanner reports nothing exactly if it yields no invalid token. -/
theorem diagnostics_drain (running : scanner.finished = false) :
    scanner.drain.2.diagnostics = [] ↔
      scanner.diagnostics = [] ∧ ∀ token ∈ tokensOf scanner.rest, token.kind.isInvalid = false := by
  induction text : scanner.rest using tokensOf_induction generalizing scanner with
  | atEnd _ split =>
      subst text
      rw [drain_of_end running split, tokensOf_of_end split]
      simp [TokenKind.isInvalid]
  | lexeme _ c rest split inductionHypothesis =>
      subst text
      obtain ⟨after, drain, still, behind, -, found⟩ := drain_of_lexeme running split
      rw [drain, tokensOf_of_lexeme split, inductionHypothesis still behind, found]
      simp [(Lexeme.read_kind c rest).2, and_assoc]

end Scanner

/-- Up to positions, a source text is read as the tokens of its characters. -/
theorem map_tokenize (file source : String) :
    (tokenize file source).1.map Relabelling.unplaced.token = tokensOf source.toList :=
  Scanner.map_drain rfl

/-- A source text is read without a diagnostic exactly if there is no invalid token in it. -/
theorem tokenize_diagnostics_eq_nil_iff (file source : String) :
    (tokenize file source).2 = [] ↔
      ∀ token ∈ (tokenize file source).1, token.kind.isInvalid = false := by
  have silent : (tokenize file source).2 = [] ↔ _ :=
    @Scanner.diagnostics_drain (Scanner.start file source) rfl
  rw [silent, show (Scanner.start file source).rest = source.toList from rfl,
    ← map_tokenize file source]
  simp [Scanner.start, Relabelling.token]

/-! ## Parsing -/

/-- The tokens before the only end of the file. -/
theorem contentTokens_append {content : List Token} {last : Token} (atEnd : last.kind = .endOfFile)
    (others : ∀ token ∈ content, token.kind ≠ .endOfFile) :
    contentTokens (content ++ [last]) = content := by
  unfold contentTokens
  rw [List.takeWhile_append_of_pos (by simpa [Token.isEnd] using others)]
  simp [Token.isEnd, atEnd]

/-- The only end of the file is the end token. -/
theorem endToken_append (file : String) {content : List Token} {last : Token}
    (atEnd : last.kind = .endOfFile) (others : ∀ token ∈ content, token.kind ≠ .endOfFile) :
    endToken file (content ++ [last]) = last := by
  have none : content.find? Token.isEnd = none := by
    simpa [Token.isEnd] using others
  simp [endToken, List.find?_append, none, Token.isEnd, atEnd]

/-- Tokens that end with their only end of the file are parsed by one run of a reader. -/
theorem parseTokens_append (file : String) {content : List Token} {last : Token}
    (atEnd : last.kind = .endOfFile) (others : ∀ token ∈ content, token.kind ≠ .endOfFile) :
    parseTokens file (content ++ [last]) =
      { document :=
          { file := file
            blocks := ((({} : Reader).run content).finish last).blocks
            trailingComments := ((({} : Reader).run content).finish last).pending }
        diagnostics := ((({} : Reader).run content).finish last).diagnostics } := by
  simp [parseTokens, contentTokens_append atEnd others, endToken_append file atEnd others]

/-- Tokens between others are read behind those before them and in front of those after them. -/
theorem parseTokens_between (file : String) {before middle after : List Token} {last : Token}
    (atEnd : last.kind = .endOfFile) (around : ∀ token ∈ before ++ after, token.kind ≠ .endOfFile)
    (between : ∀ token ∈ middle, token.kind ≠ .endOfFile) :
    (parseTokens file (before ++ middle ++ after ++ [last])).document.blocks =
        ((((({} : Reader).run before).run middle).run after).finish last).blocks ∧
      (parseTokens file (before ++ middle ++ after ++ [last])).diagnostics =
        ((((({} : Reader).run before).run middle).run after).finish last).diagnostics := by
  have others : ∀ token ∈ before ++ middle ++ after, token.kind ≠ .endOfFile := by
    intro token member
    rcases List.mem_append.1 member with inFront | inAfter
    · rcases List.mem_append.1 inFront with inBefore | inMiddle
      · exact around token (List.mem_append_left _ inBefore)
      · exact between token inMiddle
    · exact around token (List.mem_append_right _ inAfter)
  rw [parseTokens_append file atEnd others, Reader.run_append, Reader.run_append]
  exact ⟨rfl, rfl⟩

/-- The tokens of a source text end with their only end of the file. -/
theorem tokenize_eq_append (file source : String) :
    ∃ content last, (tokenize file source).1 = content ++ [last] ∧ last.kind = .endOfFile ∧
      ∀ token ∈ content, token.kind ≠ .endOfFile := by
  obtain ⟨content, last, stream, atEnd, others⟩ := tokensOf_eq_append source.toList
  rw [← map_tokenize file source, List.map_eq_append_iff] at stream
  obtain ⟨placed, rest, split, rfl, tail⟩ := stream
  obtain ⟨placedLast, rfl, rfl⟩ := List.map_eq_singleton_iff.1 tail
  exact ⟨placed, placedLast, split, atEnd, by simpa [Relabelling.token] using others⟩

/-- A source text is parsed without a diagnostic exactly if none of its tokens is invalid and a
reader has nothing to report about them. -/
theorem parse_diagnostics_eq_nil_iff (file source : String) :
    (parse file source).diagnostics = [] ↔
      (∀ token ∈ (tokenize file source).1, token.kind.isInvalid = false) ∧
        (parseTokens file (tokenize file source).1).diagnostics = [] := by
  rw [← tokenize_diagnostics_eq_nil_iff, and_comm]
  simp [parse, Diagnostic.sort, ← List.length_eq_zero_iff]

/-- Up to positions, a source text is parsed by reading its tokens without positions. -/
theorem parse_of_tokensOf (file : String) {source : String} {content : List Token} {last : Token}
    (stream : tokensOf source.toList = content ++ [last]) :
    (parse file source).document.erasePositions =
        { blocks := ((({} : Reader).run content).finish last).blocks
          trailingComments := ((({} : Reader).run content).finish last).pending } ∧
      ((parse file source).diagnostics = [] ↔
        (∀ token ∈ content ++ [last], token.kind.isInvalid = false) ∧
          ((({} : Reader).run content).finish last).diagnostics = []) := by
  obtain ⟨placed, placedLast, split, atEnd, others⟩ := tokenize_eq_append file source
  have parsed := parseTokens_append file atEnd others
  have same := map_tokenize file source
  rw [split, stream] at same
  have valid : (∀ token ∈ content ++ [last], token.kind.isInvalid = false) ↔
      ∀ token ∈ placed ++ [placedLast], token.kind.isInvalid = false := by
    rw [← same, List.forall_mem_map]
    rfl
  rw [List.map_append, List.map_singleton] at same
  obtain ⟨sameContent, sameLast⟩ := List.append_inj' same rfl
  cases sameLast
  have unplaced : Relabelling.unplaced.reader ((({} : Reader).run placed).finish placedLast) =
      (({} : Reader).run content).finish (Relabelling.unplaced.token placedLast) := by
    rw [Relabelling.reader_finish, Relabelling.reader_run, sameContent]
    rfl
  constructor
  · have document : (parse file source).document =
        (parseTokens file (placed ++ [placedLast])).document := by
      rw [← split]
      rfl
    rw [document, parsed, ← unplaced]
    simp [Document.erasePositions, Relabelling.reader, Relabelling.blocks_unplaced]
  · rw [parse_diagnostics_eq_nil_iff, split, parsed, valid, ← unplaced]
    simp [Relabelling.reader]

end ServiceDef
