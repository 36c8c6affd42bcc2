import ServiceDef.Proofs.Scanning.Stream

/-!
# The partition of a text into tokens

A scanner loses nothing of its text: the gaps and lexemes of its tokens, one after the other, are
the text. A `Piece` is a token with the gap in front of it and its lexeme, and `Partition` says how
the pieces of a text follow each other. All positions are exact, because a position advances over
every character of every piece.
-/

namespace ServiceDef

/-! ## Exact positions -/

/-- The position behind `before` in a file that starts with it. Lines and columns count from one,
columns count the characters since the last line break, and offsets count bytes. -/
structure Position.IsBehind (position : Position) (file : String) (before : List Char) : Prop where
  file : position.file = file
  line : position.line = 1 + before.count '\n'
  column : position.column = 1 + (before.reverse.takeWhile (· ≠ '\n')).length
  offset : position.offset = (String.ofList before).utf8ByteSize

namespace Position

theorem offset_next (position : Position) (c : Char) :
    (position.next c).offset = position.offset + c.utf8Size := by
  unfold next
  split <;> rfl

theorem offset_advance (position : Position) (text : List Char) :
    (position.advance text).offset = position.offset + (String.ofList text).utf8ByteSize := by
  induction text generalizing position with
  | nil => simp
  | cons c text inductionHypothesis =>
      rw [advance_cons, inductionHypothesis, offset_next, String.ofList_cons,
        String.utf8ByteSize_append, String.utf8ByteSize_singleton, Nat.add_assoc]

/-- Passing over text that is not empty moves the offset on. -/
theorem offset_lt_advance (position : Position) {text : List Char} (solid : text ≠ []) :
    position.offset < (position.advance text).offset := by
  obtain ⟨c, text, rfl⟩ := List.exists_cons_of_ne_nil solid
  have positive := Char.utf8Size_pos c
  rw [offset_advance, String.ofList_cons, String.utf8ByteSize_append,
    String.utf8ByteSize_singleton]
  omega

/-- One more character moves an exact position to the next one. -/
theorem IsBehind.next {position : Position} {file : String} {before : List Char}
    (behind : position.IsBehind file before) (c : Char) :
    (position.next c).IsBehind file (before ++ [c]) := by
  have offset : (position.next c).offset = (String.ofList (before ++ [c])).utf8ByteSize := by
    rw [offset_next, behind.offset, String.ofList_append, String.utf8ByteSize_append,
      String.ofList_cons, String.utf8ByteSize_append, String.utf8ByteSize_singleton]
    simp
  refine ⟨by rw [file_next, behind.file], ?_, ?_, offset⟩
  · by_cases lineBreak : c = '\n'
    · simp [Position.next, lineBreak, behind.line, Nat.add_assoc]
    · simp [Position.next, lineBreak, behind.line]
  · by_cases lineBreak : c = '\n'
    · simp [Position.next, lineBreak]
    · simp [Position.next, lineBreak, behind.column, Nat.add_assoc]

theorem IsBehind.advance {position : Position} {file : String} {before : List Char}
    (behind : position.IsBehind file before) (text : List Char) :
    (position.advance text).IsBehind file (before ++ text) := by
  induction text generalizing position before with
  | nil => simpa using behind
  | cons c text inductionHypothesis => simpa using inductionHypothesis (behind.next c)

/-- Advancing from the start of a file is exact. -/
theorem isBehind_advance (file : String) (before : List Char) :
    ((startOf file).advance before).IsBehind file before := by
  have start : (startOf file).IsBehind file [] := ⟨rfl, rfl, rfl, rfl⟩
  exact start.advance before

/-- An exact position is a boundary between two characters of its text. -/
theorem IsBehind.isValid {position : Position} {file source : String} {before rest : List Char}
    (behind : position.IsBehind file before) (split : source.toList = before ++ rest) :
    String.Pos.Raw.IsValid source ⟨position.offset⟩ := by
  rw [String.Pos.Raw.isValid_iff_exists_append]
  refine ⟨String.ofList before, String.ofList rest, ?_, ?_⟩
  · rw [← String.ofList_append, ← split, String.ofList_toList]
  · rw [behind.offset]
    rfl

end Position

/-! ## Lexemes -/

/-- How the lexeme of a token of some kind is written. A string literal stands for its contents
when it is read on its own. An invalid lexeme is a single character, or a string literal without
its closing quote. -/
def TokenKind.WrittenAs : TokenKind → List Char → Prop
  | .identifier text, lexeme => lexeme = text.toList
  | .number text, lexeme => lexeme = text.toList
  | .path text, lexeme => lexeme = text.toList
  | .string contents, lexeme => ∃ body, lexeme = '"' :: body ∧
      Text.spanQuoted body = ⟨contents.toList, body, [], true⟩
  | .boolean value, lexeme => lexeme = (if value then "true" else "false").toList
  | .leftBrace, lexeme => lexeme = ['{']
  | .rightBrace, lexeme => lexeme = ['}']
  | .leftBracket, lexeme => lexeme = ['[']
  | .rightBracket, lexeme => lexeme = [']']
  | .colon, lexeme => lexeme = [':']
  | .comma, lexeme => lexeme = [',']
  | .arrow, lexeme => lexeme = ['-', '>']
  | .equals, lexeme => lexeme = ['=']
  | .newline, lexeme => lexeme = ['\n']
  | .invalid text, lexeme => (∃ c, lexeme = [c] ∧ text = String.singleton c) ∨
      ∃ contents body, text = String.ofList ('"' :: contents) ∧ lexeme = '"' :: body ∧
        Text.spanQuoted body = ⟨contents, body, [], false⟩
  | .endOfFile, lexeme => lexeme = []

/-- The characters of a string literal are read as the literal when nothing stands behind it. -/
theorem Text.spanQuoted_text (cs : List Char) :
    spanQuoted (spanQuoted cs).text =
      ⟨(spanQuoted cs).contents, (spanQuoted cs).text, [], (spanQuoted cs).closed⟩ := by
  fun_induction spanQuoted cs with
  | case1 => rfl
  | case2 => rfl
  | case3 => rfl
  | case4 => rfl
  | case5 => rfl
  | case6 d rest notBreak _ _ inductionHypothesis =>
      rw [QuotedSpan.push, List.cons_append, List.singleton_append, spanQuoted.eq_def]
      simp [notBreak, inductionHypothesis, QuotedSpan.push]
  | case7 c rest notBreak notQuote notBackslash inductionHypothesis =>
      rw [QuotedSpan.push, List.singleton_append, spanQuoted.eq_def]
      simp [notBreak, notQuote, notBackslash, inductionHypothesis, QuotedSpan.push]

namespace Lexeme

theorem markKind?_writtenAs {c : Char} {kind : TokenKind} (mark : markKind? c = some kind) :
    kind.WrittenAs [c] := by
  unfold markKind? at mark
  repeat' split at mark
  all_goals
    cases mark <;> next same => rw [same]; rfl

theorem readDash_writtenAs (rest : List Char) :
    (readDash rest).kind.WrittenAs (readDash rest).text := by
  unfold readDash
  split
  · rfl
  · split
    · simp [TokenKind.WrittenAs]
    · exact .inl ⟨'-', rfl, rfl⟩
  · exact .inl ⟨'-', rfl, rfl⟩

theorem readQuoted_writtenAs (rest : List Char) :
    (readQuoted rest).kind.WrittenAs (readQuoted rest).text := by
  have alone := Text.spanQuoted_text rest
  unfold readQuoted
  dsimp only
  split
  · next closed =>
      refine ⟨_, rfl, ?_⟩
      rw [alone, closed, String.toList_ofList]
  · next unclosed =>
      refine .inr ⟨_, _, rfl, rfl, ?_⟩
      rw [alone, Bool.eq_false_iff.2 unclosed]

theorem wordKind_writtenAs (word : List Char) : (wordKind word).WrittenAs word := by
  unfold wordKind
  split
  · assumption
  · split
    · assumption
    · exact String.toList_ofList.symm

/-- Every lexeme is written as its kind says. -/
theorem read_writtenAs (c : Char) (rest : List Char) :
    (read c rest).kind.WrittenAs (read c rest).text := by
  unfold read
  split
  · next kind mark => exact markKind?_writtenAs mark
  · split
    · exact readDash_writtenAs rest
    · split
      · exact readQuoted_writtenAs rest
      · split
        · exact String.toList_ofList.symm
        · split
          · exact String.toList_ofList.symm
          · split
            · exact wordKind_writtenAs _
            · exact .inl ⟨c, rfl, rfl⟩

end Lexeme

/-! ## Gaps -/

namespace Gap

/-- The blanks of a gap are spaces, tabs and carriage returns. -/
theorem blanks_read (cs : List Char) :
    ∀ c ∈ (read cs).blanks, c = ' ' ∨ c = '\t' ∨ c = '\r' := by
  intro c member
  have blanks : (read cs).blanks = cs.takeWhile isBlank := by
    simp only [read]
    split <;> rfl
  rw [blanks] at member
  simpa [isBlank, or_assoc] using List.all_eq_true.1 List.all_takeWhile c member

/-- A gap has no comment, or one that starts with a hash and goes on to the end of its line. -/
theorem comment_read (cs : List Char) :
    ((read cs).comment = [] ∧ (read cs).comments = []) ∨
      ∃ tail, (read cs).comment = '#' :: tail ∧ '\n' ∉ tail ∧
        (read cs).comments = [String.ofList (Text.trimEnd ('#' :: tail))] ∧
        ∀ c ∈ (read cs).rest.head?, c = '\n' := by
  simp only [read]
  split
  · next hash =>
      right
      obtain ⟨tail, behind⟩ := List.head?_eq_some_iff.1 hash
      have comment : (cs.dropWhile isBlank).takeWhile (· ≠ '\n') =
          '#' :: tail.takeWhile (· ≠ '\n') := by
        rw [behind, List.takeWhile_cons, if_pos (by decide)]
      refine ⟨tail.takeWhile (· ≠ '\n'), comment, ?_, ?_, ?_⟩
      · intro member
        simpa using List.all_eq_true.1 List.all_takeWhile _ member
      · simp only [comments, comment]
      · intro c first
        have outside := List.head?_dropWhile_not (· ≠ '\n') (cs.dropWhile isBlank)
        rw [Option.mem_def.1 first] at outside
        simpa using outside
  · exact .inl ⟨rfl, rfl⟩

end Gap

/-! ## Pieces -/

/-- A token with the text that it was read from. -/
structure Piece where
  /-- The blanks in front of the token. -/
  blanks : List Char
  /-- The comment behind the blanks; empty if there is none. -/
  comment : List Char
  /-- The characters of the token itself. -/
  lexeme : List Char
  token : Token

namespace Piece

/-- The text between the lexeme before and the lexeme of the piece. -/
def gap (piece : Piece) : List Char :=
  piece.blanks ++ piece.comment

/-- All characters of the piece. -/
def text (piece : Piece) : List Char :=
  piece.gap ++ piece.lexeme

/-- The gap holds blanks and at most one comment, which is the comment of the token. A comment goes
on to the end of its line, so a line break or the end of the file is behind it. -/
structure Sound (piece : Piece) : Prop where
  blanks : ∀ c ∈ piece.blanks, c = ' ' ∨ c = '\t' ∨ c = '\r'
  comment : (piece.comment = [] ∧ piece.token.comments = []) ∨
    ∃ tail, piece.comment = '#' :: tail ∧ '\n' ∉ tail ∧
      piece.token.comments = [String.ofList (Text.trimEnd ('#' :: tail))] ∧
      (piece.token.kind = .newline ∨ piece.token.kind = .endOfFile)
  written : piece.token.kind.WrittenAs piece.lexeme
  solid : piece.lexeme = [] → piece.token.kind = .endOfFile

/-- The piece at the end of a text. -/
def ofEnd (position : Position) (text : List Char) : Piece where
  blanks := (Gap.read text).blanks
  comment := (Gap.read text).comment
  lexeme := []
  token :=
    { kind := .endOfFile
      position := position.advance (Gap.read text).text
      comments := (Gap.read text).comments }

/-- The first piece of a text, when `c` and `rest` stand behind its gap. -/
def ofLexeme (position : Position) (text : List Char) (c : Char) (rest : List Char) : Piece where
  blanks := (Gap.read text).blanks
  comment := (Gap.read text).comment
  lexeme := (Lexeme.read c rest).text
  token :=
    { kind := (Lexeme.read c rest).kind
      position := position.advance (Gap.read text).text
      comments := (Gap.read text).comments }

theorem sound_ofEnd (position : Position) (text : List Char) : (ofEnd position text).Sound where
  blanks := Gap.blanks_read text
  comment := by
    rcases Gap.comment_read text with none | ⟨tail, comment, oneLine, comments, -⟩
    · exact .inl none
    · exact .inr ⟨tail, comment, oneLine, comments, .inr rfl⟩
  written := rfl
  solid _ := rfl

theorem sound_ofLexeme (position : Position) {text : List Char} {c : Char} {rest : List Char}
    (split : (Gap.read text).rest = c :: rest) : (ofLexeme position text c rest).Sound where
  blanks := Gap.blanks_read text
  comment := by
    rcases Gap.comment_read text with none | ⟨tail, comment, oneLine, comments, ending⟩
    · exact .inl none
    · -- Only a line break can stand behind a comment.
      have lineBreak : c = '\n' := ending c (by rw [split]; rfl)
      subst lineBreak
      exact .inr ⟨tail, comment, oneLine, comments, .inl rfl⟩
  written := Lexeme.read_writtenAs c rest
  solid empty := absurd empty (Lexeme.text_ne_nil c rest)

end Piece

/-! ## Partitions -/

/-- The pieces of a text that starts at a position. Each token stands behind its gap, and the last
one is the end of the file. -/
inductive Partition : Position → List Char → List Piece → Prop
  | last {start : Position} {piece : Piece} (sound : piece.Sound)
      (placed : piece.token.position = start.advance piece.gap)
      (atEnd : piece.token.kind = .endOfFile) : Partition start piece.text [piece]
  | cons {start : Position} {piece : Piece} {rest : List Char} {pieces : List Piece}
      (sound : piece.Sound) (placed : piece.token.position = start.advance piece.gap)
      (inside : piece.token.kind ≠ .endOfFile)
      (others : Partition (start.advance piece.text) rest pieces) :
      Partition start (piece.text ++ rest) (piece :: pieces)

namespace Partition

variable {start : Position} {text : List Char} {pieces : List Piece}

/-- Nothing of a text is lost. -/
theorem flatMap_text (partition : Partition start text pieces) :
    pieces.flatMap Piece.text = text := by
  induction partition with
  | last => simp
  | cons _ _ _ _ inductionHypothesis => rw [List.flatMap_cons, inductionHypothesis]

theorem sound (partition : Partition start text pieces) : ∀ piece ∈ pieces, piece.Sound := by
  induction partition with
  | last sound =>
      intro piece member
      rw [List.mem_singleton.1 member]
      exact sound
  | cons sound _ _ _ inductionHypothesis =>
      intro piece member
      rcases List.mem_cons.1 member with rfl | member
      · exact sound
      · exact inductionHypothesis piece member

/-- A token stands behind all pieces before it and its own gap. -/
theorem position_eq (partition : Partition start text pieces) {before after : List Piece}
    {piece : Piece} (split : pieces = before ++ piece :: after) :
    piece.token.position = start.advance (before.flatMap Piece.text ++ piece.gap) := by
  induction partition generalizing before with
  | last _ placed =>
      cases before with
      | nil =>
          cases split
          exact placed
      | cons first before => simp at split
  | cons _ placed _ _ inductionHypothesis =>
      cases before with
      | nil =>
          cases split
          exact placed
      | cons first before =>
          obtain ⟨rfl, behind⟩ := List.cons.inj split
          rw [inductionHypothesis behind, ← Position.advance_append, List.flatMap_cons,
            List.append_assoc]

/-- No token stands before the start of its text. -/
theorem offset_le (partition : Partition start text pieces) :
    ∀ piece ∈ pieces, start.offset ≤ piece.token.position.offset := by
  intro piece member
  obtain ⟨before, after, split⟩ := List.append_of_mem member
  rw [partition.position_eq split, Position.offset_advance]
  omega

/-- Every token starts before all tokens behind it. -/
theorem offsets_increase (partition : Partition start text pieces) :
    pieces.Pairwise fun first second =>
      first.token.position.offset < second.token.position.offset := by
  induction partition with
  | last => exact List.pairwise_singleton _ _
  | @cons start piece rest pieces sound placed inside others inductionHypothesis =>
      refine List.Pairwise.cons (fun other member => ?_) inductionHypothesis
      have solid : piece.lexeme ≠ [] := fun empty => inside (sound.solid empty)
      calc piece.token.position.offset
          = (start.advance piece.gap).offset := by rw [placed]
        _ < ((start.advance piece.gap).advance piece.lexeme).offset :=
            Position.offset_lt_advance _ solid
        _ = (start.advance piece.text).offset := by rw [Piece.text, Position.advance_append]
        _ ≤ other.token.position.offset := others.offset_le other member

end Partition

namespace Scanner

variable {scanner : Scanner}

/-- What a scanner yields is a partition of its text. -/
theorem partition_drain (running : scanner.finished = false) :
    ∃ pieces, Partition scanner.position scanner.rest pieces ∧
      pieces.map Piece.token = scanner.drain.1 := by
  induction text : scanner.rest using tokensOf_induction generalizing scanner with
  | atEnd _ split =>
      subst text
      have whole := Gap.text_append_rest scanner.rest
      rw [split] at whole
      refine ⟨[.ofEnd scanner.position scanner.rest], ?_, by rw [drain_of_end running split]; rfl⟩
      have partition : Partition scanner.position
          (Piece.ofEnd scanner.position scanner.rest).text [.ofEnd scanner.position scanner.rest] :=
        .last (Piece.sound_ofEnd _ _) rfl rfl
      rwa [show (Piece.ofEnd scanner.position scanner.rest).text = scanner.rest from whole]
        at partition
  | lexeme _ c rest split inductionHypothesis =>
      subst text
      obtain ⟨after, drain, still, behind, position, -⟩ := drain_of_lexeme running split
      obtain ⟨pieces, others, tokens⟩ := inductionHypothesis still behind
      let piece := Piece.ofLexeme scanner.position scanner.rest c rest
      refine ⟨piece :: pieces, ?_, by rw [drain, List.map_cons, tokens]; rfl⟩
      have whole : piece.text ++ (Lexeme.read c rest).rest = scanner.rest := by
        have lexeme := Lexeme.text_append_rest c rest
        have gap := Gap.text_append_rest scanner.rest
        rw [split, ← lexeme, ← List.append_assoc] at gap
        exact gap
      rw [position] at others
      have partition := Partition.cons (Piece.sound_ofLexeme scanner.position split) rfl
        (Lexeme.read_kind c rest).1 others
      rwa [whole] at partition

/-- A scanner reports at the invalid tokens that it yields and nowhere else, in their order. -/
theorem positions_drain (running : scanner.finished = false) :
    scanner.drain.2.diagnostics.map (·.position) =
      scanner.diagnostics.map (·.position) ++
        (scanner.drain.1.filter (·.kind.isInvalid)).map (·.position) := by
  induction text : scanner.rest using tokensOf_induction generalizing scanner with
  | atEnd _ split =>
      subst text
      rw [drain_of_end running split]
      simp [TokenKind.isInvalid]
  | lexeme _ c rest split inductionHypothesis =>
      subst text
      obtain ⟨after, drain, still, behind, -, found⟩ := drain_of_lexeme running split
      have faulty := (Lexeme.read_kind c rest).2
      rw [drain, inductionHypothesis still behind, found]
      cases fault : (Lexeme.read c rest).fault with
      | none => simp [faulty.1 fault]
      | some fault =>
          have invalid : (Lexeme.read c rest).kind.isInvalid = true := by
            rw [← Bool.not_eq_false, ← faulty]
            simp [*]
          simp [invalid, Diagnostic.malformed]

end Scanner

/-- Tokens partition their source text, and all their positions are exact. The gaps and lexemes
make up the text; each token is written as its kind says and stands at a character boundary, in
the line and column that the text before it leads to; the starts of tokens increase; the end of
the file is the last token only, behind all of the text; and the diagnostics are those of the
invalid tokens, in their order. -/
theorem tokenize_partition (file source : String) :
    (∃ pieces : List Piece,
      pieces.map Piece.token = (tokenize file source).1 ∧
      pieces.flatMap Piece.text = source.toList ∧
      ∀ before piece after, pieces = before ++ piece :: after →
        piece.Sound ∧
          piece.token.position.IsBehind file (before.flatMap Piece.text ++ piece.gap)) ∧
    (∀ token ∈ (tokenize file source).1,
      String.Pos.Raw.IsValid source ⟨token.position.offset⟩) ∧
    (tokenize file source).1.Pairwise
      (fun first second => first.position.offset < second.position.offset) ∧
    (∃ content last, (tokenize file source).1 = content ++ [last] ∧ last.kind = .endOfFile ∧
      last.position.offset = source.utf8ByteSize ∧
      ∀ token ∈ content, token.kind ≠ .endOfFile) ∧
    (tokenize file source).2.map (·.position) =
      ((tokenize file source).1.filter (·.kind.isInvalid)).map (·.position) := by
  obtain ⟨pieces, partition, tokens⟩ := @Scanner.partition_drain (Scanner.start file source) rfl
  have whole : pieces.flatMap Piece.text = source.toList := partition.flatMap_text
  have placed (before : List Piece) (piece : Piece) (after : List Piece)
      (split : pieces = before ++ piece :: after) :
      piece.token.position.IsBehind file (before.flatMap Piece.text ++ piece.gap) := by
    rw [partition.position_eq split]
    exact Position.isBehind_advance file _
  refine ⟨⟨pieces, tokens, whole, fun before piece after split =>
    ⟨partition.sound piece (by simp [split]), placed before piece after split⟩⟩, ?_, ?_, ?_,
    Scanner.positions_drain rfl⟩
  · intro token member
    rw [tokenize, ← tokens] at member
    obtain ⟨piece, pieceMember, rfl⟩ := List.mem_map.1 member
    obtain ⟨before, after, split⟩ := List.append_of_mem pieceMember
    rw [split, List.flatMap_append, List.flatMap_cons, Piece.text, List.append_assoc piece.gap,
      ← List.append_assoc] at whole
    exact (placed before piece after split).isValid whole.symm
  · rw [tokenize, ← tokens]
    exact List.pairwise_map.2 partition.offsets_increase
  · obtain ⟨content, last, stream, atEnd, others⟩ := tokenize_eq_append file source
    have split := stream
    rw [tokenize, ← tokens, List.map_eq_append_iff] at split
    obtain ⟨before, rest, split, -, tail⟩ := split
    obtain ⟨piece, rfl, rfl⟩ := List.map_eq_singleton_iff.1 tail
    refine ⟨content, piece.token, stream, atEnd, ?_, others⟩
    -- The end of the file has no lexeme, so the text before it is all there is.
    have written := (partition.sound piece (by simp [split])).written
    rw [atEnd] at written
    have wholeText : before.flatMap Piece.text ++ piece.gap = source.toList := by
      rw [← whole, split, List.flatMap_append, List.flatMap_singleton, Piece.text,
        show piece.lexeme = [] from written, List.append_nil]
    rw [(placed before piece [] split).offset, wholeText, String.ofList_toList]

end ServiceDef
