import Mathlib.Algebra.GroupWithZero.Nat
import ServiceDef.Proofs.Scanning.Partition

/-!
# Lines are scanned on their own

No lexeme and no comment goes on behind the end of its line, and none of them looks there. A line
break thus reads like the end of a file: `Lexeme.read_break` and `Gap.read_break` say so for one
token, and `Scanner.drain_break` for a whole text. What stands behind a line break is read like a
text of its own, further down in the file (`Scanner.drain_moved`).
-/

namespace ServiceDef

/-- A run of characters of a class without the line break ends at a line break, as it does at the
end of the text. -/
theorem span_break {p : Char → Bool} (outside : p '\n' = false) (text behind : List Char) :
    (text ++ '\n' :: behind).takeWhile p = text.takeWhile p ∧
      (text ++ '\n' :: behind).dropWhile p = text.dropWhile p ++ '\n' :: behind := by
  induction text with
  | nil => simp [outside]
  | cons c text inductionHypothesis =>
      by_cases inside : p c = true
      · simp [inside, inductionHypothesis]
      · simp [inside]

/-! ## Lexemes -/

namespace Lexeme

theorem spanNumber_break (text behind : List Char) :
    spanNumber (text ++ '\n' :: behind) =
      ((spanNumber text).1, (spanNumber text).2 ++ '\n' :: behind) := by
  obtain ⟨digits, rest⟩ := span_break (p := Char.isDigit) rfl text behind
  unfold spanNumber
  rw [digits, rest]
  -- A dot at the end of the text has no digit behind it, and a line break is none.
  match text.dropWhile Char.isDigit with
  | [] => rfl
  | [c] =>
      by_cases dot : c = '.'
      · subst dot
        rfl
      · simp [dot]
  | c :: d :: others =>
      by_cases dot : c = '.'
      · subst dot
        obtain ⟨fraction, tail⟩ := span_break (p := Char.isDigit) rfl others behind
        by_cases digit : d.isDigit = true
        · simp [digit, fraction, tail]
        · simp [digit]
      · simp [dot]

theorem spanPath_break (depth : Nat) (text behind : List Char) :
    spanPath depth (text ++ '\n' :: behind) =
      ((spanPath depth text).1, (spanPath depth text).2 ++ '\n' :: behind) := by
  have noArrow (c : Char) (text : List Char) :
      (c = '-' && (text ++ '\n' :: behind).head? = some '>') =
        (c = '-' && text.head? = some '>') := by
    cases text <;> simp
  induction text generalizing depth with
  | nil =>
      rw [List.nil_append, spanPath.eq_def]
      exact if_pos (by simp [show Text.isWhiteSpace '\n' = true from rfl])
  | cons c text inductionHypothesis =>
      rw [List.cons_append, spanPath.eq_def, spanPath.eq_def depth (c :: text)]
      dsimp only
      rw [noArrow]
      split
      · rfl
      · split
        · rw [inductionHypothesis]
        · split
          · cases depth with
            | zero => rfl
            | succ depth =>
                dsimp only
                rw [inductionHypothesis]
          · rw [inductionHypothesis]

end Lexeme

theorem Text.spanQuoted_break (text behind : List Char) :
    spanQuoted (text ++ '\n' :: behind) =
      { spanQuoted text with rest := (spanQuoted text).rest ++ '\n' :: behind } := by
  fun_induction spanQuoted text with
  | case1 =>
      rw [List.nil_append, spanQuoted.eq_def]
      rfl
  | case2 rest =>
      rw [List.cons_append, spanQuoted.eq_def]
      rfl
  | case3 rest =>
      rw [List.cons_append, spanQuoted.eq_def]
      rfl
  | case4 => rfl
  | case5 => rfl
  | case6 d rest notBreak _ _ inductionHypothesis =>
      simp [spanQuoted, notBreak, inductionHypothesis, QuotedSpan.push]
  | case7 c rest notBreak notQuote notBackslash inductionHypothesis =>
      rw [List.cons_append, spanQuoted.eq_def]
      simp [notBreak, notQuote, notBackslash, inductionHypothesis, QuotedSpan.push]

namespace Lexeme

theorem readDash_break (text behind : List Char) :
    readDash (text ++ '\n' :: behind) =
      { readDash text with rest := (readDash text).rest ++ '\n' :: behind } := by
  cases text with
  | nil => rfl
  | cons d text =>
      have number := spanNumber_break (d :: text) behind
      rw [List.cons_append] at number ⊢
      by_cases arrow : d = '>'
      · subst arrow
        rfl
      · by_cases digit : d.isDigit = true
        · simp [readDash, digit, number]
        · simp [readDash, digit]

theorem readQuoted_break (text behind : List Char) :
    readQuoted (text ++ '\n' :: behind) =
      { readQuoted text with rest := (readQuoted text).rest ++ '\n' :: behind } := by
  unfold readQuoted
  rw [Text.spanQuoted_break]
  dsimp only
  split <;> rfl

/-- A lexeme is read in front of a line break as it is at the end of the text. -/
theorem read_break (c : Char) (text behind : List Char) :
    read c (text ++ '\n' :: behind) =
      { read c text with rest := (read c text).rest ++ '\n' :: behind } := by
  have word := span_break (p := Word.isIdentifierPart) rfl text behind
  have number := spanNumber_break (c :: text) behind
  rw [List.cons_append] at number
  unfold read
  split
  · rfl
  · split
    · exact readDash_break text behind
    · split
      · exact readQuoted_break text behind
      · split
        · rw [spanPath_break]
        · split
          · rw [number]
          · split
            · rw [word.1, word.2]
            · rfl

end Lexeme

/-- A gap is read in front of a line break as it is at the end of the text. -/
theorem Gap.read_break (text behind : List Char) :
    Gap.read (text ++ '\n' :: behind) =
      { Gap.read text with rest := (Gap.read text).rest ++ '\n' :: behind } := by
  obtain ⟨blanks, rest⟩ := span_break (p := isBlank) rfl text behind
  have hash : (text.dropWhile isBlank ++ '\n' :: behind).head? = some '#' ↔
      (text.dropWhile isBlank).head? = some '#' := by
    cases text.dropWhile isBlank <;> simp
  obtain ⟨comment, tail⟩ := span_break (p := (· ≠ '\n')) rfl (text.dropWhile isBlank) behind
  unfold Gap.read
  simp only [blanks, rest, hash, comment, tail]
  split <;> rfl

/-! ## Scanners -/

/-- The token with a line break in the place of the end of the file. -/
def Token.atLineEnd (token : Token) : Token :=
  if token.isEnd then { token with kind := .newline } else token

theorem Token.atLineEnd_of_ne {token : Token} (inside : token.kind ≠ .endOfFile) :
    token.atLineEnd = token :=
  if_neg (by simpa [Token.isEnd] using inside)

/-- At the end of a line only the last token changes. -/
theorem Token.map_atLineEnd {content : List Token} {last : Token} (atEnd : last.kind = .endOfFile)
    (others : ∀ token ∈ content, token.kind ≠ .endOfFile) :
    (content ++ [last]).map Token.atLineEnd = content ++ [{ last with kind := .newline }] := by
  have kept : content.map Token.atLineEnd = content :=
    (List.map_congr_left fun token member => Token.atLineEnd_of_ne (others token member)).trans
      (List.map_id content)
  have ended : last.atLineEnd = { last with kind := .newline } :=
    if_pos (decide_eq_true atEnd)
  rw [List.map_append, List.map_singleton, kept, ended]

theorem Token.position_atLineEnd (token : Token) : token.atLineEnd.position = token.position := by
  unfold Token.atLineEnd
  split <;> rfl

/-- Moves positions down by some lines and on by some bytes. Columns stay as they are. -/
def Relabelling.moved (lines bytes : Nat) : Relabelling where
  position position :=
    { position with line := position.line + lines, offset := position.offset + bytes }
  keepsComments := true

@[simp] theorem Relabelling.comments_moved (lines bytes : Nat) (texts : List String) :
    (moved lines bytes).comments texts = texts := rfl

theorem Relabelling.token_moved_moved (lines bytes more others : Nat) (token : Token) :
    (moved more others).token ((moved lines bytes).token token) =
      (moved (lines + more) (bytes + others)).token token := by
  simp only [Relabelling.token, comments_moved]
  simp [moved, Nat.add_assoc]

/-- Passing over text and moving down can be done in either order. -/
theorem Position.advance_moved (lines bytes : Nat) (position : Position) (text : List Char) :
    ((Relabelling.moved lines bytes).position position).advance text =
      (Relabelling.moved lines bytes).position (position.advance text) := by
  induction text generalizing position with
  | nil => rfl
  | cons c text inductionHypothesis =>
      have step : ((Relabelling.moved lines bytes).position position).next c =
          (Relabelling.moved lines bytes).position (position.next c) := by
        by_cases lineBreak : c = '\n'
        · simp [next, lineBreak, Relabelling.moved, Nat.add_right_comm]
        · simp [next, lineBreak, Relabelling.moved, Nat.add_right_comm]
      rw [advance_cons, advance_cons, step, inductionHypothesis]

namespace Scanner

attribute [ext] Scanner

variable {scanner : Scanner}

/-- The scanner with a line break and more text behind its text. -/
def followedBy (scanner : Scanner) (behind : List Char) : Scanner :=
  { scanner with rest := scanner.rest ++ '\n' :: behind }

/-- The scanner behind its text and a line break, in front of more text. -/
def lineBehind (scanner : Scanner) (behind : List Char) : Scanner where
  position := (scanner.position.advance scanner.rest).next '\n'
  rest := behind
  diagnostics := scanner.drain.2.diagnostics

/-- The scanner further down in the file, when it has reported `found` before. -/
def moved (scanner : Scanner) (lines bytes : Nat) (found : List Diagnostic) : Scanner :=
  { scanner with
    position := (Relabelling.moved lines bytes).position scanner.position
    diagnostics := found ++ scanner.diagnostics.map (Relabelling.moved lines bytes).diagnostic }

/-- A line break behind a text is read like the end of the file, and then what is behind it. -/
theorem drain_followedBy (running : scanner.finished = false) (behind : List Char) :
    (scanner.followedBy behind).drain =
      (scanner.drain.1.map Token.atLineEnd ++ (scanner.lineBehind behind).drain.1,
        (scanner.lineBehind behind).drain.2) := by
  induction text : scanner.rest using tokensOf_induction generalizing scanner with
  | atEnd _ split =>
      subst text
      have gap : Gap.read (scanner.followedBy behind).rest = _ :=
        Gap.read_break scanner.rest behind
      rw [split, List.nil_append] at gap
      have whole := Gap.text_append_rest scanner.rest
      rw [split, List.append_nil] at whole
      obtain ⟨after, drain, still, rest, position, found⟩ :=
        @drain_of_lexeme (scanner.followedBy behind) running '\n' behind (by rw [gap])
      rw [gap] at drain position found
      have same : after = scanner.lineBehind behind := by
        refine Scanner.ext ?_ rest still ?_
        · rw [position, Position.advance_append]
          exact congrArg (fun text => (scanner.position.advance text).next '\n') whole
        · rw [found, lineBehind, drain_of_end running split]
          simp [Lexeme.read, Lexeme.markKind?, followedBy]
      rw [drain, same, drain_of_end running split]
      rfl
  | lexeme _ c rest split inductionHypothesis =>
      subst text
      have gap : Gap.read (scanner.followedBy behind).rest = _ :=
        Gap.read_break scanner.rest behind
      rw [split, List.cons_append] at gap
      obtain ⟨after, drain, still, tail, position, found⟩ := drain_of_lexeme running split
      obtain ⟨longer, longerDrain, longerStill, longerTail, longerPosition, longerFound⟩ :=
        @drain_of_lexeme (scanner.followedBy behind) running c (rest ++ '\n' :: behind)
          (by rw [gap])
      rw [gap, Lexeme.read_break] at longerDrain longerPosition longerFound
      rw [Lexeme.read_break] at longerTail
      have same : longer = after.followedBy behind :=
        Scanner.ext (longerPosition.trans position.symm)
          (longerTail.trans (congrArg (· ++ '\n' :: behind) tail.symm))
          (longerStill.trans still.symm) (longerFound.trans found.symm)
      have whole : after.position.advance after.rest =
          scanner.position.advance scanner.rest := by
        rw [position, tail, ← Position.advance_append, List.append_assoc,
          Lexeme.text_append_rest, ← split, Gap.text_append_rest]
      have sameBehind : after.lineBehind behind = scanner.lineBehind behind := by
        rw [lineBehind, lineBehind, drain, whole]
      rw [longerDrain, same, inductionHypothesis still tail, drain, sameBehind, List.map_cons,
        Token.atLineEnd_of_ne (Lexeme.read_kind c rest).1]
      rfl

/-- A scanner that starts further down yields the same tokens, further down. It may have reported
`found` before. -/
theorem drain_moved (lines bytes : Nat) (running : scanner.finished = false)
    (found : List Diagnostic) :
    (scanner.moved lines bytes found).drain.1 =
        scanner.drain.1.map (Relabelling.moved lines bytes).token ∧
      (scanner.moved lines bytes found).drain.2.diagnostics =
        found ++ scanner.drain.2.diagnostics.map (Relabelling.moved lines bytes).diagnostic := by
  induction text : scanner.rest using tokensOf_induction generalizing scanner with
  | atEnd _ split =>
      subst text
      have drain := @drain_of_end (scanner.moved lines bytes found) running split
      rw [drain, drain_of_end running split]
      refine ⟨?_, rfl⟩
      simp [moved, Position.advance_moved, Relabelling.token, Relabelling.comments_moved]
  | lexeme _ c rest split inductionHypothesis =>
      subst text
      obtain ⟨after, drain, still, tail, position, reported⟩ := drain_of_lexeme running split
      obtain ⟨lower, lowerDrain, lowerStill, lowerTail, lowerPosition, lowerReported⟩ :=
        @drain_of_lexeme (scanner.moved lines bytes found) running c rest split
      have same : lower = after.moved lines bytes found := by
        refine Scanner.ext ?_ (lowerTail.trans tail.symm) (lowerStill.trans still.symm) ?_
        · rw [lowerPosition, moved, moved, position, Position.advance_moved]
        · rw [lowerReported, moved, moved, reported, Position.advance_moved]
          cases (Lexeme.read c rest).fault <;> simp [Relabelling.diagnostic, Diagnostic.malformed]
      have others := inductionHypothesis still tail
      rw [lowerDrain, same, drain, others.1, others.2, List.map_cons]
      refine ⟨?_, rfl⟩
      simp [moved, Position.advance_moved, Relabelling.token, Relabelling.comments_moved]

end Scanner

/-! ## Source texts -/

/-- Moves what stands behind a text and a line break to its place below them. -/
def Relabelling.below (text : String) : Relabelling :=
  moved (1 + text.toList.count '\n') (text.utf8ByteSize + 1)

/-- The next line starts right below the text. -/
theorem Position.next_advance_startOf (file text : String) :
    ((startOf file).advance text.toList).next '\n' =
      (Relabelling.below text).position (startOf file) := by
  have behind := isBehind_advance file text.toList
  have offset := behind.offset
  rw [String.ofList_toList] at offset
  rw [next, if_pos rfl, behind.file, behind.line, offset]
  simp [Relabelling.below, Relabelling.moved, startOf, Nat.add_comm, Char.utf8Size]

/-- A text, a line break and another text are read like the two texts on their own. -/
theorem tokenize_break (file first second : String) :
    tokenize file (first ++ "\n" ++ second) =
      ((tokenize file first).1.map Token.atLineEnd ++
          (tokenize file second).1.map (Relabelling.below first).token,
        (tokenize file first).2 ++
          (tokenize file second).2.map (Relabelling.below first).diagnostic) := by
  have start : Scanner.start file (first ++ "\n" ++ second) =
      (Scanner.start file first).followedBy second.toList := by
    simp [Scanner.start, Scanner.followedBy]
  have behind : (Scanner.start file first).lineBehind second.toList =
      (Scanner.start file second).moved (1 + first.toList.count '\n') (first.utf8ByteSize + 1)
        (tokenize file first).2 := by
    refine Scanner.ext ?_ rfl rfl ?_
    · exact Position.next_advance_startOf file first
    · exact (List.append_nil _).symm
  have moved := @Scanner.drain_moved (Scanner.start file second) (1 + first.toList.count '\n')
    (first.utf8ByteSize + 1) rfl (tokenize file first).2
  rw [tokenize, start, Scanner.drain_followedBy rfl, behind]
  exact Prod.ext (congrArg (_ ++ ·) moved.1) moved.2

/-- A token stands behind some part of its source. -/
theorem exists_isBehind_of_mem_tokenize {file source : String} {token : Token}
    (member : token ∈ (tokenize file source).1) :
    ∃ before, before <+: source.toList ∧ token.position.IsBehind file before := by
  obtain ⟨pieces, partition, tokens⟩ := @Scanner.partition_drain (Scanner.start file source) rfl
  rw [tokenize, ← tokens] at member
  obtain ⟨piece, pieceMember, rfl⟩ := List.mem_map.1 member
  obtain ⟨before, after, split⟩ := List.append_of_mem pieceMember
  have whole : pieces.flatMap Piece.text = source.toList := partition.flatMap_text
  refine ⟨before.flatMap Piece.text ++ piece.gap, ?_, ?_⟩
  · rw [← whole, split, List.flatMap_append, List.flatMap_cons, Piece.text, List.append_assoc,
      ← List.append_assoc]
    exact List.prefix_append _ _
  · rw [partition.position_eq split]
    exact Position.isBehind_advance file _

/-- Lines are counted from one. -/
theorem one_le_line_of_mem_tokenize {file source : String} {token : Token}
    (member : token ∈ (tokenize file source).1) : 1 ≤ token.position.line := by
  obtain ⟨before, -, behind⟩ := exists_isBehind_of_mem_tokenize member
  rw [behind.line]
  omega

/-! ## Lines of a source text -/

/-- The tokens on a line, which is counted from zero. -/
def tokensOnLine (index : Nat) (tokens : List Token) : List Token :=
  tokens.filter (·.position.line = index + 1)

theorem tokensOnLine_append (index : Nat) (first second : List Token) :
    tokensOnLine index (first ++ second) =
      tokensOnLine index first ++ tokensOnLine index second :=
  List.filter_append _ _

/-- Tokens that are all on the first line. -/
theorem tokensOnLine_of_first {tokens : List Token}
    (first : ∀ token ∈ tokens, token.position.line = 1) :
    tokensOnLine 0 tokens = tokens ∧ ∀ index, tokensOnLine (index + 1) tokens = [] := by
  constructor
  · exact List.filter_eq_self.2 fun token member => decide_eq_true (first token member)
  · intro index
    refine List.filter_eq_nil_iff.2 fun token member => ?_
    simp [first token member]

/-- Tokens that are moved down by one line, when none of them was above the first one. -/
theorem tokensOnLine_moved (bytes : Nat) {tokens : List Token}
    (below : ∀ token ∈ tokens, 1 ≤ token.position.line) :
    tokensOnLine 0 (tokens.map (Relabelling.moved 1 bytes).token) = [] ∧
      ∀ index, tokensOnLine (index + 1) (tokens.map (Relabelling.moved 1 bytes).token) =
        (tokensOnLine index tokens).map (Relabelling.moved 1 bytes).token := by
  constructor
  · refine List.filter_eq_nil_iff.2 fun token member => ?_
    obtain ⟨source, inTokens, rfl⟩ := List.mem_map.1 member
    have atLeast := below source inTokens
    have lower : ((Relabelling.moved 1 bytes).token source).position.line =
        source.position.line + 1 := rfl
    rw [decide_eq_true_eq, lower]
    omega
  · intro index
    simp [tokensOnLine, List.filter_map, Function.comp_def, Relabelling.token, Relabelling.moved]

section Lines

variable {file line : String} (oneLine : '\n' ∉ line.toList)

include oneLine

/-- All tokens of a single line are on the first line. -/
theorem line_of_mem_tokenize {token : Token} (member : token ∈ (tokenize file line).1) :
    token.position.line = 1 := by
  obtain ⟨before, start, behind⟩ := exists_isBehind_of_mem_tokenize member
  have noBreak : before.count '\n' = 0 :=
    List.count_eq_zero.2 fun member => oneLine (start.subset member)
  rw [behind.line, noBreak]

theorem line_of_mem_atLineEnd {token : Token}
    (member : token ∈ (tokenize file line).1.map Token.atLineEnd) : token.position.line = 1 := by
  obtain ⟨source, inTokens, rfl⟩ := List.mem_map.1 member
  rw [Token.position_atLineEnd]
  exact line_of_mem_tokenize oneLine inTokens

theorem below_of_oneLine : Relabelling.below line = .moved 1 (line.utf8ByteSize + 1) := by
  rw [Relabelling.below, List.count_eq_zero.2 oneLine]

end Lines

/-- A line and the lines below it, as one text. -/
theorem intercalate_break {lines : List String} (line : String) (more : lines ≠ []) :
    "\n".intercalate (line :: lines) = line ++ "\n" ++ "\n".intercalate lines := by
  obtain ⟨next, others, rfl⟩ := List.exists_cons_of_ne_nil more
  exact String.intercalate_cons_cons

/-- The tokens of a text that starts with a single line and goes on. -/
theorem tokensOnLine_break {file line : String} (oneLine : '\n' ∉ line.toList) (text : String) :
    tokensOnLine 0 (tokenize file (line ++ "\n" ++ text)).1 =
        (tokenize file line).1.map Token.atLineEnd ∧
      ∀ index, tokensOnLine (index + 1) (tokenize file (line ++ "\n" ++ text)).1 =
        (tokensOnLine index (tokenize file text).1).map
          (Relabelling.moved 1 (line.utf8ByteSize + 1)).token := by
  have first := tokensOnLine_of_first fun token => @line_of_mem_atLineEnd file line oneLine token
  have others := @tokensOnLine_moved (line.utf8ByteSize + 1) (tokenize file text).1
    fun token => one_le_line_of_mem_tokenize
  rw [tokenize_break, below_of_oneLine oneLine]
  constructor
  · rw [tokensOnLine_append, first.1, others.1, List.append_nil]
  · intro index
    rw [tokensOnLine_append, first.2 index, others.2 index, List.nil_append]

/-- The tokens above some line of a text that starts with a single line and goes on. -/
theorem filter_line_break {file line : String} (oneLine : '\n' ∉ line.toList) (text : String)
    (index : Nat) :
    (tokenize file (line ++ "\n" ++ text)).1.filter (·.position.line ≤ index + 1) =
      (tokenize file line).1.map Token.atLineEnd ++
        ((tokenize file text).1.filter (·.position.line ≤ index)).map
          (Relabelling.moved 1 (line.utf8ByteSize + 1)).token := by
  have first : ((tokenize file line).1.map Token.atLineEnd).filter (·.position.line ≤ index + 1) =
      (tokenize file line).1.map Token.atLineEnd :=
    List.filter_eq_self.2 fun token member => by
      rw [line_of_mem_atLineEnd oneLine member]
      simp
  have others : ((tokenize file text).1.map
      (Relabelling.moved 1 (line.utf8ByteSize + 1)).token).filter (·.position.line ≤ index + 1) =
      ((tokenize file text).1.filter (·.position.line ≤ index)).map
        (Relabelling.moved 1 (line.utf8ByteSize + 1)).token := by
    rw [List.filter_map]
    refine congrArg (List.map _) (List.filter_congr fun token _ => ?_)
    simp [Relabelling.token, Relabelling.moved]
  rw [tokenize_break, below_of_oneLine oneLine, List.filter_append, first, others]

/-- The tokens on each line of a text are those of the line on its own. -/
theorem tokensOnLine_intercalate (file line : String) (above below : List String)
    (oneLine : ∀ other ∈ above ++ line :: below, '\n' ∉ other.toList) :
    tokensOnLine above.length (tokenize file ("\n".intercalate (above ++ line :: below))).1 =
      (if below = [] then (tokenize file line).1
        else (tokenize file line).1.map Token.atLineEnd).map
          (Relabelling.moved above.length (above.map (·.utf8ByteSize + 1)).sum).token := by
  induction above with
  | nil =>
      have alone : '\n' ∉ line.toList := oneLine line (by simp)
      have still : (Relabelling.moved 0 0).token = id := rfl
      rw [List.nil_append, List.length_nil, List.map_nil, List.sum_nil, still, List.map_id]
      cases below with
      | nil =>
          rw [if_pos rfl, String.intercalate_singleton]
          exact (tokensOnLine_of_first fun token => line_of_mem_tokenize alone).1
      | cons next below =>
          rw [if_neg (List.cons_ne_nil _ _), intercalate_break line (List.cons_ne_nil _ _)]
          exact (tokensOnLine_break alone _).1
  | cons first above inductionHypothesis =>
      have others := inductionHypothesis fun other member =>
        oneLine other (List.mem_cons_of_mem first member)
      rw [List.cons_append, intercalate_break first (by simp), List.length_cons,
        (tokensOnLine_break (oneLine first List.mem_cons_self) _).2, others, List.map_map]
      rw [List.map_cons, List.sum_cons, Nat.add_comm (first.utf8ByteSize + 1)]
      exact List.map_congr_left fun token _ => Relabelling.token_moved_moved ..

/-- Scanning is line-local. A text, a line break and another text are read like the two texts on
their own: the end of the first one becomes the line break, with its position and comments, and the
tokens and diagnostics of the second one are found below it, in the same columns. The tokens on each
line of a text are thus those of the line on its own, whatever the other lines are. -/
theorem tokenize_line_local (file : String) :
    (∀ first second : String,
      (∃ content last, (tokenize file first).1 = content ++ [last] ∧ last.kind = .endOfFile ∧
        (∀ token ∈ content, token.kind ≠ .endOfFile) ∧
        (tokenize file (first ++ "\n" ++ second)).1 =
          content ++ { last with kind := .newline } ::
            (tokenize file second).1.map (Relabelling.below first).token) ∧
      (tokenize file (first ++ "\n" ++ second)).2 =
        (tokenize file first).2 ++
          (tokenize file second).2.map (Relabelling.below first).diagnostic) ∧
    ∀ (above : List String) (line : String) (below : List String),
      (∀ other ∈ above ++ line :: below, '\n' ∉ other.toList) →
      tokensOnLine above.length (tokenize file ("\n".intercalate (above ++ line :: below))).1 =
        (if below = [] then (tokenize file line).1
          else (tokenize file line).1.map Token.atLineEnd).map
            (Relabelling.moved above.length (above.map (·.utf8ByteSize + 1)).sum).token := by
  refine ⟨fun first second => ?_, fun above line below oneLine =>
    tokensOnLine_intercalate file line above below oneLine⟩
  obtain ⟨content, last, split, atEnd, others⟩ := tokenize_eq_append file first
  have kept : content.map Token.atLineEnd = content :=
    (List.map_congr_left fun token member => Token.atLineEnd_of_ne (others token member)).trans
      (List.map_id content)
  have ended : last.atLineEnd = { last with kind := .newline } :=
    if_pos (decide_eq_true atEnd)
  rw [tokenize_break]
  refine ⟨⟨content, last, split, atEnd, others, ?_⟩, rfl⟩
  rw [split, List.map_append, List.map_singleton, kept, ended, List.append_assoc,
    List.singleton_append]

/-- A string without its closing quote, a stray backslash, characters outside of the language and a
brace that closes nothing leave the line below them alone. -/
theorem tokenize_line_local_malformed :
    (∀ other ∈ ["a = \"open \\", "\\ @ GET /x\x7d - -> H", "ok = 1"], '\n' ∉ other.toList) ∧
      tokensOnLine 2 (tokenize "f" ("\n".intercalate
          ["a = \"open \\", "\\ @ GET /x\x7d - -> H", "ok = 1"])).1 =
        (tokenize "f" "ok = 1").1.map (Relabelling.moved 2 31).token := by
  have oneLine : ∀ other ∈ ["a = \"open \\", "\\ @ GET /x\x7d - -> H", "ok = 1"],
      '\n' ∉ other.toList := by decide
  exact ⟨oneLine, (tokenize_line_local "f").2
    ["a = \"open \\", "\\ @ GET /x\x7d - -> H"] "ok = 1" [] oneLine⟩

end ServiceDef
