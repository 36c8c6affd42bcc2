import ServiceDef.Proofs.Comments.Conservation
import ServiceDef.Proofs.Settings.Headers

/-!
# Texts that are both a source and settings

The settings file can be one of the files that are formatted. A text that is both a source without
faults and settings has nothing but comments in it, and then so has its canonical text. So
formatting never changes what a file says as settings.
-/

namespace ServiceDef

/-! ## Lines of comments -/

/-- A line break or the end of the file, with comments that settings allow. -/
def Token.isRemark (token : Token) : Bool :=
  (token.kind = .newline || token.kind = .endOfFile) &&
    token.comments.all fun comment => comment.toList.all Toml.isPlain

theorem tokensOf_of_skipNewline? {text rest : List Char}
    (skipped : Toml.skipNewline? text = some rest) :
    tokensOf text = .bare .newline :: tokensOf rest := by
  unfold Toml.skipNewline? at skipped
  split at skipped
  · cases skipped
    exact spells_newline.scans rest trivial
  · cases skipped
    rw [tokensOf_blank rfl]
    exact spells_newline.scans rest trivial
  · cases skipped

/-- White space behind a comment is no part of it. -/
theorem plain_trimEnd {line spaces : List Char} (plain : line.all Toml.isPlain = true)
    (white : ∀ c ∈ spaces, Text.isWhiteSpace c = true) :
    (Text.trimEnd (line ++ spaces)).all Toml.isPlain = true := by
  have trimmed : Text.trimEnd (line ++ spaces) = Text.trimEnd line := by
    rw [Text.trimEnd, List.reverse_append, List.dropWhile_append_of_pos]
    · rfl
    · exact fun c member => white c (List.mem_reverse.1 member)
  obtain ⟨spaces, split, -⟩ := Text.eq_trimEnd_append line
  rw [trimmed]
  rw [split, List.all_append, Bool.and_eq_true] at plain
  exact plain.1

/-- A comment that settings allow, with white space behind it, up to the end of its line. -/
theorem Gap.read_plain {line spaces rest : List Char} (hash : line.head? = some '#')
    (plain : line.all Toml.isPlain = true) (oneLine : '\n' ∉ spaces)
    (white : ∀ c ∈ spaces, Text.isWhiteSpace c = true) (lineEnd : ∀ c ∈ rest.head?, c = '\n') :
    (Gap.read (line ++ spaces ++ rest)).rest = rest ∧
      ((Gap.read (line ++ spaces ++ rest)).comments.all fun comment =>
        comment.toList.all Toml.isPlain) = true := by
  have noBreak : '\n' ∉ line ++ spaces := by
    intro member
    rcases List.mem_append.1 member with inside | behind
    · cases List.all_eq_true.1 plain _ inside
    · exact oneLine behind
  obtain ⟨tail, rfl⟩ := List.head?_eq_some_iff.1 hash
  rw [Gap.read_comment (by rfl) noBreak lineEnd]
  refine ⟨rfl, ?_⟩
  have trimmed := plain_trimEnd plain white
  simpa [Gap.comments] using trimmed

/-- A line with a comment that settings allow. -/
theorem tokensOf_plainLine {line spaces : List Char} (hash : line.head? = some '#')
    (plain : line.all Toml.isPlain = true) (oneLine : '\n' ∉ spaces)
    (white : ∀ c ∈ spaces, Text.isWhiteSpace c = true) (rest : List Char) :
    ∃ token : Token, token.isRemark = true ∧ token.kind = .newline ∧
      tokensOf (line ++ spaces ++ '\n' :: rest) = token :: tokensOf rest := by
  obtain ⟨split, allowed⟩ :=
    @Gap.read_plain line spaces ('\n' :: rest) hash plain oneLine white (by simp)
  exact ⟨_, by rw [Token.isRemark, allowed]; rfl, rfl, tokensOf_of_lexeme split⟩

/-- Settings skip a comment with only plain characters in it, or nothing. -/
theorem eq_append_of_skipComment? {text behind : List Char}
    (skipped : Toml.skipComment? text = some behind) :
    text = behind ∨
      ∃ line, text = line ++ behind ∧ line.head? = some '#' ∧ line.all Toml.isPlain = true := by
  unfold Toml.skipComment? at skipped
  split at skipped
  · next hash =>
      split at skipped
      · next plain =>
          cases skipped
          obtain ⟨tail, rfl⟩ := List.head?_eq_some_iff.1 hash
          exact .inr ⟨_, List.takeWhile_append_dropWhile.symm, rfl, plain⟩
      · cases skipped
  · exact .inl (Option.some.inj skipped)

/-- The rest of a line that settings skip is a line break or the end of the file for a source. -/
theorem tokensOf_of_skipLineEnd? {text rest : List Char}
    (skipped : Toml.skipLineEnd? text = some rest) :
    ∃ token : Token, token.isRemark = true ∧
      (token.kind = .newline ∧ tokensOf text = token :: tokensOf rest ∨
        rest = [] ∧ tokensOf text = [token]) := by
  obtain ⟨behind, comment, ending⟩ := Option.bind_eq_some_iff.1 skipped
  rw [← tokensOf_skipBlanks]
  rcases eq_append_of_skipComment? comment with same | ⟨line, whole, hash, plain⟩
  · rw [same]
    split at ending
    · cases ending
      exact ⟨_, rfl, .inr ⟨rfl, tokensOf_nil⟩⟩
    · exact ⟨_, rfl, .inl ⟨rfl, tokensOf_of_skipNewline? ending⟩⟩
  · rw [whole]
    split at ending
    · cases ending
      obtain ⟨split, allowed⟩ :=
        @Gap.read_plain line [] [] hash plain (by simp) (by simp) (by simp)
      rw [List.append_nil] at split allowed
      exact ⟨_, by rw [Token.isRemark, allowed]; rfl, .inr ⟨rfl, tokensOf_of_end split⟩⟩
    · unfold Toml.skipNewline? at ending
      split at ending
      · cases ending
        obtain ⟨token, remark, newline, tokens⟩ :=
          @tokensOf_plainLine line [] hash plain (by simp) (by simp) rest
        rw [List.append_nil] at tokens
        exact ⟨token, remark, .inl ⟨newline, tokens⟩⟩
      · cases ending
        obtain ⟨token, remark, newline, tokens⟩ :=
          @tokensOf_plainLine line ['\r'] hash plain (by decide)
            (List.forall_mem_singleton.2 rfl) rest
        rw [List.append_assoc] at tokens
        exact ⟨token, remark, .inl ⟨newline, tokens⟩⟩
      · cases ending

/-! ## Tables -/

/-- A source that is read as a table has nothing but comments in it, and adds nothing. -/
theorem remarks_of_readTable? {bound : Nat} {table result : Toml.Table} {header : List String}
    {text : List Char} (opens : OpensDocument (kindsOf text))
    (read : Toml.readTable? bound table header text = some result) :
    result = table ∧ ∀ token ∈ tokensOf text, token.isRemark = true := by
  -- One step reads one line. Neither a header of settings nor a key with a value opens a document.
  induction bound generalizing text with
  | zero => cases read
  | succ bound inductionHypothesis =>
      rw [← kindsOf_skipBlanks] at opens
      rw [← tokensOf_skipBlanks]
      rw [Toml.readTable?] at read
      split at read
      · next atEnd =>
          cases read
          rw [atEnd, tokensOf_nil]
          exact ⟨rfl, by simp [Token.isRemark, Token.bare]⟩
      · next bracket =>
          rw [bracket, kindsOf_lexeme rfl (by decide)] at opens
          cases opens
      · next c rest _ chars =>
          have noBlank : c ≠ ' ' ∧ c ≠ '\t' := by
            have first := List.head?_dropWhile_not (fun c => c = ' ' || c = '\t') text
            rw [← Toml.skipBlanks, chars] at first
            simpa using first
          rw [chars] at opens ⊢
          split at read
          · obtain ⟨behind, lineEnd, others⟩ := Option.bind_eq_some_iff.1 read
            obtain ⟨token, remark, ⟨newline, tokens⟩ | ⟨rfl, tokens⟩⟩ :=
              tokensOf_of_skipLineEnd? lineEnd
            · rw [kindsOf, tokens, List.map_cons, newline, ← kindsOf] at opens
              generalize kinds : kindsOf behind = behindKinds at opens
              cases opens with
              | newline rest =>
                  rw [← kinds] at rest
                  obtain ⟨same, remarks⟩ := inductionHypothesis rest others
                  rw [tokens]
                  exact ⟨same, List.forall_mem_cons.2 ⟨remark, remarks⟩⟩
            · have nothing : OpensDocument (kindsOf []) := by
                rw [kindsOf, tokensOf_nil]
                exact .atEnd
              obtain ⟨same, -⟩ := inductionHypothesis nothing others
              rw [tokens]
              exact ⟨same, by simpa using remark⟩
          · next lineStart =>
              simp only [Bool.or_eq_true, decide_eq_true_eq, not_or] at lineStart
              obtain ⟨⟨⟨steps, key⟩, behind⟩, named, more⟩ := Option.bind_eq_some_iff.1 read
              have goesOn := (opens.inHeader (by simp [isBlank, noBlank, lineStart])
                lineStart.1.1 lineStart.1.2).of_readKey? named
              dsimp only at more
              split at more
              · next equals => exact absurd equals (goesOn.skipBlanks.ne_equals _)
              · cases more

/-- A source without diagnostics that is read as settings has nothing but comments in it, and no
settings. -/
theorem remarks_of_parse? {file source : String} {table : Toml.Table}
    (silent : (parse file source).diagnostics = []) (parsed : Toml.parse? source = some table) :
    table = [] ∧ ∀ token ∈ tokensOf source.toList, token.isRemark = true := by
  have opens := opensDocument_of_silent silent
  unfold Toml.parse? at parsed
  dsimp only at parsed
  split at parsed
  · next mark =>
      rw [mark, kindsOf_lexeme rfl (by decide)] at opens
      cases opens
  · exact remarks_of_readTable? opens parsed

/-! ## Canonical text of comments -/

theorem toList_join_commentLines (comments : List String) :
    (Line.join (Layout.commentLines 0 comments)).toList =
      comments.flatMap fun comment => comment.toList ++ ['\n'] := by
  induction comments with
  | nil => rfl
  | cons comment comments inductionHypothesis =>
      rw [Layout.commentLines] at inductionHypothesis ⊢
      rw [List.map_cons, Line.toList_join_cons, inductionHypothesis]
      simp [indentWidth]

/-- The canonical text of a document without blocks is made of its comments. -/
theorem toList_print_of_noBlocks {document : Document} (noBlocks : document.blocks = [])
    (settings : PrintSettings) :
    (document.print settings).toList =
      document.trailingComments.flatMap fun comment => comment.toList ++ ['\n'] := by
  rw [← toList_join_commentLines, Document.print, Layout.documentLines, noBlocks,
    Layout.blockGroups, List.nil_append]
  cases document.trailingComments with
  | nil => rfl
  | cons comment comments => simp [Layout.groupOf, Line.separate]

/-- Settings skip a line with a comment they allow. -/
theorem skipLineEnd?_comment {tail : List Char} (plain : ('#' :: tail).all Toml.isPlain = true)
    (rest : List Char) : Toml.skipLineEnd? ('#' :: tail ++ '\n' :: rest) = some rest := by
  have span := span_eq (p := fun c => c ≠ '\n' && c ≠ '\r') ('#' :: tail) ('\n' :: rest)
    (fun c member => by
      have allowed := List.all_eq_true.1 plain c member
      have other (d : Char) (outside : Toml.isPlain d = false) : c ≠ d := by
        rintro rfl
        rw [allowed] at outside
        cases outside
      simp [other '\n' rfl, other '\r' rfl])
    (by simp)
  have hash : ('#' :: tail ++ '\n' :: rest).head? = some '#' := rfl
  have skipped : Toml.skipComment? ('#' :: tail ++ '\n' :: rest) = some ('\n' :: rest) := by
    rw [Toml.skipComment?, if_pos hash, span.1, span.2, if_pos plain]
  have noBlanks : Toml.skipBlanks ('#' :: tail ++ '\n' :: rest) = '#' :: tail ++ '\n' :: rest := rfl
  rw [Toml.skipLineEnd?, noBlanks, skipped]
  rfl

theorem hash_of_isComment {comment : String} (isComment : Word.isComment comment = true) :
    ∃ tail, comment.toList = '#' :: tail := by
  simp only [Word.isComment, Bool.and_eq_true, decide_eq_true_eq] at isComment
  exact List.head?_eq_some_iff.1 isComment.1.1

/-- Lines of comments set nothing. -/
theorem readTable?_comments {bound : Nat} {comments : List String}
    (enough : comments.length < bound) (table : Toml.Table) (header : List String)
    (wellFormed : ∀ comment ∈ comments, Word.isComment comment = true)
    (plain : ∀ comment ∈ comments, comment.toList.all Toml.isPlain = true) :
    Toml.readTable? bound table header
      (comments.flatMap fun comment => comment.toList ++ ['\n']) = some table := by
  induction comments generalizing bound with
  | nil =>
      obtain ⟨bound, rfl⟩ := Nat.exists_eq_add_one_of_ne_zero (Nat.ne_zero_of_lt enough)
      rfl
  | cons comment comments inductionHypothesis =>
      obtain ⟨bound, rfl⟩ := Nat.exists_eq_add_one_of_ne_zero (Nat.ne_zero_of_lt enough)
      obtain ⟨isComment, others⟩ := List.forall_mem_cons.1 wellFormed
      obtain ⟨allowed, othersAllowed⟩ := List.forall_mem_cons.1 plain
      obtain ⟨tail, chars⟩ := hash_of_isComment isComment
      rw [chars] at allowed
      have skipped := skipLineEnd?_comment allowed
        (comments.flatMap fun comment => comment.toList ++ ['\n'])
      have read := inductionHypothesis (Nat.lt_of_succ_lt_succ enough) others othersAllowed
      rw [List.flatMap_cons, chars, List.append_assoc, List.singleton_append]
      change (Toml.skipLineEnd? ('#' :: tail ++ '\n' :: _)).bind
        (Toml.readTable? bound table header) = some table
      rw [skipped]
      exact read

/-- A text of comments alone is an empty table. -/
theorem Toml.parse?_comments {text : String} {comments : List String}
    (chars : text.toList = comments.flatMap fun comment => comment.toList ++ ['\n'])
    (wellFormed : ∀ comment ∈ comments, Word.isComment comment = true)
    (plain : ∀ comment ∈ comments, comment.toList.all Toml.isPlain = true) :
    Toml.parse? text = some [] := by
  have enough : comments.length ≤ text.toList.length := by
    rw [chars]
    clear chars wellFormed plain
    induction comments with
    | nil => exact Nat.zero_le _
    | cons comment comments inductionHypothesis =>
        simp only [List.flatMap_cons, List.length_append, List.length_cons, List.length_nil]
        omega
  unfold Toml.parse?
  dsimp only
  split
  · next mark =>
      rw [chars] at mark
      cases comments with
      | nil => cases mark
      | cons comment comments =>
          obtain ⟨tail, hash⟩ := hash_of_isComment (wellFormed comment List.mem_cons_self)
          rw [List.flatMap_cons, hash] at mark
          cases mark
  · rw [chars] at enough ⊢
    exact readTable?_comments (by omega) [] [] wellFormed plain

theorem series_of_newlines {kinds : List TokenKind} (newlines : ∀ kind ∈ kinds, kind = .newline) :
    Grammar.Series Grammar.IsNewline Grammar.DerivesBlock true kinds [] [] := by
  induction kinds with
  | nil => exact .done
  | cons kind kinds inductionHypothesis =>
      obtain ⟨newline, others⟩ := List.forall_mem_cons.1 newlines
      exact .separator newline (inductionHypothesis others)

/-- A document of remarks has no blocks, and its comments are allowed in settings. -/
theorem document_of_remarks {file source : String} (silent : (parse file source).diagnostics = [])
    (remarks : ∀ token ∈ tokensOf source.toList, token.isRemark = true) :
    (parse file source).document.blocks = [] ∧
      ∀ comment ∈ (parse file source).document.trailingComments,
        comment.toList.all Toml.isPlain = true := by
  rw [← map_tokenize file source, List.forall_mem_map] at remarks
  obtain ⟨content, last, stream, atEnd, others⟩ := tokenize_eq_append file source
  have newlines : ∀ kind ∈ content.map (·.kind), kind = .newline := by
    rw [List.forall_mem_map]
    intro token member
    have remark := remarks token (by simp [stream, member])
    simp only [Token.isRemark, Bool.and_eq_true, Bool.or_eq_true, decide_eq_true_eq] at remark
    exact remark.1.resolve_right (others token member)
  have derivation := (Grammar.derivesDocument_append atEnd []).2 (series_of_newlines newlines)
  have tree := Grammar.parseTokens_blocks_of_derives file atEnd others derivation
  rw [← stream] at tree
  have noBlocks : (parse file source).document.blocks = [] := by
    cases found : (parse file source).document.blocks with
    | nil => rfl
    | cons block blocks =>
        have same : (parseTokens file (tokenize file source).1).document.blocks = block :: blocks :=
          found
        rw [same] at tree
        cases tree
  refine ⟨noBlocks, fun comment member => ?_⟩
  have bag := commentBag_parse silent
  rw [Document.commentBag, noBlocks, Block.commentBagAll_nil, zero_add] at bag
  have written : comment ∈ (tokenize file source).1.flatMap (·.comments) :=
    Multiset.mem_coe.1 (bag ▸ Multiset.mem_coe.2 member)
  obtain ⟨token, inside, carried⟩ := List.mem_flatMap.1 written
  have remark := remarks token inside
  simp only [Token.isRemark, Bool.and_eq_true] at remark
  exact List.all_eq_true.1 remark.2 comment carried

/-- Formatting does not change what a file says as settings. -/
theorem Settings.parse?_print {path source : String} {settings : Settings}
    (silent : (parse path source).diagnostics = [])
    (parsed : Settings.parse? source = some settings) (print : PrintSettings) :
    Settings.parse? ((parse path source).document.print print) = some settings := by
  obtain ⟨table, read, found⟩ := Option.bind_eq_some_iff.1 parsed
  obtain ⟨rfl, remarks⟩ := remarks_of_parse? silent read
  obtain ⟨noBlocks, plain⟩ := document_of_remarks silent remarks
  have wellFormed := wellFormed_parse path source
  simp only [Document.wellFormed, Bool.and_eq_true, List.all_eq_true] at wellFormed
  have empty : Toml.parse? ((parse path source).document.print print) = some [] :=
    Toml.parse?_comments (toList_print_of_noBlocks noBlocks print) wellFormed.2 plain
  rw [Settings.parse?, empty]
  exact found

end ServiceDef
