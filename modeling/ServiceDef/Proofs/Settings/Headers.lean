import ServiceDef.Proofs.Grammar.Acceptance
import ServiceDef.Proofs.Scanning.Partition
import ServiceDef.Proofs.Scanning.Regularity
import ServiceDef.Proofs.Scanning.Spelling
import ServiceDef.Settings

/-!
# Headers are no settings

A well-formed source opens its first block with a name, perhaps a label, and a brace, where settings
have a key and an equals sign. A key that is read from the header of a block stays inside the
header, so that no equals sign is found behind it.
-/

namespace ServiceDef

/-- The kinds of the tokens of a text. -/
def kindsOf (text : List Char) : List TokenKind :=
  (tokensOf text).map (·.kind)

/-- What stands behind the name of a block: a brace, or a label and a brace. -/
inductive OpensBody : List TokenKind → Prop where
  | brace (rest : List TokenKind) : OpensBody (.leftBrace :: rest)
  | label (contents : String) (rest : List TokenKind) :
      OpensBody (.string contents :: .leftBrace :: rest)

/-- A document up to the body of its first block, or up to its end. -/
inductive OpensDocument : List TokenKind → Prop where
  | atEnd : OpensDocument [.endOfFile]
  | newline {rest : List TokenKind} (others : OpensDocument rest) : OpensDocument (.newline :: rest)
  | block (name : String) {rest : List TokenKind} (body : OpensBody rest) :
      OpensDocument (.identifier name :: rest)

/-- A text that goes on with a part of a name and then with what opens a body. -/
inductive InHeader : List Char → Prop where
  | body {text : List Char} (opens : OpensBody (kindsOf text)) : InHeader text
  | name {c : Char} {text : List Char} (part : Word.isIdentifierPart c = true)
      (others : InHeader text) : InHeader (c :: text)

/-! ## The first block of a source -/

theorem opensDocument_of_derivesBlock {input rest : List TokenKind} {block : Block}
    (derivation : Grammar.DerivesBlock input block rest) (behind : List TokenKind) :
    OpensDocument (input ++ behind) := by
  cases derivation with
  | unlabelled inside => exact .block _ (.brace _)
  | labelled inside => exact .block _ (.label _ _)

theorem opensDocument_of_series {kinds : List TokenKind} {blocks : List Block}
    (series : Grammar.Series Grammar.IsNewline Grammar.DerivesBlock true kinds blocks []) :
    OpensDocument (kinds ++ [.endOfFile]) := by
  -- The indices of a series vary along it, and only line breaks keep it ready for a block.
  generalize rest : ([] : List TokenKind) = left at series
  generalize ready : true = isReady at series
  induction series with
  | done =>
      subst rest
      exact .atEnd
  | separator separates others inductionHypothesis =>
      cases separates
      exact .newline (inductionHypothesis rest rfl)
  | item first others => exact opensDocument_of_derivesBlock first _

/-- A source without diagnostics opens like a document. -/
theorem opensDocument_of_silent {file source : String}
    (silent : (parse file source).diagnostics = []) : OpensDocument (kindsOf source.toList) := by
  obtain ⟨content, last, stream, atEnd, others⟩ := tokenize_eq_append file source
  have kinds : kindsOf source.toList = (content ++ [last]).map (·.kind) := by
    rw [kindsOf, ← map_tokenize file source, stream, List.map_map]
    rfl
  obtain ⟨valid, quiet⟩ := (parse_diagnostics_eq_nil_iff file source).1 silent
  rw [stream] at valid quiet
  obtain ⟨blocks, derivation⟩ := (Grammar.parseTokens_silent_iff file atEnd others valid).1 quiet
  rw [kinds, List.map_append, List.map_singleton, atEnd]
  exact opensDocument_of_series ((Grammar.derivesDocument_append atEnd blocks).1 derivation)

/-! ## Keys in front of a body -/

theorem tokensOf_skipBlanks (text : List Char) :
    tokensOf (Toml.skipBlanks text) = tokensOf text := by
  induction text with
  | nil => rfl
  | cons c text inductionHypothesis =>
      unfold Toml.skipBlanks at inductionHypothesis ⊢
      rw [List.dropWhile_cons]
      split
      · next blank =>
          have isBlank : isBlank c = true := by
            simp only [Bool.or_eq_true] at blank
            rcases blank with space | tab
            · simp [isBlank, of_decide_eq_true space]
            · simp [isBlank, of_decide_eq_true tab]
          rw [inductionHypothesis, tokensOf_blank isBlank]
      · rfl

theorem kindsOf_skipBlanks (text : List Char) : kindsOf (Toml.skipBlanks text) = kindsOf text := by
  rw [kindsOf, tokensOf_skipBlanks, kindsOf]

/-- Behind a comment stands a line break or the end of the file. -/
theorem kindsOf_comment (text : List Char) :
    ∃ rest, kindsOf ('#' :: text) = .endOfFile :: rest ∨
      kindsOf ('#' :: text) = .newline :: rest := by
  have lineEnd : ∀ c ∈ (Gap.read ('#' :: text)).rest.head?, c = '\n' := by
    rcases Gap.comment_read ('#' :: text) with ⟨noComment, -⟩ | ⟨tail, -, -, -, lineEnd⟩
    · simp [Gap.read, isBlank] at noComment
    · exact lineEnd
  cases split : (Gap.read ('#' :: text)).rest with
  | nil => exact ⟨_, .inl (by rw [kindsOf, tokensOf_of_end split]; rfl)⟩
  | cons c rest =>
      rw [split] at lineEnd
      cases lineEnd c rfl
      exact ⟨_, .inr (by rw [kindsOf, tokensOf_of_lexeme split]; rfl)⟩

/-- Where neither a blank nor a comment starts, the first kind is that of a lexeme. -/
theorem kindsOf_lexeme {c : Char} (solid : isBlank c = false) (noComment : c ≠ '#')
    (text : List Char) :
    kindsOf (c :: text) = (Lexeme.read c text).kind :: kindsOf (Lexeme.read c text).rest := by
  rw [kindsOf, tokensOf_lexeme solid noComment]
  rfl

/-- Only a blank, a brace and a quotation mark start a text that opens a body. -/
theorem OpensBody.head {c : Char} {rest : List Char} (opens : OpensBody (kindsOf (c :: rest))) :
    isBlank c = true ∨ c = '\x7b' ∨ c = '"' := by
  cases solid : isBlank c with
  | true => exact .inl rfl
  | false =>
      right
      by_cases comment : c = '#'
      · subst comment
        obtain ⟨behind, same | same⟩ := kindsOf_comment rest
        all_goals
          rw [same] at opens
          cases opens
      · have whole := Lexeme.text_append_rest c rest
        have written := Lexeme.read_writtenAs c rest
        rw [kindsOf_lexeme solid comment] at opens
        generalize (Lexeme.read c rest).kind = kind at opens written
        generalize (Lexeme.read c rest).text = text at whole written
        generalize kindsOf (Lexeme.read c rest).rest = behind at opens
        cases opens with
        | brace =>
            cases written
            exact .inl (List.cons.inj whole).1.symm
        | label contents =>
            obtain ⟨body, rfl, -⟩ := written
            exact .inr (List.cons.inj whole).1.symm

namespace InHeader

/-- A part of a name in front of a header. -/
theorem append {word text : List Char} (parts : ∀ c ∈ word, Word.isIdentifierPart c = true)
    (header : InHeader text) : InHeader (word ++ text) := by
  induction word with
  | nil => exact header
  | cons c word inductionHypothesis =>
      obtain ⟨part, others⟩ := List.forall_mem_cons.1 parts
      exact .name part (inductionHypothesis others)

/-- Blanks may be skipped in a header. -/
theorem skipBlanks {text : List Char} (header : InHeader text) :
    InHeader (Toml.skipBlanks text) := by
  cases header with
  | body opens => exact .body (by rwa [kindsOf_skipBlanks])
  | @name c text part others =>
      have solid := (wordPart part).1
      simp only [isBlank, Bool.or_eq_false_iff] at solid
      rw [Toml.skipBlanks, List.dropWhile_cons, if_neg (by simp [solid])]
      exact .name part others

/-- Dots of a name may be skipped in a header. -/
theorem of_dot {text : List Char} (header : InHeader ('.' :: text)) : InHeader text := by
  cases header with
  | body opens => rcases opens.head with blank | brace | quote <;> contradiction
  | name part others => exact others

/-- There is no equals sign in a header. -/
theorem ne_equals {text : List Char} (header : InHeader text) (rest : List Char) :
    text ≠ '=' :: rest := by
  rintro rfl
  cases header with
  | body opens => rcases opens.head with blank | brace | quote <;> contradiction
  | name part others => cases part

/-- A key without quotation marks may be skipped in a header. -/
theorem dropWhile_isBare {text : List Char} (header : InHeader text) :
    InHeader (text.dropWhile Toml.isBare) := by
  induction header with
  | @body text opens =>
      cases text with
      | nil => exact .body opens
      | cons c text =>
          have solid : Toml.isBare c = false := by
            rcases opens.head with blank | rfl | rfl
            · simp only [isBlank, Bool.or_eq_true, decide_eq_true_eq] at blank
              rcases blank with (rfl | rfl) | rfl <;> rfl
            · rfl
            · rfl
          rw [List.dropWhile_cons, solid]
          exact .body opens
  | name part others inductionHypothesis =>
      rw [List.dropWhile_cons]
      split
      · exact inductionHypothesis
      · exact .name part others

end InHeader

/-! ## String literals in both languages -/

theorem rest_spanQuoted_cons {c : Char} (noBreak : c ≠ '\n') (noQuote : c ≠ '"')
    (noEscape : c ≠ '\\') (text : List Char) :
    (Text.spanQuoted (c :: text)).rest = (Text.spanQuoted text).rest := by
  rw [Text.spanQuoted.eq_def]
  simp [noBreak, noQuote, noEscape, Text.QuotedSpan.push]

theorem rest_spanQuoted_pair {c : Char} (noBreak : c ≠ '\n') (text : List Char) :
    (Text.spanQuoted ('\\' :: c :: text)).rest = (Text.spanQuoted text).rest := by
  simp [Text.spanQuoted, noBreak, Text.QuotedSpan.push]

theorem isSome_digit?_of_number? {base value : Nat} {digits : List Char}
    (number : Toml.number? base digits = some value) :
    ∀ c ∈ digits, (Toml.digit? c).isSome = true := by
  have each (start : Nat) (folded : digits.foldlM (fun value c => do
      let d ← Toml.digit? c
      if d < base then some (value * base + d) else none) start = some value) :
      ∀ c ∈ digits, (Toml.digit? c).isSome = true := by
    clear number
    induction digits generalizing start with
    | nil => simp
    | cons c digits inductionHypothesis =>
        obtain ⟨next, here, others⟩ := Option.bind_eq_some_iff.1 folded
        obtain ⟨d, digit, -⟩ := Option.bind_eq_some_iff.1 here
        exact List.forall_mem_cons.2 ⟨by rw [digit]; rfl, inductionHypothesis next others⟩
  exact each 0 number

theorem rest_spanQuoted_digits {digits : List Char}
    (isDigit : ∀ c ∈ digits, (Toml.digit? c).isSome = true) (text : List Char) :
    (Text.spanQuoted (digits ++ text)).rest = (Text.spanQuoted text).rest := by
  induction digits with
  | nil => rfl
  | cons c digits inductionHypothesis =>
      have other (d : Char) (outside : Toml.digit? d = none) : c ≠ d := by
        rintro rfl
        have inside := isDigit c List.mem_cons_self
        rw [outside] at inside
        cases inside
      rw [List.cons_append, rest_spanQuoted_cons (other _ rfl) (other _ rfl) (other _ rfl)]
      exact inductionHypothesis fun d member => isDigit d (List.mem_cons_of_mem c member)

theorem rest_spanQuoted_codePoint? {count : Nat} {text rest : List Char} {named : Char}
    (read : Toml.codePoint? count text = some (named, rest)) :
    (Text.spanQuoted text).rest = (Text.spanQuoted rest).rest := by
  unfold Toml.codePoint? at read
  dsimp only at read
  split at read
  · cases read
  · obtain ⟨code, number, inRange⟩ := Option.bind_eq_some_iff.1 read
    split at inRange
    · cases inRange
      have passed := rest_spanQuoted_digits (isSome_digit?_of_number? number) (text.drop count)
      rwa [List.take_append_drop] at passed
    · cases inRange

/-- What settings accept behind a backslash lies inside the literal of a source. -/
theorem rest_spanQuoted_escape? {text rest : List Char} {named : Char}
    (read : Toml.escape? text = some (named, rest)) :
    (Text.spanQuoted ('\\' :: text)).rest = (Text.spanQuoted rest).rest := by
  unfold Toml.escape? at read
  split at read
  case h_8 => rw [rest_spanQuoted_pair (by decide), rest_spanQuoted_codePoint? read]
  case h_9 => rw [rest_spanQuoted_pair (by decide), rest_spanQuoted_codePoint? read]
  case h_10 => cases read
  all_goals
    cases read
    exact rest_spanQuoted_pair (by decide) _

/-- A string that settings accept ends where the literal of a source does. -/
theorem rest_spanQuoted_of_readLine? {bound : Nat} {text contents rest : List Char}
    (read : Toml.readLine? '"' bound text = some (contents, rest)) :
    (Text.spanQuoted text).rest = rest := by
  -- Both readers go through the literal in step, but a code point behind a backslash is one step
  -- for settings and one for each digit in a source.
  induction bound generalizing text contents with
  | zero => cases text <;> cases read
  | succ bound inductionHypothesis =>
      cases text with
      | nil => cases read
      | cons c text =>
          rw [Toml.readLine?] at read
          split at read
          · next quote =>
              cases read
              subst quote
              rw [Text.spanQuoted.eq_def]
              rfl
          · next noQuote =>
              split at read
              · next escape =>
                  obtain ⟨⟨named, behind⟩, character, more⟩ := Option.bind_eq_some_iff.1 read
                  obtain ⟨⟨others, end_⟩, inner, same⟩ := Option.map_eq_some_iff.1 more
                  cases same
                  simp only [Bool.and_eq_true, decide_eq_true_eq] at escape
                  rw [escape.1, rest_spanQuoted_escape? character]
                  exact inductionHypothesis inner
              · next noEscape =>
                  split at read
                  · next plain =>
                      obtain ⟨⟨others, end_⟩, inner, same⟩ := Option.map_eq_some_iff.1 read
                      cases same
                      have noBreak : c ≠ '\n' := by
                        rintro rfl
                        cases plain
                      rw [rest_spanQuoted_cons noBreak noQuote (by simpa using noEscape)]
                      exact inductionHypothesis inner
                  · cases read

/-! ## Keys -/

/-- Behind a string literal that opens a body stands the brace. -/
theorem OpensBody.behind_quote {text : List Char} (opens : OpensBody (kindsOf ('"' :: text))) :
    OpensBody (kindsOf (Text.spanQuoted text).rest) := by
  have read : Lexeme.read '"' text = Lexeme.readQuoted text := rfl
  rw [kindsOf_lexeme rfl (by decide), read, Lexeme.readQuoted] at opens
  split at opens
  · generalize kindsOf (Text.spanQuoted text).rest = behind at opens ⊢
    cases opens
    exact .brace _
  · cases opens

namespace InHeader

/-- Behind a part of a key, a header goes on. -/
theorem of_readSimpleKey? {bound : Nat} {text rest : List Char} {key : String}
    (header : InHeader text) (read : Toml.readSimpleKey? bound text = some (key, rest)) :
    InHeader rest := by
  unfold Toml.readSimpleKey? at read
  split at read
  · cases read
  · next c text =>
      split at read
      · next quote =>
          obtain ⟨⟨contents, behind⟩, line, same⟩ := Option.bind_eq_some_iff.1 read
          cases same
          simp only [Bool.or_eq_true, decide_eq_true_eq] at quote
          rcases quote with rfl | rfl
          · cases header with
            | name part others => cases part
            | body opens =>
                rw [← rest_spanQuoted_of_readLine? line]
                exact .body opens.behind_quote
          · cases header with
            | name part others => cases part
            | body opens => rcases opens.head with blank | brace | quote <;> contradiction
      · split at read
        · cases read
          exact header.dropWhile_isBare
        · cases read

/-- Behind a key, a header goes on. -/
theorem of_readKey? {bound : Nat} {text rest : List Char} {key : List String × String}
    (header : InHeader text) (read : Toml.readKey? bound text = some (key, rest)) :
    InHeader rest := by
  induction bound generalizing text key with
  | zero => cases read
  | succ bound inductionHypothesis =>
      obtain ⟨⟨part, behind⟩, simple, more⟩ := Option.bind_eq_some_iff.1 read
      have goesOn := header.of_readSimpleKey? simple
      dsimp only at more
      split at more
      · next dot =>
          obtain ⟨⟨⟨steps, last⟩, end_⟩, inner, same⟩ := Option.bind_eq_some_iff.1 more
          cases same
          have skipped := goesOn.skipBlanks
          rw [dot] at skipped
          exact inductionHypothesis skipped.of_dot.skipBlanks inner
      · cases more
        exact goesOn

end InHeader

theorem isIdentifierPart_of_isIdentifier {name : String}
    (identifier : Word.isIdentifier name = true) :
    ∀ c ∈ name.toList, Word.isIdentifierPart c = true := by
  unfold Word.isIdentifier at identifier
  split at identifier
  · cases identifier
  · next c text chars =>
      simp only [Bool.and_eq_true, List.all_eq_true] at identifier
      obtain ⟨⟨⟨start, inside⟩, -⟩, -⟩ := identifier
      rw [chars]
      exact List.forall_mem_cons.2 ⟨isIdentifierPart_of_start start, inside⟩

/-- Where a document opens with neither a gap nor the end of a line, its first block starts. -/
theorem OpensDocument.inHeader {c : Char} {text : List Char} (solid : isBlank c = false)
    (noComment : c ≠ '#') (noBreak : c ≠ '\n') (opens : OpensDocument (kindsOf (c :: text))) :
    InHeader (c :: text) := by
  have whole := Lexeme.text_append_rest c text
  have written := Lexeme.read_writtenAs c text
  have regular := Lexeme.read_regular c text
  have notEnd := (Lexeme.read_kind c text).1
  rw [kindsOf_lexeme solid noComment] at opens
  generalize (Lexeme.read c text).kind = kind at *
  generalize behind : kindsOf (Lexeme.read c text).rest = kinds at opens
  cases opens with
  | atEnd => exact absurd rfl notEnd
  | newline others =>
      have first : (Lexeme.read c text).text = ['\n'] := written
      rw [first] at whole
      exact absurd (List.cons.inj whole).1.symm noBreak
  | block name body =>
      have lexeme : (Lexeme.read c text).text = name.toList := written
      rw [← whole, lexeme]
      exact .append (isIdentifierPart_of_isIdentifier regular) (.body (behind ▸ body))

end ServiceDef
