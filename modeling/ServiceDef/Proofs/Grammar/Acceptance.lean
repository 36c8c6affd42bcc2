import ServiceDef.Proofs.Grammar.Soundness
import ServiceDef.Proofs.Scanning.Stream

/-!
# What is accepted

Parsing accepts exactly the texts whose tokens derive from the grammar, and the document is then
the tree of the derivation. The kinds of the tokens decide about both, so positions and
comments are erased first.
-/

namespace ServiceDef.Grammar

open Reader

theorem map_unlabelled (tokens : List Token) :
    tokens.map Relabelling.unlabelled.token = (tokens.map (·.kind)).map Token.bare := by
  rw [List.map_map]
  rfl

/-- Without labels, what a reader holds at the end of some tokens is decided by their kinds. -/
theorem unlabelled_finish (content : List Token) {last : Token} (atEnd : last.kind = .endOfFile) :
    Relabelling.unlabelled.reader ((({} : Reader).run content).finish last) =
      (({} : Reader).reads (content.map (·.kind))).finish (.bare .endOfFile) := by
  have ending : Relabelling.unlabelled.token last = .bare .endOfFile := by
    rw [← atEnd]
    rfl
  rw [Relabelling.reader_finish, Relabelling.reader_run, map_unlabelled, ending]
  rfl

/-- A reader has nothing to report about valid tokens exactly if their kinds derive from a
document. -/
theorem silent_iff_derives {kinds : List TokenKind}
    (valid : ∀ kind ∈ kinds, ∀ text, kind ≠ .invalid text) :
    ((({} : Reader).reads kinds).finish (.bare .endOfFile)).diagnostics = [] ↔
      ∃ blocks, Series IsNewline DerivesBlock true kinds blocks [] := by
  constructor
  · intro silent
    exact blocks_of_accepts kinds true {} rfl rfl rfl ⟨valid, silent⟩
  · rintro ⟨blocks, series⟩
    rw [finish_reads_of_series series]

/-- The kinds of tokens that end with their only end of the file derive from a document exactly
if those before the end derive from its blocks. -/
theorem derivesDocument_append {content : List Token} {last : Token}
    (atEnd : last.kind = .endOfFile) (blocks : List Block) :
    DerivesDocument ((content ++ [last]).map (·.kind)) blocks ↔
      Series IsNewline DerivesBlock true (content.map (·.kind)) blocks [] := by
  rw [List.map_append, List.map_singleton, atEnd]
  constructor
  · rintro ⟨kinds, split, series⟩
    rw [(List.append_inj' split rfl).1]
    exact series
  · intro series
    exact ⟨_, rfl, series⟩

theorem valid_of_isInvalid {tokens : List Token}
    (valid : ∀ token ∈ tokens, token.kind.isInvalid = false) :
    ∀ kind ∈ tokens.map (·.kind), ∀ text, kind ≠ .invalid text := by
  intro kind member text invalid
  obtain ⟨token, tokenMember, rfl⟩ := List.mem_map.1 member
  have isValid := valid token tokenMember
  rw [invalid] at isValid
  cases isValid

/-- Tokens that end with their only end of the file, none of which is invalid, are parsed without
a diagnostic exactly if their kinds derive from a document. -/
theorem parseTokens_silent_iff (file : String) {content : List Token} {last : Token}
    (atEnd : last.kind = .endOfFile) (others : ∀ token ∈ content, token.kind ≠ .endOfFile)
    (valid : ∀ token ∈ content ++ [last], token.kind.isInvalid = false) :
    (parseTokens file (content ++ [last])).diagnostics = [] ↔
      ∃ blocks, DerivesDocument ((content ++ [last]).map (·.kind)) blocks := by
  have kinds := valid_of_isInvalid fun token member =>
    valid token (List.mem_append_left _ member)
  have silent := congrArg Reader.diagnostics (unlabelled_finish content atEnd)
  rw [parseTokens_append file atEnd others]
  simp only [derivesDocument_append atEnd]
  rw [← silent_iff_derives kinds, ← silent]
  simp [Relabelling.reader]

/-- Without labels, the blocks of parsed tokens are the tree of their derivation. -/
theorem parseTokens_blocks_of_derives (file : String) {content : List Token} {last : Token}
    (atEnd : last.kind = .endOfFile) (others : ∀ token ∈ content, token.kind ≠ .endOfFile)
    {blocks : List Block}
    (derivation : DerivesDocument ((content ++ [last]).map (·.kind)) blocks) :
    Relabelling.unlabelled.blocks (parseTokens file (content ++ [last])).document.blocks =
      blocks := by
  have series := (derivesDocument_append atEnd blocks).1 derivation
  have tree := congrArg Reader.blocks (unlabelled_finish content atEnd)
  rw [finish_reads_of_series series] at tree
  rw [parseTokens_append file atEnd others]
  exact tree

/-- A source text is parsed without a diagnostic exactly if none of its tokens is invalid and
the kinds of its tokens derive from a document. The parsed document is then the tree of the
derivation: without comments and positions, it has the blocks of every derivation. -/
theorem parse_accepts_iff_derives (file source : String) :
    ((parse file source).diagnostics = [] ↔
      (∀ token ∈ (tokenize file source).1, token.kind.isInvalid = false) ∧
        ∃ blocks, DerivesDocument ((tokenize file source).1.map (·.kind)) blocks) ∧
    ∀ blocks, DerivesDocument ((tokenize file source).1.map (·.kind)) blocks →
      Relabelling.unlabelled.blocks (parse file source).document.blocks = blocks := by
  obtain ⟨content, last, stream, atEnd, others⟩ := tokenize_eq_append file source
  constructor
  · rw [parse_diagnostics_eq_nil_iff, stream]
    exact and_congr_right fun valid => parseTokens_silent_iff file atEnd others valid
  · intro blocks derivation
    rw [stream] at derivation
    have tree := parseTokens_blocks_of_derives file atEnd others derivation
    rw [← stream] at tree
    exact tree

/-- A block with one attribute, which is a list. -/
def listBlock : Block :=
  extend { kind := "a" } [.assignment { key := "b", value := .list [.scalar (.number "1")] }]

theorem parse_accepts_iff_derives_listBlock :
    DerivesDocument ((tokenize "f" "a\x7bb=[1]\n\x7d").1.map (·.kind)) [listBlock] ∧
      (parse "f" "a\x7bb=[1]\n\x7d").diagnostics = [] ∧
      Relabelling.unlabelled.blocks (parse "f" "a\x7bb=[1]\n\x7d").document.blocks =
        [listBlock] := by
  have accepts := parse_accepts_iff_derives "f" "a\x7bb=[1]\n\x7d"
  have kinds : (tokenize "f" "a\x7bb=[1]\n\x7d").1.map (·.kind) =
      [.identifier "a", .leftBrace, .identifier "b", .equals, .leftBracket, .number "1",
        .rightBracket, .newline, .rightBrace, .endOfFile] := by
    decide +kernel
  have value : DerivesValue [.leftBracket, .number "1", .rightBracket, .newline, .rightBrace]
      (.list [.scalar (.number "1")]) [.newline, .rightBrace] :=
    .list (.item (.number "1" _) .done)
  have block : DerivesBlock [.identifier "a", .leftBrace, .identifier "b", .equals, .leftBracket,
      .number "1", .rightBracket, .newline, .rightBrace] listBlock [] :=
    .unlabelled (.item (.assignment (.inl rfl) value) (.separator rfl .done))
  have derivation : DerivesDocument ((tokenize "f" "a\x7bb=[1]\n\x7d").1.map (·.kind))
      [listBlock] := by
    rw [kinds]
    exact ⟨_, rfl, .item block .done⟩
  refine ⟨derivation, accepts.1.2 ⟨?_, _, derivation⟩, accepts.2 _ derivation⟩
  decide +kernel

end ServiceDef.Grammar
