import ServiceDef.Proofs.Layout.Carrying
import ServiceDef.Proofs.Reader.Formed

/-!
# Written and scanned lexemes

Canonical text decides by `Word.isIdentifier` and `Word.isBarePath` what can be written without
quotation marks, and a scanner decides on its own where words and paths end. The two agree: a text
passes one of these tests exactly if it is scanned as one token of that kind, and what is quoted
is scanned as it was.
-/

namespace ServiceDef

open Grammar

/-! ## Paths -/

/-- A slash and what is read as a path behind it can be written as a path. -/
theorem Lexeme.isBarePath_spanPath (rest : List Char) :
    Word.isBarePath (String.ofList ('/' :: (spanPath 0 rest).1)) = true := by
  obtain ⟨noArrow, noSpace, openFirst⟩ := spanPath_bare 0 rest
  have solid : Text.isWhiteSpace '/' = false := rfl
  have braces : Word.bracesOpenFirst 0 ('/' :: (spanPath 0 rest).1) = true := by
    rw [Word.bracesOpenFirst.eq_def]
    exact openFirst
  simpa [Word.isBarePath, Word.hasArrow, noArrow, solid, braces] using noSpace

/-- Only a slash starts a path, and what is read can be written as one. -/
theorem Lexeme.isBarePath_of_read {c : Char} {rest : List Char} {text : String}
    (path : (Lexeme.read c rest).kind = .path text) : Word.isBarePath text = true := by
  unfold read at path
  split at path
  · next kind mark =>
      unfold markKind? at mark
      repeat' split at mark
      all_goals
        cases mark <;> cases path
  · split at path
    · unfold readDash at path
      split at path
      · cases path
      · split at path <;> cases path
      · cases path
    · split at path
      · unfold readQuoted at path
        dsimp only at path
        split at path <;> cases path
      · split at path
        · next slash =>
            cases path
            rw [slash]
            exact isBarePath_spanPath rest
        · split at path
          · cases path
          · split at path
            · unfold wordKind at path
              dsimp only at path
              repeat' split at path
              all_goals cases path
            · cases path

/-- Every path among the tokens of a text can be written as one. -/
theorem isBarePath_of_mem_tokensOf {source : List Char} {token : Token} {text : String}
    (member : token ∈ tokensOf source) (path : token.kind = .path text) :
    Word.isBarePath text = true := by
  induction source using tokensOf_induction with
  | atEnd source split =>
      rw [tokensOf_of_end split, List.mem_singleton] at member
      rw [member] at path
      cases path
  | lexeme source c rest split inductionHypothesis =>
      rw [tokensOf_of_lexeme split, List.mem_cons] at member
      rcases member with rfl | member
      · exact Lexeme.isBarePath_of_read path
      · exact inductionHypothesis member

/-! ## Source texts -/

/-- A text is scanned as tokens of the given kinds and the end of the file, without comments. -/
def ScansAs (file text : String) (kinds : List TokenKind) : Prop :=
  (tokenize file text).1.map (fun token => (token.kind, token.comments)) =
    (kinds ++ [TokenKind.endOfFile]).map fun kind => (kind, [])

theorem scansAs_iff (file text : String) (kinds : List TokenKind) :
    ScansAs file text kinds ↔
      tokensOf text.toList = (kinds ++ [TokenKind.endOfFile]).map Token.bare := by
  rw [ScansAs, ← map_tokenize file text]
  constructor
  · intro scans
    have rebuilt := congrArg
      (List.map fun part : TokenKind × List String =>
        ({ kind := part.1, comments := part.2 } : Token)) scans
    rw [List.map_map, List.map_map] at rebuilt
    exact rebuilt
  · intro stream
    have read := congrArg (List.map fun token : Token => (token.kind, token.comments)) stream
    rw [List.map_map, List.map_map] at read
    exact read

/-- Valid tokens are scanned without a diagnostic. -/
theorem ScansAs.silent {file text : String} {kinds : List TokenKind}
    (scans : ScansAs file text kinds) (valid : ∀ kind ∈ kinds, kind.isInvalid = false) :
    (tokenize file text).2 = [] := by
  rw [tokenize_diagnostics_eq_nil_iff]
  intro token member
  have part := List.mem_map_of_mem (f := fun token : Token => (token.kind, token.comments)) member
  rw [scans] at part
  obtain ⟨kind, inKinds, same⟩ := List.mem_map.1 part
  rw [← (Prod.mk.inj same).1]
  rcases List.mem_append.1 inKinds with inside | atEnd
  · exact valid kind inside
  · rw [List.mem_singleton.1 atEnd]
    rfl

/-- A spelling that the end of the file can stand behind is scanned as its tokens. -/
theorem Spells.scansAs {Before : List Char → Prop} {text : String} {kinds : List TokenKind}
    (spells : Spells Before text.toList (kinds.map Token.bare)) (atEnd : Before [])
    (file : String) : ScansAs file text kinds ∧ (tokenize file text).2 = [] := by
  have scans : ScansAs file text kinds := by
    have stream := spells.scans [] atEnd
    rw [List.append_nil, tokensOf_nil] at stream
    rw [scansAs_iff, stream, List.map_append]
    rfl
  refine ⟨scans, scans.silent fun kind member => ?_⟩
  exact spells.valid (.bare kind) (List.mem_map_of_mem member)

/-- A text that is scanned as one token has the token in its stream. -/
theorem ScansAs.mem_tokensOf {file text : String} {kind : TokenKind}
    (scans : ScansAs file text [kind]) : .bare kind ∈ tokensOf text.toList := by
  rw [(scansAs_iff file text [kind]).1 scans]
  exact List.mem_cons_self

theorem isIdentifier_iff_scansAs (file text : String) :
    Word.isIdentifier text = true ↔ ScansAs file text [.identifier text] := by
  constructor
  · intro identifier
    have spells : Spells Stops text.toList ([.identifier text].map Token.bare) :=
      spells_identifier identifier
    exact (spells.scansAs (by simp [Stops]) file).1
  · intro scans
    have regular := tokensOf_regular text.toList _ scans.mem_tokensOf
    exact identifier_of_regular regular rfl

theorem isBarePath_iff_scansAs (file text : String) :
    Word.isBarePath text = true ↔ ScansAs file text [.path text] := by
  constructor
  · intro bare
    have stream := @tokensOf_path text bare [] (by simp)
    rw [List.append_nil, tokensOf_nil] at stream
    exact (scansAs_iff file text [.path text]).2 stream
  · intro scans
    exact isBarePath_of_mem_tokensOf scans.mem_tokensOf rfl

/-- Writing and scanning agree on lexemes. A quoted text is scanned as what was quoted; a text can
be written as an identifier, or as a path, exactly if it is scanned as that and nothing else; and
an action is scanned as its method, its target, an arrow and its handler. -/
theorem lexemes_agree (file : String) :
    (∀ contents : String, ScansAs file (Text.quote contents) [.string contents] ∧
      (tokenize file (Text.quote contents)).2 = []) ∧
    (∀ text : String, Word.isIdentifier text = true ↔ ScansAs file text [.identifier text]) ∧
    (∀ text : String, Word.isBarePath text = true ↔ ScansAs file text [.path text]) ∧
    ∀ action : Action, Word.isIdentifier action.method = true →
      ∃ target handler, IsTarget target action.target ∧ IsHandler handler action.handler ∧
        ScansAs file (Layout.actionText action)
          [.identifier action.method, target, .arrow, handler] ∧
        (tokenize file (Layout.actionText action)).2 = [] := by
  refine ⟨fun contents => ?_, isIdentifier_iff_scansAs file, isBarePath_iff_scansAs file,
    fun action identifier => ?_⟩
  · have spells : Spells Anywhere (Text.quote contents).toList
        ([.string contents].map Token.bare) := spells_quote contents
    exact spells.scansAs trivial file
  · obtain ⟨kinds, spells, derives⟩ := spells_actionText identifier
    have route := derives []
    rw [List.append_nil] at route
    cases route with
    | action aim answer => exact ⟨_, _, aim, answer, spells.scansAs (by simp [Stops]) file⟩

/-- An action whose target holds an arrow and a quotation mark, and whose handler is a truth
value. -/
theorem lexemes_agree_quoted :
    Word.isIdentifier "get" = true ∧
      ∃ target handler, IsTarget target "/a -> \"b" ∧ IsHandler handler "true" ∧
        ScansAs "f" (Layout.actionText
            { method := "get", target := "/a -> \"b", handler := "true" })
          [.identifier "get", target, .arrow, handler] ∧
        (tokenize "f" (Layout.actionText
          { method := "get", target := "/a -> \"b", handler := "true" })).2 = [] := by
  have identifier : Word.isIdentifier "get" = true := by decide
  exact ⟨identifier, (lexemes_agree "f").2.2.2
    { method := "get", target := "/a -> \"b", handler := "true" } identifier⟩

end ServiceDef
