import ServiceDef.Proofs.Descent.Statements
import ServiceDef.Proofs.Scanning.Stream

/-!
# Both parsers agree

The parser by descent reads every token list, however malformed, and yields the document and the
diagnostics that the reader yields. It stops at the first end of the file: the tokens behind it
are never pulled from the source, so nothing can depend on them.
-/

namespace ServiceDef.Descent

variable {target : Target} {limit bound : Nat} {view : View} {loops : Loops}

/-! ## Documents -/

/-- A document has been read. Nothing behind the end of the file has been pulled, and the reader
has found the same blocks, comments and diagnostics. -/
structure DocumentRead (target : Target) (file : String) (document : Document) (state : State) :
    Prop where
  file_eq : document.file = file
  source_eq : state.source = target.origin.unread
  result_eq : target.claimed → target.result =
    { blocks := document.blocks, pending := state.pending, diagnostics := state.diagnostics }
  closed : target.claimed → ∀ round ∈ state.rounds, round = []

/-- A round of the loop over the blocks of a document has read or skipped one, or the document has
been read. -/
def DocumentTurned (target : Target) (file : String) (limit : Nat) :
    Loop.Turn .document → State → Prop
  | .again document, state =>
    document.file = file ∧
      Tracks target ⟨document.blocks, [], none⟩ .statement [] limit state.view
  | .leave document, state => DocumentRead target file document state

theorem documentTurn_ends (handles : Handles loops bound) (le : limit ≤ bound) {file : String}
    {document : Document} (named : document.file = file)
    (here : Tracks target ⟨document.blocks, [], none⟩ .statement [] (limit + 1) view) :
    Ends (documentTurn loops document) view (DocumentTurned target file limit) := by
  refine gives_noteRound.then ?_
  refine (handles.newlines (Nat.succ_le_succ le) (fun _ _ _ => rfl) here.noted).bind ?_
  rintro _ state ⟨here, past⟩
  refine ends_look_next fun kind position comments next => ?_
  have notNewline := past _ next
  cases kind with
  | newline => exact absurd rfl notNewline
  | endOfFile =>
      have content := (next.atEnd rfl).1
      refine (ends_bump_final content).returning ?_
      rintro _ after ⟨-, source, pending, diagnostics, rounds⟩
      refine ⟨named, source.trans here.unread_eq, fun claimed => ?_, fun claimed => ?_⟩
      · rw [← here.outcome_eq claimed, View.outcome_nil content, pending, diagnostics]
        rfl
      · rw [rounds]
        exact here.closed claimed
  | identifier kind =>
      obtain ⟨rest, content⟩ := next.content_eq (by simp)
      have behind : Tracks target ⟨document.blocks, [], none⟩
          (.header (state.view.head kind ⟨.identifier kind, position, comments⟩)) [] limit _ :=
        here.take content rfl
      refine (parseBlock_ends handles le content behind (by simp)).bind fun block state read => ?_
      have added : PartRead target ⟨document.blocks, [], none⟩
          (fun document : Document => ⟨document.blocks, [], none⟩) limit
          (block.map document.withBlock) state.view := PartRead.map read
      refine (settle_ends handles.toHandlesValues (Nat.le_succ_of_le le) added).returning ?_
      intro _ state settled
      cases block with
      | none => exact ⟨named, settled⟩
      | some block => exact ⟨named, settled⟩
  | rightBrace =>
      obtain ⟨rest, content⟩ := next.content_eq (by simp)
      refine (gives_bump content).then ((gives_report _ _).then (.pure fun state same => ?_))
      rw [DocumentTurned, same]
      refine ⟨named, here.move rfl rfl rfl ?_ ?_ ?_⟩
      · simp [content, View.behind, View.reporting]
      · exact here.length_rest_lt content
      · rw [View.outcome_cons content]
        rfl
  | _ =>
      exact (skipStatement_ends handles.toHandlesValues (Nat.le_succ_of_le le) here next (by simp)
        rfl).returning fun _ _ read => ⟨named, read⟩

/-- The loop over the blocks of a document ends at the end of the file. -/
theorem run_document_ends {depth : Nat} (le : limit < depth) {file : String} {document : Document}
    (named : document.file = file)
    (here : Tracks target ⟨document.blocks, [], none⟩ .statement [] limit view) :
    Ends (Loop.run depth .document document) view (DocumentRead target file) := by
  induction depth generalizing limit view document with
  | zero => exact absurd le (by omega)
  | succ depth inductionHypothesis =>
      obtain ⟨limit, rfl⟩ := here.limit_eq_succ
      obtain _ | depth := depth
      · exact absurd le (by omega)
      · have within : limit ≤ depth := by omega
        refine ends_run (documentTurn_ends (handles_run depth) within named here) ?_ ?_
        · rintro document state ⟨named, here⟩
          exact inductionHypothesis (by omega) named here
        · exact fun _ _ turned => turned

/-! ## Agreement -/

/-- The view of a parser in front of all tokens. -/
theorem view_start (file : String) (tokens : List Token) :
    (State.start file tokens).view =
      { content := contentTokens tokens
        final := endToken file tokens
        unread := (tokens.dropWhile fun token => !token.isEnd).tail
        pending := []
        diagnostics := []
        openValues := []
        rounds := [] } := by
  simp only [State.view, State.start, endToken, List.nil_append, List.any_nil]
  cases tokens.find? Token.isEnd <;> rfl

/-- On every token list the parser by descent ends, within a depth that grows with the number of
tokens before the first end of the file. It yields what the reader yields, leaves the tokens
behind the first end of the file in the source, and has closed all brackets whenever a loop over
statements goes around. -/
theorem parseDocument_eq (file : String) (tokens : List Token) {depth : Nat}
    (enough : (contentTokens tokens).length + 2 ≤ depth) :
    ∃ state, parseDocument depth file (State.start file tokens) =
        some ((parseTokens file tokens).document, state) ∧
      state.diagnostics = (parseTokens file tokens).diagnostics ∧
      state.source = (tokens.dropWhile fun token => !token.isEnd).tail ∧
      ∀ round ∈ state.rounds, round = [] := by
  let target : Target :=
    { origin := (State.start file tokens).view
      result := (State.start file tokens).view.outcome ⟨[], [], none⟩ .statement
      claimed := True }
  have here : Tracks target ⟨[], [], none⟩ .statement [] ((contentTokens tokens).length + 1)
      (State.start file tokens).view :=
    { unread_eq := rfl
      suffix := List.suffix_refl _
      left := by simp [view_start]
      outcome_eq := fun _ => rfl
      openValues_eq := fun _ => rfl
      closed := fun _ _ member => absurd member (by simp [view_start]) }
  have within : (contentTokens tokens).length + 1 < depth := by omega
  have ends : Ends (Loop.run depth .document { file := file }) (State.start file tokens).view
      (DocumentRead target file) := run_document_ends within rfl here
  obtain ⟨document, reached, ran, read⟩ := ends _ rfl
  have parsed : parseTokens file tokens =
      { document := { document with trailingComments := reached.pending }
        diagnostics := reached.diagnostics } := by
    have result : (({} : Reader).run (contentTokens tokens)).finish (endToken file tokens) =
        { blocks := document.blocks
          pending := reached.pending
          diagnostics := reached.diagnostics } := by
      rw [← read.result_eq trivial]
      simp only [target, View.outcome, view_start]
      rfl
    simp [parseTokens, result, read.file_eq]
  refine ⟨{ reached with pending := [] }, ?_, ?_, ?_, read.closed trivial⟩
  · change Option.bind (Loop.run depth .document { file := file } (State.start file tokens)) _ = _
    rw [ran, parsed]
    rfl
  · rw [parsed]
  · rw [read.source_eq]
    simp only [target, view_start]

/-! ## The first end of the file -/

/-- With enough depth, the parser by descent finds what has been parsed and leaves `unread` in the
source. -/
def Parses (file : String) (tokens : List Token) (parsed : Parsed) (unread : List Token) : Prop :=
  ∀ depth, (contentTokens tokens).length + 2 ≤ depth →
    ∃ state, parseDocument depth file (State.start file tokens) = some (parsed.document, state) ∧
      state.diagnostics = parsed.diagnostics ∧ state.source = unread

theorem parses_parseTokens (file : String) (tokens : List Token) :
    Parses file tokens (parseTokens file tokens)
      (tokens.dropWhile fun token => !token.isEnd).tail := by
  intro depth enough
  obtain ⟨state, ran, diagnostics, source, -⟩ := parseDocument_eq file tokens enough
  exact ⟨state, ran, diagnostics, source⟩

/-- The end of the file, without comments, at the last of some tokens, or at the start of the file
if there are none. -/
def impliedEnd (file : String) (tokens : List Token) : Token where
  kind := .endOfFile
  position := (tokens.getLast?.map (·.position)).getD (.startOf file)

section FirstEnd

variable {content : List Token} (inside : ∀ token ∈ content, token.kind ≠ .endOfFile)

include inside

theorem stream_of_end {last : Token} (atEnd : last.kind = .endOfFile) (rest : List Token)
    (file : String) :
    contentTokens (content ++ [last] ++ rest) = content ∧
      endToken file (content ++ [last] ++ rest) = last ∧
      ((content ++ [last] ++ rest).dropWhile fun token => !token.isEnd).tail = rest := by
  have proper : ∀ token ∈ content, (!token.isEnd) = true := by simpa [Token.isEnd] using inside
  have found : content.find? Token.isEnd = none := by simpa [Token.isEnd] using inside
  have stops : last.isEnd = true := by simpa [Token.isEnd] using atEnd
  refine ⟨?_, ?_, ?_⟩
  · simp [contentTokens, List.takeWhile_append_of_pos proper, stops]
  · simp [endToken, found, stops]
  · simp [List.dropWhile_append_of_pos proper, stops]

theorem stream_of_no_end (file : String) :
    contentTokens content = content ∧
      endToken file content = impliedEnd file content ∧
      (content.dropWhile fun token => !token.isEnd).tail = [] := by
  have proper : ∀ token ∈ content, (!token.isEnd) = true := by simpa [Token.isEnd] using inside
  have found : content.find? Token.isEnd = none := by simpa [Token.isEnd] using inside
  refine ⟨List.takeWhile_eq_self_iff.2 proper, ?_, ?_⟩
  · simp [endToken, found, impliedEnd]
  · simp [List.dropWhile_eq_nil_iff.2 proper]

/-- The first end of the file ends the parse, whatever stands behind it: neither the reader nor the
parser by descent depends on it, and the latter has pulled none of it. A stream without an end is
read as if it had one at its last token, or at the start of the file if it is empty. -/
theorem parse_ends_at_first_end (file : String) :
    (∀ last, last.kind = .endOfFile → ∀ rest,
      parseTokens file (content ++ [last] ++ rest) = parseTokens file (content ++ [last]) ∧
        Parses file (content ++ [last] ++ rest) (parseTokens file (content ++ [last])) rest) ∧
    parseTokens file content = parseTokens file (content ++ [impliedEnd file content]) ∧
    Parses file content (parseTokens file (content ++ [impliedEnd file content])) [] := by
  constructor
  · intro last atEnd rest
    obtain ⟨tokens, final, unread⟩ := stream_of_end inside atEnd rest file
    have same : parseTokens file (content ++ [last] ++ rest) =
        parseTokens file (content ++ [last]) := by
      simp only [parseTokens, tokens, final, contentTokens_append atEnd inside,
        endToken_append file atEnd inside]
    refine ⟨same, ?_⟩
    have parses := parses_parseTokens file (content ++ [last] ++ rest)
    rwa [unread, same] at parses
  · obtain ⟨tokens, final, unread⟩ := stream_of_no_end inside file
    have atEnd : (impliedEnd file content).kind = .endOfFile := rfl
    have same : parseTokens file content =
        parseTokens file (content ++ [impliedEnd file content]) := by
      simp only [parseTokens, tokens, final, contentTokens_append atEnd inside,
        endToken_append file atEnd inside]
    refine ⟨same, ?_⟩
    have parses := parses_parseTokens file content
    rwa [unread, same] at parses

end FirstEnd

/-- A block that is open at the end of the file stays open, though a closing brace follows. -/
theorem parse_ends_at_first_end_openBlock :
    let content : List Token :=
      [⟨.identifier "service", .startOf "a.sdl", []⟩, ⟨.leftBrace, {}, []⟩]
    let last : Token := ⟨.endOfFile, {}, ["# end"]⟩
    let rest : List Token := [⟨.rightBrace, {}, []⟩, ⟨.endOfFile, {}, []⟩]
    (∀ token ∈ content, token.kind ≠ .endOfFile) ∧
      parseTokens "a.sdl" (content ++ [last] ++ rest) = parseTokens "a.sdl" (content ++ [last]) ∧
      (parseTokens "a.sdl" (content ++ [last] ++ rest)).diagnostics ≠ [] := by
  intro content last rest
  have inside : ∀ token ∈ content, token.kind ≠ .endOfFile := by decide
  have same := ((parse_ends_at_first_end inside "a.sdl").1 last rfl rest).1
  refine ⟨inside, same, ?_⟩
  decide

end ServiceDef.Descent
