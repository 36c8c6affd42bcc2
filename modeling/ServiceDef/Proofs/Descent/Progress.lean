import ServiceDef.Proofs.Descent.Agreement

/-!
# Progress

Every round of every loop leaves the loop or consumes a token in front of the first end of the
file, from whatever state it starts. The number of these tokens therefore bounds the rounds, and
with them the depth of all calls.
-/

namespace ServiceDef.Descent

/-- The kinds of the tokens that are left in front of the first end of the file. -/
def State.left (state : State) : List TokenKind :=
  (contentTokens (state.ahead ++ state.source)).map (·.kind)

/-- The parser has consumed at least one token, and no end of the file. -/
def Consumes (state after : State) : Prop :=
  ∃ consumed, consumed ≠ [] ∧ state.left = consumed ++ after.left

theorem State.length_left (state : State) : state.left.length = state.view.content.length := by
  simp [left, view]

theorem Consumes.lt {state after : State} (consumes : Consumes state after) :
    after.left.length < state.left.length := by
  obtain ⟨consumed, some, split⟩ := consumes
  have positive := List.length_pos_iff.2 some
  rw [split, List.length_append]
  omega

/-- A parser that is not compared with a reader. -/
def Target.free (origin : View) : Target where
  origin := origin
  result := {}
  claimed := False

/-- Every state is at every place, as long as no reader is compared. -/
theorem tracks_free (view : View) (frame : Frame) (mode : Mode) (brackets : List Bracket) :
    Tracks (.free view) frame mode brackets (view.content.length + 1) view where
  unread_eq := rfl
  suffix := List.suffix_refl _
  left := Nat.lt_succ_self _
  outcome_eq := False.elim
  openValues_eq := False.elim
  closed := False.elim

theorem Tracks.consumes {state after : State} {frame : Frame} {mode : Mode}
    {brackets : List Bracket}
    (here : Tracks (.free state.view) frame mode brackets state.view.content.length after.view) :
    Consumes state after := by
  obtain ⟨consumed, split⟩ := here.suffix
  refine ⟨consumed, ?_, split.symm⟩
  rintro rfl
  have same : after.view.content.length = state.view.content.length := by
    simpa [Target.free] using congrArg List.length split
  exact absurd here.left (by omega)

/-- From every state, a round of a loop ends, and it leaves the loop or consumes a token. -/
theorem turn_consumes (loop : Loop) (carrier : loop.Carrier) (state : State) {depth : Nat}
    (enough : state.left.length < depth) :
    ∃ turn after, Loop.turn (Loop.run depth) loop carrier state = some (turn, after) ∧
      ∀ next, turn = .again next → Consumes state after := by
  obtain _ | bound := depth
  · exact absurd enough (by omega)
  have le : state.view.content.length ≤ bound := by
    rw [State.length_left] at enough
    omega
  have handles := handles_run bound
  have values := handles.toHandlesValues
  suffices ends : Ends (Loop.turn (Loop.run (bound + 1)) loop carrier) state.view
      fun turn after => ∀ next, turn = .again next → Consumes state after from ends state rfl
  have free := tracks_free state.view
  let head : Head := ⟨"", [], {}⟩
  let top : Frame := ⟨[], [], none⟩
  cases loop with
  | document =>
      refine (documentTurn_ends handles le rfl (free ⟨carrier.blocks, [], none⟩ _ _)).mono ?_
      rintro _ after turned next rfl
      exact turned.2.consumes
  | block =>
      refine (blockTurn_ends handles le (free ⟨[], [carrier], none⟩ _ _)).mono ?_
      rintro _ after turned next rfl
      exact Tracks.consumes turned
  | group opened =>
      refine (groupTurn_ends handles le (free ⟨[], [carrier], some opened⟩ _ _)).mono ?_
      rintro _ after turned next rfl
      exact Tracks.consumes turned
  | list =>
      refine (listTurn_ends values le (free top (.value head (.item carrier [])) _)).mono ?_
      rintro _ after turned next rfl
      exact Tracks.consumes turned
  | map =>
      refine (mapTurn_ends values le (free top (.value head (.key carrier [])) _)).mono ?_
      rintro _ after turned next rfl
      exact Tracks.consumes turned
  | newlines =>
      refine (newlinesTurn_ends (fun _ _ _ => rfl) (free top .statement [])).mono ?_
      rintro _ after turned next rfl
      exact Tracks.consumes turned
  | separators =>
      refine (separatorsTurn_ends (free top (.value head (.key [] [])) [])).mono ?_
      rintro _ after turned next rfl
      exact Tracks.consumes turned
  | recovery =>
      refine (recoveryTurn_ends (free top (.skipping carrier) [])).mono ?_
      rintro _ after turned next rfl
      exact Tracks.consumes turned

/-- From every state, every loop ends, by the number of tokens that are left. -/
theorem run_ends (loop : Loop) (carrier : loop.Carrier) (state : State) {depth : Nat}
    (enough : state.left.length + 1 < depth) :
    ∃ result after, Loop.run depth loop carrier state = some (result, after) := by
  induction depth generalizing carrier state with
  | zero => exact absurd enough (by omega)
  | succ depth inductionHypothesis =>
      obtain ⟨turn, after, ran, consumes⟩ := turn_consumes loop carrier state
        (Nat.lt_of_succ_lt_succ enough)
      have round : Loop.run (depth + 1) loop carrier state =
          Option.bind (Loop.turn (Loop.run depth) loop carrier state) _ := rfl
      rw [round, ran]
      cases turn with
      | again next =>
          have less := (consumes next rfl).lt
          exact inductionHypothesis next after (by omega)
      | leave result => exact ⟨result, after, rfl⟩

/-- However malformed the tokens are, the parser makes progress. From every state, every round of
every loop ends, and it leaves the loop or consumes a token that is no end of the file; so every
loop ends, within a depth of calls that grows with the number of tokens before the first end of
the file. A parse of any tokens ends with the result of the reader, and no bracket of a value is
open whenever it starts a round of the loops over a document, a block or a group. -/
theorem parser_makes_progress :
    (∀ (loop : Loop) (carrier : loop.Carrier) (state : State) (depth : Nat),
      state.left.length < depth →
      ∃ turn after, Loop.turn (Loop.run depth) loop carrier state = some (turn, after) ∧
        ∀ next, turn = .again next → Consumes state after) ∧
    (∀ (loop : Loop) (carrier : loop.Carrier) (state : State) (depth : Nat),
      state.left.length + 1 < depth →
      ∃ result after, Loop.run depth loop carrier state = some (result, after)) ∧
    ∀ (file : String) (tokens : List Token) (depth : Nat),
      (contentTokens tokens).length + 1 < depth →
      ∃ state, parseDocument depth file (State.start file tokens) =
          some ((parseTokens file tokens).document, state) ∧
        state.diagnostics = (parseTokens file tokens).diagnostics ∧
        ∀ round ∈ state.rounds, round = [] := by
  refine ⟨fun loop carrier state depth => turn_consumes loop carrier state,
    fun loop carrier state depth => run_ends loop carrier state, ?_⟩
  intro file tokens depth enough
  obtain ⟨state, ran, diagnostics, -, closed⟩ := parseDocument_eq file tokens enough
  exact ⟨state, ran, diagnostics, closed⟩

/-- A list that is never closed ends in front of the brace of its block, where no bracket is open:
the rounds are one of the document, two of the block and another one of the document. -/
theorem parser_makes_progress_unclosedList :
    let tokens : List Token :=
      [.bare (.identifier "a"), .bare .leftBrace, .bare (.identifier "b"), .bare .equals,
        .bare .leftBracket, .bare .rightBrace]
    let start := State.start "a.sdl" tokens
    (contentTokens tokens).length + 1 < 8 ∧
      (∃ turn after, Loop.turn (Loop.run 8) .document { file := "a.sdl" } start =
          some (turn, after) ∧
        ∀ next, turn = .again next → Consumes start after) ∧
      ∃ state, parseDocument 8 "a.sdl" start =
          some ((parseTokens "a.sdl" tokens).document, state) ∧
        state.diagnostics = (parseTokens "a.sdl" tokens).diagnostics ∧
        state.rounds.length = 4 ∧ ∀ round ∈ state.rounds, round = [] := by
  intro tokens start
  have enough : (contentTokens tokens).length + 1 < 8 := by decide
  have rounds : (parseDocument 8 "a.sdl" start).map (·.2.rounds.length) = some 4 := by
    decide +kernel
  obtain ⟨turns, -, parses⟩ := parser_makes_progress
  obtain ⟨state, ran, diagnostics, closed⟩ := parses "a.sdl" tokens 8 enough
  refine ⟨enough, turns .document _ start 8 (by decide), state, ran, diagnostics, ?_, closed⟩
  simpa [start, ran] using rounds

end ServiceDef.Descent
