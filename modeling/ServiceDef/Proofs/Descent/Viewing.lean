import Mathlib.Data.List.TakeWhile
import ServiceDef.Proofs.Descent.Buffer

/-!
# What a parser sees

How many tokens wait in the buffer of a parser and how many in its source is of no consequence.
The `View` of a parser forgets it: what is left are the tokens in front of the first end of the
file, that end, and what the parser has gathered. The operations of the parser are described by
what they do to views, and a run of them by `Ends`: it has an outcome, and the outcome satisfies
a condition.

A look ahead leaves the view as it is, as long as it reaches no further than to the first end of
the file. The view therefore also holds the tokens of the source behind it: a parser that keeps
them has never pulled one of them.
-/

namespace ServiceDef.Descent

/-- A parser without its buffer. -/
structure View where
  /-- The tokens that are left in front of the first end of the file. -/
  content : List Token
  /-- The first end of the file. -/
  final : Token
  /-- The tokens of the source behind the first end of the file. -/
  unread : List Token
  pending : List String
  diagnostics : List Diagnostic
  openValues : List Bracket
  rounds : List (List Bracket)
deriving DecidableEq, Repr

/-- The end of the file behind all tokens of the source. -/
def State.lastEnd (state : State) : Token where
  kind := .endOfFile
  position := state.ended.getD ((state.source.getLast?.map (·.position)).getD state.lastPosition)

/-- The view of a parser. -/
def State.view (state : State) : View where
  content := contentTokens (state.ahead ++ state.source)
  final := ((state.ahead ++ state.source).find? Token.isEnd).getD state.lastEnd
  unread :=
    if state.ahead.any Token.isEnd then state.source
    else (state.source.dropWhile fun token => !token.isEnd).tail
  pending := state.pending
  diagnostics := state.diagnostics
  openValues := state.openValues
  rounds := state.rounds

/-! ## Pulling tokens -/

/-- Behind the tokens before the first end of the file comes that end. -/
theorem getElem?_stream (tokens : List Token) {index : Nat} (inside : index < tokens.length)
    (within : index ≤ (contentTokens tokens).length) (last : Token) :
    tokens[index]? = some ((contentTokens tokens).getD index
      ((tokens.find? Token.isEnd).getD last)) := by
  induction tokens generalizing index with
  | nil => simp at inside
  | cons token tokens inductionHypothesis =>
      cases atEnd : token.isEnd with
      | true =>
          have first : index = 0 := by simpa [contentTokens, atEnd] using within
          simp [contentTokens, atEnd, first]
      | false =>
          cases index with
          | zero => simp [contentTokens, atEnd]
          | succ index =>
              have rest := @inductionHypothesis index (by simpa using inside)
                (by simpa [contentTokens, atEnd] using within)
              simpa [contentTokens, atEnd] using rest

namespace State

variable (state : State)

theorem length_ahead_pull : state.pull.ahead.length = state.ahead.length + 1 := by
  unfold pull
  split <;> simp

/-- A buffer that reaches no further than the tokens before the first end of the file holds no
end of the file. -/
theorem no_end_ahead (within : state.ahead.length ≤ state.view.content.length) :
    ∀ token ∈ state.ahead, token.isEnd = false := by
  intro token member
  cases atEnd : token.isEnd with
  | false => rfl
  | true =>
      obtain ⟨before, after, split⟩ := List.append_of_mem member
      have short : state.view.content.length ≤ before.length := by
        simp only [view, contentTokens, split, List.append_assoc, List.cons_append]
        rw [List.takeWhile_append]
        split
        · simp [atEnd]
        · exact (List.takeWhile_sublist _).length_le
      simp only [split, List.length_append, List.length_cons] at within
      omega

/-- Pulling a token leaves the view as it is, unless an end of the file has been pulled
already. -/
theorem view_pull (none : ∀ token ∈ state.ahead, token.isEnd = false) :
    state.pull.view = state.view := by
  have noneAny : state.ahead.any Token.isEnd = false := by simpa using none
  have noneFound : state.ahead.find? Token.isEnd = Option.none := by simpa using none
  have noneStops : ∀ token ∈ state.ahead, (!token.isEnd) = true := by simpa using none
  unfold pull
  split
  next source =>
    have atEnd : state.madeUpEnd.isEnd = true := rfl
    have same : state.lastEnd = state.madeUpEnd := by simp [lastEnd, madeUpEnd, source]
    simp [view, source, noneAny, noneFound, contentTokens, List.takeWhile_append_of_pos noneStops,
      List.takeWhile_eq_self_iff.2 noneStops, atEnd, same]
  next token source split =>
    cases atEnd : token.isEnd with
    | true => simp [view, split, noneAny, atEnd, lastEnd, List.find?_append, noneFound]
    | false =>
        simp [view, split, noneAny, atEnd, lastEnd, List.getLast?_cons]

theorem view_pulls (count : Nat)
    (within : state.ahead.length + count ≤ state.view.content.length + 1) :
    (state.pulls count).view = state.view := by
  induction count generalizing state with
  | zero => rfl
  | succ count inductionHypothesis =>
      have same := state.view_pull (state.no_end_ahead (by omega))
      have rest := inductionHypothesis state.pull (by rw [same, length_ahead_pull]; omega)
      simpa [pulls, same] using rest

theorem length_ahead_pulls (count : Nat) :
    (state.pulls count).ahead.length = state.ahead.length + count := by
  induction count generalizing state with
  | zero => rfl
  | succ count inductionHypothesis =>
      rw [pulls, inductionHypothesis, length_ahead_pull]
      omega

/-- Looking no further than at the first end of the file leaves the view as it is. -/
theorem view_lookingAt {index : Nat} (within : index ≤ state.view.content.length) :
    (state.lookingAt index).view = state.view := by
  by_cases known : index < state.ahead.length
  · simp [lookingAt, Nat.sub_eq_zero_of_le (Nat.succ_le_of_lt known), pulls]
  · exact state.view_pulls _ (by omega)

theorem lt_length_ahead_lookingAt (index : Nat) :
    index < (state.lookingAt index).ahead.length := by
  rw [lookingAt, length_ahead_pulls]
  omega

/-- A look no further than at the first end of the file finds a token before it or that end. -/
theorem getElem?_ahead_lookingAt {index : Nat} (within : index ≤ state.view.content.length) :
    (state.lookingAt index).ahead[index]? =
      some (state.view.content.getD index state.view.final) := by
  have inside := state.lt_length_ahead_lookingAt index
  have same := state.view_lookingAt within
  have found := @getElem?_stream
    ((state.lookingAt index).ahead ++ (state.lookingAt index).source) index
    (by simp; omega) (by rw [← same] at within; exact within) (state.lookingAt index).lastEnd
  rw [List.getElem?_append_left inside] at found
  rw [found, ← same]
  rfl

end State

/-! ## Runs that end -/

/-- A run ends in all states with the view, and its outcome and the state behind it satisfy the
condition. -/
def Ends {α : Type} (run : Run α) (view : View) (condition : α → State → Prop) : Prop :=
  ∀ state : State, state.view = view →
    ∃ outcome after, run state = some (outcome, after) ∧ condition outcome after

/-- A run ends in all states with the view, with the same outcome and the same view. -/
def Gives {α : Type} (run : Run α) (view : View) (outcome : α) (after : View) : Prop :=
  Ends run view fun found state => found = outcome ∧ state.view = after

section Rules

variable {α β : Type} {view after : View} {run : Run α} {next : α → Run β}
  {condition : β → State → Prop}

theorem Ends.pure {outcome : β} (holds : ∀ state : State, state.view = view →
    condition outcome state) : Ends (Pure.pure outcome) view condition :=
  fun state same => ⟨outcome, state, rfl, holds state same⟩

theorem Ends.bind {middle : α → State → Prop} (first : Ends run view middle)
    (second : ∀ outcome state, middle outcome state →
      Ends (next outcome) state.view condition) :
    Ends (run >>= next) view condition := by
  intro state same
  obtain ⟨outcome, reached, ran, holds⟩ := first state same
  obtain ⟨result, after, ranNext, holdsNext⟩ := second outcome reached holds reached rfl
  refine ⟨result, after, ?_, holdsNext⟩
  rw [← ranNext]
  exact congrArg (Option.bind · _) ran

/-- A run whose outcome is returned in another form. -/
theorem Ends.returning {middle : α → State → Prop} {form : α → β} (ends : Ends run view middle)
    (holds : ∀ outcome state, middle outcome state → condition (form outcome) state) :
    Ends (run >>= fun outcome => Pure.pure (form outcome)) view condition := by
  intro state same
  obtain ⟨outcome, after, ran, found⟩ := ends state same
  exact ⟨form outcome, after, congrArg (Option.bind · _) ran, holds outcome after found⟩

theorem Ends.mono {weaker : β → State → Prop} {run : Run β} (ends : Ends run view condition)
    (weaken : ∀ outcome state, condition outcome state → weaker outcome state) :
    Ends run view weaker := by
  intro state same
  obtain ⟨outcome, after, ran, holds⟩ := ends state same
  exact ⟨outcome, after, ran, weaken outcome after holds⟩

theorem Gives.ends {run : Run β} {outcome : β} (given : Gives run view outcome after)
    (holds : ∀ state : State, state.view = after → condition outcome state) :
    Ends run view condition := by
  refine given.mono ?_
  rintro _ state ⟨rfl, same⟩
  exact holds state same

theorem Gives.then {outcome : α} (given : Gives run view outcome after)
    (second : Ends (next outcome) after condition) : Ends (run >>= next) view condition := by
  refine given.bind ?_
  rintro _ state ⟨rfl, rfl⟩
  exact second

end Rules

namespace View

variable (view : View)

/-- The next token of a view is the first of its tokens, or the end of the file. -/
inductive Next : Token → Prop
  | inside {token : Token} {rest : List Token} (content : view.content = token :: rest)
      (proper : token.kind ≠ .endOfFile) : Next token
  | final (content : view.content = []) (proper : view.final.kind = .endOfFile) :
      Next view.final

variable {view}

theorem Next.content_eq {token : Token} (next : view.Next token)
    (proper : token.kind ≠ .endOfFile) : ∃ rest, view.content = token :: rest := by
  cases next with
  | inside content => exact ⟨_, content⟩
  | final _ atEnd => exact absurd atEnd proper

theorem Next.atEnd {token : Token} (next : view.Next token) (atEnd : token.kind = .endOfFile) :
    view.content = [] ∧ view.final = token := by
  cases next with
  | inside _ proper => exact absurd atEnd proper
  | final content => exact ⟨content, rfl⟩

theorem Next.headD {token : Token} (next : view.Next token) :
    view.content.headD view.final = token := by
  cases next with
  | inside content => simp [content]
  | final content => simp [content]

/-- The next token depends on nothing else but the tokens and the end. -/
theorem Next.congr {token : Token} {other : View} (next : view.Next token)
    (content : other.content = view.content) (final : other.final = view.final) :
    other.Next token := by
  cases next with
  | inside split proper => exact .inside (content.trans split) proper
  | final split proper =>
      rw [← final] at proper ⊢
      exact .final (content.trans split) proper

theorem Next.unique {token other : Token} (next : view.Next token) (again : view.Next other) :
    token = other :=
  next.headD.symm.trans again.headD

variable (view)

/-- The view behind its first token. -/
def behind (token : Token) (rest : List Token) : View :=
  { view with content := rest, pending := view.pending ++ token.comments }

/-- The view without waiting comments. -/
def released : View :=
  { view with pending := [] }

/-- The view after a fault has been reported. -/
def reporting (fault : ReadFault) (position : Position) : View :=
  { view with diagnostics := view.diagnostics ++ [Diagnostic.malformed fault.message position] }

/-- The view after a token has been found in the place of something else. -/
def missing (expectation : Expectation) (token : Token) : View :=
  match token.kind with
  | .invalid _ => view
  | kind => view.reporting (.unexpected expectation kind) token.position

/-- The view with other open brackets. -/
def bracketed (brackets : List Bracket) : View :=
  { view with openValues := brackets }

/-- The view at the start of a round of a loop over statements. -/
def noted : View :=
  { view with rounds := view.rounds ++ [view.openValues] }

end View

theorem State.isEnd_of_mem_content (state : State) {token : Token}
    (member : token ∈ state.view.content) : token.isEnd = false := by
  simpa using List.mem_takeWhile_imp member

/-- In all states the tokens before the end of the file are no ends, and the end is one. -/
theorem State.next_view (state : State) {front rest : List Token}
    (content : state.view.content = front ++ rest) :
    View.Next { state.view with content := rest } (rest.headD state.view.final) := by
  cases rest with
  | nil =>
      refine .final rfl ?_
      cases found : (state.ahead ++ state.source).find? Token.isEnd with
      | none => simp [view, found, lastEnd]
      | some token => simpa [view, found, Token.isEnd] using List.find?_some found
  | cons token rest =>
      refine .inside rfl ?_
      have proper : token.isEnd = false := state.isEnd_of_mem_content (by simp [content])
      simpa [Token.isEnd] using proper

/-! ## Operations -/

section Operations

variable {view : View} {α : Type} {next : Token → Run α} {condition : α → State → Prop}

/-- A look at the token behind some others, when the first end of the file is not among them. -/
theorem ends_look {front rest : List Token} (content : view.content = front ++ rest)
    (second : ∀ kind position comments,
      View.Next { view with content := rest } ⟨kind, position, comments⟩ →
        Ends (next ⟨kind, position, comments⟩) view condition) :
    Ends (look front.length >>= next) view condition := by
  rintro state rfl
  have within : front.length ≤ state.view.content.length := by simp [content]
  have given : Gives (look front.length) state.view (rest.headD state.view.final) state.view := by
    rintro other same
    rw [← same] at content within ⊢
    refine ⟨_, other.lookingAt front.length, rfl, ?_, other.view_lookingAt within⟩
    rw [List.getD_eq_getElem?_getD, other.getElem?_ahead_lookingAt within, content]
    cases rest <;> simp
  exact given.then (second _ _ _ (state.next_view content)) state rfl

/-- A look at the next token. -/
theorem ends_look_next
    (second : ∀ kind position comments, view.Next ⟨kind, position, comments⟩ →
      Ends (next ⟨kind, position, comments⟩) view condition) :
    Ends (look 0 >>= next) view condition :=
  ends_look (List.nil_append _).symm second

/-- The state with the next token in its buffer. -/
theorem State.ahead_lookingAt_zero (state : State) :
    ∃ more, (state.lookingAt 0).ahead = state.view.content.headD state.view.final :: more := by
  have found := state.getElem?_ahead_lookingAt (Nat.zero_le state.view.content.length)
  cases ahead : (state.lookingAt 0).ahead with
  | nil => simp [ahead] at found
  | cons token more =>
      rw [ahead, List.getElem?_cons_zero, Option.some.injEq, List.getD_eq_getElem?_getD,
        ← List.head?_eq_getElem?, ← List.headD_eq_head?_getD] at found
      exact ⟨more, by rw [found]⟩

theorem gives_bump {token : Token} {rest : List Token} (content : view.content = token :: rest) :
    Gives bump view token (view.behind token rest) := by
  rintro state rfl
  obtain ⟨more, ahead⟩ := state.ahead_lookingAt_zero
  rw [content, List.headD_cons] at ahead
  have same := state.view_lookingAt (Nat.zero_le _)
  have proper : token.isEnd = false := state.isEnd_of_mem_content (by simp [content])
  refine ⟨_, _, rfl, by simp [ahead], ?_⟩
  rw [← same] at content ⊢
  simp only [State.view, contentTokens, ahead, View.behind] at content ⊢
  simp_all [State.lastEnd]

/-- The next token at the end of the file is the end. Nothing behind it has been pulled. -/
theorem ends_bump_final (content : view.content = []) :
    Ends bump view fun token after =>
      token = view.final ∧ after.source = view.unread ∧
        after.pending = view.pending ++ view.final.comments ∧
        after.diagnostics = view.diagnostics ∧ after.rounds = view.rounds := by
  rintro state rfl
  obtain ⟨more, ahead⟩ := state.ahead_lookingAt_zero
  rw [content, List.headD_nil] at ahead
  have same := state.view_lookingAt (Nat.zero_le _)
  have atEnd : state.view.final.isEnd = true := by
    have next := state.next_view (List.nil_append _).symm
    rw [content, List.headD_nil] at next
    cases next with
    | inside impossible => simp at impossible
    | final _ proper => simpa [Token.isEnd] using proper
  have held : (state.lookingAt 0).ahead.any Token.isEnd = true := by simp [ahead, atEnd]
  have unread : (state.lookingAt 0).view.unread = (state.lookingAt 0).source := if_pos held
  have pending : (state.lookingAt 0).pending = state.view.pending := congrArg View.pending same
  have diagnostics : (state.lookingAt 0).diagnostics = state.view.diagnostics :=
    congrArg View.diagnostics same
  have rounds : (state.lookingAt 0).rounds = state.view.rounds := congrArg View.rounds same
  rw [same] at unread
  refine ⟨_, _, rfl, by simp [ahead], unread.symm, ?_, diagnostics, rounds⟩
  simp [ahead, pending]

/-! ### Comments -/

theorem gives_takeComments : Gives takeComments view view.pending view.released := by
  rintro state rfl
  exact ⟨_, _, rfl, rfl, rfl⟩

/-- A comment in front of the end of a line belongs to the line. -/
theorem gives_takeTrailing_some {position : Position} {comment : String} {comments : List String}
    {rest : List Token}
    (content : view.content = ⟨.newline, position, comment :: comments⟩ :: rest) :
    Gives takeTrailing view (some comment)
      { view with
        content := ⟨.newline, position, []⟩ :: rest
        pending := view.pending ++ comments } := by
  rintro state rfl
  obtain ⟨more, ahead⟩ := state.ahead_lookingAt_zero
  rw [content, List.headD_cons] at ahead
  have same := state.view_lookingAt (Nat.zero_le _)
  refine ⟨some comment, _, by simp only [takeTrailing, ahead]; rfl, rfl, ?_⟩
  rw [← same] at content ⊢
  simp only [State.view, contentTokens, ahead] at content ⊢
  simp_all [State.lastEnd, Token.isEnd]

/-- Without a comment in front of the end of a line there is nothing to take. -/
theorem gives_takeTrailing_none
    (others : ∀ position comment comments rest,
      view.content ≠ ⟨.newline, position, comment :: comments⟩ :: rest) :
    Gives takeTrailing view none view := by
  rintro state rfl
  obtain ⟨more, ahead⟩ := state.ahead_lookingAt_zero
  have same := state.view_lookingAt (Nat.zero_le _)
  refine ⟨none, state.lookingAt 0, ?_, rfl, same⟩
  simp only [takeTrailing]
  split
  next position comment comments found line =>
    have head : state.view.content.headD state.view.final =
        ⟨.newline, position, comment :: comments⟩ := by
      rw [ahead] at line
      exact (List.cons.inj line).1
    have next := state.next_view (List.nil_append _).symm
    rw [head] at next
    obtain ⟨rest, content⟩ := next.content_eq (by simp)
    exact absurd content (others position comment comments rest)
  next => rfl

/-! ### Faults and brackets -/

theorem gives_report (fault : ReadFault) (position : Position) :
    Gives (report fault position) view () (view.reporting fault position) := by
  rintro state rfl
  exact ⟨_, _, rfl, rfl, rfl⟩

theorem gives_expected (expectation : Expectation) {token : Token} (found : view.Next token) :
    Gives (expected expectation) view () (view.missing expectation token) := by
  refine ends_look_next fun kind position comments next => ?_
  have same : (⟨kind, position, comments⟩ : Token) = token := next.unique found
  rw [← same]
  cases kind with
  | invalid text => exact .pure fun state same => ⟨rfl, same⟩
  | _ => exact gives_report _ _

theorem gives_openValue (bracket : Bracket) :
    Gives (openValue bracket) view () (view.bracketed (bracket :: view.openValues)) := by
  rintro state rfl
  exact ⟨_, _, rfl, rfl, rfl⟩

theorem gives_closeValue : Gives closeValue view () (view.bracketed view.openValues.tail) := by
  rintro state rfl
  exact ⟨_, _, rfl, rfl, rfl⟩

theorem gives_takeOpenValues :
    Gives takeOpenValues view view.openValues (view.bracketed []) := by
  rintro state rfl
  exact ⟨_, _, rfl, rfl, rfl⟩

theorem gives_noteRound : Gives noteRound view () view.noted := by
  rintro state rfl
  exact ⟨_, _, rfl, rfl, rfl⟩

end Operations

end ServiceDef.Descent
