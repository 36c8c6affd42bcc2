import ServiceDef.Proofs.Descent.Productions
import ServiceDef.Proofs.Descent.Viewing
import ServiceDef.Proofs.Reader.Operations

/-!
# Descent and reader side by side

A reader keeps in its mode what the parser by descent keeps in its calls. While the parser is at
some place of a production, a reader with the same comments and diagnostics is in the mode for that
place, and reads the rest of the file with the same result. `Tracks` says so, together with how far
the parser has come.

The parser may be started in any state, also in one that no reader has a mode for. What is said
about the reader is therefore only claimed on demand.
-/

namespace ServiceDef

/-- The block before its closing brace, which has no comments in front of the brace yet. -/
def Block.opened (block : Block) : Block :=
  { block with trailingComments := [] }

namespace Reader

variable (reader : Reader)

/-- Closing a group or block does not depend on the mode. -/
theorem close_enter (mode : Mode) (token : Token) :
    (reader.enter mode).close token = reader.close token := by
  cases group : reader.group with
  | some position =>
      rw [reader.close_of_group token group, (reader.enter mode).close_of_group token group]
      rfl
  | none =>
      cases inside : reader.openBlocks with
      | nil =>
          rw [reader.close_of_top token group inside,
            (reader.enter mode).close_of_top token group inside]
          rfl
      | cons block outer =>
          rw [reader.close_of_block token group inside,
            (reader.enter mode).close_of_block token group inside]
          cases outer <;> rfl

/-- Skipping does not depend on the mode. -/
theorem stepSkipping_enter (mode : Mode) (brackets : List Bracket) (token : Token) :
    (reader.enter mode).stepSkipping brackets token = reader.stepSkipping brackets token := by
  obtain ⟨kind, position, comments⟩ := token
  cases kind with
  | rightBrace => simp only [stepSkipping, stepStatement, close_enter]; rfl
  | _ => rfl

/-- The end of a statement does not depend on the mode. -/
theorem stepStatementEnd_enter (mode : Mode) (token : Token) :
    (reader.enter mode).stepStatementEnd token = reader.stepStatementEnd token := by
  have fails (expectation : Expectation) (brackets : List Bracket) :
      (reader.enter mode).fail expectation brackets token =
        reader.fail expectation brackets token := by
    rw [fail, fail, ← (reader.expected expectation token).stepSkipping_enter mode]
    unfold expected
    split <;> rfl
  obtain ⟨kind, position, comments⟩ := token
  cases kind with
  | newline => rfl
  | rightBrace => exact reader.close_enter mode _
  | _ => exact fails .lineEnd []

/-- Where something is missing at the end of the file, it is reported. -/
theorem finishStatement_of_missing {expectation : Expectation}
    (missing : missing reader.mode = some expectation) (token : Token) :
    reader.finishStatement token = (reader.expected expectation token).enter .statement := by
  obtain ⟨found, expected⟩ := reader.expected_eq expectation token
  unfold finishStatement
  simp only [missing, expected]
  split
  next complete => simp [Reader.missing, complete] at missing
  next complete => simp [Reader.missing, complete] at missing
  next => rfl

end Reader

namespace Descent

/-- What a reader keeps between two statements, besides comments and diagnostics. -/
structure Frame where
  blocks : List Block
  openBlocks : List Block
  group : Option Position

namespace View

variable (view : View)

/-- The reader that has gathered what the parser has gathered. -/
def reader (frame : Frame) (mode : Mode) : Reader where
  blocks := frame.blocks
  openBlocks := frame.openBlocks.map Block.opened
  group := frame.group
  mode := mode
  pending := view.pending
  diagnostics := view.diagnostics

/-- The reader at the end of the file. -/
def outcome (frame : Frame) (mode : Mode) : Reader :=
  ((view.reader frame mode).run view.content).finish view.final

variable {view}

theorem outcome_cons {token : Token} {rest : List Token} (content : view.content = token :: rest)
    (frame : Frame) (mode : Mode) :
    view.outcome frame mode =
      (((view.reader frame mode).step token).run rest).finish view.final := by
  rw [outcome, content, Reader.run_cons]

theorem outcome_nil (content : view.content = []) (frame : Frame) (mode : Mode) :
    view.outcome frame mode = (view.reader frame mode).finish view.final := by
  rw [outcome, content, Reader.run_nil]

variable (view)

theorem reader_missing (frame : Frame) (mode : Mode) (expectation : Expectation) (token : Token) :
    (view.missing expectation token).reader frame mode =
      (view.reader frame mode).expected expectation token := by
  obtain ⟨kind, position, comments⟩ := token
  cases kind <;> rfl

@[simp] theorem content_missing (expectation : Expectation) (token : Token) :
    (view.missing expectation token).content = view.content := by
  unfold missing
  split <;> rfl

@[simp] theorem final_missing (expectation : Expectation) (token : Token) :
    (view.missing expectation token).final = view.final := by
  unfold missing
  split <;> rfl

@[simp] theorem unread_missing (expectation : Expectation) (token : Token) :
    (view.missing expectation token).unread = view.unread := by
  unfold missing
  split <;> rfl

@[simp] theorem openValues_missing (expectation : Expectation) (token : Token) :
    (view.missing expectation token).openValues = view.openValues := by
  unfold missing
  split <;> rfl

@[simp] theorem rounds_missing (expectation : Expectation) (token : Token) :
    (view.missing expectation token).rounds = view.rounds := by
  unfold missing
  split <;> rfl

end View

/-- Where a parser comes from, and what a reader from there ends with, if that is claimed. -/
structure Target where
  origin : View
  result : Reader
  claimed : Prop

/-- The parser has come from its origin to a view with less than `limit` tokens. A reader in the
given mode ends with the same result from there, and the given brackets are open. -/
structure Tracks (target : Target) (frame : Frame) (mode : Mode) (brackets : List Bracket)
    (limit : Nat) (view : View) : Prop where
  unread_eq : view.unread = target.origin.unread
  suffix : view.content.map (·.kind) <:+ target.origin.content.map (·.kind)
  left : view.content.length < limit
  outcome_eq : target.claimed → view.outcome frame mode = target.result
  openValues_eq : target.claimed → view.openValues = brackets
  closed : target.claimed → ∀ round ∈ view.rounds, round = []

/-- The parser has given up inside of a statement. -/
def GivenUp (target : Target) (frame : Frame) (limit : Nat) (view : View) : Prop :=
  ∃ brackets, Tracks target frame (.skipping brackets) brackets limit view

theorem GivenUp.weaken {target : Target} {frame : Frame} {limit larger : Nat} {view : View}
    (given : GivenUp target frame limit view) (le : limit ≤ larger) :
    GivenUp target frame larger view :=
  given.imp fun _ here => { here with left := Nat.lt_of_lt_of_le here.left le }

namespace Tracks

variable {target : Target} {frame after : Frame} {mode other : Mode} {brackets : List Bracket}
  {limit larger : Nat} {view reached : View} {token : Token} {rest : List Token}

theorem weaken (here : Tracks target frame mode brackets limit view) (le : limit ≤ larger) :
    Tracks target frame mode brackets larger view :=
  { here with left := Nat.lt_of_lt_of_le here.left le }

/-- There is always room for the tokens that are left. -/
theorem limit_eq_succ (here : Tracks target frame mode brackets limit view) :
    ∃ less, limit = less + 1 :=
  Nat.exists_eq_add_one.2 (Nat.zero_lt_of_lt here.left)

theorem length_rest_lt (here : Tracks target frame mode brackets (limit + 1) view)
    (content : view.content = token :: rest) : rest.length < limit := by
  have left := here.left
  rw [content] at left
  exact Nat.lt_of_succ_lt_succ left

/-- The same place, seen in another way. -/
theorem move (here : Tracks target frame mode brackets limit view)
    (unread : reached.unread = view.unread) (rounds : reached.rounds = view.rounds)
    (openValues : reached.openValues = view.openValues)
    (suffix : reached.content.map (·.kind) <:+ view.content.map (·.kind))
    (left : reached.content.length < larger)
    (outcome : reached.outcome after other = view.outcome frame mode) :
    Tracks target after other brackets larger reached where
  unread_eq := unread.trans here.unread_eq
  suffix := suffix.trans here.suffix
  left := left
  outcome_eq := fun claimed => outcome.trans (here.outcome_eq claimed)
  openValues_eq := fun claimed => openValues.trans (here.openValues_eq claimed)
  closed := fun claimed => rounds ▸ here.closed claimed

/-- The mode can be replaced where it makes no difference. -/
theorem enter (here : Tracks target frame mode brackets limit view)
    (outcome : view.outcome after other = view.outcome frame mode) :
    Tracks target after other brackets limit view :=
  here.move rfl rfl rfl (List.suffix_refl _) here.left outcome

/-- Consuming a token is a step of the reader. -/
theorem bump (here : Tracks target frame mode brackets (limit + 1) view)
    (content : view.content = token :: rest)
    (step : (view.reader frame mode).step token = (view.behind token rest).reader after other) :
    Tracks target after other brackets limit (view.behind token rest) := by
  refine here.move rfl rfl rfl ?_ ?_ ?_
  · simp [content, View.behind]
  · exact here.length_rest_lt content
  · rw [View.outcome_cons content, step]
    rfl

/-- Consuming a token, when it does not matter that one less is left. -/
theorem pass (here : Tracks target frame mode brackets limit view)
    (content : view.content = token :: rest)
    (step : (view.reader frame mode).step token = (view.behind token rest).reader after other) :
    Tracks target after other brackets limit (view.behind token rest) :=
  (here.weaken (Nat.le_succ _)).bump content step

/-- The mode can be replaced by one that treats the next token alike. -/
theorem switch (here : Tracks target frame mode brackets limit view) (next : view.Next token)
    (proper : token.kind ≠ .endOfFile)
    (step : (view.reader frame other).step token = (view.reader frame mode).step token) :
    Tracks target frame other brackets limit view := by
  obtain ⟨rest, content⟩ := next.content_eq proper
  exact here.enter (by rw [View.outcome_cons content, View.outcome_cons content, step])

/-- Consuming a token and taking all comments is a step of the reader that releases them. -/
theorem take (here : Tracks target frame mode brackets (limit + 1) view)
    (content : view.content = token :: rest)
    (step : (view.reader frame mode).step token =
      (view.behind token rest).released.reader after other) :
    Tracks target after other brackets limit (view.behind token rest).released := by
  refine here.move rfl rfl rfl ?_ ?_ ?_
  · simp [content, View.behind, View.released]
  · exact here.length_rest_lt content
  · rw [View.outcome_cons content, step]
    rfl

theorem openValue (here : Tracks target frame mode brackets limit view) (bracket : Bracket) :
    Tracks target frame mode (bracket :: brackets) limit
      (view.bracketed (bracket :: view.openValues)) :=
  { here with
    openValues_eq := fun claimed => congrArg (bracket :: ·) (here.openValues_eq claimed) }

theorem closeValue {bracket : Bracket}
    (here : Tracks target frame mode (bracket :: brackets) limit view) :
    Tracks target frame mode brackets limit (view.bracketed view.openValues.tail) :=
  { here with
    openValues_eq := fun claimed => congrArg List.tail (here.openValues_eq claimed) }

/-- A wrong token is reported, and the statement is given up in front of it. -/
theorem missing (here : Tracks target frame mode brackets limit view) (next : view.Next token)
    {expectation : Expectation}
    (expects : token.kind = .endOfFile → Reader.missing mode = some expectation)
    (stuck : (view.reader frame mode).step token =
      (view.reader frame mode).fail expectation brackets token) :
    Tracks target frame (.skipping brackets) brackets limit (view.missing expectation token) := by
  refine here.move (by simp) (by simp) (by simp) (by simp) (by simpa using here.left) ?_
  cases next with
  | @inside _ rest content =>
      have kept : (view.missing expectation token).content = token :: rest := by
        simpa using content
      rw [View.outcome_cons kept, View.outcome_cons content, stuck, Reader.fail, View.final_missing,
        ← Reader.stepSkipping_enter _ (.skipping brackets), ← View.reader_missing]
      rfl
  | final content atEnd =>
      rw [View.outcome_nil (by simpa using content), View.outcome_nil content, Reader.finish,
        Reader.finish, View.final_missing,
        Reader.finishStatement_of_missing (view.reader frame mode) (expects atEnd),
        ← View.reader_missing]
      rfl

/-- A production that finds a wrong token gives the statement up. -/
theorem fails (here : Tracks target frame mode brackets limit view) (next : view.Next token)
    {expectation : Expectation}
    (expects : token.kind = .endOfFile → Reader.missing mode = some expectation)
    (stuck : (view.reader frame mode).step token =
      (view.reader frame mode).fail expectation brackets token)
    {α : Type} {outcome : α} {condition : α → State → Prop}
    (holds : ∀ state : State, GivenUp target frame limit state.view → condition outcome state) :
    Ends (do expected expectation; return outcome) view condition :=
  (gives_expected expectation next).then <| .pure fun state same =>
    holds state ⟨brackets, same ▸ here.missing next expects stuck⟩

end Tracks

/-- Two modes make no difference if they treat the next token alike. -/
theorem View.outcome_eq_of_next {view : View} {frame : Frame} {mode other : Mode} {token : Token}
    (next : view.Next token) {expectation : Expectation}
    (expects : Reader.missing mode = some expectation)
    (otherExpects : Reader.missing other = some expectation)
    (step : (view.reader frame mode).step token = (view.reader frame other).step token) :
    view.outcome frame mode = view.outcome frame other := by
  cases next with
  | inside content => rw [View.outcome_cons content, View.outcome_cons content, step]
  | final content =>
      rw [View.outcome_nil content, View.outcome_nil content, Reader.finish, Reader.finish,
        Reader.finishStatement_of_missing (view.reader frame mode) expects,
        Reader.finishStatement_of_missing (view.reader frame other) otherExpects,
        ← View.reader_missing, ← View.reader_missing]
      rfl

/-- A loop ends if each of its rounds does, and behind another round the loop. -/
theorem ends_run {loop : Loop} {carrier : loop.Carrier} {depth : Nat} {view : View}
    {turned : loop.Turn → State → Prop} {condition : loop.Result → State → Prop}
    (turn : Ends (Loop.turn (Loop.run depth) loop carrier) view turned)
    (again : ∀ carrier state, turned (.again carrier) state →
      Ends (Loop.run depth loop carrier) state.view condition)
    (leave : ∀ result state, turned (.leave result) state → condition result state) :
    Ends (Loop.run (depth + 1) loop carrier) view condition := by
  intro state same
  obtain ⟨outcome, reached, ran, holds⟩ := turn state same
  cases outcome with
  | again carrier =>
      obtain ⟨result, after, ranAgain, holdsAgain⟩ := again carrier reached holds reached rfl
      refine ⟨result, after, ?_, holdsAgain⟩
      change Option.bind (Loop.turn (Loop.run depth) loop _ state) _ = _
      rw [ran]
      exact ranAgain
  | leave result =>
      refine ⟨result, reached, ?_, leave result reached holds⟩
      change Option.bind (Loop.turn (Loop.run depth) loop _ state) _ = _
      rw [ran]
      rfl

/-- A round of a loop has ended: another one starts inside of the loop, or the parser is behind
it. -/
def Turned (loop : Loop) (inside : loop.Carrier → View → Prop)
    (behind : loop.Result → View → Prop) : loop.Turn → View → Prop
  | .again carrier, view => inside carrier view
  | .leave result, view => behind result view

/-- A loop whose rounds run no other loops ends, by the number of tokens that are left. -/
theorem ends_run_of_turns (loop : Loop) (inside : Nat → loop.Carrier → View → Prop)
    (behind : Nat → loop.Result → View → Prop)
    (left : ∀ {limit carrier view}, inside limit carrier view → view.content.length < limit)
    (turn : ∀ {depth limit carrier view}, inside (limit + 1) carrier view →
      Ends (Loop.turn (Loop.run depth) loop carrier) view fun turn state =>
        Turned loop (inside limit) (behind (limit + 1)) turn state.view)
    (weaken : ∀ {limit result view}, behind limit result view → behind (limit + 1) result view)
    {depth limit : Nat} {carrier : loop.Carrier} {view : View} (le : limit ≤ depth)
    (here : inside limit carrier view) :
    Ends (Loop.run depth loop carrier) view fun result state =>
      behind limit result state.view := by
  induction depth generalizing limit carrier view with
  | zero => exact absurd (left here) (by omega)
  | succ depth inductionHypothesis =>
      obtain ⟨limit, rfl⟩ := Nat.exists_eq_add_one.2 (Nat.zero_lt_of_lt (left here))
      refine ends_run (turn here) ?_ fun _ _ turned => turned
      intro carrier state turned
      exact (inductionHypothesis (Nat.le_of_succ_le_succ le) turned).mono fun _ _ => weaken

end Descent

end ServiceDef
