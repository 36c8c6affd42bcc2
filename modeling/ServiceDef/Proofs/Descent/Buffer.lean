import ServiceDef.Parse

/-!
# Reading ahead

A parser by recursive descent decides on the next tokens without consuming them. It pulls its
tokens from a source one at a time and only when it looks at them, and keeps those it has looked
at in a buffer. When the source has no more tokens, it makes up ends of the file.

The operations here are all that such a parser does with tokens, comments and faults. Each of
them ends; what the productions made of them do is in `ServiceDef.Descent`.
-/

namespace ServiceDef.Descent

/-- A parser between two operations. -/
structure State where
  /-- The tokens that have not been pulled. -/
  source : List Token
  /-- The tokens that have been pulled and not consumed. -/
  ahead : List Token := []
  /-- The place of the last end of the file that has been pulled. -/
  ended : Option Position := none
  /-- The place of the last token that has been pulled. -/
  lastPosition : Position
  /-- The comments that belong to no part of the document yet. -/
  pending : List String := []
  diagnostics : List Diagnostic := []
  /-- The brackets of the values that are being read, innermost first. -/
  openValues : List Bracket := []
  /-- The open brackets at the start of every round of the loops over statements. Nothing
  depends on them. -/
  rounds : List (List Bracket) := []
deriving DecidableEq, Repr

namespace State

/-- A parser in front of all tokens of a file. -/
def start (file : String) (tokens : List Token) : State where
  source := tokens
  lastPosition := .startOf file

/-- The end of the file that stands behind the last token of the source. -/
def madeUpEnd (state : State) : Token where
  kind := .endOfFile
  position := state.ended.getD state.lastPosition

/-- The parser after one more token has been pulled. -/
def pull (state : State) : State :=
  match state.source with
  | [] => { state with ahead := state.ahead ++ [state.madeUpEnd] }
  | token :: source =>
    { state with
      source := source
      ahead := state.ahead ++ [token]
      ended := if token.isEnd then some token.position else state.ended
      lastPosition := token.position }

/-- The parser after some more tokens have been pulled. -/
def pulls : Nat → State → State
  | 0, state => state
  | count + 1, state => pulls count state.pull

/-- The parser after it has pulled what it needs to look at the token with the given index. -/
def lookingAt (state : State) (index : Nat) : State :=
  state.pulls (index + 1 - state.ahead.length)

end State

/-- An operation of the parser. One that never ends has no outcome. -/
abbrev Run := StateT State Option

/-- The token with the given index, from the next one on. -/
def look (index : Nat) : Run Token := fun state =>
  let state := state.lookingAt index
  some (state.ahead.getD index state.madeUpEnd, state)

/-- Consumes the next token and takes over its comments. -/
def bump : Run Token := fun state =>
  let state := state.lookingAt 0
  let token := state.ahead.headD state.madeUpEnd
  some (token, { state with
    ahead := state.ahead.tail
    pending := state.pending ++ token.comments })

/-- All waiting comments. They wait no longer. -/
def takeComments : Run (List String) := fun state =>
  some (state.pending, { state with pending := [] })

/-- The comment on the line that ends here. Other comments of the line break wait. -/
def takeTrailing : Run (Option String) := fun state =>
  let state := state.lookingAt 0
  match state.ahead with
  | ⟨.newline, position, comment :: comments⟩ :: ahead =>
    some (some comment, { state with
      ahead := ⟨.newline, position, []⟩ :: ahead
      pending := state.pending ++ comments })
  | _ => some (none, state)

/-- Reports a fault. -/
def report (fault : ReadFault) (position : Position) : Run Unit := fun state =>
  some ((), { state with
    diagnostics := state.diagnostics ++ [Diagnostic.malformed fault.message position] })

/-- Reports that the next token stands in the place of something else. Invalid tokens have been
reported when they were scanned. -/
def expected (expectation : Expectation) : Run Unit := do
  let token ← look 0
  match token.kind with
  | .invalid _ => return ()
  | kind => report (.unexpected expectation kind) token.position

/-- Notes that a bracket of a value has been opened. -/
def openValue (bracket : Bracket) : Run Unit := fun state =>
  some ((), { state with openValues := bracket :: state.openValues })

/-- Notes that the innermost bracket of a value has been closed. -/
def closeValue : Run Unit := fun state =>
  some ((), { state with openValues := state.openValues.tail })

/-- All open brackets. They count as closed. -/
def takeOpenValues : Run (List Bracket) := fun state =>
  some (state.openValues, { state with openValues := [] })

/-- Notes which brackets are open at the start of a round of a loop over statements. -/
def noteRound : Run Unit := fun state =>
  some ((), { state with rounds := state.rounds ++ [state.openValues] })

/-- Whether a statement can end here, which is in front of a line break, a closing brace and
the end of the file. -/
def endStatement : Run Bool := do
  match (← look 0).kind with
  | .newline | .rightBrace | .endOfFile => return true
  | _ => do
    expected .lineEnd
    return false

end ServiceDef.Descent
