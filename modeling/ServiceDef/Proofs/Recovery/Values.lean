import ServiceDef.Proofs.Grammar.Acceptance
import ServiceDef.Proofs.Reader.Rooted
import ServiceDef.Proofs.Recovery.Nesting

/-!
# Faults inside of bracketed values

A value in brackets is left behind at its last bracket, broken as it may be. Up to the first token
out of place a reader has the brackets of the value open, and behind it the reader skips tokens and
has the same brackets open. So long as one of them is open, a reader cannot leave the statement, and
what it does there does not depend on the blocks around it.

`Reader.InValue` says what a reader inside of such a value can be, and `Reader.InValue.run` that
properly nested tokens keep it. A reader that finds no token out of place has read a value of the
grammar, so a bracketed group that is none is given up with one report.
-/

namespace ServiceDef

/-- The token that opens a bracket. -/
def Bracket.opening : Bracket → TokenKind
  | .square => .leftBracket
  | .curly => .leftBrace

/-- The token that closes a bracket. -/
def Bracket.closing : Bracket → TokenKind
  | .square => .rightBracket
  | .curly => .rightBrace

theorem nest_closing (bracket : Bracket) (outer : List Bracket) :
    bracket.closing.nest (bracket :: outer) = some outer := by
  cases bracket <;> rfl

/-! ## Nesting -/

/-- What a token does to the innermost brackets does not depend on those around them. -/
theorem nest_append {kind : TokenKind} {opened others : List Bracket} (outer : List Bracket)
    (nests : kind.nest opened = some others) :
    kind.nest (opened ++ outer) = some (others ++ outer) := by
  cases kind with
  | rightBrace =>
      obtain rfl := nest_rightBrace_eq_some.1 nests
      rfl
  | rightBracket =>
      obtain rfl := nest_rightBracket_eq_some.1 nests
      rfl
  | _ =>
      obtain rfl := Option.some.inj nests
      rfl

/-- Inside of a statement, the open brackets are those that the nesting of the tokens gives. -/
theorem BracketStep.brackets_eq {kind : TokenKind} {opened others : List Bracket} {level : Nat}
    {after : List Bracket × Nat} (stepped : BracketStep False kind (opened, level) after)
    (isOpen : opened ≠ []) (nests : kind.nest opened = some others) : after.1 = others := by
  cases kind with
  | leftBrace =>
      obtain rfl := Option.some.inj nests
      obtain ⟨impossible, -⟩ | ⟨-, rfl | ⟨noBrackets, -⟩⟩ := stepped
      · exact impossible.elim
      · rfl
      · exact absurd noBrackets isOpen
  | leftBracket =>
      obtain rfl := Option.some.inj nests
      obtain ⟨impossible, -⟩ | ⟨-, rfl⟩ := stepped
      · exact impossible.elim
      · rfl
  | rightBrace =>
      obtain rfl := nest_rightBrace_eq_some.1 nests
      obtain ⟨-, rfl⟩ | ⟨absent, -⟩ := stepped
      · simp
      · exact absurd List.mem_cons_self absent
  | rightBracket =>
      obtain rfl := nest_rightBracket_eq_some.1 nests
      obtain ⟨-, rfl⟩ | ⟨absent, -⟩ := stepped
      · simp
      · exact absurd List.mem_cons_self absent
  | _ =>
      obtain rfl := Option.some.inj nests
      obtain rfl : after = (opened, level) := stepped
      rfl

namespace Reader

/-! ## Skipping -/

/-- Behind a fault, tokens are skipped with the nesting that they have. -/
theorem stepSkipping_of_nest (reader : Reader) {opened others : List Bracket} {token : Token}
    (isOpen : opened ≠ []) (nests : token.kind.nest opened = some others) :
    reader.stepSkipping opened token = (reader.absorb token).enter (.skipping others) := by
  cases kind : token.kind with
  | newline =>
      rw [kind] at nests
      obtain rfl := Option.some.inj nests
      simp [stepSkipping, kind, isOpen]
  | rightBrace =>
      rw [kind] at nests
      obtain rfl := nest_rightBrace_eq_some.1 nests
      simp [stepSkipping, kind]
  | rightBracket =>
      rw [kind] at nests
      obtain rfl := nest_rightBracket_eq_some.1 nests
      simp [stepSkipping, kind]
  | _ =>
      rw [kind] at nests
      obtain rfl := Option.some.inj nests
      simp [stepSkipping, kind]

/-- A token out of place is the first one that is skipped. -/
theorem fail_of_nest (reader : Reader) (expectation : Expectation) {opened others : List Bracket}
    {token : Token} (isOpen : opened ≠ []) (nests : token.kind.nest opened = some others) :
    reader.fail expectation opened token =
      ((reader.expected expectation token).absorb token).enter (.skipping others) :=
  stepSkipping_of_nest _ isOpen nests

/-- A valid token out of place is reported. -/
theorem expected_of_valid (reader : Reader) (expectation : Expectation) {token : Token}
    (valid : token.kind.isInvalid = false) :
    reader.expected expectation token =
      reader.report (.unexpected expectation token.kind) token.position := by
  unfold expected
  split
  · next text isInvalid =>
      rw [isInvalid] at valid
      cases valid
  · rfl

/-! ## Surroundings -/

/-- The reader `inner` in the blocks and the group of `base`, behind what `base` has reported. -/
def inside (inner base : Reader) : Reader :=
  { base with
    mode := inner.mode
    pending := inner.pending
    diagnostics := base.diagnostics ++ inner.diagnostics }

section Inside

variable (inner base : Reader)

@[simp] theorem inside_absorb (token : Token) :
    (inner.inside base).absorb token = (inner.absorb token).inside base := rfl

@[simp] theorem inside_enter (mode : Mode) :
    (inner.inside base).enter mode = (inner.enter mode).inside base := rfl

@[simp] theorem inside_expected (expectation : Expectation) (token : Token) :
    (inner.inside base).expected expectation token =
      (inner.expected expectation token).inside base := by
  unfold expected
  split
  · rfl
  · simp [report, inside]

@[simp] theorem inside_complete (head : Head) (outer : List OpenValue) (value : Value) :
    (inner.inside base).complete head outer value =
      (inner.complete head outer value).inside base := by
  unfold complete
  split <;> rfl

variable {opened others : List Bracket} {token : Token}

theorem inside_stepSkipping (isOpen : opened ≠ []) (nests : token.kind.nest opened = some others) :
    (inner.inside base).stepSkipping opened token =
      (inner.stepSkipping opened token).inside base := by
  rw [stepSkipping_of_nest _ isOpen nests, stepSkipping_of_nest _ isOpen nests]
  rfl

theorem inside_fail (isOpen : opened ≠ []) (nests : token.kind.nest opened = some others)
    (expectation : Expectation) :
    (inner.inside base).fail expectation opened token =
      (inner.fail expectation opened token).inside base := by
  rw [fail, fail, inside_expected, inside_stepSkipping _ _ isOpen nests]

theorem inside_stepValue (head : Head) {outer : List OpenValue}
    (isOpen : outer.map OpenValue.bracket ≠ [])
    (nests : token.kind.nest (outer.map OpenValue.bracket) = some others) :
    (inner.inside base).stepValue head outer token =
      (inner.stepValue head outer token).inside base := by
  unfold stepValue
  split
  · simp
  · simp
  · simp
  · simp
  · simp
  · exact inside_fail inner base isOpen nests _

/-- Inside of its brackets, a value is read in the same way in all blocks. -/
theorem inside_stepPlace (head : Head) {place : ValuePlace} (isOpen : place.brackets ≠ [])
    (nests : token.kind.nest place.brackets = some others) :
    (inner.inside base).stepPlace head place token =
      (inner.stepPlace head place token).inside base := by
  have wrong := inside_fail inner base isOpen nests place.expectation
  cases place with
  | value outer => exact inside_stepValue inner base head isOpen nests
  | item items outer =>
      have first := @inside_stepValue inner base _ _ head (.list items :: outer) isOpen nests
      simp only [stepPlace]
      split
      · simp
      · simp
      · exact first
  | itemEnd items outer =>
      simp only [stepPlace]
      split
      · simp
      · simp
      · simp
      · exact wrong
  | key entries outer =>
      simp only [stepPlace]
      split
      · simp
      · simp
      · simp
      · simp
      · exact wrong
  | keyEnd entries name position outer =>
      simp only [stepPlace]
      split
      · simp
      · simp
      · exact wrong
  | entryEnd entries outer =>
      simp only [stepPlace]
      split
      · simp
      · simp
      · simp
      · exact wrong

end Inside

/-! ## Readers inside of a value -/

/-- The last closing bracket of a value ends it, or it is out of place. -/
theorem stepPlace_closing (reader : Reader) (head : Head) {place : ValuePlace} {bracket : Bracket}
    {token : Token} (only : place.brackets = [bracket]) (closes : token.kind = bracket.closing) :
    (∃ value, reader.stepPlace head place token = (reader.absorb token).complete head [] value) ∨
      ∃ expectation, reader.stepPlace head place token =
        reader.fail expectation place.brackets token := by
  cases place with
  | value outer =>
      refine .inr ⟨.value, ?_⟩
      cases bracket <;> simp [stepPlace, stepValue, closes, Bracket.closing, ValuePlace.brackets]
  | item items outer | itemEnd items outer =>
      obtain ⟨rfl, noOuter⟩ := List.cons.inj only
      obtain rfl := List.map_eq_nil_iff.1 noOuter
      exact .inl ⟨.list items, by simp [stepPlace, closes, Bracket.closing]⟩
  | key entries outer | entryEnd entries outer =>
      obtain ⟨rfl, noOuter⟩ := List.cons.inj only
      obtain rfl := List.map_eq_nil_iff.1 noOuter
      exact .inl ⟨.map entries, by simp [stepPlace, closes, Bracket.closing]⟩
  | keyEnd entries name position outer =>
      refine .inr ⟨.mapEquals name, ?_⟩
      cases bracket <;> simp [stepPlace, closes, Bracket.closing, ValuePlace.expectation]

/-- The reader without surroundings that has reported a token out of place, and skips tokens in
front of the given brackets. -/
def brokenAt (token : Token) (expectation : Expectation) (opened : List Bracket)
    (pending : List String) : Reader where
  mode := .skipping opened
  pending := pending
  diagnostics := [.malformed (ReadFault.unexpected expectation token.kind).message token.position]

/-- What a reader without surroundings can be inside of a value that has the given brackets open:
it goes on with the value, or it has reported one of the tokens and skips the others. -/
inductive InValue (tokens : List Token) : List Bracket → Reader → Prop where
  | goesOn (head : Head) (place : ValuePlace) (pending : List String) :
      InValue tokens place.brackets { mode := .value head place, pending := pending }
  | broken {token : Token} (member : token ∈ tokens) (expectation : Expectation)
      (opened : List Bracket) (pending : List String) :
      InValue tokens opened (brokenAt token expectation opened pending)

/-- What a reader without surroundings can be behind the last bracket of a value: it has the whole
attribute, or it has reported one of the tokens. -/
inductive BehindValue (tokens : List Token) : Reader → Prop where
  | ended (attr : Attribute) (pending : List String) :
      BehindValue tokens { mode := .attributeEnd attr, pending := pending }
  | broken {token : Token} (member : token ∈ tokens) (expectation : Expectation)
      (pending : List String) : BehindValue tokens (brokenAt token expectation [] pending)

/-- A token out of place in the brackets of a value is reported, and then skipped. -/
theorem fail_eq_brokenAt {head : Head} {place : ValuePlace} {pending : List String} {token : Token}
    {others : List Bracket} (isOpen : place.brackets ≠ []) (valid : token.kind.isInvalid = false)
    (nests : token.kind.nest place.brackets = some others) (expectation : Expectation) :
    fail { mode := .value head place, pending := pending } expectation place.brackets token =
      brokenAt token expectation others (pending ++ token.comments) := by
  rw [fail_of_nest _ expectation isOpen nests, expected_of_valid _ expectation valid]
  rfl

namespace InValue

variable {tokens : List Token} {opened others : List Bracket} {reader : Reader} {token : Token}
  (inValue : InValue tokens opened reader)

include inValue

/-- A token that leaves a bracket open is read or skipped, and only the first one out of place is
reported. -/
theorem step (isOpen : opened ≠ []) (staysOpen : others ≠ []) (member : token ∈ tokens)
    (valid : token.kind.isInvalid = false) (nests : token.kind.nest opened = some others) :
    InValue tokens others (reader.step token) := by
  cases inValue with
  | goesOn head place pending =>
      -- The open brackets of the next place are known before the place is.
      have brackets := (bracketStep_stepPlace { mode := .value head place, pending := pending }
        head place token).brackets_eq isOpen nests
      refine stepPlace_cases
        (motive := fun after => after.shape.1 = others → InValue tokens others after)
        _ head token ?_ ?_ place ?_ brackets
      · rintro next rfl
        exact .goesOn head next _
      · rintro value rfl
        exact absurd rfl staysOpen
      · intro expectation _
        rw [fail_eq_brokenAt isOpen valid nests]
        exact .broken member expectation others _
  | broken first expectation _ pending =>
      show InValue tokens others (stepSkipping _ opened token)
      rw [stepSkipping_of_nest _ isOpen nests]
      exact .broken first expectation others _

/-- The last closing bracket is read or skipped as well. -/
theorem close {bracket : Bracket} (only : opened = [bracket]) (member : token ∈ tokens)
    (valid : token.kind.isInvalid = false) (closes : token.kind = bracket.closing) :
    BehindValue tokens (reader.step token) := by
  have nests : token.kind.nest opened = some [] := by
    rw [only, closes]
    exact nest_closing bracket []
  have isOpen : opened ≠ [] := by simp [only]
  cases inValue with
  | goesOn head place pending =>
      show BehindValue tokens (stepPlace _ head place token)
      obtain ⟨value, completed⟩ | ⟨expectation, failed⟩ := stepPlace_closing
        { mode := .value head place, pending := pending } head only closes
      · rw [completed]
        exact .ended _ _
      · rw [failed, fail_eq_brokenAt isOpen valid nests]
        exact .broken member expectation _
  | broken first expectation _ pending =>
      show BehindValue tokens (stepSkipping _ opened token)
      rw [stepSkipping_of_nest _ isOpen nests]
      exact .broken first expectation _

/-- A token in brackets is read in the same way in all blocks. -/
theorem inside_step (isOpen : opened ≠ []) (nests : token.kind.nest opened = some others)
    (base : Reader) : (reader.inside base).step token = (reader.step token).inside base := by
  cases inValue with
  | goesOn head place pending => exact inside_stepPlace _ base head isOpen nests
  | broken first expectation _ pending => exact inside_stepSkipping _ base isOpen nests

omit inValue in
/-- Tokens that are nested inside of a bracket leave it open, and are read in the same way in all
blocks. -/
theorem run {outer : List Bracket} {part : List Token}
    (inValue : InValue tokens (opened ++ outer) reader) (isOpen : outer ≠ [])
    (members : ∀ token ∈ part, token ∈ tokens)
    (valid : ∀ token ∈ part, token.kind.isInvalid = false)
    (nests : nesting opened part = some others) :
    InValue tokens (others ++ outer) (reader.run part) ∧
      ∀ base, (reader.inside base).run part = (reader.run part).inside base := by
  induction part generalizing opened reader with
  | nil =>
      obtain rfl := Option.some.inj nests
      exact ⟨inValue, fun _ => rfl⟩
  | cons token part inductionHypothesis =>
      rw [List.forall_mem_cons] at members valid
      obtain ⟨middle, first, rest⟩ := nesting_cons_eq_some.1 nests
      have around (inner : List Bracket) : inner ++ outer ≠ [] :=
        List.append_ne_nil_of_right_ne_nil inner isOpen
      have stepped := inValue.step (around opened) (around middle) members.1 valid.1
        (nest_append outer first)
      have sameStep := inValue.inside_step (around opened) (nest_append outer first)
      obtain ⟨inRest, sameRun⟩ := inductionHypothesis stepped members.2 valid.2 rest
      refine ⟨inRest, fun base => ?_⟩
      rw [run_cons, run_cons, sameStep, sameRun]

end InValue

end Reader

/-! ## Values of the grammar -/

namespace Grammar

open Reader

/-- A reader outside of all blocks that comes to the end of an attribute has read a value, and
nothing behind it: a statement that belongs to a block cannot be read there. -/
theorem derivesValue_of_reads {kinds : List TokenKind}
    (valid : ∀ kind ∈ kinds, ∀ text, kind ≠ .invalid text) {head : Head} {attr : Attribute}
    (read : (({} : Reader).enter (.value head (.value []))).reads kinds =
      ({} : Reader).enter (.attributeEnd attr)) :
    ∃ value, DerivesValue kinds value [] := by
  have accepts : Accepts (({} : Reader).enter (.value head (.value []))) kinds :=
    ⟨valid, by rw [read]; rfl⟩
  obtain ⟨value, rest, derivation, suffix, -⟩ := valueSound kinds {} head [] accepts
  cases rest with
  | nil => exact ⟨value, derivation⟩
  | cons kind others =>
      -- A line break is the only token that could follow, and nothing but blocks behind it.
      exfalso
      have completed := derivation.reads {} head []
      have behind := accepts.of_reads completed suffix
      have ended := completed.symm.trans read
      cases kind with
      | newline =>
          have rooted := Rooted.start.run (others.map Token.bare)
          rw [show ({} : Reader).run (others.map Token.bare) = _ from ended] at rooted
          exact rooted.mode rfl rfl
      | rightBrace =>
          have silent := behind.step.diagnostics_eq
          cases silent
      | _ => exact behind.not_fail_from _ .lineEnd [] rfl

end Grammar

/-! ## Bracketed groups -/

/-- The tokens from an opening bracket to the closing one that belongs to it. -/
structure BracketGroup where
  bracket : Bracket
  opening : Token
  content : List Token
  closing : Token
  opens : opening.kind = bracket.opening
  closes : closing.kind = bracket.closing
  nested : nesting [] content = some []
  valid : ∀ token ∈ content, token.kind ≠ .endOfFile ∧ token.kind.isInvalid = false

namespace BracketGroup

variable (group : BracketGroup)

/-- The tokens behind the opening bracket. -/
def rest : List Token :=
  group.content ++ [group.closing]

/-- The tokens of the group. -/
def tokens : List Token :=
  group.opening :: group.rest

/-- Whether the tokens of the group are a value of the grammar. -/
def IsValue : Prop :=
  ∃ value, Grammar.DerivesValue (group.tokens.map (·.kind)) value []

/-- The place behind the opening bracket. -/
def place : ValuePlace :=
  match group.bracket with
  | .square => .item [] []
  | .curly => .key [] []

theorem brackets_place : group.place.brackets = [group.bracket] := by
  unfold place
  cases group.bracket <;> rfl

theorem closing_mem_tokens : group.closing ∈ group.tokens := by
  simp [tokens, rest]

/-- No token of the group is invalid or ends the file. -/
theorem valid_tokens :
    ∀ token ∈ group.tokens, token.kind ≠ .endOfFile ∧ token.kind.isInvalid = false := by
  intro token member
  simp only [tokens, rest, List.mem_cons, List.mem_append, List.not_mem_nil, or_false] at member
  rcases member with rfl | inContent | rfl
  · rw [group.opens]
    cases group.bracket <;> decide
  · exact group.valid token inContent
  · rw [group.closes]
    cases group.bracket <;> decide

/-- The reader behind the opening bracket, without surroundings. -/
def start (head : Head) (pending : List String) : Reader where
  mode := .value head group.place
  pending := pending

/-- Behind the closing bracket, the value is at its end or given up, in all blocks alike. -/
theorem behindValue_rest (head : Head) (pending : List String) :
    Reader.BehindValue group.tokens ((group.start head pending).run group.rest) ∧
      ∀ base, ((group.start head pending).inside base).run group.rest =
        ((group.start head pending).run group.rest).inside base := by
  have started :
      Reader.InValue group.tokens ([] ++ [group.bracket]) (group.start head pending) := by
    rw [List.nil_append, ← group.brackets_place]
    exact .goesOn head group.place pending
  have members : ∀ token ∈ group.content, token ∈ group.tokens := fun token member =>
    List.mem_cons_of_mem _ (List.mem_append_left _ member)
  obtain ⟨inValue, same⟩ := started.run (by simp) members
    (fun token member => (group.valid token member).2) group.nested
  rw [List.nil_append] at inValue
  have closing := group.closing_mem_tokens
  have nests : group.closing.kind.nest [group.bracket] = some [] := by
    rw [group.closes]
    exact nest_closing group.bracket []
  constructor
  · rw [rest, Reader.run_append]
    exact inValue.close rfl closing (group.valid_tokens _ closing).2 group.closes
  · intro base
    rw [rest, Reader.run_append, Reader.run_append, same]
    exact inValue.inside_step (by simp) nests base

/-- A reader that comes to the end of the group without a fault has read a value. -/
theorem isValue_of_ended {head : Head} {pending ending : List String} {attr : Attribute}
    (ended : (group.start head pending).run group.rest =
      { mode := .attributeEnd attr, pending := ending }) : group.IsValue := by
  have kinds := Grammar.valid_of_isInvalid fun token member => (group.valid_tokens token member).2
  -- The kinds of the tokens decide, so labels are erased.
  have erased := congrArg Relabelling.unlabelled.reader ended
  rw [Relabelling.reader_run, Grammar.map_unlabelled] at erased
  refine @Grammar.derivesValue_of_reads _ kinds (Relabelling.unlabelled.head head)
    (Relabelling.unlabelled.attr attr) ?_
  have opened :
      (({} : Reader).enter (.value (Relabelling.unlabelled.head head) (.value []))).step
          (.bare group.opening.kind) =
        Relabelling.unlabelled.reader (group.start head pending) := by
    rw [group.opens, start, place]
    cases group.bracket <;> rfl
  rw [tokens, List.map_cons, Reader.reads_cons, opened]
  exact erased

/-- A group that is no value is given up at one of its tokens, and is skipped to its end. -/
theorem run_rest_of_not_isValue (noValue : ¬ group.IsValue) (head : Head) (pending : List String) :
    ∃ token ∈ group.tokens, ∃ expectation ending, ∀ base,
      ((group.start head pending).inside base).run group.rest =
        (Reader.brokenAt token expectation [] ending).inside base := by
  obtain ⟨behind, same⟩ := group.behindValue_rest head pending
  generalize after : (group.start head pending).run group.rest = reader at behind same
  cases behind with
  | ended attr ending => exact absurd (group.isValue_of_ended after) noValue
  | broken member expectation ending => exact ⟨_, member, expectation, ending, same⟩

end BracketGroup

end ServiceDef
