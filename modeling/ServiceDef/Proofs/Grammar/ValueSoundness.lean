import ServiceDef.Proofs.Grammar.Completeness
import ServiceDef.Proofs.Reader.Reports

/-!
# Values that are read without a fault

A reader that comes to the end of its input without a diagnostic has followed a derivation.
The induction is on the length of the input. Each place of a reader asks for the derivation of
what has to come next, and the readings of derivations carry the acceptance of the input over
to the rest behind it. This module goes as far as values; statements and blocks build on it.
-/

namespace ServiceDef.Grammar

open Reader

/-- No token of the given kinds is invalid, and a reader has nothing to report about them. -/
structure Accepts (reader : Reader) (kinds : List TokenKind) : Prop where
  valid : ∀ kind ∈ kinds, ∀ text, kind ≠ .invalid text
  silent : ((reader.reads kinds).finish (.bare .endOfFile)).diagnostics = []

namespace Accepts

variable {reader : Reader} {kind : TokenKind} {kinds : List TokenKind}

/-- What a reader holds at the end of an input that it accepts. -/
theorem atEnd (accepts : Accepts reader kinds) :
    (reader.reads kinds).diagnostics = [] ∧ missing (reader.reads kinds).mode = none ∧
      (reader.reads kinds).group = none ∧ (reader.reads kinds).openBlocks = [] :=
  (diagnostics_finish_eq_nil_iff _ (by simp)).1 accepts.silent

/-- A reader that has something to report accepts nothing. -/
theorem diagnostics_eq (accepts : Accepts reader kinds) : reader.diagnostics = [] := by
  obtain ⟨found, runEq, -⟩ := diagnostics_run reader (kinds.map Token.bare)
  have silent := accepts.atEnd.1
  rw [show reader.reads kinds = reader.run (kinds.map Token.bare) from rfl, runEq,
    List.append_eq_nil_iff] at silent
  exact silent.1

theorem step (accepts : Accepts reader (kind :: kinds)) :
    Accepts (reader.step (.bare kind)) kinds :=
  ⟨fun other member => accepts.valid other (List.mem_cons_of_mem _ member), accepts.silent⟩

/-- Acceptance is carried over to the rest of the input. -/
theorem of_reads {input rest : List TokenKind} {after : Reader} (accepts : Accepts reader input)
    (reads : reader.reads input = after.reads rest) (suffix : rest <:+ input) :
    Accepts after rest :=
  ⟨fun kind member => accepts.valid kind (suffix.subset member), reads ▸ accepts.silent⟩

/-- Where a reader gives a statement up, it does not accept. -/
theorem not_fail_from (accepts : Accepts reader (kind :: kinds)) (before : Reader)
    (expectation : Expectation) (brackets : List Bracket)
    (fails : reader.step (.bare kind) = before.fail expectation brackets (.bare kind)) :
    False := by
  have silent := accepts.step.diagnostics_eq
  rw [fails] at silent
  exact diagnostics_fail_ne_nil before expectation brackets
    (accepts.valid kind List.mem_cons_self) silent

theorem not_fail (accepts : Accepts reader (kind :: kinds)) (expectation : Expectation)
    (brackets : List Bracket)
    (fails : reader.step (.bare kind) = reader.fail expectation brackets (.bare kind)) : False :=
  accepts.not_fail_from reader expectation brackets fails

/-- The end of the file is reported in the middle of a statement. -/
theorem not_missing {expectation : Expectation} (accepts : Accepts reader [])
    (missed : missing reader.mode = some expectation) : False := by
  have found := accepts.atEnd.2.1
  rw [reads_nil, missed] at found
  cases found

end Accepts

/-- A proper end of an input. -/
def Behind (rest input : List TokenKind) : Prop :=
  rest <:+ input ∧ rest.length < input.length

theorem Behind.cons {rest input : List TokenKind} (suffix : rest <:+ input) (kind : TokenKind) :
    Behind rest (kind :: input) :=
  ⟨suffix.trans (List.suffix_cons kind input), Nat.lt_succ_of_le suffix.length_le⟩

/-! ## Values -/

/-- What a reader accepts in front of a value starts with a value. -/
def ValueSound (input : List TokenKind) : Prop :=
  ∀ (reader : Reader) (head : Head) (outer : List OpenValue),
    Accepts (reader.enter (.value head (.value outer))) input →
    ∃ value rest, DerivesValue input value rest ∧ Behind rest input

/-- What a reader accepts in a list starts with items and the closing bracket. -/
def ItemsSound (input : List TokenKind) : Prop :=
  ∀ (ready : Bool) (reader : Reader) (head : Head) (before : List Value)
    (outer : List OpenValue),
    Accepts (reader.enter (.value head (itemPlace ready before outer))) input →
    ∃ items rest, DerivesItems ready input items (.rightBracket :: rest) ∧
      .rightBracket :: rest <:+ input

/-- What a reader accepts in a map starts with entries and the closing brace. -/
def EntriesSound (input : List TokenKind) : Prop :=
  ∀ (ready : Bool) (reader : Reader) (head : Head) (before : List (Entry Value))
    (outer : List OpenValue),
    Accepts (reader.enter (.value head (entryPlace ready before outer))) input →
    ∃ entries rest, Series IsSeparator DerivesEntry ready input entries (.rightBrace :: rest) ∧
      .rightBrace :: rest <:+ input

theorem valueSound_of_inside {input : List TokenKind}
    (items : ∀ shorter, shorter.length < input.length → ItemsSound shorter)
    (entries : ∀ shorter, shorter.length < input.length → EntriesSound shorter) :
    ValueSound input := by
  intro reader head outer accepts
  match input with
  | [] => exact (accepts.not_missing rfl).elim
  | kind :: others =>
      have step := accepts.step
      cases kind with
      | string contents => exact ⟨_, others, .string contents others, .cons (List.suffix_refl _) _⟩
      | number lexeme => exact ⟨_, others, .number lexeme others, .cons (List.suffix_refl _) _⟩
      | boolean value => exact ⟨_, others, .boolean value others, .cons (List.suffix_refl _) _⟩
      | leftBracket =>
          have inside : Accepts (reader.enter (.value head (itemPlace true [] outer))) others := by
            simpa [stepPlace, stepValue, itemPlace] using step
          obtain ⟨items, rest, derivation, suffix⟩ :=
            items others (by simp) true reader head [] outer inside
          exact ⟨_, rest, .list derivation,
            .cons ((List.suffix_cons _ _).trans suffix) _⟩
      | leftBrace =>
          have inside : Accepts (reader.enter (.value head (entryPlace true [] outer))) others := by
            simpa [stepPlace, stepValue, entryPlace] using step
          obtain ⟨entries, rest, derivation, suffix⟩ :=
            entries others (by simp) true reader head [] outer inside
          exact ⟨_, rest, .map derivation,
            .cons ((List.suffix_cons _ _).trans suffix) _⟩
      | _ => exact (accepts.not_fail .value (outer.map OpenValue.bracket) rfl).elim

/-- Behind a value in a list stand the other items. -/
theorem items_of_first {input : List TokenKind} (value : ValueSound input)
    (items : ∀ shorter, shorter.length < input.length → ItemsSound shorter) (reader : Reader)
    (head : Head) (before : List Value) (outer : List OpenValue)
    (accepts : Accepts (reader.enter (.value head (.value (.list before :: outer)))) input) :
    ∃ items rest, DerivesItems true input items (.rightBracket :: rest) ∧
      .rightBracket :: rest <:+ input := by
  obtain ⟨item, middle, derivation, suffix, shorter⟩ := value reader head _ accepts
  have tail : Accepts (reader.enter (.value head (itemPlace false (before ++ [item]) outer)))
      middle := accepts.of_reads (derivation.reads reader head _) suffix
  obtain ⟨items, rest, others, behind⟩ := items middle shorter false reader head _ _ tail
  exact ⟨item :: items, rest, .item derivation others, behind.trans suffix⟩

theorem itemsSound_of_value {input : List TokenKind} (value : ValueSound input)
    (items : ∀ shorter, shorter.length < input.length → ItemsSound shorter) :
    ItemsSound input := by
  intro ready reader head before outer accepts
  match input, ready with
  | [], true => exact (accepts.not_missing rfl).elim
  | [], false => exact (accepts.not_missing rfl).elim
  | kind :: others, true =>
      have step := accepts.step
      have first := items_of_first value items reader head before outer
      cases kind with
      | newline =>
          obtain ⟨items, rest, derivation, suffix⟩ :=
            items others (by simp) true reader head before outer
              (by simpa [stepPlace, itemPlace] using step)
          exact ⟨items, rest, .newline derivation, suffix.trans (List.suffix_cons _ _)⟩
      | rightBracket => exact ⟨[], others, .done, List.suffix_refl _⟩
      | string contents => exact first (accepts.of_reads rfl (List.suffix_refl _))
      | number lexeme => exact first (accepts.of_reads rfl (List.suffix_refl _))
      | boolean value => exact first (accepts.of_reads rfl (List.suffix_refl _))
      | leftBracket => exact first (accepts.of_reads rfl (List.suffix_refl _))
      | leftBrace => exact first (accepts.of_reads rfl (List.suffix_refl _))
      | _ =>
          exact (accepts.not_fail .value (.square :: outer.map OpenValue.bracket) rfl).elim
  | kind :: others, false =>
      have step := accepts.step
      cases kind with
      | newline =>
          obtain ⟨items, rest, derivation, suffix⟩ :=
            items others (by simp) false reader head before outer
              (by simpa [stepPlace, itemPlace] using step)
          exact ⟨items, rest, .newline derivation, suffix.trans (List.suffix_cons _ _)⟩
      | comma =>
          obtain ⟨items, rest, derivation, suffix⟩ :=
            items others (by simp) true reader head before outer
              (by simpa [stepPlace, itemPlace] using step)
          exact ⟨items, rest, .comma derivation, suffix.trans (List.suffix_cons _ _)⟩
      | rightBracket => exact ⟨[], others, .done, List.suffix_refl _⟩
      | _ =>
          exact (accepts.not_fail .listSeparator (.square :: outer.map OpenValue.bracket) rfl).elim

/-- Behind the key of an entry stand a sign, a value and the other entries. -/
theorem entries_of_key {key : String} {input : List TokenKind}
    (value : ∀ shorter, shorter.length ≤ input.length → ValueSound shorter)
    (entries : ∀ shorter, shorter.length ≤ input.length → EntriesSound shorter) (reader : Reader)
    (head : Head) (before : List (Entry Value)) (outer : List OpenValue)
    (accepts : Accepts (reader.enter (.value head (.keyEnd before key {} outer))) input) :
    ∃ entries rest, Series IsSeparator DerivesEntry true (.identifier key :: input) entries
        (.rightBrace :: rest) ∧
      .rightBrace :: rest <:+ .identifier key :: input := by
  match input with
  | [] => exact (accepts.not_missing rfl).elim
  | sign :: others =>
      have assigned : IsSign sign →
          Accepts (reader.enter (.value head (.value (.map before key {} :: outer)))) others →
          ∃ entries rest, Series IsSeparator DerivesEntry true (.identifier key :: sign :: others)
              entries (.rightBrace :: rest) ∧
            .rightBrace :: rest <:+ .identifier key :: sign :: others := by
        intro assigns atValue
        obtain ⟨part, middle, derivation, suffix, shorter⟩ :=
          value others (by simp) reader head _ atValue
        have tail : Accepts (reader.enter (.value head
            (entryPlace false (before ++ [{ key := key, value := part }]) outer))) middle :=
          atValue.of_reads (derivation.reads reader head _) suffix
        obtain ⟨entries, rest, series, behind⟩ :=
          entries middle (by simp; omega) false reader head _ _ tail
        refine ⟨{ key := key, value := part } :: entries, rest,
          .item (.entry assigns derivation) series, behind.trans (suffix.trans ?_)⟩
        exact (List.suffix_cons _ _).trans (List.suffix_cons _ _)
      have step := accepts.step
      cases sign with
      | equals => exact assigned (.inl rfl) (by simpa [stepPlace] using step)
      | colon => exact assigned (.inr rfl) (by simpa [stepPlace] using step)
      | _ =>
          exact (accepts.not_fail (.mapEquals key) (.curly :: outer.map OpenValue.bracket) rfl).elim

theorem entriesSound_of_shorter {input : List TokenKind}
    (value : ∀ shorter, shorter.length < input.length → ValueSound shorter)
    (entries : ∀ shorter, shorter.length < input.length → EntriesSound shorter) :
    EntriesSound input := by
  intro ready reader head before outer accepts
  match input, ready with
  | [], true => exact (accepts.not_missing rfl).elim
  | [], false => exact (accepts.not_missing rfl).elim
  | kind :: others, ready =>
      have step := accepts.step
      have separated : IsSeparator kind →
          Accepts (reader.enter (.value head (entryPlace true before outer))) others →
          ∃ entries rest, Series IsSeparator DerivesEntry ready (kind :: others) entries
              (.rightBrace :: rest) ∧ .rightBrace :: rest <:+ kind :: others := by
        intro separates inside
        obtain ⟨entries, rest, series, suffix⟩ :=
          entries others (by simp) true reader head before outer inside
        exact ⟨entries, rest, .separator separates series, suffix.trans (List.suffix_cons _ _)⟩
      cases ready with
      | true =>
          cases kind with
          | newline => exact separated (.inl rfl) (by simpa [stepPlace, entryPlace] using step)
          | comma => exact separated (.inr rfl) (by simpa [stepPlace, entryPlace] using step)
          | rightBrace => exact ⟨[], others, .done, List.suffix_refl _⟩
          | identifier key =>
              exact entries_of_key (fun shorter le => value shorter (by simp; omega))
                (fun shorter le => entries shorter (by simp; omega)) reader head before outer
                (by simpa [stepPlace, entryPlace] using step)
          | _ =>
              exact (accepts.not_fail .mapKey (.curly :: outer.map OpenValue.bracket) rfl).elim
      | false =>
          cases kind with
          | newline => exact separated (.inl rfl) (by simpa [stepPlace, entryPlace] using step)
          | comma => exact separated (.inr rfl) (by simpa [stepPlace, entryPlace] using step)
          | rightBrace => exact ⟨[], others, .done, List.suffix_refl _⟩
          | _ =>
              exact (accepts.not_fail .mapSeparator (.curly :: outer.map OpenValue.bracket)
                rfl).elim

/-- Values, items and entries are sound together, by induction on the length of the input. -/
theorem sound_values (length : Nat) :
    ∀ input : List TokenKind, input.length = length →
      ValueSound input ∧ ItemsSound input ∧ EntriesSound input := by
  induction length using Nat.strongRecOn with
  | ind length inductionHypothesis =>
      rintro input rfl
      have shorterSound := fun shorter lt => inductionHypothesis _ lt shorter rfl
      have value : ValueSound input := valueSound_of_inside
        (fun shorter lt => (shorterSound shorter lt).2.1)
        (fun shorter lt => (shorterSound shorter lt).2.2)
      exact ⟨value,
        itemsSound_of_value value fun shorter lt => (shorterSound shorter lt).2.1,
        entriesSound_of_shorter (fun shorter lt => (shorterSound shorter lt).1)
          fun shorter lt => (shorterSound shorter lt).2.2⟩

/-- What a reader accepts in front of a value starts with a value. -/
theorem valueSound (input : List TokenKind) : ValueSound input :=
  (sound_values input.length input rfl).1

end ServiceDef.Grammar
