import ServiceDef.Proofs.Grammar.Derivation
import ServiceDef.Proofs.Reader.Operations

/-!
# Reading what derives from the grammar

A reader that is given the kinds of tokens, without comments and positions, follows every
derivation: it goes through the input of the derivation and holds the tree of the derivation
when it comes to the rest. The statements are about arbitrary readers, so a value is read in
the same way wherever it stands.
-/

namespace ServiceDef

namespace Reader

/-- Reads tokens of the given kinds. -/
def reads (reader : Reader) (kinds : List TokenKind) : Reader :=
  reader.run (kinds.map Token.bare)

variable (reader : Reader)

@[simp] theorem reads_nil : reader.reads [] = reader := rfl

@[simp] theorem reads_cons (kind : TokenKind) (kinds : List TokenKind) :
    reader.reads (kind :: kinds) = (reader.step (.bare kind)).reads kinds := rfl

@[simp] theorem absorb_bare (kind : TokenKind) : reader.absorb (.bare kind) = reader := by
  simp [absorb, Token.bare]

@[simp] theorem kind_bare (kind : TokenKind) : (Token.bare kind).kind = kind := rfl

@[simp] theorem position_bare (kind : TokenKind) : (Token.bare kind).position = {} := rfl

@[simp] theorem enter_enter (first second : Mode) :
    (reader.enter first).enter second = reader.enter second := rfl

@[simp] theorem complete_enter (mode : Mode) (head : Head) (outer : List OpenValue)
    (value : Value) :
    (reader.enter mode).complete head outer value = reader.complete head outer value := by
  unfold complete
  split <;> rfl

/-- In a mode of a value, the place decides about a step. -/
@[simp] theorem step_value (head : Head) (place : ValuePlace) (token : Token) :
    (reader.enter (.value head place)).step token =
      (reader.enter (.value head place)).stepPlace head place token := rfl

end Reader

namespace Grammar

open Reader

/-- The place in a list in front of an item, or behind one. -/
def itemPlace (ready : Bool) (items : List Value) (outer : List OpenValue) : ValuePlace :=
  if ready then .item items outer else .itemEnd items outer

/-- The place in a map in front of an entry, or behind one. -/
def entryPlace (ready : Bool) (entries : List (Entry Value)) (outer : List OpenValue) :
    ValuePlace :=
  if ready then .key entries outer else .entryEnd entries outer

/-- The first token of a value is read in a list as it is read elsewhere. -/
theorem DerivesValue.reads_item {input rest : List TokenKind} {value : Value}
    (derivation : DerivesValue input value rest) (reader : Reader) (head : Head)
    (items : List Value) (outer : List OpenValue) :
    (reader.enter (.value head (.item items outer))).reads input =
      (reader.enter (.value head (.value (.list items :: outer)))).reads input := by
  cases derivation <;> simp [stepPlace, stepValue]

/-- A reader in front of a value reads the value. -/
theorem DerivesValue.reads {input rest : List TokenKind} {value : Value}
    (derivation : DerivesValue input value rest) :
    ∀ (reader : Reader) (head : Head) (outer : List OpenValue),
      (reader.enter (.value head (.value outer))).reads input =
        (reader.complete head outer value).reads rest := by
  refine @DerivesValue.rec
    (fun input value rest _ => ∀ (reader : Reader) (head : Head) (outer : List OpenValue),
      (reader.enter (.value head (.value outer))).reads input =
        (reader.complete head outer value).reads rest)
    (fun ready input items rest _ => ∀ (reader : Reader) (head : Head) (outer : List OpenValue)
      (before : List Value) (behind : List TokenKind), rest = .rightBracket :: behind →
      (reader.enter (.value head (itemPlace ready before outer))).reads input =
        (reader.complete head outer (.list (before ++ items))).reads behind)
    (fun input entry rest _ => ∀ (reader : Reader) (head : Head) (outer : List OpenValue)
      (before : List (Entry Value)),
      (reader.enter (.value head (.key before outer))).reads input =
        (reader.enter (.value head (.entryEnd (before ++ [entry]) outer))).reads rest)
    (fun ready input entries rest _ => ∀ (reader : Reader) (head : Head)
      (outer : List OpenValue) (before : List (Entry Value)) (behind : List TokenKind),
      rest = .rightBrace :: behind →
      (reader.enter (.value head (entryPlace ready before outer))).reads input =
        (reader.complete head outer (.map (before ++ entries))).reads behind)
    ?string ?number ?boolean ?list ?map ?itemsDone ?itemsNewline ?itemsComma ?itemsItem ?entry
    ?entriesDone ?entriesSeparator ?entriesItem input value rest derivation
  case string =>
    intro contents rest reader head outer
    simp [stepPlace, stepValue]
  case number =>
    intro lexeme rest reader head outer
    simp [stepPlace, stepValue]
  case boolean =>
    intro value rest reader head outer
    simp [stepPlace, stepValue]
  case list =>
    intro input items rest _ inside reader head outer
    have items := inside reader head outer [] rest rfl
    simpa [stepPlace, stepValue, itemPlace] using items
  case map =>
    intro input entries rest _ inside reader head outer
    have entries := inside reader head outer [] rest rfl
    simpa [stepPlace, stepValue, entryPlace] using entries
  case itemsDone =>
    rintro ready _ reader head outer before behind rfl
    cases ready <;> simp [stepPlace, itemPlace]
  case itemsNewline =>
    rintro ready input items rest _ others reader head outer before behind rfl
    have others := others reader head outer before behind rfl
    cases ready <;> simpa [stepPlace, itemPlace] using others
  case itemsComma =>
    rintro input items rest _ others reader head outer before behind rfl
    have others := others reader head outer before behind rfl
    simpa [stepPlace, itemPlace] using others
  case itemsItem =>
    rintro input item middle items rest derivation _ first others reader head outer before behind rfl
    have others := others reader head outer (before ++ [item]) behind rfl
    simp only [itemPlace, ↓reduceIte, Bool.false_eq_true] at others ⊢
    rw [derivation.reads_item, first]
    simpa [complete] using others
  case entry =>
    intro key sign input value rest assigns _ part reader head outer before
    have part := part reader head (.map before key {} :: outer)
    rcases assigns with rfl | rfl <;> simpa [stepPlace, complete] using part
  case entriesDone =>
    rintro ready _ reader head outer before behind rfl
    cases ready <;> simp [stepPlace, entryPlace]
  case entriesSeparator =>
    rintro ready kind input entries rest separates _ others reader head outer before behind rfl
    have others := others reader head outer before behind rfl
    rcases separates with rfl | rfl <;> cases ready <;> simpa [stepPlace, entryPlace] using others
  case entriesItem =>
    rintro input entry middle entries rest _ _ first others reader head outer before behind rfl
    have others := others reader head outer (before ++ [entry]) behind rfl
    simp only [entryPlace, ↓reduceIte, Bool.false_eq_true] at others ⊢
    rw [first]
    simpa using others

/-! ## Identifiers between statements -/

/-- The head of a statement that starts with `name` and takes the waiting comments of the
reader. -/
def headOf (reader : Reader) (name : String) : Head where
  name := name
  comments := reader.pending
  position := {}

/-- In a group, an identifier is a method. -/
theorem step_identifier_of_group (reader : Reader) {position : Position}
    (group : reader.group = some position) (name : String) :
    (reader.enter .statement).step (.bare (.identifier name)) =
      reader.release.enter (.actionTarget (headOf reader name)) := by
  have inGroup : (reader.enter .statement).group = some position := group
  rw [show (reader.enter .statement).step (.bare (.identifier name)) =
    (reader.enter .statement).begin name (.bare (.identifier name)) from rfl,
    begin_of_group _ name _ inGroup]
  simp [release, enter, Reader.head, headOf]

/-- At the top level, an identifier is the kind of a block. -/
theorem step_identifier_of_top (reader : Reader) (group : reader.group = none)
    (top : reader.openBlocks = []) (name : String) :
    (reader.enter .statement).step (.bare (.identifier name)) =
      reader.release.enter (.header (headOf reader name)) := by
  have noGroup : (reader.enter .statement).group = none := group
  rw [show (reader.enter .statement).step (.bare (.identifier name)) =
    (reader.enter .statement).begin name (.bare (.identifier name)) from rfl,
    begin_of_top _ name _ noGroup top]
  simp [release, enter, Reader.head, headOf]

/-- In a block, an identifier can be the start of any statement. -/
theorem step_identifier_of_block (reader : Reader) {block : Block} {outer : List Block}
    (group : reader.group = none) (inside : reader.openBlocks = block :: outer) (name : String) :
    (reader.enter .statement).step (.bare (.identifier name)) = reader.enter (.named name {}) := by
  have noGroup : (reader.enter .statement).group = none := group
  rw [show (reader.enter .statement).step (.bare (.identifier name)) =
    (reader.enter .statement).begin name (.bare (.identifier name)) from rfl,
    begin_of_block _ name _ noGroup inside]
  simp

/-! ## Behind the first identifier of a statement -/

/-- A path makes the statement an action. -/
theorem step_named_path (reader : Reader) (name target : String) :
    (reader.enter (.named name {})).step (.bare (.path target)) =
      reader.release.enter (.actionArrow (headOf reader name) target) := by
  simp [step, enter, stepNamed, absorb, Token.bare, release, Reader.head, headOf]

/-- A string is a label or a target; only the token behind it decides. -/
theorem step_named_string (reader : Reader) (name label : String) :
    (reader.enter (.named name {})).step (.bare (.string label)) =
      reader.release.enter (.labelled (headOf reader name) label) := by
  simp [step, enter, stepNamed, absorb, Token.bare, release, Reader.head, headOf]

/-- A sign makes the statement an attribute. -/
theorem step_named_sign (reader : Reader) {name : String} {sign : TokenKind}
    (assigns : IsSign sign) (plain : name ≠ Word.action) :
    (reader.enter (.named name {})).step (.bare sign) =
      reader.release.enter (.value (headOf reader name) (.value [])) := by
  rcases assigns with rfl | rfl <;>
    simp [step, enter, stepNamed, absorb, Token.bare, release, Reader.head, headOf, plain]

/-- Behind the key of a single action, a sign leaves open whether an action follows. -/
theorem step_named_actionSign (reader : Reader) {sign : TokenKind} (assigns : IsSign sign) :
    (reader.enter (.named Word.action {})).step (.bare sign) =
      reader.release.enter (.actionKey (headOf reader Word.action)) := by
  rcases assigns with rfl | rfl <;>
    simp [step, enter, stepNamed, absorb, Token.bare, release, Reader.head, headOf]

/-- Behind the key of a single action and its sign, an identifier is a method. -/
theorem step_actionKey_identifier (reader : Reader) (head : Head) (method : String) :
    (reader.enter (.actionKey head)).step (.bare (.identifier method)) =
      reader.release.enter (.actionTarget
        { name := method, comments := head.comments ++ reader.pending, position := {} }) := by
  simp [step, enter, stepActionKey, Token.bare, release]

/-- A brace opens a group behind the word for one. -/
theorem step_named_group (reader : Reader) :
    (reader.enter (.named Word.actions {})).step (.bare .leftBrace) =
      ({ reader with group := some {} } : Reader).enter .statement := by
  simp [step, enter, stepNamed, absorb, Token.bare]

/-- A brace opens a block behind any other word. -/
theorem step_named_brace (reader : Reader) {name : String} (noGroup : name ≠ Word.actions) :
    (reader.enter (.named name {})).step (.bare .leftBrace) =
      reader.release.openBlock (headOf reader name) none := by
  simp [step, enter, stepNamed, absorb, Token.bare, release, openBlock, Reader.head, headOf,
    noGroup]

/-- At the top level, a brace opens a block. -/
theorem step_header_brace (reader : Reader) (head : Head) :
    (reader.enter (.header head)).step (.bare .leftBrace) = reader.openBlock head none := by
  simp [step, enter, stepHeader, absorb, Token.bare, openBlock]

/-- At the top level, a string is a label. -/
theorem step_header_string (reader : Reader) (head : Head) (label : String) :
    (reader.enter (.header head)).step (.bare (.string label)) =
      reader.enter (.labelled head label) := by
  simp [step, enter, stepHeader, absorb, Token.bare]

/-- Inside of a block, an arrow makes an identifier and a string the start of an action. -/
theorem step_labelled_arrow (reader : Reader) (head : Head) (label : String) {block : Block}
    {outer : List Block} (inside : reader.openBlocks = block :: outer) :
    (reader.enter (.labelled head label)).step (.bare .arrow) =
      reader.enter (.actionHandler head label) := by
  simp [step, enter, stepLabelled, absorb, Token.bare, inside]

/-- A brace makes an identifier and a string the header of a block. -/
theorem step_labelled_brace (reader : Reader) (head : Head) (label : String) :
    (reader.enter (.labelled head label)).step (.bare .leftBrace) =
      reader.openBlock head (some label) := by
  simp [step, enter, stepLabelled, absorb, Token.bare, openBlock]

/-! ## Actions -/

/-- Behind the method of an action stands its target. -/
theorem step_target {kind : TokenKind} {target : String} (aim : IsTarget kind target)
    (reader : Reader) (head : Head) :
    (reader.enter (.actionTarget head)).step (.bare kind) =
      reader.enter (.actionArrow head target) := by
  cases aim <;> simp [Reader.step, enter, stepActionTarget, absorb, Token.bare]

/-- Behind the target of an action stands an arrow. -/
theorem step_arrow (reader : Reader) (head : Head) (target : String) :
    (reader.enter (.actionArrow head target)).step (.bare .arrow) =
      reader.enter (.actionHandler head target) := by
  simp [step, enter, stepActionArrow, absorb, Token.bare]

/-- A reader behind the arrow of an action reads the handler. -/
theorem step_handler {kind : TokenKind} {handler : String} (answer : IsHandler kind handler)
    (reader : Reader) (head : Head) (target : String) :
    (reader.enter (.actionHandler head target)).step (.bare kind) =
      reader.enter (.actionEnd
        { method := head.name
          target := target
          handler := handler
          comments := head.comments
          position := head.position }) := by
  cases answer <;> simp [step, enter, stepActionHandler, absorb, Token.bare]

/-- A reader behind the method of an action reads the rest of the action. -/
theorem reads_target {targetKind handlerKind : TokenKind} {target handler : String}
    (aim : IsTarget targetKind target) (answer : IsHandler handlerKind handler) (reader : Reader)
    (head : Head) (rest : List TokenKind) :
    (reader.enter (.actionTarget head)).reads (targetKind :: .arrow :: handlerKind :: rest) =
      (reader.enter (.actionEnd
        { method := head.name
          target := target
          handler := handler
          comments := head.comments
          position := head.position })).reads rest := by
  rw [reads_cons, step_target aim, reads_cons, step_arrow, reads_cons, step_handler answer]

/-- In a group, a reader between two statements reads an action. -/
theorem DerivesAction.reads_of_group {input rest : List TokenKind} {action : Action}
    (derivation : DerivesAction input action rest) (reader : Reader) {position : Position}
    (group : reader.group = some position) :
    (reader.enter .statement).reads input =
      (reader.release.enter (.actionEnd { action with comments := reader.pending })).reads rest := by
  obtain ⟨aim, answer⟩ := derivation
  rw [reads_cons, step_identifier_of_group reader group, reads_target aim answer]
  rfl

/-- In a block, a reader between two statements reads an action. -/
theorem DerivesAction.reads_of_block {input rest : List TokenKind} {action : Action}
    (derivation : DerivesAction input action rest) (reader : Reader) {block : Block}
    {outer : List Block} (group : reader.group = none)
    (inside : reader.openBlocks = block :: outer) :
    (reader.enter .statement).reads input =
      (reader.release.enter (.actionEnd { action with comments := reader.pending })).reads rest := by
  obtain ⟨aim, answer⟩ := derivation
  rw [reads_cons, step_identifier_of_block reader group inside, reads_cons]
  cases aim with
  | path target =>
      rw [step_named_path, reads_cons, step_arrow, reads_cons, step_handler answer]
      rfl
  | string target =>
      rw [step_named_string, reads_cons, step_labelled_arrow reader.release _ _ inside, reads_cons,
        step_handler answer]
      rfl

/-- In a block, a reader between two statements reads an action behind its key. -/
theorem DerivesAction.reads_of_key {input rest : List TokenKind} {action : Action}
    {sign : TokenKind} (derivation : DerivesAction input action rest) (assigns : IsSign sign)
    (reader : Reader) {block : Block} {outer : List Block} (group : reader.group = none)
    (inside : reader.openBlocks = block :: outer) :
    (reader.enter .statement).reads (.identifier Word.action :: sign :: input) =
      (reader.release.enter (.actionEnd { action with comments := reader.pending })).reads rest := by
  obtain ⟨aim, answer⟩ := derivation
  rw [reads_cons, step_identifier_of_block reader group inside, reads_cons,
    step_named_actionSign reader assigns, reads_cons, step_actionKey_identifier,
    reads_target aim answer]
  simp [release, headOf]

/-! ## Attributes and headers -/

/-- No value starts with an identifier, so the key of a single action can be a plain key. -/
theorem DerivesValue.reads_actionKey {input rest : List TokenKind} {value : Value}
    (derivation : DerivesValue input value rest) (reader : Reader) (head : Head) :
    (reader.enter (.actionKey head)).reads input =
      (reader.enter (.value head (.value []))).reads input := by
  cases derivation <;>
    simp [step, enter, stepActionKey, stepPlace, stepValue, absorb, Token.bare, complete]

/-- In a block, a reader between two statements reads an attribute. -/
theorem DerivesValue.reads_assignment {input rest : List TokenKind} {value : Value}
    {sign : TokenKind} (derivation : DerivesValue input value rest) (assigns : IsSign sign)
    (key : String) (reader : Reader) {block : Block} {outer : List Block}
    (group : reader.group = none) (inside : reader.openBlocks = block :: outer) :
    (reader.enter .statement).reads (.identifier key :: sign :: input) =
      (reader.release.enter (.attributeEnd
        { key := key, value := value, comments := reader.pending })).reads rest := by
  have atValue := derivation.reads reader.release (headOf reader key) []
  rw [reads_cons, step_identifier_of_block reader group inside, reads_cons]
  by_cases action : key = Word.action
  · subst action
    rw [step_named_actionSign reader assigns, derivation.reads_actionKey, atValue]
    rfl
  · rw [step_named_sign reader assigns action, atValue]
    rfl

/-- A reader between two statements reads the header of a block without a label. In a block,
the kind must not be the word for a group. -/
theorem reads_header (reader : Reader) (kind : String) (rest : List TokenKind)
    (group : reader.group = none) (noGroup : reader.openBlocks = [] ∨ kind ≠ Word.actions) :
    (reader.enter .statement).reads (.identifier kind :: .leftBrace :: rest) =
      (reader.release.openBlock (headOf reader kind) none).reads rest := by
  cases opened : reader.openBlocks with
  | nil =>
      rw [reads_cons, step_identifier_of_top reader group opened, reads_cons, step_header_brace]
  | cons block outer =>
      have different : kind ≠ Word.actions := by
        rcases noGroup with top | different
        · simp [opened] at top
        · exact different
      rw [reads_cons, step_identifier_of_block reader group opened, reads_cons,
        step_named_brace reader different]

/-- A reader between two statements reads the header of a block with a label. -/
theorem reads_labelledHeader (reader : Reader) (kind label : String) (rest : List TokenKind)
    (group : reader.group = none) :
    (reader.enter .statement).reads (.identifier kind :: .string label :: .leftBrace :: rest) =
      (reader.release.openBlock (headOf reader kind) (some label)).reads rest := by
  cases opened : reader.openBlocks with
  | nil =>
      rw [reads_cons, step_identifier_of_top reader group opened, reads_cons, step_header_string,
        reads_cons, step_labelled_brace]
  | cons block outer =>
      rw [reads_cons, step_identifier_of_block reader group opened, reads_cons, step_named_string,
        reads_cons, step_labelled_brace]

/-- In a block, a reader between two statements reads the start of a group of actions. -/
theorem reads_groupHeader (reader : Reader) {block : Block} {outer : List Block}
    (rest : List TokenKind) (group : reader.group = none)
    (inside : reader.openBlocks = block :: outer) :
    (reader.enter .statement).reads (.identifier Word.actions :: .leftBrace :: rest) =
      (({ reader with group := some {} } : Reader).enter .statement).reads rest := by
  rw [reads_cons, step_identifier_of_block reader group inside, reads_cons, step_named_group]

end Grammar

end ServiceDef
