import ServiceDef.Proofs.Grammar.Derivation

/-!
# Braces in derivations

In every part of a document, as many braces are closed as are opened. A derivation thus leaves
the count of braces as it was: what is open in its input is open in the rest behind it.
-/

namespace ServiceDef.Grammar

/-- The number of braces that are opened in an input and not closed again. -/
def openBraces (input : List TokenKind) : Int :=
  input.count .leftBrace - input.count .rightBrace

@[simp] theorem openBraces_leftBrace (input : List TokenKind) :
    openBraces (.leftBrace :: input) = openBraces input + 1 := by
  simp [openBraces]
  omega

@[simp] theorem openBraces_rightBrace (input : List TokenKind) :
    openBraces (.rightBrace :: input) = openBraces input - 1 := by
  simp [openBraces]
  omega

/-- All other tokens leave the count alone. -/
theorem openBraces_cons {kind : TokenKind} (input : List TokenKind)
    (noBrace : kind ≠ .leftBrace ∧ kind ≠ .rightBrace) :
    openBraces (kind :: input) = openBraces input := by
  simp [openBraces, noBrace]

theorem openBraces_sign {sign : TokenKind} (assigns : IsSign sign) (input : List TokenKind) :
    openBraces (sign :: input) = openBraces input := by
  rcases assigns with rfl | rfl <;> exact openBraces_cons input (by simp)

theorem openBraces_separator {kind : TokenKind} (separates : IsSeparator kind)
    (input : List TokenKind) : openBraces (kind :: input) = openBraces input := by
  rcases separates with rfl | rfl <;> exact openBraces_cons input (by simp)

theorem openBraces_newline {kind : TokenKind} (separates : IsNewline kind)
    (input : List TokenKind) : openBraces (kind :: input) = openBraces input := by
  cases separates
  exact openBraces_cons input (by simp)

theorem openBraces_identifier (name : String) (input : List TokenKind) :
    openBraces (.identifier name :: input) = openBraces input :=
  openBraces_cons input (by simp)

/-- A series leaves the count alone if its separators and items do. -/
theorem Series.openBraces_eq {α : Type} {IsSep : TokenKind → Prop}
    {Item : List TokenKind → α → List TokenKind → Prop}
    (separator : ∀ {kind : TokenKind}, IsSep kind → ∀ input,
      openBraces (kind :: input) = openBraces input)
    (item : ∀ {input : List TokenKind} {part : α} {rest : List TokenKind},
      Item input part rest → openBraces input = openBraces rest)
    {ready : Bool} {input rest : List TokenKind} {items : List α}
    (series : Series IsSep Item ready input items rest) : openBraces input = openBraces rest := by
  induction series with
  | done => rfl
  | separator separates _ inductionHypothesis =>
      rw [separator separates, inductionHypothesis]
  | item first _ inductionHypothesis => rw [item first, inductionHypothesis]

theorem DerivesValue.openBraces_eq {input rest : List TokenKind} {value : Value}
    (derivation : DerivesValue input value rest) : openBraces input = openBraces rest := by
  refine @DerivesValue.rec
    (fun input _ rest _ => openBraces input = openBraces rest)
    (fun _ input _ rest _ => openBraces input = openBraces rest)
    (fun input _ rest _ => openBraces input = openBraces rest)
    (fun _ input _ rest _ => openBraces input = openBraces rest)
    ?string ?number ?boolean ?list ?map ?itemsDone ?itemsNewline ?itemsComma ?itemsItem ?entry
    ?entriesDone ?entriesSeparator ?entriesItem input value rest derivation
  case string => exact fun _ rest => openBraces_cons rest (by simp)
  case number => exact fun _ rest => openBraces_cons rest (by simp)
  case boolean => exact fun _ rest => openBraces_cons rest (by simp)
  case list =>
    intro input items rest _ inside
    rw [openBraces_cons input (by simp), inside, openBraces_cons rest (by simp)]
  case map =>
    intro input entries rest _ inside
    rw [openBraces_leftBrace, inside, openBraces_rightBrace]
    omega
  case itemsDone => intros; rfl
  case itemsNewline =>
    intro ready input items rest _ others
    rw [openBraces_cons input (by simp), others]
  case itemsComma =>
    intro input items rest _ others
    rw [openBraces_cons input (by simp), others]
  case itemsItem =>
    intro input item middle items rest _ _ first others
    rw [first, others]
  case entry =>
    intro key sign input value rest assigns _ part
    rw [openBraces_identifier, openBraces_sign assigns, part]
  case entriesDone => intros; rfl
  case entriesSeparator =>
    intro ready kind input entries rest separates _ others
    rw [openBraces_separator separates, others]
  case entriesItem =>
    intro input entry middle entries rest _ _ first others
    rw [first, others]

theorem DerivesAction.openBraces_eq {input rest : List TokenKind} {action : Action}
    (derivation : DerivesAction input action rest) : openBraces input = openBraces rest := by
  cases derivation with
  | action aim answer =>
      have target {kind : TokenKind} {text : String} (aim : IsTarget kind text) :
          kind ≠ .leftBrace ∧ kind ≠ .rightBrace := by
        cases aim <;> simp
      have handler {kind : TokenKind} {text : String} (answer : IsHandler kind text) :
          kind ≠ .leftBrace ∧ kind ≠ .rightBrace := by
        cases answer <;> simp
      rw [openBraces_identifier, openBraces_cons _ (target aim), openBraces_cons _ (by simp),
        openBraces_cons _ (handler answer)]

/-- A block leaves the count of braces alone, and so do the statements in it. -/
theorem DerivesBlock.openBraces_eq {input rest : List TokenKind} {block : Block}
    (derivation : DerivesBlock input block rest) : openBraces input = openBraces rest := by
  refine @DerivesBlock.rec
    (fun input _ rest _ => openBraces input = openBraces rest)
    (fun input _ rest _ => openBraces input = openBraces rest)
    (fun _ input _ rest _ => openBraces input = openBraces rest)
    ?action ?group ?actionKey ?assignment ?nested ?unlabelled ?labelled ?done ?separator ?item
    input block rest derivation
  case action => exact fun route => route.openBraces_eq
  case group =>
    intro input actions rest inside
    have actions := inside.openBraces_eq openBraces_newline DerivesAction.openBraces_eq
    rw [openBraces_identifier, openBraces_leftBrace, actions, openBraces_rightBrace]
    omega
  case actionKey =>
    intro sign input action rest assigns route
    rw [openBraces_identifier, openBraces_sign assigns, route.openBraces_eq]
  case assignment =>
    intro key sign input value rest assigns part
    rw [openBraces_identifier, openBraces_sign assigns, part.openBraces_eq]
  case nested => exact fun _ _ part => part
  case unlabelled =>
    intro kind input statements rest _ inside
    rw [openBraces_identifier, openBraces_leftBrace, inside, openBraces_rightBrace]
    omega
  case labelled =>
    intro kind label input statements rest _ inside
    rw [openBraces_identifier, openBraces_cons _ (by simp), openBraces_leftBrace, inside,
      openBraces_rightBrace]
    omega
  case done => intros; rfl
  case separator =>
    intro ready kind input statements rest separates _ others
    rw [openBraces_newline separates, others]
  case item =>
    intro input statement middle statements rest _ _ first others
    rw [first, others]

/-- The braces of blocks and what is between them close each other. -/
theorem count_braces_of_series {content : List TokenKind} {blocks : List Block}
    (series : Series IsNewline DerivesBlock true content blocks []) :
    content.count .leftBrace = content.count .rightBrace := by
  have none := series.openBraces_eq openBraces_newline DerivesBlock.openBraces_eq
  simp only [openBraces, List.count_nil] at none
  omega

end ServiceDef.Grammar
