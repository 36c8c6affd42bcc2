import ServiceDef.Proofs.Grammar.Derivation
import ServiceDef.Proofs.Recovery.Values

/-!
# Brackets in derivations

The tokens of a value or an action are balanced: they leave the open brackets as they were,
whatever these are. Balanced tokens neither start with a closing bracket nor end with an opening
one.
-/

namespace ServiceDef

/-! ## Open brackets -/

/-- Whether the token opens a bracket. -/
def TokenKind.opens : TokenKind → Bool
  | .leftBrace => true
  | .leftBracket => true
  | _ => false

/-- Whether the token closes a bracket. -/
def TokenKind.closes : TokenKind → Bool
  | .rightBrace => true
  | .rightBracket => true
  | _ => false

/-- A token that is no bracket leaves the open brackets alone. -/
theorem nest_of_neutral {kind : TokenKind} (neutral : (kind.opens || kind.closes) = false)
    (opened : List Bracket) : kind.nest opened = some opened := by
  cases kind <;> first | rfl | cases neutral

theorem nest_opening (bracket : Bracket) (outer : List Bracket) :
    bracket.opening.nest outer = some (bracket :: outer) := by
  cases bracket <;> rfl

theorem closes_closing (bracket : Bracket) : bracket.closing.closes = true := by
  cases bracket <;> rfl

/-- The open brackets behind tokens of the given kinds, innermost first, if all are properly
nested. -/
def nestingOf (opened : List Bracket) (kinds : List TokenKind) : Option (List Bracket) :=
  kinds.foldlM (fun opened kind => kind.nest opened) opened

theorem nesting_eq_nestingOf (opened : List Bracket) (tokens : List Token) :
    nesting opened tokens = nestingOf opened (tokens.map (·.kind)) := by
  rw [nesting, nestingOf, List.foldlM_map]

@[simp] theorem nestingOf_nil (opened : List Bracket) : nestingOf opened [] = some opened := rfl

@[simp] theorem nestingOf_cons (opened : List Bracket) (kind : TokenKind)
    (kinds : List TokenKind) :
    nestingOf opened (kind :: kinds) = (kind.nest opened).bind fun inner => nestingOf inner kinds :=
  List.foldlM_cons

theorem nestingOf_append (opened : List Bracket) (first second : List TokenKind) :
    nestingOf opened (first ++ second) =
      (nestingOf opened first).bind fun inner => nestingOf inner second :=
  List.foldlM_append

/-! ## Balanced tokens -/

/-- The tokens leave the open brackets as they were, whatever these are. -/
def Balanced (kinds : List TokenKind) : Prop :=
  ∀ opened, nestingOf opened kinds = some opened

namespace Balanced

variable {kind : TokenKind} {kinds first second : List TokenKind}

theorem nil : Balanced [] :=
  nestingOf_nil

theorem append (front : Balanced first) (back : Balanced second) : Balanced (first ++ second) := by
  intro opened
  rw [nestingOf_append, front, Option.bind_some, back]

theorem cons (neutral : (kind.opens || kind.closes) = false) (balanced : Balanced kinds) :
    Balanced (kind :: kinds) := by
  intro opened
  rw [nestingOf_cons, nest_of_neutral neutral, Option.bind_some, balanced]

/-- No bracket is open in front of the first token, so it closes none. -/
theorem closes_eq_false (balanced : Balanced (kind :: kinds)) : kind.closes = false := by
  have nested := balanced []
  cases kind <;> first | rfl | cases nested

/-- No bracket is open behind the last token, so it opens none. -/
theorem opens_eq_false (balanced : Balanced (kinds ++ [kind])) : kind.opens = false := by
  have nested := balanced []
  rw [nestingOf_append] at nested
  obtain ⟨inner, -, last⟩ := Option.bind_eq_some_iff.1 nested
  cases kind <;> first | rfl | cases last

end Balanced

/-! ## Derivations -/

namespace Grammar

theorem neutral_sign {sign : TokenKind} (assigns : IsSign sign) :
    (sign.opens || sign.closes) = false := by
  rcases assigns with rfl | rfl <;> rfl

theorem neutral_separator {kind : TokenKind} (separates : IsSeparator kind) :
    (kind.opens || kind.closes) = false := by
  rcases separates with rfl | rfl <;> rfl

/-- What is open in front of a value is open behind it. -/
theorem DerivesValue.nestingOf_eq {input rest : List TokenKind} {value : Value}
    (derivation : DerivesValue input value rest) :
    ∀ opened, nestingOf opened input = nestingOf opened rest := by
  refine @DerivesValue.rec
    (fun input _ rest _ => ∀ opened, nestingOf opened input = nestingOf opened rest)
    (fun _ input _ rest _ => ∀ opened, nestingOf opened input = nestingOf opened rest)
    (fun input _ rest _ => ∀ opened, nestingOf opened input = nestingOf opened rest)
    (fun _ input _ rest _ => ∀ opened, nestingOf opened input = nestingOf opened rest)
    ?string ?number ?boolean ?list ?map ?itemsDone ?itemsNewline ?itemsComma ?itemsItem ?entry
    ?entriesDone ?entriesSeparator ?entriesItem input value rest derivation
  case string => exact fun _ _ _ => rfl
  case number => exact fun _ _ _ => rfl
  case boolean => exact fun _ _ _ => rfl
  case list => exact fun _ inside opened => inside (.square :: opened)
  case map => exact fun _ inside opened => inside (.curly :: opened)
  case itemsDone => exact fun _ => rfl
  case itemsNewline => exact fun _ others => others
  case itemsComma => exact fun _ others => others
  case itemsItem => exact fun _ _ first others opened => (first opened).trans (others opened)
  case entry =>
    intro key sign input value rest assigns _ part opened
    rw [nestingOf_cons, nest_of_neutral rfl, Option.bind_some, nestingOf_cons,
      nest_of_neutral (neutral_sign assigns), Option.bind_some, part]
  case entriesDone => exact fun _ => rfl
  case entriesSeparator =>
    intro ready kind input entries rest separates _ others opened
    rw [nestingOf_cons, nest_of_neutral (neutral_separator separates), Option.bind_some, others]
  case entriesItem => exact fun _ _ first others opened => (first opened).trans (others opened)

/-- The tokens of a value are balanced. -/
theorem DerivesValue.balanced {kinds : List TokenKind} {value : Value}
    (derivation : DerivesValue kinds value []) : Balanced kinds :=
  derivation.nestingOf_eq

/-- The tokens of an action are no brackets. -/
theorem DerivesAction.balanced {kinds : List TokenKind} {action : Action}
    (derivation : DerivesAction kinds action []) : Balanced kinds := by
  cases derivation with
  | action aim answer => cases aim <;> cases answer <;> exact fun _ => rfl

end Grammar

end ServiceDef
