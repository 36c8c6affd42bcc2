import ServiceDef.Position

/-!
# Attribute values

A value is a scalar, a list or a map. Lists and maps keep their written order, and a map keeps
every entry it was written with: repeated keys are a matter of validation. Numbers are kept
as they were written.

The functions that recurse into values come in groups of three, one for a value, one for the
items of a list and one for the entries of a map.
-/

namespace ServiceDef

/-- A value without parts. -/
inductive Scalar where
  | string (contents : String)
  | number (lexeme : String)
  | boolean (value : Bool)
deriving DecidableEq, Repr

/-- A part of a map, with the place of its key. -/
structure Entry (α : Type) where
  key : String
  value : α
  position : Position := {}
deriving DecidableEq, Repr

/-- The value of an attribute, of a list item or of a map entry. -/
inductive Value where
  | scalar (scalar : Scalar)
  | list (items : List Value)
  | map (entries : List (Entry Value))
deriving Repr

namespace Value

instance : Inhabited Value := ⟨.list []⟩

/-- A property of all values follows if it passes from the items of a list and from the
values of a map to the list and to the map. -/
theorem induction {motive : Value → Prop}
    (scalar : ∀ s, motive (.scalar s))
    (list : ∀ items, (∀ item ∈ items, motive item) → motive (.list items))
    (map : ∀ entries : List (Entry Value), (∀ entry ∈ entries, motive entry.value) →
      motive (.map entries))
    (value : Value) : motive value :=
  @Value.rec motive
    (fun items => ∀ item ∈ items, motive item)
    (fun entries => ∀ entry ∈ entries, motive entry.value)
    (fun entry => motive entry.value)
    scalar list map
    (by simp)
    (fun _ _ head tail => by simpa using ⟨head, tail⟩)
    (by simp)
    (fun _ _ head tail => by simpa using ⟨head, tail⟩)
    (fun _ _ _ value => value)
    value

mutual

/-- Decides whether two values are equal. -/
def decEq : (left right : Value) → Decidable (left = right)
  | .scalar left, .scalar right =>
    if same : left = right then .isTrue (by rw [same]) else .isFalse (by simp [same])
  | .list left, .list right =>
    match decEqItems left right with
    | .isTrue same => .isTrue (by rw [same])
    | .isFalse differ => .isFalse (by simp [differ])
  | .map left, .map right =>
    match decEqEntries left right with
    | .isTrue same => .isTrue (by rw [same])
    | .isFalse differ => .isFalse (by simp [differ])
  | .scalar _, .list _ => .isFalse (by simp)
  | .scalar _, .map _ => .isFalse (by simp)
  | .list _, .scalar _ => .isFalse (by simp)
  | .list _, .map _ => .isFalse (by simp)
  | .map _, .scalar _ => .isFalse (by simp)
  | .map _, .list _ => .isFalse (by simp)

/-- Decides whether two lists of items are equal. -/
def decEqItems : (left right : List Value) → Decidable (left = right)
  | [], [] => .isTrue rfl
  | [], _ :: _ => .isFalse (by simp)
  | _ :: _, [] => .isFalse (by simp)
  | left :: lefts, right :: rights =>
    match decEq left right with
    | .isFalse differ => .isFalse (by simp [differ])
    | .isTrue same =>
      match decEqItems lefts rights with
      | .isTrue sameTail => .isTrue (by rw [same, sameTail])
      | .isFalse differ => .isFalse (by simp [differ])

/-- Decides whether two lists of map entries are equal. -/
def decEqEntries : (left right : List (Entry Value)) → Decidable (left = right)
  | [], [] => .isTrue rfl
  | [], _ :: _ => .isFalse (by simp)
  | _ :: _, [] => .isFalse (by simp)
  | ⟨leftKey, left, leftPosition⟩ :: lefts, ⟨rightKey, right, rightPosition⟩ :: rights =>
    if sameKey : leftKey = rightKey ∧ leftPosition = rightPosition then
      match decEq left right with
      | .isFalse differ => .isFalse (by simp [differ])
      | .isTrue same =>
        match decEqEntries lefts rights with
        | .isTrue sameTail => .isTrue (by rw [same, sameTail, sameKey.1, sameKey.2])
        | .isFalse differ => .isFalse (by simp [differ])
    else .isFalse (by
      simp only [List.cons.injEq, Entry.mk.injEq]
      exact fun same => sameKey ⟨same.1.1, same.1.2.2⟩)

end

instance : DecidableEq Value := decEq

/-- Whether a value has parts, if only none of them. -/
def isContainer : Value → Bool
  | .scalar _ => false
  | .list _ => true
  | .map _ => true

/-- The contents of a string. -/
def string? : Value → Option String
  | .scalar (.string contents) => some contents
  | _ => none

/-- How a value is named in messages. -/
def describe : Value → String
  | .scalar (.string _) => "a string"
  | .scalar (.number _) => "a number"
  | .scalar (.boolean _) => "a boolean"
  | .list _ => "a list"
  | .map _ => "a map"

mutual

/-- The value without the positions of the map entries in it. -/
def erasePositions : Value → Value
  | .scalar s => .scalar s
  | .list items => .list (erasePositionsItems items)
  | .map entries => .map (erasePositionsEntries entries)

/-- The items without the positions of the map entries in them. -/
def erasePositionsItems : List Value → List Value
  | [] => []
  | item :: items => item.erasePositions :: erasePositionsItems items

/-- The entries without their positions and those of the map entries in them. -/
def erasePositionsEntries : List (Entry Value) → List (Entry Value)
  | [] => []
  | ⟨key, value, _⟩ :: entries =>
    { key := key, value := value.erasePositions } :: erasePositionsEntries entries

end

mutual

/-- The entries of each map in a value, a map before those in its values. -/
def maps : Value → List (List (Entry Value))
  | .scalar _ => []
  | .list items => mapsOfItems items
  | .map entries => entries :: mapsOfEntries entries

/-- The entries of each map in the items of a list. -/
def mapsOfItems : List Value → List (List (Entry Value))
  | [] => []
  | item :: items => item.maps ++ mapsOfItems items

/-- The entries of each map in the values of a map. -/
def mapsOfEntries : List (Entry Value) → List (List (Entry Value))
  | [] => []
  | ⟨_, value, _⟩ :: entries => value.maps ++ mapsOfEntries entries

end

theorem mapsOfItems_eq_flatMap (items : List Value) : mapsOfItems items = items.flatMap maps := by
  induction items with
  | nil => rfl
  | cons item items inductionHypothesis => simp [mapsOfItems, inductionHypothesis]

theorem mapsOfEntries_eq_flatMap (entries : List (Entry Value)) :
    mapsOfEntries entries = entries.flatMap fun entry => entry.value.maps := by
  induction entries with
  | nil => rfl
  | cons entry entries inductionHypothesis => simp [mapsOfEntries, inductionHypothesis]

end Value

end ServiceDef
