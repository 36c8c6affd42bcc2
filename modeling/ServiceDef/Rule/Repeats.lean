/-!
# Repeated keys

The elements of a list that have the key of an earlier element, and the groups of elements
that share a key.
-/

namespace ServiceDef

/-- The elements whose key occurs before them, each with the first element of that key, when
`firsts` are the first elements of the keys so far. -/
def repeatsAfter {α κ : Type} [DecidableEq κ] (key : α → κ) (firsts : List α) :
    List α → List (α × α)
  | [] => []
  | element :: rest =>
    match firsts.find? fun first => key first = key element with
    | some first => (element, first) :: repeatsAfter key firsts rest
    | none => repeatsAfter key (firsts ++ [element]) rest

/-- The elements whose key occurs before them, each with the first element of that key. -/
def repeats {α κ : Type} [DecidableEq κ] (key : α → κ) (elements : List α) : List (α × α) :=
  repeatsAfter key [] elements

/-- The elements of each key, in the order in which the keys occur first. -/
def groupByKey {α κ : Type} [DecidableEq κ] (key : α → κ) (elements : List α) : List (List α) :=
  (elements.map key).eraseDups.map fun k => elements.filter fun element => key element = k

end ServiceDef
