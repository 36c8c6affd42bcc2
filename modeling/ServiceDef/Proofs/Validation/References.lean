import Mathlib.Data.List.Infix
import ServiceDef.Proofs.Validation.Scoping
import ServiceDef.Rule.Builtin

/-!
# Reports about dependencies

Two rules share the names that a block depends on. One reports the names that no block around there
has, one by one, and the other reports once that the block depends on itself. Together they account
for every name: it is the block's own label, or it is visible from there, or it is reported, and
never two of these (`Document.DependencyReports`).
-/

namespace ServiceDef

/-- The first attribute of the block for dependencies is the given one, and it holds a list. -/
def Block.ListsDependencies (block : Block) (attr : Attribute) (items : List Value) : Prop :=
  ∃ before after, block.attributes = before ++ attr :: after ∧ attr.key = Schema.dependsOn ∧
    (∀ other ∈ before, other.key ≠ Schema.dependsOn) ∧ attr.value = .list items

instance (document : Document) (around : List Block) (label : String) :
    Decidable (document.Visible around label) :=
  decidable_of_iff
    (∃ outer ∈ around.tails, ∃ block ∈ document.siblings outer, block.label = some label)
    (by simp [Document.Visible])

/-- The reports about the names that the block at a place depends on, where an attribute at the
given position lists them. -/
structure Document.DependencyReports (document : Document) (place : Place) (position : Position)
    (names : List String) (unresolved own : List Diagnostic) : Prop where
  /-- One error for each time that a name is listed which is neither the label of the block nor
  visible from there. -/
  unresolved_eq : unresolved =
    (names.filter fun name =>
        place.block.label ≠ some name ∧ ¬ document.Visible place.around name).map
      fun name =>
        { severity := .error
          rule := "unresolved-reference"
          message := backquoted place.block.display ++ " depends on " ++ backquoted name ++
            ", which is not defined"
          position := position }
  /-- One error if the label of the block is listed, however often. -/
  own_eq : own =
    if ∃ name ∈ names, place.block.label = some name then
      [{ severity := .error
         rule := "self-reference"
         message := backquoted place.block.display ++ " depends on itself"
         position := position }]
    else []
  /-- Every name that is listed is visible, or reported, or the label of the block. -/
  length_eq : names.length =
    (names.countP fun name =>
        place.block.label ≠ some name ∧ document.Visible place.around name) +
      unresolved.length + names.countP fun name => place.block.label = some name

namespace Rule

/-- The dependencies of a block are the strings of the list that it has for them. -/
theorem dependencies_of_lists {block : Block} {attr : Attribute} {items : List Value}
    (lists : block.ListsDependencies attr items) :
    dependencies block = some (attr.position, items.filterMap Value.string?) := by
  obtain ⟨before, after, split, isKey, others, value⟩ := lists
  have found : block.attribute? Schema.dependsOn = some attr := by
    rw [Block.attribute?, List.find?_eq_some_iff_append]
    exact ⟨by simpa using isKey, before, after, split, by simpa using others⟩
  obtain ⟨key, value', comments, trailingComment, position⟩ := attr
  cases value
  rw [dependencies, found]

/-- A block without such a list has no dependencies. -/
theorem dependencies_eq_none {block : Block}
    (absent : ∀ attr items, ¬ block.ListsDependencies attr items) :
    dependencies block = none := by
  unfold dependencies
  split
  · next found =>
      rw [Block.attribute?, List.find?_eq_some_iff_append] at found
      obtain ⟨isKey, before, after, split, others⟩ := found
      exact (absent _ _ ⟨before, after, split, by simpa using isKey, by simpa using others,
        rfl⟩).elim
  · rfl

theorem isNone_lookup?_site (document : Document) (place : Place) (name : String) :
    ((place.site document).environment.lookup? name).isNone =
      decide (¬ document.Visible place.around name) := by
  have visible := @Document.lookup?_isSome_iff document place.around name
  rw [Bool.eq_iff_iff, decide_eq_true_eq, ← visible, Option.isNone_iff_eq_none,
    Option.not_isSome_iff_eq_none]
  rfl

/-- Reports of the elements with a property. -/
theorem flatMap_reportIf {α : Type} (elements : List α) (present : α → Bool) (problem : α → Problem)
    (position : Position) :
    (elements.flatMap fun element => reportIf (present element) (problem element) position) =
      (elements.filter present).map fun element => (problem element).report position := by
  induction elements with
  | nil => rfl
  | cons element elements inductionHypothesis =>
      rw [List.flatMap_cons, inductionHypothesis, List.filter_cons, reportIf]
      split <;> rfl

/-- The names of a list of dependencies that are neither the label of the block nor visible from
its place are reported one by one. -/
theorem unresolvedReference_eq (document : Document) (place : Place) {position : Position}
    {names : List String} (listed : dependencies place.block = some (position, names)) :
    unresolvedReference (place.site document) =
      (names.filter fun name =>
          place.block.label ≠ some name ∧ ¬ document.Visible place.around name).map
        fun name => (Problem.unresolvedReference place.block.display name).report position := by
  have block : (place.site document).block = place.block := rfl
  rw [unresolvedReference, block, listed]
  dsimp only
  rw [flatMap_reportIf]
  refine congrArg (List.map _) (List.filter_congr fun name _ => ?_)
  rw [isNone_lookup?_site]
  simp

theorem selfReference_eq (document : Document) (place : Place) {position : Position}
    {names : List String} (listed : dependencies place.block = some (position, names)) :
    selfReference (place.site document) =
      if ∃ name ∈ names, place.block.label = some name then
        [(Problem.selfReference place.block.display).report position]
      else [] := by
  have block : (place.site document).block = place.block := rfl
  rw [selfReference, block, listed]
  cases place.block.label with
  | none => simp
  | some label => simp [reportIf]

/-- The two rules account for all dependencies of a block. -/
theorem dependencyReports_of_lists (document : Document) (place : Place) {attr : Attribute}
    {items : List Value} (lists : place.block.ListsDependencies attr items) :
    document.DependencyReports place attr.position (items.filterMap Value.string?)
      (unresolvedReference (place.site document)) (selfReference (place.site document)) where
  unresolved_eq := unresolvedReference_eq document place (dependencies_of_lists lists)
  own_eq := selfReference_eq document place (dependencies_of_lists lists)
  length_eq := by
    rw [unresolvedReference_eq document place (dependencies_of_lists lists), List.length_map,
      ← List.countP_eq_length_filter]
    -- A name that is not the label of the block is visible or not.
    induction items.filterMap Value.string? with
    | nil => rfl
    | cons name names inductionHypothesis =>
        rw [List.length_cons, List.countP_cons, List.countP_cons, List.countP_cons,
          inductionHypothesis]
        by_cases own : place.block.label = some name
        · simp [own]
          omega
        · by_cases visible : document.Visible place.around name
          · simp [own, visible]
            omega
          · simp [own, visible]
            omega

end Rule

theorem Document.map_block_places (document : Document) :
    document.places.map (·.block) = document.preorder := by
  rw [← map_block_sites, sites_eq_map_places, List.map_map]
  rfl

/-- Dependencies are reported exactly. The blocks of a document are taken in written order, each
before those in it. Nothing is reported about a block that has no list of dependencies. About any
other one it is reported, at the attribute with the list, which of its names are not visible, each
time that one is listed, and once if the block depends on itself. -/
theorem dependencies_reported_exactly (document : Document) :
    document.places.map (·.block) = document.preorder ∧
    Rule.checkOf .unresolvedReference document =
      document.places.flatMap (fun place => Rule.unresolvedReference (place.site document)) ∧
    Rule.checkOf .selfReference document =
      document.places.flatMap (fun place => Rule.selfReference (place.site document)) ∧
    ∀ place ∈ document.places,
      (∀ attr items, place.block.ListsDependencies attr items →
        document.DependencyReports place attr.position (items.filterMap Value.string?)
          (Rule.unresolvedReference (place.site document))
          (Rule.selfReference (place.site document))) ∧
      ((∀ attr items, ¬ place.block.ListsDependencies attr items) →
        Rule.unresolvedReference (place.site document) = [] ∧
          Rule.selfReference (place.site document) = []) := by
  have perPlace (check : Site → List Diagnostic) :
      Rule.perSite check document =
        document.places.flatMap fun place => check (place.site document) := by
    rw [Rule.perSite, document.sites_eq_map_places, List.flatMap_map]
  refine ⟨document.map_block_places, perPlace _, perPlace _, fun place _ =>
    ⟨fun attr items => Rule.dependencyReports_of_lists document place, fun absent => ?_⟩⟩
  have block : (place.site document).block = place.block := rfl
  rw [Rule.unresolvedReference, Rule.selfReference, block, Rule.dependencies_eq_none absent]
  refine ⟨rfl, ?_⟩
  cases place.block.label <;> rfl

/-- A list of dependencies that names a resource, a block inside of the service twice, and the
service itself. -/
def tangledDependencies : List Value :=
  [.scalar (.string "db"), .scalar (.string "cache"), .scalar (.number "1"),
   .scalar (.string "api"), .scalar (.string "cache")]

/-- The service with these dependencies, beside the resource, and with the other block in it, which
is not visible from there. -/
def tangledService : Document where
  blocks :=
    [{ kind := "resource", label := some "db" },
     { kind := "service"
       label := some "api"
       attributes :=
         [{ key := Schema.dependsOn
            value := .list tangledDependencies
            position := { line := 3, column := 3 } }]
       blocks := [{ kind := "resource", label := some "cache" }] }]

theorem dependencies_reported_exactly_tangledService :
    ∃ place ∈ tangledService.places, ∃ attr,
      place.block.ListsDependencies attr tangledDependencies ∧
        tangledService.DependencyReports place attr.position
          (tangledDependencies.filterMap Value.string?)
          (Rule.unresolvedReference (place.site tangledService))
          (Rule.selfReference (place.site tangledService)) ∧
        (Rule.unresolvedReference (place.site tangledService)).length = 2 ∧
        (Rule.selfReference (place.site tangledService)).length = 1 := by
  have mem : Place.mk [1] [] tangledService.blocks[1] ∈ tangledService.places :=
    List.mem_cons_of_mem _ List.mem_cons_self
  have lists : tangledService.blocks[1].ListsDependencies
      tangledService.blocks[1].attributes[0] tangledDependencies :=
    ⟨[], [], rfl, rfl, by simp, rfl⟩
  exact ⟨_, mem, _, lists,
    ((dependencies_reported_exactly tangledService).2.2.2 _ mem).1 _ _ lists, by decide, by decide⟩

end ServiceDef
