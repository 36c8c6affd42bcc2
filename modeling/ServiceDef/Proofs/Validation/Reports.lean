import ServiceDef.Proofs.Validation.Places
import ServiceDef.Proofs.Validation.Repeats
import ServiceDef.Validator

/-!
# What rules report

A built-in rule reports under its own identifier only, and every place that it names is the place
of a part of the document; only an empty document is reported at the start of its file.
`Rule.reportsOf_checkOf` says so of all built-in rules.
-/

namespace ServiceDef

/-- All places of a diagnostic: its own and those related to it. -/
def Diagnostic.places (diagnostic : Diagnostic) : List Position :=
  diagnostic.position :: diagnostic.related

/-- A part of the block itself stands at the position: the block, one of its attributes or actions,
or an entry of a map in one of its attributes. -/
inductive Block.Marks (block : Block) : Position → Prop
  | block : block.Marks block.position
  | attr {attr : Attribute} (member : attr ∈ block.attributes) : block.Marks attr.position
  | entry {attr : Attribute} {entries : List (Entry Value)} {entry : Entry Value}
      (attrMember : attr ∈ block.attributes) (inside : entries ∈ attr.value.maps)
      (member : entry ∈ entries) : block.Marks entry.position
  | action {action : Action} (member : action ∈ block.actions) : block.Marks action.position

/-- A part of some block of the document stands at the position. -/
def Document.Marks (document : Document) (position : Position) : Prop :=
  ∃ block ∈ document.preorder, block.Marks position

/-! ## Repeats and groups -/

section Keys

variable {α κ : Type} [DecidableEq κ] (key : α → κ)

theorem mem_of_mem_repeatsAfter (firsts elements : List α) :
    ∀ pair ∈ repeatsAfter key firsts elements,
      pair.1 ∈ elements ∧ (pair.2 ∈ firsts ∨ pair.2 ∈ elements) := by
  induction elements generalizing firsts with
  | nil => simp [repeatsAfter]
  | cons element rest inductionHypothesis =>
      intro pair member
      rw [repeatsAfter] at member
      split at member
      · next first found =>
          rcases List.mem_cons.1 member with rfl | member
          · exact ⟨List.mem_cons_self, .inl (List.mem_of_find?_eq_some found)⟩
          · obtain ⟨repeated, source⟩ := inductionHypothesis firsts pair member
            exact ⟨List.mem_cons_of_mem _ repeated, source.imp_right (List.mem_cons_of_mem _)⟩
      · obtain ⟨repeated, source⟩ := inductionHypothesis (firsts ++ [element]) pair member
        refine ⟨List.mem_cons_of_mem _ repeated, ?_⟩
        rcases source with inFirsts | inRest
        · rcases List.mem_append.1 inFirsts with before | here
          · exact .inl before
          · exact .inr (List.mem_cons.2 (.inl (List.mem_singleton.1 here)))
        · exact .inr (List.mem_cons_of_mem _ inRest)

/-- A repeated element and the first element of its key are elements of the list. -/
theorem mem_of_mem_repeats {elements : List α} {pair : α × α}
    (member : pair ∈ repeats key elements) :
    pair.1 ∈ elements ∧ pair.2 ∈ elements := by
  obtain ⟨repeated, source⟩ := mem_of_mem_repeatsAfter key [] elements pair member
  exact ⟨repeated, by simpa using source⟩

/-- The elements of a group are elements of the list. -/
theorem mem_of_mem_groupByKey {elements group : List α} (member : group ∈ groupByKey key elements) :
    group ⊆ elements := by
  obtain ⟨k, -, rfl⟩ := List.mem_map.1 member
  exact List.filter_sublist.subset

end Keys

namespace Rule

/-- All diagnostics are reported under the name of a rule, and all their places are known. -/
def ReportsOf (name : RuleName) (Known : Position → Prop) (diagnostics : List Diagnostic) : Prop :=
  ∀ diagnostic ∈ diagnostics,
    diagnostic.rule = name.id ∧ ∀ position ∈ diagnostic.places, Known position

namespace ReportsOf

variable {name : RuleName} {Known : Position → Prop}

theorem nil : ReportsOf name Known [] := by
  simp [ReportsOf]

theorem flatMap {α : Type} {elements : List α} {check : α → List Diagnostic}
    (each : ∀ element ∈ elements, ReportsOf name Known (check element)) :
    ReportsOf name Known (elements.flatMap check) := by
  intro diagnostic member
  obtain ⟨element, inElements, reported⟩ := List.mem_flatMap.1 member
  exact each element inElements diagnostic reported

theorem map {α : Type} {elements : List α} {report : α → Diagnostic}
    (each : ∀ element ∈ elements, ReportsOf name Known [report element]) :
    ReportsOf name Known (elements.map report) := by
  intro diagnostic member
  obtain ⟨element, inElements, rfl⟩ := List.mem_map.1 member
  exact each element inElements _ List.mem_cons_self

/-- The places of a report are its own place and those of the problem. -/
theorem report {problem : Problem} {position : Position} (own : problem.rule = name)
    (here : Known position) (related : ∀ other ∈ problem.related, Known other) :
    ReportsOf name Known [problem.report position] := by
  intro diagnostic member
  rw [List.mem_singleton.1 member]
  refine ⟨congrArg RuleName.id own, ?_⟩
  simpa [Diagnostic.places, Problem.report] using ⟨here, related⟩

/-- Most problems are about one place. -/
theorem reportIf {present : Bool} {problem : Problem} {position : Position}
    (own : problem.rule = name) (here : Known position) (alone : problem.related = []) :
    ReportsOf name Known (Rule.reportIf present problem position) := by
  cases present with
  | false => exact nil
  | true => exact report own here (by simp [alone])

/-- Repeats are reported at the repeated element, with the first one of its key. -/
theorem repeats {α κ : Type} [DecidableEq κ] {key : α → κ} {elements : List α}
    {report : α × α → Diagnostic}
    (each : ∀ element ∈ elements, ∀ first ∈ elements,
      ReportsOf name Known [report (element, first)]) :
    ReportsOf name Known ((ServiceDef.repeats key elements).map report) :=
  map fun pair member =>
    have members := mem_of_mem_repeats key member
    each pair.1 members.1 pair.2 members.2

theorem whenKnown {check : Site → KindSpec → List Diagnostic} {site : Site}
    (each : ∀ spec, ReportsOf name Known (check site spec)) :
    ReportsOf name Known (Rule.whenKnown check site) := by
  unfold Rule.whenKnown
  split
  · exact each _
  · exact nil

/-- A rule about blocks names places of the document if it names places of the block at hand. -/
theorem perSite {check : Site → List Diagnostic} {document : Document}
    (each : ∀ site, ReportsOf name site.block.Marks (check site)) :
    ReportsOf name document.Marks (Rule.perSite check document) := by
  refine flatMap fun site member diagnostic reported => ?_
  obtain ⟨own, places⟩ := each site diagnostic reported
  have inside : site.block ∈ document.preorder := by
    rw [← Document.map_block_sites]
    exact List.mem_map_of_mem member
  exact ⟨own, fun position at_ => ⟨site.block, inside, places position at_⟩⟩

end ReportsOf

/-! ## The rules -/

theorem reportsOf_unknownKind (site : Site) :
    ReportsOf .unknownKind site.block.Marks (unknownKind site) :=
  .reportIf rfl .block rfl

theorem reportsOf_misplacedBlock (site : Site) (spec : KindSpec) :
    ReportsOf .misplacedBlock site.block.Marks (misplacedBlock site spec) :=
  .reportIf rfl .block rfl

theorem reportsOf_missingLabel (site : Site) (spec : KindSpec) :
    ReportsOf .missingLabel site.block.Marks (missingLabel site spec) :=
  .reportIf rfl .block rfl

theorem reportsOf_requiredAttribute (site : Site) (spec : KindSpec) :
    ReportsOf .requiredAttribute site.block.Marks (requiredAttribute site spec) :=
  .flatMap fun _ _ => .reportIf rfl .block rfl

theorem reportsOf_unknownAttribute (site : Site) (spec : KindSpec) :
    ReportsOf .unknownAttribute site.block.Marks (unknownAttribute site spec) :=
  .flatMap fun _ member => .reportIf rfl (.attr member) rfl

theorem reportsOf_attributeType (site : Site) (spec : KindSpec) :
    ReportsOf .attributeType site.block.Marks (attributeType site spec) := by
  refine .flatMap fun attr member => ?_
  split
  · exact .reportIf rfl (.attr member) rfl
  · exact .nil

theorem reportsOf_duplicateAttribute (site : Site) :
    ReportsOf .duplicateAttribute site.block.Marks (duplicateAttribute site) := by
  refine .repeats fun attr member first firstMember => .report rfl (.attr member) ?_
  simpa [Problem.related] using .attr firstMember

theorem reportsOf_duplicateKey (site : Site) :
    ReportsOf .duplicateKey site.block.Marks (duplicateKey site) := by
  refine .flatMap fun entries inside => .repeats fun entry member first firstMember => ?_
  obtain ⟨attr, attrMember, inMaps⟩ := List.mem_flatMap.1 inside
  refine .report rfl (.entry attrMember inMaps member) ?_
  simpa [Problem.related] using .entry attrMember inMaps firstMember

/-- Dependencies stand at an attribute of their block. -/
theorem marks_dependencies {block : Block} {position : Position} {names : List String}
    (listed : dependencies block = some (position, names)) : block.Marks position := by
  unfold dependencies at listed
  split at listed
  · next attr items attrPosition found =>
      cases listed
      exact .attr (List.mem_of_find?_eq_some found)
  · cases listed

theorem reportsOf_unresolvedReference (site : Site) :
    ReportsOf .unresolvedReference site.block.Marks (unresolvedReference site) := by
  unfold unresolvedReference
  split
  · next position names listed =>
      exact .flatMap fun _ _ => .reportIf rfl (marks_dependencies listed) rfl
  · exact .nil

theorem reportsOf_selfReference (site : Site) :
    ReportsOf .selfReference site.block.Marks (selfReference site) := by
  unfold selfReference
  split
  · next label position names _ listed => exact .reportIf rfl (marks_dependencies listed) rfl
  · exact .nil

theorem reportsOf_unexpectedActions (site : Site) (spec : KindSpec) :
    ReportsOf .unexpectedActions site.block.Marks (unexpectedActions site spec) := by
  unfold unexpectedActions
  split
  · exact .nil
  · next first others actions =>
      exact .reportIf rfl (.action (by rw [actions]; exact List.mem_cons_self)) rfl

theorem reportsOf_unknownVerb (site : Site) :
    ReportsOf .unknownVerb site.block.Marks (unknownVerb site) :=
  .flatMap fun _ member => .reportIf rfl (.action member) rfl

theorem reportsOf_invalidPath (site : Site) :
    ReportsOf .invalidPath site.block.Marks (invalidPath site) :=
  .flatMap fun _ member => .reportIf rfl (.action member) rfl

theorem reportsOf_duplicateAction (site : Site) :
    ReportsOf .duplicateAction site.block.Marks (duplicateAction site) := by
  refine .repeats fun action member first firstMember => .report rfl (.action member) ?_
  simpa [Problem.related] using .action firstMember

/-- The blocks of a sibling list are blocks of the document. -/
theorem mem_preorder_of_siblings {document : Document} {siblings : List Block} {block : Block}
    (inLists : siblings ∈ siblingLists document) (member : block ∈ siblings) :
    block ∈ document.preorder := by
  rw [Document.mem_preorder_iff]
  rcases List.mem_cons.1 inLists with rfl | nested
  · exact ⟨[], .top member⟩
  · obtain ⟨parent, inside, rfl⟩ := List.mem_map.1 nested
    obtain ⟨around, contains⟩ := (Document.mem_preorder_iff parent).1 inside
    exact ⟨parent :: around, contains.nested member⟩

theorem reportsOf_duplicateGroup {Known : Position → Prop} {group : List Block}
    (known : ∀ block ∈ group, Known block.position) :
    ReportsOf .duplicateBlock Known (duplicateGroup group) := by
  unfold duplicateGroup
  split
  · simp only [List.forall_mem_cons] at known
    refine .report rfl known.2.1 ?_
    simpa [Problem.related] using ⟨known.1, known.2.2⟩
  · exact .nil

theorem reportsOf_duplicateBlock (document : Document) :
    ReportsOf .duplicateBlock document.Marks (duplicateBlock document) := by
  refine .flatMap fun siblings inLists => .flatMap fun group inGroups =>
    reportsOf_duplicateGroup fun block member => ?_
  have labelled := mem_of_mem_groupByKey _ inGroups member
  exact ⟨block, mem_preorder_of_siblings inLists (List.mem_filter.1 labelled).1, .block⟩

/-- A built-in rule reports under its own name only, at places of the document. Only an empty
document has no places and is reported at the start of its file. -/
theorem reportsOf_checkOf (name : RuleName) (document : Document) :
    ReportsOf name
      (fun position => document.Marks position ∨
        name = .emptyDocument ∧ position = Position.startOf document.file)
      (checkOf name document) := by
  have placed {diagnostics : List Diagnostic}
      (reports : ReportsOf name document.Marks diagnostics) :
      ReportsOf name
        (fun position => document.Marks position ∨
          name = .emptyDocument ∧ position = Position.startOf document.file) diagnostics :=
    fun diagnostic member => ⟨(reports diagnostic member).1,
      fun position at_ => .inl ((reports diagnostic member).2 position at_)⟩
  cases name with
  | emptyDocument => exact .reportIf rfl (.inr ⟨rfl, rfl⟩) rfl
  | unknownKind => exact placed (.perSite reportsOf_unknownKind)
  | misplacedBlock =>
      exact placed (.perSite fun site => .whenKnown (reportsOf_misplacedBlock site))
  | missingLabel => exact placed (.perSite fun site => .whenKnown (reportsOf_missingLabel site))
  | requiredAttribute =>
      exact placed (.perSite fun site => .whenKnown (reportsOf_requiredAttribute site))
  | unknownAttribute =>
      exact placed (.perSite fun site => .whenKnown (reportsOf_unknownAttribute site))
  | attributeType => exact placed (.perSite fun site => .whenKnown (reportsOf_attributeType site))
  | duplicateAttribute => exact placed (.perSite reportsOf_duplicateAttribute)
  | duplicateKey => exact placed (.perSite reportsOf_duplicateKey)
  | duplicateBlock => exact placed (reportsOf_duplicateBlock document)
  | unresolvedReference => exact placed (.perSite reportsOf_unresolvedReference)
  | selfReference => exact placed (.perSite reportsOf_selfReference)
  | unexpectedActions =>
      exact placed (.perSite fun site => .whenKnown (reportsOf_unexpectedActions site))
  | unknownVerb => exact placed (.perSite reportsOf_unknownVerb)
  | invalidPath => exact placed (.perSite reportsOf_invalidPath)
  | duplicateAction => exact placed (.perSite reportsOf_duplicateAction)

end Rule

end ServiceDef
