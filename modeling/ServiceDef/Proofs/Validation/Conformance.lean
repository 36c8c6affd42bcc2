import ServiceDef.Proofs.Validation.Places
import ServiceDef.Proofs.Validation.Repeats
import ServiceDef.Validator

/-!
# Conforming documents

`Document.Conforms` says what a document has to be like, in terms of its blocks and of the places
where they stand. It mentions no rule and no report. The validator of the built-in rules decides it:
a document conforms exactly if none of its diagnostics is an error.
-/

namespace ServiceDef

/-! ## Conformance -/

/-- A value is of a shape. -/
inductive Shape.Describes : Shape → Value → Prop
  | string (contents : String) : Describes .string (.scalar (.string contents))
  | number (lexeme : String) : Describes .number (.scalar (.number lexeme))
  | boolean (value : Bool) : Describes .boolean (.scalar (.boolean value))
  | stringList {items : List Value}
      (strings : ∀ item ∈ items, ∃ contents, item = .scalar (.string contents)) :
      Describes .stringList (.list items)
  | map (entries : List (Entry Value)) : Describes .map (.map entries)

/-- A block may stand inside of a block of the given kind, or at the top level. -/
inductive Placement.Permits : Placement → Option String → Prop
  | atTop : Permits .topLevel none
  | inside {kinds : List String} {parent : String} (member : parent ∈ kinds) :
      Permits (.within kinds) (some parent)
  | atTopToo (kinds : List String) : Permits (.topLevelOrWithin kinds) none
  | insideToo {kinds : List String} {parent : String} (member : parent ∈ kinds) :
      Permits (.topLevelOrWithin kinds) (some parent)
  | anywhere (parent : Option String) : Permits .anywhere parent

/-- A map with the given entries stands somewhere in a value, in however many lists and maps. -/
inductive Value.HasMap (entries : List (Entry Value)) : Value → Prop
  | here : HasMap entries (.map entries)
  | item {items : List Value} {item : Value} (member : item ∈ items)
      (inside : HasMap entries item) : HasMap entries (.list items)
  | entry {others : List (Entry Value)} {entry : Entry Value} (member : entry ∈ others)
      (inside : HasMap entries entry.value) : HasMap entries (.map others)

/-- A block is as a kind demands when it stands inside of a block of the kind `parent`. -/
structure KindSpec.Meets (spec : KindSpec) (parent : Option String) (block : Block) : Prop where
  placement : spec.placement.Permits parent
  label : spec.labelRequired = true → ∃ label, block.label = some label
  required : ∀ listed ∈ spec.listed, listed.required = true →
    ∃ attr ∈ block.attributes, attr.key = listed.key
  shapes : ∀ attr ∈ block.attributes, ∀ listed ∈ spec.listed, listed.key = attr.key →
    listed.shape.Describes attr.value
  actions : spec.acceptsActions = false → block.actions = []

/-- A block depends on a name if it is a string of the list in the first attribute for
dependencies. -/
def Block.DependsOn (block : Block) (name : String) : Prop :=
  ∃ attr items, block.attribute? Schema.dependsOn = some attr ∧ attr.value = .list items ∧
    .scalar (.string name) ∈ items

/-- Of blocks beside each other, no two have both the same kind and the same label. Blocks without
a label may be alike. -/
def LabelsDiffer (siblings : List Block) : Prop :=
  siblings.Pairwise fun first second =>
    ∀ label, first.label = some label → second.label = some label → first.kind ≠ second.kind

/-- A block is as it should be inside of the blocks `around`. -/
structure Document.Admits (document : Document) (around : List Block) (block : Block) : Prop where
  kind : ∀ spec ∈ Schema.kinds, spec.kind = block.kind →
    spec.Meets (around.head?.map (·.kind)) block
  keys : (block.attributes.map (·.key)).Nodup
  maps : ∀ attr ∈ block.attributes, ∀ entries, attr.value.HasMap entries →
    (entries.map (·.key)).Nodup
  references : ∀ name, block.DependsOn name →
    block.label ≠ some name ∧ document.Visible around name
  targets : ∀ action ∈ block.actions, action.target.toList.head? = some '/'
  actions : (block.actions.map fun action => (action.method, action.target)).Nodup
  labels : LabelsDiffer block.blocks

/-- A document conforms if all its blocks are as they should be where they stand, and those at the
top level differ in kind or label. -/
structure Document.Conforms (document : Document) : Prop where
  blocks : ∀ around block, document.Contains around block → document.Admits around block
  labels : LabelsDiffer document.blocks

/-! ## What the checks compute -/

/-- A placement permits what it is found to allow. -/
theorem Placement.permits_iff (placement : Placement) (parent : Option String) :
    placement.Permits parent ↔ placement.allows parent = true := by
  constructor
  · rintro (_ | member | _ | member | _)
    · rfl
    · simpa [Placement.allows] using member
    · rfl
    · simpa [Placement.allows] using member
    · simp [Placement.allows]
  · intro allowed
    cases placement with
    | topLevel =>
        cases parent with
        | none => exact .atTop
        | some parent => cases allowed
    | within kinds =>
        cases parent with
        | none => cases allowed
        | some parent => exact .inside (by simpa [Placement.allows] using allowed)
    | topLevelOrWithin kinds =>
        cases parent with
        | none => exact .atTopToo kinds
        | some parent => exact .insideToo (by simpa [Placement.allows] using allowed)
    | anywhere => exact .anywhere parent

theorem Value.string?_eq_some_iff (value : Value) (contents : String) :
    value.string? = some contents ↔ value = .scalar (.string contents) := by
  constructor
  · intro same
    unfold Value.string? at same
    split at same
    · cases same
      rfl
    · cases same
  · rintro rfl
    rfl

/-- A shape describes the values that it is found to accept. -/
theorem Shape.describes_iff (shape : Shape) (value : Value) :
    shape.Describes value ↔ shape.accepts value = true := by
  have strings (items : List Value) :
      (∀ item ∈ items, ∃ contents, item = .scalar (.string contents)) ↔
        items.all (·.string?.isSome) = true := by
    simp [Option.isSome_iff_exists, Value.string?_eq_some_iff]
  constructor
  · rintro (contents | lexeme | flag | allStrings | entries)
    · rfl
    · rfl
    · rfl
    · exact (strings _).1 allStrings
    · rfl
  · intro accepted
    unfold Shape.accepts at accepted
    split at accepted
    · exact .string _
    · exact .number _
    · exact .boolean _
    · exact .stringList ((strings _).2 accepted)
    · exact .map _
    · cases accepted

/-- The known kinds are found by their names, because no two have the same. -/
theorem Schema.kind?_eq_some_iff (kind : String) (spec : KindSpec) :
    Schema.kind? kind = some spec ↔ spec ∈ Schema.kinds ∧ spec.kind = kind :=
  find?_key_eq_some_iff KindSpec.kind (by decide) kind spec

/-- The attributes that are listed for a known kind are found by their keys. -/
theorem KindSpec.attribute?_eq_some_iff {spec : KindSpec} (known : spec ∈ Schema.kinds)
    (key : String) (listed : AttributeSpec) :
    spec.attribute? key = some listed ↔ listed ∈ spec.listed ∧ listed.key = key := by
  have distinct : ∀ spec ∈ Schema.kinds, (spec.listed.map AttributeSpec.key).Nodup := by decide
  exact find?_key_eq_some_iff AttributeSpec.key (distinct spec known) key listed

/-- The maps of a value are those that stand anywhere in it. -/
theorem Value.mem_maps_iff (entries : List (Entry Value)) (value : Value) :
    entries ∈ value.maps ↔ value.HasMap entries := by
  constructor
  · intro member
    induction value using Value.induction with
    | scalar s => simp [Value.maps] at member
    | list items inductionHypothesis =>
        rw [Value.maps, Value.mapsOfItems_eq_flatMap] at member
        obtain ⟨item, inItems, inside⟩ := List.mem_flatMap.1 member
        exact .item inItems (inductionHypothesis item inItems inside)
    | map others inductionHypothesis =>
        rw [Value.maps, Value.mapsOfEntries_eq_flatMap] at member
        rcases List.mem_cons.1 member with rfl | member
        · exact .here
        · obtain ⟨entry, inEntries, inside⟩ := List.mem_flatMap.1 member
          exact .entry inEntries (inductionHypothesis entry inEntries inside)
  · intro hasMap
    induction hasMap with
    | here => exact List.mem_cons_self
    | item inItems inside inductionHypothesis =>
        rw [Value.maps, Value.mapsOfItems_eq_flatMap]
        exact List.mem_flatMap.2 ⟨_, inItems, inductionHypothesis⟩
    | entry inEntries inside inductionHypothesis =>
        rw [Value.maps, Value.mapsOfEntries_eq_flatMap]
        exact List.mem_cons_of_mem _ (List.mem_flatMap.2 ⟨_, inEntries, inductionHypothesis⟩)

/-- Siblings differ in kind or label if the labelled ones among them do. -/
theorem labelsDiffer_iff (siblings : List Block) :
    LabelsDiffer siblings ↔
      ((siblings.filter (·.label.isSome)).map fun block => (block.kind, block.label)).Nodup := by
  rw [List.Nodup, List.pairwise_map, List.pairwise_filter]
  -- Siblings are compared pair by pair, and only pairs with two labels matter on either side.
  refine List.Pairwise.iff fun first second => ?_
  cases first.label with
  | none => simp
  | some label =>
      cases second.label with
      | none => simp
      | some other =>
          simp only [Option.some.injEq, Option.isSome_some, forall_const, ne_eq, Prod.mk.injEq]
          constructor
          · rintro differ ⟨sameKind, rfl⟩
            exact differ label rfl rfl sameKind
          · rintro differ shared rfl rfl sameKind
            exact differ ⟨sameKind, rfl⟩

/-- The names that a block depends on are those of its list of dependencies. -/
theorem Block.dependsOn_iff (block : Block) (name : String) :
    block.DependsOn name ↔
      ∃ position names, Rule.dependencies block = some (position, names) ∧ name ∈ names := by
  simp only [Block.DependsOn, Rule.dependencies]
  cases block.attribute? Schema.dependsOn with
  | none => simp
  | some attr =>
      obtain ⟨key, value, comments, trailingComment, position⟩ := attr
      cases value with
      | scalar s => simp
      | list items => simp [Value.string?_eq_some_iff]
      | map entries => simp

/-! ## Reports without errors -/

/-- No diagnostic is an error. -/
def ErrorFree (diagnostics : List Diagnostic) : Prop :=
  ∀ diagnostic ∈ diagnostics, diagnostic.severity ≠ .error

@[simp] theorem errorFree_nil : ErrorFree [] := by
  simp [ErrorFree]

theorem errorFree_flatMap {α : Type} {elements : List α} {check : α → List Diagnostic} :
    ErrorFree (elements.flatMap check) ↔ ∀ element ∈ elements, ErrorFree (check element) := by
  simp only [ErrorFree, List.mem_flatMap]
  constructor
  · intro free element member diagnostic reported
    exact free diagnostic ⟨element, member, reported⟩
  · rintro free diagnostic ⟨element, member, reported⟩
    exact free element member diagnostic reported

/-- Where every report is an error, nothing may be reported. -/
theorem errorFree_map_iff {α : Type} {elements : List α} {report : α → Diagnostic}
    (errors : ∀ element, (report element).severity = .error) :
    ErrorFree (elements.map report) ↔ elements = [] := by
  cases elements with
  | nil => simp
  | cons element rest => simp [ErrorFree, errors]

/-- Sorting the diagnostics has no influence on whether there are errors. -/
theorem errorFree_sort (diagnostics : List Diagnostic) :
    ErrorFree (Diagnostic.sort diagnostics) ↔ ErrorFree diagnostics := by
  simp [ErrorFree, Diagnostic.sort]

namespace Rule

/-- A problem may be there unless it is an error. -/
theorem errorFree_reportIf {present : Bool} {problem : Problem} {position : Position} :
    ErrorFree (reportIf present problem position) ↔
      (problem.severity = .error → present = false) := by
  cases present with
  | false => simp [reportIf]
  | true => simp [reportIf, ErrorFree, Problem.report]

/-- A rule about blocks finds no error exactly if it finds none at any place. -/
theorem errorFree_perSite {check : Site → List Diagnostic} {document : Document} :
    ErrorFree (perSite check document) ↔
      ∀ around block, document.Contains around block →
        ErrorFree (check (document.site around block)) := by
  rw [perSite, errorFree_flatMap]
  constructor
  · intro free around block contains
    exact free _ ((Document.mem_sites_iff _).2 ⟨around, block, contains, rfl⟩)
  · intro free site member
    obtain ⟨around, block, contains, rfl⟩ := (Document.mem_sites_iff site).1 member
    exact free around block contains

/-- A rule about known kinds has nothing to say on other blocks. -/
theorem errorFree_whenKnown {check : Site → KindSpec → List Diagnostic} {site : Site} :
    ErrorFree (whenKnown check site) ↔
      ∀ spec ∈ Schema.kinds, spec.kind = site.block.kind → ErrorFree (check site spec) := by
  have found : ErrorFree (whenKnown check site) ↔
      ∀ spec, Schema.kind? site.block.kind = some spec → ErrorFree (check site spec) := by
    unfold whenKnown
    cases Schema.kind? site.block.kind with
    | none => simp
    | some spec => simp
  simp only [found, Schema.kind?_eq_some_iff, and_imp]

/-- Nothing is found where no key is repeated. -/
theorem errorFree_repeats {α κ : Type} [DecidableEq κ] {key : α → κ} {elements : List α}
    {report : α × α → Diagnostic} (errors : ∀ pair, (report pair).severity = .error) :
    ErrorFree ((repeats key elements).map report) ↔ (elements.map key).Nodup := by
  rw [errorFree_map_iff errors, repeats_eq_nil_iff]

/-! ## The demands of a kind -/

theorem errorFree_misplacedBlock (site : Site) (spec : KindSpec) :
    ErrorFree (misplacedBlock site spec) ↔
      spec.placement.Permits (site.parent.map (·.kind)) := by
  simp [misplacedBlock, errorFree_reportIf, Problem.severity, Placement.permits_iff]

theorem errorFree_missingLabel (site : Site) (spec : KindSpec) :
    ErrorFree (missingLabel site spec) ↔
      (spec.labelRequired = true → ∃ label, site.block.label = some label) := by
  simp [missingLabel, errorFree_reportIf, Problem.severity, Option.isSome_iff_exists]

theorem errorFree_requiredAttribute (site : Site) (spec : KindSpec) :
    ErrorFree (requiredAttribute site spec) ↔
      ∀ listed ∈ spec.listed, listed.required = true →
        ∃ attr ∈ site.block.attributes, attr.key = listed.key := by
  simp [requiredAttribute, errorFree_flatMap, errorFree_reportIf, Problem.severity,
    KindSpec.required, Block.attribute?]

theorem errorFree_attributeType (site : Site) {spec : KindSpec} (known : spec ∈ Schema.kinds) :
    ErrorFree (attributeType site spec) ↔
      ∀ attr ∈ site.block.attributes, ∀ listed ∈ spec.listed, listed.key = attr.key →
        listed.shape.Describes attr.value := by
  rw [attributeType, errorFree_flatMap]
  refine forall₂_congr fun attr _ => ?_
  simp only [← and_imp, ← KindSpec.attribute?_eq_some_iff known]
  cases spec.attribute? attr.key with
  | none => simp
  | some expected => simp [errorFree_reportIf, Problem.severity, Shape.describes_iff]

theorem errorFree_unexpectedActions (site : Site) (spec : KindSpec) :
    ErrorFree (unexpectedActions site spec) ↔
      (spec.acceptsActions = false → site.block.actions = []) := by
  unfold unexpectedActions
  cases site.block.actions with
  | nil => simp
  | cons first rest => simp [errorFree_reportIf, Problem.severity]

/-! ## Keys, maps and actions -/

theorem errorFree_duplicateAttribute (site : Site) :
    ErrorFree (duplicateAttribute site) ↔ (site.block.attributes.map (·.key)).Nodup :=
  errorFree_repeats fun _ => rfl

theorem errorFree_duplicateAction (site : Site) :
    ErrorFree (duplicateAction site) ↔
      (site.block.actions.map fun action => (action.method, action.target)).Nodup :=
  errorFree_repeats fun _ => rfl

theorem errorFree_invalidPath (site : Site) :
    ErrorFree (invalidPath site) ↔
      ∀ action ∈ site.block.actions, action.target.toList.head? = some '/' := by
  simp [invalidPath, errorFree_flatMap, errorFree_reportIf, Problem.severity]

theorem errorFree_duplicateKey (site : Site) :
    ErrorFree (duplicateKey site) ↔
      ∀ attr ∈ site.block.attributes, ∀ entries, attr.value.HasMap entries →
        (entries.map (·.key)).Nodup := by
  rw [duplicateKey, errorFree_flatMap]
  constructor
  · intro free attr member entries hasMap
    have inMaps : entries ∈ site.block.attributes.flatMap (·.value.maps) :=
      List.mem_flatMap.2 ⟨attr, member, (Value.mem_maps_iff entries _).2 hasMap⟩
    exact (errorFree_repeats fun _ => rfl).1 (free entries inMaps)
  · intro free entries inMaps
    obtain ⟨attr, member, inside⟩ := List.mem_flatMap.1 inMaps
    have hasMap := (Value.mem_maps_iff entries _).1 inside
    exact (errorFree_repeats fun _ => rfl).2 (free attr member entries hasMap)

/-! ## Labels and references -/

theorem errorFree_duplicateGroup (group : List Block) :
    ErrorFree (duplicateGroup group) ↔ group.length < 2 := by
  match group with
  | [] => simp [duplicateGroup]
  | [block] => simp [duplicateGroup]
  | first :: second :: others =>
      simp [duplicateGroup, ErrorFree, Problem.report, Problem.severity]

theorem errorFree_duplicateBlock (document : Document) :
    ErrorFree (duplicateBlock document) ↔
      LabelsDiffer document.blocks ∧
        ∀ around block, document.Contains around block → LabelsDiffer block.blocks := by
  simp only [duplicateBlock, siblingLists, errorFree_flatMap, errorFree_duplicateGroup,
    groupByKey_length_lt_iff, ← labelsDiffer_iff, List.forall_mem_cons, List.forall_mem_map,
    Document.mem_preorder_iff]
  refine and_congr_right fun _ => ?_
  constructor
  · intro differ around block contains
    exact differ block ⟨around, contains⟩
  · rintro differ block ⟨around, contains⟩
    exact differ around block contains

theorem errorFree_unresolvedReference (site : Site) :
    ErrorFree (unresolvedReference site) ↔
      ∀ name, site.block.DependsOn name → site.block.label ≠ some name →
        (site.environment.lookup? name).isSome = true := by
  simp only [Block.dependsOn_iff, unresolvedReference]
  cases dependencies site.block with
  | none => simp
  | some listed =>
      obtain ⟨position, names⟩ := listed
      simp [errorFree_flatMap, errorFree_reportIf, Problem.severity]

theorem errorFree_selfReference (site : Site) :
    ErrorFree (selfReference site) ↔
      ∀ name, site.block.DependsOn name → site.block.label ≠ some name := by
  simp only [Block.dependsOn_iff, selfReference]
  cases dependencies site.block with
  | none => simp
  | some listed =>
      obtain ⟨position, names⟩ := listed
      cases site.block.label with
      | none => simp
      | some label => simp [errorFree_reportIf, Problem.severity, List.forall_mem_ne]

end Rule

/-! ## The validator -/

open Rule

/-- The validator finds no error exactly if no built-in rule finds one. -/
theorem errorFree_validate (document : Document) :
    ErrorFree (Validator.builtin.validate document) ↔
      ∀ name, ErrorFree (checkOf name document) := by
  have listed (name : RuleName) : name ∈ RuleName.all := by
    cases name <;> decide
  simp [Validator.validate, Validator.builtin, errorFree_sort, errorFree_flatMap, Rule.builtin,
    listed]

/-- A document in which no rule finds an error conforms. -/
theorem conforms_of_errorFree {document : Document}
    (free : ∀ name, ErrorFree (checkOf name document)) : document.Conforms := by
  obtain ⟨topLabels, labels⟩ := (errorFree_duplicateBlock document).1 (free .duplicateBlock)
  refine ⟨fun around block contains => ?_, topLabels⟩
  have visit {check : Site → List Diagnostic} (free : ErrorFree (perSite check document)) :
      ErrorFree (check (document.site around block)) :=
    errorFree_perSite.1 free around block contains
  -- A name is either looked up or compared with the own label, never both, so that what is asked of
  -- references takes both rules together.
  have unresolved := (errorFree_unresolvedReference _).1 (visit (free .unresolvedReference))
  have others := (errorFree_selfReference _).1 (visit (free .selfReference))
  refine
    { kind := fun spec known sameKind => ?_
      keys := (errorFree_duplicateAttribute _).1 (visit (free .duplicateAttribute))
      maps := (errorFree_duplicateKey _).1 (visit (free .duplicateKey))
      references := fun name depends => ?_
      targets := (errorFree_invalidPath _).1 (visit (free .invalidPath))
      actions := (errorFree_duplicateAction _).1 (visit (free .duplicateAction))
      labels := labels around block contains }
  · have demand {check : Site → KindSpec → List Diagnostic}
        (free : ErrorFree (perSite (whenKnown check) document)) :
        ErrorFree (check (document.site around block) spec) :=
      errorFree_whenKnown.1 (visit free) spec known sameKind
    exact
      { placement := (errorFree_misplacedBlock _ _).1 (demand (free .misplacedBlock))
        label := (errorFree_missingLabel _ _).1 (demand (free .missingLabel))
        required := (errorFree_requiredAttribute _ _).1 (demand (free .requiredAttribute))
        shapes := (errorFree_attributeType _ known).1 (demand (free .attributeType))
        actions := (errorFree_unexpectedActions _ _).1 (demand (free .unexpectedActions)) }
  · exact ⟨others name depends,
      (Document.lookup?_isSome_iff around name).1 (unresolved name depends (others name depends))⟩

/-- No rule finds an error in a document that conforms. -/
theorem Document.Conforms.errorFree {document : Document} (conforms : document.Conforms)
    (name : RuleName) : ErrorFree (checkOf name document) := by
  have everywhere {check : Site → List Diagnostic}
      (free : ∀ around block, document.Admits around block →
        ErrorFree (check (document.site around block))) :
      ErrorFree (perSite check document) :=
    errorFree_perSite.2 fun around block contains =>
      free around block (conforms.blocks around block contains)
  have everyKind {check : Site → KindSpec → List Diagnostic}
      (free : ∀ around block, ∀ spec ∈ Schema.kinds,
        spec.Meets (around.head?.map (·.kind)) block →
          ErrorFree (check (document.site around block) spec)) :
      ErrorFree (perSite (whenKnown check) document) :=
    everywhere fun around block admits => errorFree_whenKnown.2 fun spec known sameKind =>
      free around block spec known (admits.kind spec known sameKind)
  cases name with
  | emptyDocument => simp [checkOf, emptyDocument, errorFree_reportIf, Problem.severity]
  | unknownKind =>
      exact everywhere fun _ _ _ => by simp [unknownKind, errorFree_reportIf, Problem.severity]
  | misplacedBlock =>
      exact everyKind fun _ _ _ _ meets => (errorFree_misplacedBlock _ _).2 meets.placement
  | missingLabel =>
      exact everyKind fun _ _ _ _ meets => (errorFree_missingLabel _ _).2 meets.label
  | requiredAttribute =>
      exact everyKind fun _ _ _ _ meets => (errorFree_requiredAttribute _ _).2 meets.required
  | unknownAttribute =>
      exact everyKind fun _ _ _ _ _ => by
        simp [unknownAttribute, errorFree_flatMap, errorFree_reportIf, Problem.severity]
  | attributeType =>
      exact everyKind fun _ _ _ known meets => (errorFree_attributeType _ known).2 meets.shapes
  | duplicateAttribute =>
      exact everywhere fun _ _ admits => (errorFree_duplicateAttribute _).2 admits.keys
  | duplicateKey =>
      exact everywhere fun _ _ admits => (errorFree_duplicateKey _).2 admits.maps
  | duplicateBlock =>
      exact (errorFree_duplicateBlock document).2 ⟨conforms.labels, fun around block contains =>
        (conforms.blocks around block contains).labels⟩
  | unresolvedReference =>
      exact everywhere fun around _ admits => (errorFree_unresolvedReference _).2
        fun name depends _ => (Document.lookup?_isSome_iff around name).2
          (admits.references name depends).2
  | selfReference =>
      exact everywhere fun _ _ admits => (errorFree_selfReference _).2 fun name depends =>
        (admits.references name depends).1
  | unexpectedActions =>
      exact everyKind fun _ _ _ _ meets => (errorFree_unexpectedActions _ _).2 meets.actions
  | unknownVerb =>
      exact everywhere fun _ _ _ => by
        simp [unknownVerb, errorFree_flatMap, errorFree_reportIf, Problem.severity]
  | invalidPath =>
      exact everywhere fun _ _ admits => (errorFree_invalidPath _).2 admits.targets
  | duplicateAction =>
      exact everywhere fun _ _ admits => (errorFree_duplicateAction _).2 admits.actions

/-- Validation is sound and complete: the validator of the built-in rules reports no error on a
document exactly if the document conforms. -/
theorem validate_errorFree_iff_conforms (document : Document) :
    (∀ diagnostic ∈ Validator.builtin.validate document, diagnostic.severity ≠ .error) ↔
      document.Conforms := by
  refine (errorFree_validate document).trans ?_
  constructor
  · intro free
    exact conforms_of_errorFree free
  · intro conforms
    exact conforms.errorFree

end ServiceDef
