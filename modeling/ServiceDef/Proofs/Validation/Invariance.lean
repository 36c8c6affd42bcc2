import ServiceDef.Proofs.Layout.NormalForm
import ServiceDef.Proofs.Validation.Places
import ServiceDef.Proofs.Validation.Repeats
import ServiceDef.Validator

/-!
# Validation ignores positions

No rule decides anything by where a document was written. Positions are only reported, as the place
of a diagnostic and in the messages about duplicates. Documents of the same structure thus have the
same diagnostics up to that and up to their order, which makes formatting invisible to validation.
-/

namespace ServiceDef

/-! ## What a diagnostic says -/

/-- Whether a diagnostic is about duplicates. The messages of such diagnostics name positions. -/
def Diagnostic.isAboutDuplicates (diagnostic : Diagnostic) : Bool :=
  "duplicate-".toList.isPrefixOf diagnostic.rule.toList

/-- A diagnostic without any positions, hence without its message if it is about duplicates. -/
structure Gist where
  severity : Severity
  rule : String
  message : Option String
deriving DecidableEq, Repr

/-- What a diagnostic says without positions. -/
def Diagnostic.gist (diagnostic : Diagnostic) : Gist where
  severity := diagnostic.severity
  rule := diagnostic.rule
  message := if diagnostic.isAboutDuplicates then none else some diagnostic.message

/-- Whether a rule finds duplicates. -/
def RuleName.findsDuplicates : RuleName → Bool
  | .duplicateAttribute | .duplicateKey | .duplicateBlock | .duplicateAction => true
  | _ => false

/-- What is said about a problem without positions. -/
def Problem.gist (problem : Problem) : Gist where
  severity := problem.severity
  rule := problem.rule.id
  message := if problem.rule.findsDuplicates then none else some problem.message

/-- The rules that find duplicates are those whose identifiers say so. -/
theorem RuleName.isPrefixOf_id (name : RuleName) :
    "duplicate-".toList.isPrefixOf name.id.toList = name.findsDuplicates := by
  cases name <;> decide

@[simp] theorem Problem.gist_report (problem : Problem) (position : Position) :
    (problem.report position).gist = problem.gist := by
  simp only [Diagnostic.gist, gist, report, Diagnostic.isAboutDuplicates, RuleName.isPrefixOf_id]

/-! ## Parts of documents -/

namespace Value

@[simp] theorem string?_erasePositions (value : Value) :
    value.erasePositions.string? = value.string? := by
  cases value <;> rfl

/-- The maps in a value without positions are its maps without positions. -/
theorem maps_erasePositions (value : Value) :
    value.erasePositions.maps = value.maps.map erasePositionsEntries := by
  induction value using Value.induction with
  | scalar s => rfl
  | list items inductionHypothesis =>
      rw [erasePositions, maps, maps, mapsOfItems_eq_flatMap, mapsOfItems_eq_flatMap,
        erasePositionsItems_eq_map, List.flatMap_map, List.map_flatMap]
      exact List.flatMap_congr inductionHypothesis
  | map entries inductionHypothesis =>
      rw [erasePositions, maps, maps, mapsOfEntries_eq_flatMap, mapsOfEntries_eq_flatMap,
        List.map_cons, List.map_flatMap, erasePositionsEntries_eq_map, List.flatMap_map]
      exact congrArg _ (List.flatMap_congr inductionHypothesis)

end Value

@[simp] theorem Shape.accepts_erasePositions (shape : Shape) (value : Value) :
    shape.accepts value.erasePositions = shape.accepts value := by
  cases value with
  | scalar s => rfl
  | list items =>
      have sameStrings : (Value.erasePositionsItems items).all (·.string?.isSome) =
          items.all (·.string?.isSome) := by
        simp [Value.erasePositionsItems_eq_map, List.all_map, Function.comp_def]
      cases shape with
      | stringList => exact sameStrings
      | _ => rfl
  | map entries => cases shape <;> rfl

@[simp] theorem Problem.found_erasePositions (shape : Shape) (value : Value) :
    found shape value.erasePositions = found shape value := by
  cases value with
  | scalar s => rfl
  | list items => cases shape <;> rfl
  | map entries => cases shape <;> rfl

@[simp] theorem Problem.gist_attributeType (key : String) (shape : Shape) (value : Value) :
    (Problem.attributeType key shape value.erasePositions).gist =
      (Problem.attributeType key shape value).gist := by
  have text (value : Value) : (Problem.attributeType key shape value).message =
      "attribute " ++ backquoted key ++ " must be " ++ shape.describe ++ ", found " ++
        found shape value := rfl
  simp only [gist, text, found_erasePositions]
  rfl

namespace Block

variable (block : Block)

@[simp] theorem kind_erasePositions : block.erasePositions.kind = block.kind := by
  cases block
  rw [erasePositions]

@[simp] theorem label_erasePositions : block.erasePositions.label = block.label := by
  cases block
  rw [erasePositions]

@[simp] theorem attributes_erasePositions :
    block.erasePositions.attributes = block.attributes.map Attribute.erasePositions := by
  cases block
  rw [erasePositions]

@[simp] theorem actions_erasePositions :
    block.erasePositions.actions = block.actions.map Action.erasePosition := by
  cases block
  rw [erasePositions]

@[simp] theorem blocks_erasePositions :
    block.erasePositions.blocks = block.blocks.map erasePositions := by
  cases block
  rw [erasePositions, erasePositionsAll_eq_map]

@[simp] theorem display_erasePositions : block.erasePositions.display = block.display := by
  simp [display]

theorem attribute?_erasePositions (key : String) :
    block.erasePositions.attribute? key =
      (block.attribute? key).map Attribute.erasePositions := by
  simp only [attribute?, attributes_erasePositions, List.find?_map]
  rfl

end Block

@[simp] theorem Document.blocks_erasePositions (document : Document) :
    document.erasePositions.blocks = document.blocks.map Block.erasePositions := by
  rw [erasePositions, Block.erasePositionsAll_eq_map]

/-! ## Sites -/

/-- The scope without positions. -/
def Scope.erasePositions (scope : Scope) : Scope where
  siblings := scope.siblings.map Block.erasePositions

/-- The environment without positions. -/
def Environment.erasePositions (environment : Environment) : Environment where
  scopes := environment.scopes.map Scope.erasePositions

/-- The site without positions. -/
def Site.erasePositions (site : Site) : Site where
  block := site.block.erasePositions
  parent := site.parent.map Block.erasePositions
  environment := site.environment.erasePositions

theorem Scope.get?_erasePositions (scope : Scope) (label : String) :
    scope.erasePositions.get? label = (scope.get? label).map Block.erasePositions := by
  simp [get?, erasePositions, List.find?_map, Function.comp_def]

/-- A label is found whether or not there are positions. -/
theorem Environment.lookup?_erasePositions (environment : Environment) (label : String) :
    environment.erasePositions.lookup? label =
      (environment.lookup? label).map Block.erasePositions := by
  obtain ⟨scopes⟩ := environment
  induction scopes with
  | nil => rfl
  | cons scope scopes inductionHypothesis =>
      simp only [lookup?, erasePositions, List.map_cons, List.findSome?_cons,
        Scope.get?_erasePositions] at inductionHypothesis ⊢
      cases scope.get? label with
      | none => exact inductionHypothesis
      | some block => rfl

theorem Environment.erasePositions_push (environment : Environment) (blocks : List Block) :
    (environment.push { siblings := blocks }).erasePositions =
      environment.erasePositions.push { siblings := blocks.map Block.erasePositions } := rfl

/-- The sites of a block without positions are its sites without positions. -/
theorem Site.ofBlock_erasePositions (block : Block) :
    ∀ (environment : Environment) (parent : Option Block),
      ofBlock environment.erasePositions (parent.map Block.erasePositions) block.erasePositions =
        (ofBlock environment parent block).map erasePositions := by
  -- The environment grows on the way inwards, so the induction is for all environments.
  induction block using Block.induction with
  | step block inductionHypothesis =>
      intro environment parent
      rw [ofBlock_eq, ofBlock_eq, ofBlocks_eq_flatMap, ofBlocks_eq_flatMap, List.map_cons,
        List.map_flatMap, Block.blocks_erasePositions, List.flatMap_map,
        ← Environment.erasePositions_push]
      exact congrArg _ (List.flatMap_congr fun child member =>
        inductionHypothesis child member _ (some block))

/-- The sites of a document without positions are its sites without positions. -/
theorem Document.sites_erasePositions (document : Document) :
    document.erasePositions.sites = document.sites.map Site.erasePositions := by
  rw [sites, sites, Site.ofBlocks_eq_flatMap, Site.ofBlocks_eq_flatMap, List.map_flatMap,
    blocks_erasePositions, List.flatMap_map]
  exact List.flatMap_congr fun block _ =>
    Site.ofBlock_erasePositions block (Environment.push {} { siblings := document.blocks }) none

/-! ## Rules -/

namespace Rule

/-- A check of sites says the same with and without positions. -/
def Steady (check : Site → List Diagnostic) : Prop :=
  ∀ site : Site, (check site.erasePositions).map (·.gist) = (check site).map (·.gist)

theorem Steady.perSite {check : Site → List Diagnostic} (steady : Steady check)
    (document : Document) :
    (perSite check document.erasePositions).map (·.gist) =
      (Rule.perSite check document).map (·.gist) := by
  rw [Rule.perSite, Rule.perSite, Document.sites_erasePositions, List.flatMap_map,
    List.map_flatMap, List.map_flatMap]
  exact List.flatMap_congr fun site _ => steady site

/-- A check of known kinds is steady if it is for each kind. -/
theorem Steady.whenKnown {check : Site → KindSpec → List Diagnostic}
    (steady : ∀ spec, Steady fun site => check site spec) : Steady (whenKnown check) := by
  intro site
  have sameKind : site.erasePositions.block.kind = site.block.kind := by
    simp [Site.erasePositions]
  rw [Rule.whenKnown, Rule.whenKnown, sameKind]
  cases Schema.kind? site.block.kind with
  | none => rfl
  | some spec => exact steady spec site

/-- The gist of a report does not depend on the place of the report. -/
@[simp] theorem map_gist_reportIf (present : Bool) (problem : Problem) (position : Position) :
    (reportIf present problem position).map (·.gist) = if present then [problem.gist] else [] := by
  cases present <;> simp [reportIf]

/-- Checks of parts that say the same of changed parts say the same of all of them. -/
theorem map_gist_flatMap {α : Type} (change : α → α) {check : α → List Diagnostic}
    (same : ∀ part, (check (change part)).map (·.gist) = (check part).map (·.gist))
    (parts : List α) :
    ((parts.map change).flatMap check).map (·.gist) = (parts.flatMap check).map (·.gist) := by
  rw [List.flatMap_map, List.map_flatMap, List.map_flatMap]
  exact List.flatMap_congr fun part _ => same part

/-- Repeated parts are reported alike if the change leaves their keys alone. -/
theorem map_gist_repeats {α κ : Type} [DecidableEq κ] (key : α → κ) (change : α → α)
    (sameKey : ∀ part, key (change part) = key part) {report : α × α → Diagnostic}
    (same : ∀ part first, (report (change part, change first)).gist = (report (part, first)).gist)
    (parts : List α) :
    ((repeats key (parts.map change)).map report).map (·.gist) =
      ((repeats key parts).map report).map (·.gist) := by
  rw [repeats_map, funext sameKey, List.map_map, List.map_map, List.map_map]
  exact List.map_congr_left fun pair _ => same pair.1 pair.2

theorem steady_unknownKind : Steady unknownKind := by
  intro site
  simp [unknownKind, Site.erasePositions]

theorem steady_misplacedBlock (spec : KindSpec) : Steady fun site => misplacedBlock site spec := by
  intro site
  simp [misplacedBlock, Site.erasePositions, Function.comp_def]

theorem steady_missingLabel (spec : KindSpec) : Steady fun site => missingLabel site spec := by
  intro site
  simp [missingLabel, Site.erasePositions]

theorem steady_requiredAttribute (spec : KindSpec) :
    Steady fun site => requiredAttribute site spec := by
  intro site
  simp [requiredAttribute, Site.erasePositions, List.map_flatMap,
    Block.attribute?_erasePositions]

theorem steady_unknownAttribute (spec : KindSpec) :
    Steady fun site => unknownAttribute site spec := by
  intro site
  simp only [unknownAttribute, Site.erasePositions, Block.attributes_erasePositions,
    Block.kind_erasePositions]
  refine map_gist_flatMap _ (fun attr => ?_) _
  rw [map_gist_reportIf, map_gist_reportIf]
  rfl

theorem steady_attributeType (spec : KindSpec) : Steady fun site => attributeType site spec := by
  intro site
  simp only [attributeType, Site.erasePositions, Block.attributes_erasePositions]
  refine map_gist_flatMap _ (fun attr => ?_) _
  simp only [Attribute.erasePositions]
  cases spec.attribute? attr.key with
  | none => rfl
  | some expected => simp

theorem steady_duplicateAttribute : Steady duplicateAttribute := by
  intro site
  rw [duplicateAttribute, Site.erasePositions, Block.attributes_erasePositions]
  refine map_gist_repeats _ Attribute.erasePositions (fun _ => rfl) (fun attr first => ?_) _
  -- The gist of a duplicate is without its message, which alone has the position of the first one.
  simp only [Problem.gist_report]
  rfl

theorem steady_duplicateKey : Steady duplicateKey := by
  intro site
  have sameMaps : (site.block.attributes.map Attribute.erasePositions).flatMap (·.value.maps) =
      (site.block.attributes.flatMap (·.value.maps)).map Value.erasePositionsEntries := by
    rw [List.flatMap_map, List.map_flatMap]
    exact List.flatMap_congr fun attr _ => attr.value.maps_erasePositions
  rw [duplicateKey, Site.erasePositions, Block.attributes_erasePositions, sameMaps]
  refine map_gist_flatMap _ (fun entries => ?_) _
  rw [Value.erasePositionsEntries_eq_map]
  refine map_gist_repeats _ _ ?_ (fun entry first => ?_) _
  · intro entry
    rfl
  · simp only [Problem.gist_report]
    rfl

/-- The names that a block depends on are the same with and without positions. -/
theorem dependencies_erasePositions (block : Block) :
    dependencies block.erasePositions =
      (dependencies block).map fun (_, names) => ({}, names) := by
  simp only [dependencies, Block.attribute?_erasePositions]
  cases block.attribute? Schema.dependsOn with
  | none => rfl
  | some attr =>
      obtain ⟨key, value, comments, trailingComment, position⟩ := attr
      cases value with
      | scalar s => rfl
      | map entries => rfl
      | list items =>
          simp [Attribute.erasePositions, Value.erasePositions, Value.erasePositionsItems_eq_map,
            List.filterMap_map]

theorem steady_unresolvedReference : Steady unresolvedReference := by
  intro site
  simp only [unresolvedReference, Site.erasePositions, dependencies_erasePositions]
  cases dependencies site.block with
  | none => rfl
  | some listed => simp [List.map_flatMap, Environment.lookup?_erasePositions]

theorem steady_selfReference : Steady selfReference := by
  intro site
  simp only [selfReference, Site.erasePositions, dependencies_erasePositions,
    Block.label_erasePositions]
  cases site.block.label with
  | none => rfl
  | some label =>
      cases dependencies site.block with
      | none => rfl
      | some listed => simp

theorem steady_unexpectedActions (spec : KindSpec) :
    Steady fun site => unexpectedActions site spec := by
  intro site
  simp only [unexpectedActions, Site.erasePositions, Block.actions_erasePositions]
  cases site.block.actions with
  | nil => rfl
  | cons first rest => simp

theorem steady_unknownVerb : Steady unknownVerb := by
  intro site
  rw [unknownVerb, Site.erasePositions, Block.actions_erasePositions]
  refine map_gist_flatMap _ (fun action => ?_) _
  rw [map_gist_reportIf, map_gist_reportIf]
  rfl

theorem steady_invalidPath : Steady invalidPath := by
  intro site
  rw [invalidPath, Site.erasePositions, Block.actions_erasePositions]
  refine map_gist_flatMap _ (fun action => ?_) _
  rw [map_gist_reportIf, map_gist_reportIf]
  rfl

theorem steady_duplicateAction : Steady duplicateAction := by
  intro site
  rw [duplicateAction, Site.erasePositions, Block.actions_erasePositions]
  refine map_gist_repeats _ Action.erasePosition (fun _ => rfl) (fun action first => ?_) _
  simp only [Problem.gist_report]
  rfl

theorem map_gist_duplicateGroup (group : List Block) :
    (duplicateGroup (group.map Block.erasePositions)).map (·.gist) =
      (duplicateGroup group).map (·.gist) := by
  match group with
  | [] => rfl
  | [block] => rfl
  | first :: second :: others =>
      simp only [List.map_cons, duplicateGroup, Problem.gist_report, Block.display_erasePositions]
      rfl

/-- The blocks that share kind and label are the same with and without positions. -/
theorem groupByKey_erasePositions (siblings : List Block) :
    groupByKey (fun block => (block.kind, block.label))
        ((siblings.map Block.erasePositions).filter (·.label.isSome)) =
      (groupByKey (fun block => (block.kind, block.label))
        (siblings.filter (·.label.isSome))).map (List.map Block.erasePositions) := by
  simp [List.filter_map, Function.comp_def, groupByKey_map]

theorem siblingLists_erasePositions (document : Document) :
    siblingLists document.erasePositions =
      (siblingLists document).map (List.map Block.erasePositions) := by
  have inner : document.erasePositions.preorder =
      document.preorder.map Block.erasePositions := by
    simp [← Document.map_block_sites, Document.sites_erasePositions, Site.erasePositions]
  simp [siblingLists, inner]

theorem map_gist_duplicateBlock (document : Document) :
    (duplicateBlock document.erasePositions).map (·.gist) =
      (duplicateBlock document).map (·.gist) := by
  rw [duplicateBlock, siblingLists_erasePositions]
  refine map_gist_flatMap _ (fun siblings => ?_) _
  rw [groupByKey_erasePositions]
  exact map_gist_flatMap _ map_gist_duplicateGroup _

theorem map_gist_emptyDocument (document : Document) :
    (emptyDocument document.erasePositions).map (·.gist) =
      (emptyDocument document).map (·.gist) := by
  simp [emptyDocument, Document.isEmpty]

/-- Every built-in rule says the same with and without positions. -/
theorem map_gist_checkOf (name : RuleName) (document : Document) :
    (checkOf name document.erasePositions).map (·.gist) =
      (checkOf name document).map (·.gist) := by
  cases name with
  | emptyDocument => exact map_gist_emptyDocument document
  | unknownKind => exact steady_unknownKind.perSite document
  | misplacedBlock => exact (Steady.whenKnown steady_misplacedBlock).perSite document
  | missingLabel => exact (Steady.whenKnown steady_missingLabel).perSite document
  | requiredAttribute => exact (Steady.whenKnown steady_requiredAttribute).perSite document
  | unknownAttribute => exact (Steady.whenKnown steady_unknownAttribute).perSite document
  | attributeType => exact (Steady.whenKnown steady_attributeType).perSite document
  | duplicateAttribute => exact steady_duplicateAttribute.perSite document
  | duplicateKey => exact steady_duplicateKey.perSite document
  | duplicateBlock => exact map_gist_duplicateBlock document
  | unresolvedReference => exact steady_unresolvedReference.perSite document
  | selfReference => exact steady_selfReference.perSite document
  | unexpectedActions => exact (Steady.whenKnown steady_unexpectedActions).perSite document
  | unknownVerb => exact steady_unknownVerb.perSite document
  | invalidPath => exact steady_invalidPath.perSite document
  | duplicateAction => exact steady_duplicateAction.perSite document

end Rule

/-! ## Reports -/

/-- Two reports come to the same verdict: both have a document, and they agree in the severities and
rules of all diagnostics, each as often, in the messages of those that are not about duplicates,
and in all that is counted. -/
structure Report.SameVerdict (left right : Report) : Prop where
  leftDocument : left.document.isSome = true
  rightDocument : right.document.isSome = true
  rules : (left.diagnostics.map fun diagnostic => (diagnostic.severity, diagnostic.rule)).Perm
    (right.diagnostics.map fun diagnostic => (diagnostic.severity, diagnostic.rule))
  messages :
    ((left.diagnostics.filter fun diagnostic => !diagnostic.isAboutDuplicates).map
      fun diagnostic => (diagnostic.severity, diagnostic.rule, diagnostic.message)).Perm
    ((right.diagnostics.filter fun diagnostic => !diagnostic.isAboutDuplicates).map
      fun diagnostic => (diagnostic.severity, diagnostic.rule, diagnostic.message))
  errors : Diagnostic.errorCount left.diagnostics = Diagnostic.errorCount right.diagnostics
  warnings : Diagnostic.warningCount left.diagnostics = Diagnostic.warningCount right.diagnostics
  anyError : Diagnostic.anyError left.diagnostics = Diagnostic.anyError right.diagnostics

/-- Documents of the same structure have the same diagnostics, up to positions and order. -/
theorem gist_validate_perm {left right : Document}
    (same : left.erasePositions = right.erasePositions) :
    ((Validator.builtin.validate left).map (·.gist)).Perm
      ((Validator.builtin.validate right).map (·.gist)) := by
  have unsorted (document : Document) :
      ((Validator.builtin.validate document).map (·.gist)).Perm
        (RuleName.all.flatMap fun name => (Rule.checkOf name document).map (·.gist)) := by
    rw [← List.map_flatMap, Validator.validate, Validator.builtin, List.flatMap_map]
    exact (List.mergeSort_perm _ Diagnostic.precedes).map _
  have erased (document : Document) :
      (RuleName.all.flatMap fun name => (Rule.checkOf name document).map (·.gist)) =
        RuleName.all.flatMap fun name =>
          (Rule.checkOf name document.erasePositions).map (·.gist) :=
    List.flatMap_congr fun name _ => (Rule.map_gist_checkOf name document).symm
  refine (unsorted left).trans ?_
  rw [erased left, same, ← erased right]
  exact (unsorted right).symm

/-- Diagnostics that say the same, up to positions and order, come to the same verdict. -/
theorem Report.sameVerdict_of_gists {left right : Report}
    (leftDocument : left.document.isSome = true) (rightDocument : right.document.isSome = true)
    (gists : (left.diagnostics.map (·.gist)).Perm (right.diagnostics.map (·.gist))) :
    left.SameVerdict right := by
  have messages (diagnostics : List Diagnostic) :
      ((diagnostics.filter fun diagnostic => !diagnostic.isAboutDuplicates).map
        fun diagnostic => (diagnostic.severity, diagnostic.rule, diagnostic.message)) =
      (diagnostics.map (·.gist)).filterMap fun gist =>
        gist.message.map fun message => (gist.severity, gist.rule, message) := by
    induction diagnostics with
    | nil => rfl
    | cons diagnostic rest inductionHypothesis =>
        cases about : diagnostic.isAboutDuplicates with
        | true => simp [about, Diagnostic.gist, inductionHypothesis]
        | false => simp [about, Diagnostic.gist, inductionHypothesis]
  have errors (diagnostics : List Diagnostic) : Diagnostic.errorCount diagnostics =
      (diagnostics.map (·.gist)).countP fun gist => gist.severity = .error := by
    rw [List.countP_map]
    rfl
  have warnings (diagnostics : List Diagnostic) : Diagnostic.warningCount diagnostics =
      (diagnostics.map (·.gist)).countP fun gist => !decide (gist.severity = .error) := by
    rw [List.countP_map]
    rfl
  have anyError (diagnostics : List Diagnostic) : Diagnostic.anyError diagnostics =
      (diagnostics.map (·.gist)).any fun gist => gist.severity = .error := by
    rw [List.any_map]
    rfl
  constructor
  · exact leftDocument
  · exact rightDocument
  · have severities := gists.map fun gist => (gist.severity, gist.rule)
    rw [List.map_map, List.map_map] at severities
    exact severities
  · rw [messages, messages]
    exact gists.filterMap _
  · rw [errors, errors]
    exact gists.countP_eq _
  · rw [warnings, warnings]
    exact gists.countP_eq _
  · rw [anyError, anyError]
    exact gists.any_eq

/-- A source text without errors is validated as its document. -/
theorem validateSource_of_noError (validator : Validator) {path source : String}
    (noError : Diagnostic.anyError (parse path source).diagnostics = false) :
    validator.validateSource path source =
      { path := path
        source := source
        document := some (parse path source).document
        diagnostics := validator.validate (parse path source).document } := by
  simp [Validator.validateSource, noError]

/-- What was formatted has no errors. -/
theorem noError_of_formatSource {settings : PrintSettings} {path source : String}
    {formatted : Formatted} (success : formatSource settings path source = .ok formatted) :
    Diagnostic.anyError (parse path source).diagnostics = false := by
  cases failing : Diagnostic.anyError (parse path source).diagnostics with
  | false => rfl
  | true => simp [formatSource, failing] at success

/-- Formatting does not change the verdict of validation. Whenever a source text is formatted, the
text and its canonical form, with any settings, both have a document, and the built-in rules find
the same problems in them. -/
theorem validateSource_formatted (settings : PrintSettings) (path source : String)
    (formatted : Formatted) (success : formatSource settings path source = .ok formatted) :
    (Validator.builtin.validateSource path source).SameVerdict
      (Validator.builtin.validateSource path formatted.text) := by
  obtain ⟨text, -⟩ := formatSource_ok success settings
  obtain ⟨silent, same⟩ := parse_print_parse path path source settings
  rw [← text] at silent same
  have noError : Diagnostic.anyError (parse path formatted.text).diagnostics = false := by
    rw [silent]
    rfl
  rw [validateSource_of_noError _ (noError_of_formatSource success),
    validateSource_of_noError _ noError]
  exact Report.sameVerdict_of_gists rfl rfl (gist_validate_perm same.symm)

/-- A source text with a comment, and with problems that are moved by formatting: the attributes
come before the action and have one key, and two blocks have one label. -/
def crowdedSource : String :=
  "# crowded\nservice \"a\" \x7b\n  GET /x -> h\n  version = 1\n  version = \"2\"\n\x7d\n" ++
    "service \"a\" \x7b\n\x7d\n"

theorem validateSource_formatted_crowdedSource :
    ∃ formatted, formatSource { style := .multi } "f" crowdedSource = .ok formatted ∧
      (Validator.builtin.validateSource "f" crowdedSource).SameVerdict
        (Validator.builtin.validateSource "f" formatted.text) := by
  have silent : (parse "f" crowdedSource).diagnostics = [] := by decide +kernel
  have success := formatSource_of_silent { style := .multi } silent
  exact ⟨_, success, validateSource_formatted _ "f" crowdedSource _ success⟩

end ServiceDef
