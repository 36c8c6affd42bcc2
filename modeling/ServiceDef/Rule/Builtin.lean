import ServiceDef.Rule.Problem
import ServiceDef.Rule.Repeats
import ServiceDef.Scope

/-!
# The built-in rules

Each rule looks at a whole document and reports every problem of its kind. The rules about
blocks go through the sites of the document, so that their reports come in the order in which
the blocks are written.
-/

namespace ServiceDef

/-- A check of a document under an identifier of its own. -/
structure Rule where
  id : String
  check : Document → List Diagnostic

namespace Rule

/-- What is reported for the blocks of a document, one after the other. -/
def perSite (check : Site → List Diagnostic) (document : Document) : List Diagnostic :=
  document.sites.flatMap check

/-- What is reported for a block whose kind is known. -/
def whenKnown (check : Site → KindSpec → List Diagnostic) (site : Site) : List Diagnostic :=
  match Schema.kind? site.block.kind with
  | some spec => check site spec
  | none => []

/-- The report of a problem if it is there. -/
def reportIf (present : Bool) (problem : Problem) (position : Position) : List Diagnostic :=
  if present then [problem.report position] else []

/-- A document should have a block. -/
def emptyDocument (document : Document) : List Diagnostic :=
  reportIf document.isEmpty .emptyDocument (Position.startOf document.file)

/-- The kind of a block should be known. -/
def unknownKind (site : Site) : List Diagnostic :=
  reportIf (Schema.kind? site.block.kind).isNone (.unknownKind site.block.kind)
    site.block.position

/-- A block stands where its kind may stand. -/
def misplacedBlock (site : Site) (spec : KindSpec) : List Diagnostic :=
  let parent := site.parent.map (·.kind)
  reportIf (!spec.placement.allows parent) (.misplacedBlock site.block.kind parent)
    site.block.position

/-- A block has a label if its kind needs one. -/
def missingLabel (site : Site) (spec : KindSpec) : List Diagnostic :=
  reportIf (spec.labelRequired && site.block.label.isNone) (.missingLabel site.block.kind)
    site.block.position

/-- A block has all attributes that its kind requires. -/
def requiredAttribute (site : Site) (spec : KindSpec) : List Diagnostic :=
  spec.required.flatMap fun required =>
    reportIf (site.block.attribute? required.key).isNone
      (.requiredAttribute site.block.display required.key) site.block.position

/-- A block should have attributes of its kind only. -/
def unknownAttribute (site : Site) (spec : KindSpec) : List Diagnostic :=
  site.block.attributes.flatMap fun attr =>
    reportIf (!spec.declares attr.key) (.unknownAttribute attr.key site.block.kind) attr.position

/-- The value of an attribute has the shape that is listed for it. -/
def attributeType (site : Site) (spec : KindSpec) : List Diagnostic :=
  site.block.attributes.flatMap fun attr =>
    match spec.attribute? attr.key with
    | some expected =>
      reportIf (!expected.shape.accepts attr.value)
        (.attributeType attr.key expected.shape attr.value) attr.position
    | none => []

/-- The attributes of a block have different keys. -/
def duplicateAttribute (site : Site) : List Diagnostic :=
  (repeats Attribute.key site.block.attributes).map fun (attr, first) =>
    (Problem.duplicateAttribute attr.key first.position).report attr.position

/-- The entries of a map have different keys. -/
def duplicateKey (site : Site) : List Diagnostic :=
  (site.block.attributes.flatMap (·.value.maps)).flatMap fun entries =>
    (repeats Entry.key entries).map fun (entry, first) =>
      (Problem.duplicateKey entry.key first.position).report entry.position

/-- All sibling lists of a document: the top level, and the nested blocks of each block. -/
def siblingLists (document : Document) : List (List Block) :=
  document.blocks :: document.preorder.map (·.blocks)

/-- The report of blocks that share kind and label, at the second one. -/
def duplicateGroup : List Block → List Diagnostic
  | first :: second :: others =>
    [(Problem.duplicateBlock first.display first.position second.position
      (others.map (·.position))).report second.position]
  | _ => []

/-- Labelled siblings differ in kind or label. -/
def duplicateBlock (document : Document) : List Diagnostic :=
  (siblingLists document).flatMap fun siblings =>
    (groupByKey (fun block => (block.kind, block.label))
      (siblings.filter (·.label.isSome))).flatMap duplicateGroup

/-- The place and the names of the blocks that a block depends on, if it lists any. -/
def dependencies (block : Block) : Option (Position × List String) :=
  match block.attribute? Schema.dependsOn with
  | some { value := .list items, position := position, .. } =>
    some (position, items.filterMap Value.string?)
  | _ => none

/-- The blocks that a block depends on are visible from it. -/
def unresolvedReference (site : Site) : List Diagnostic :=
  match dependencies site.block with
  | some (position, names) =>
    names.flatMap fun name =>
      reportIf (site.block.label ≠ some name && (site.environment.lookup? name).isNone)
        (.unresolvedReference site.block.display name) position
  | none => []

/-- A block does not depend on itself. -/
def selfReference (site : Site) : List Diagnostic :=
  match site.block.label, dependencies site.block with
  | some label, some (position, names) =>
    reportIf (names.contains label) (.selfReference site.block.display) position
  | _, _ => []

/-- A block has no actions if its kind takes none. -/
def unexpectedActions (site : Site) (spec : KindSpec) : List Diagnostic :=
  match site.block.actions with
  | [] => []
  | first :: _ =>
    reportIf (!spec.acceptsActions) (.unexpectedActions site.block.kind) first.position

/-- The method of an action should be known. -/
def unknownVerb (site : Site) : List Diagnostic :=
  site.block.actions.flatMap fun action =>
    reportIf (!Schema.verbs.contains action.method) (.unknownVerb action.method) action.position

/-- The target of an action starts with a slash. -/
def invalidPath (site : Site) : List Diagnostic :=
  site.block.actions.flatMap fun action =>
    reportIf (action.target.toList.head? ≠ some '/') (.invalidPath action.target) action.position

/-- The actions of a block differ in method or target. -/
def duplicateAction (site : Site) : List Diagnostic :=
  (repeats (fun (action : Action) => (action.method, action.target)) site.block.actions).map
    fun (action, first) =>
      (Problem.duplicateAction action.method action.target first.position).report action.position

/-- What a built-in rule reports. -/
def checkOf : RuleName → Document → List Diagnostic
  | .emptyDocument => emptyDocument
  | .unknownKind => perSite unknownKind
  | .misplacedBlock => perSite (whenKnown misplacedBlock)
  | .missingLabel => perSite (whenKnown missingLabel)
  | .requiredAttribute => perSite (whenKnown requiredAttribute)
  | .unknownAttribute => perSite (whenKnown unknownAttribute)
  | .attributeType => perSite (whenKnown attributeType)
  | .duplicateAttribute => perSite duplicateAttribute
  | .duplicateKey => perSite duplicateKey
  | .duplicateBlock => duplicateBlock
  | .unresolvedReference => perSite unresolvedReference
  | .selfReference => perSite selfReference
  | .unexpectedActions => perSite (whenKnown unexpectedActions)
  | .unknownVerb => perSite unknownVerb
  | .invalidPath => perSite invalidPath
  | .duplicateAction => perSite duplicateAction

/-- The built-in rule with the given name. -/
def builtin (name : RuleName) : Rule where
  id := name.id
  check := checkOf name

end Rule

end ServiceDef
