import ServiceDef.Diagnostic
import ServiceDef.Schema
import ServiceDef.Token

/-!
# Problems of documents

What the built-in rules can find in a document, and how it is reported. Every problem belongs
to one rule.
-/

namespace ServiceDef

/-- The names of the built-in rules, in the order in which the rules are run. -/
inductive RuleName where
  | emptyDocument
  | unknownKind
  | misplacedBlock
  | missingLabel
  | requiredAttribute
  | unknownAttribute
  | attributeType
  | duplicateAttribute
  | duplicateKey
  | duplicateBlock
  | unresolvedReference
  | selfReference
  | unexpectedActions
  | unknownVerb
  | invalidPath
  | duplicateAction
deriving DecidableEq, Repr

/-- The identifier under which a rule reports. -/
def RuleName.id : RuleName → String
  | .emptyDocument => "empty-document"
  | .unknownKind => "unknown-kind"
  | .misplacedBlock => "misplaced-block"
  | .missingLabel => "missing-label"
  | .requiredAttribute => "required-attribute"
  | .unknownAttribute => "unknown-attribute"
  | .attributeType => "attribute-type"
  | .duplicateAttribute => "duplicate-attribute"
  | .duplicateKey => "duplicate-key"
  | .duplicateBlock => "duplicate-block"
  | .unresolvedReference => "unresolved-reference"
  | .selfReference => "self-reference"
  | .unexpectedActions => "unexpected-actions"
  | .unknownVerb => "unknown-verb"
  | .invalidPath => "invalid-path"
  | .duplicateAction => "duplicate-action"

/-- A problem of a document. Blocks are given by the title that names them in messages. -/
inductive Problem where
  | emptyDocument
  | unknownKind (kind : String)
  | misplacedBlock (kind : String) (parent : Option String)
  | missingLabel (kind : String)
  | requiredAttribute (title key : String)
  | unknownAttribute (key kind : String)
  | attributeType (key : String) (shape : Shape) (value : Value)
  | duplicateAttribute (key : String) (first : Position)
  | duplicateKey (key : String) (first : Position)
  /-- The places of all blocks that share kind and label: the first, the second, and the
  others. -/
  | duplicateBlock (title : String) (first second : Position) (others : List Position)
  | unresolvedReference (title name : String)
  | selfReference (title : String)
  | unexpectedActions (kind : String)
  | unknownVerb (method : String)
  | invalidPath (target : String)
  | duplicateAction (method target : String) (first : Position)
deriving DecidableEq, Repr

namespace Problem

/-- The rule that a problem belongs to. -/
def rule : Problem → RuleName
  | .emptyDocument => .emptyDocument
  | .unknownKind _ => .unknownKind
  | .misplacedBlock _ _ => .misplacedBlock
  | .missingLabel _ => .missingLabel
  | .requiredAttribute _ _ => .requiredAttribute
  | .unknownAttribute _ _ => .unknownAttribute
  | .attributeType _ _ _ => .attributeType
  | .duplicateAttribute _ _ => .duplicateAttribute
  | .duplicateKey _ _ => .duplicateKey
  | .duplicateBlock _ _ _ _ => .duplicateBlock
  | .unresolvedReference _ _ => .unresolvedReference
  | .selfReference _ => .selfReference
  | .unexpectedActions _ => .unexpectedActions
  | .unknownVerb _ => .unknownVerb
  | .invalidPath _ => .invalidPath
  | .duplicateAction _ _ _ => .duplicateAction

/-- What may be a spelling mistake or an oversight is a warning; all else is an error. -/
def severity : Problem → Severity
  | .emptyDocument => .warning
  | .unknownKind _ => .warning
  | .unknownAttribute _ _ => .warning
  | .unknownVerb _ => .warning
  | _ => .error

/-- How a value of a wrong shape is named. -/
def found : Shape → Value → String
  | .stringList, .list _ => "a list with non-string elements"
  | _, value => value.describe

/-- What was defined twice, and where it was defined first. -/
def duplicateMessage (what name : String) (first : Position) : String :=
  "duplicate " ++ what ++ " " ++ backquoted name ++ ", first defined at " ++ first.lineColumn

/-- The message for a problem. -/
def message : Problem → String
  | .emptyDocument => "document contains no blocks"
  | .unknownKind kind => "unknown block kind " ++ backquoted kind
  | .misplacedBlock kind (some parent) =>
    backquoted kind ++ " blocks are not allowed inside " ++ backquoted parent
  | .misplacedBlock kind none => backquoted kind ++ " blocks are not allowed at the top level"
  | .missingLabel kind => backquoted kind ++ " blocks require a label"
  | .requiredAttribute title key =>
    backquoted title ++ " is missing required attribute " ++ backquoted key
  | .unknownAttribute key kind =>
    "unknown attribute " ++ backquoted key ++ " for " ++ backquoted kind ++ " blocks"
  | .attributeType key shape value =>
    "attribute " ++ backquoted key ++ " must be " ++ shape.describe ++ ", found " ++
      found shape value
  | .duplicateAttribute key first => duplicateMessage "attribute" key first
  | .duplicateKey key first => duplicateMessage "map key" key first
  | .duplicateBlock title first second others =>
    "duplicate " ++ backquoted title ++ " defined at " ++
      String.intercalate ", " ((first :: second :: others).map Position.lineColumn)
  | .unresolvedReference title name =>
    backquoted title ++ " depends on " ++ backquoted name ++ ", which is not defined"
  | .selfReference title => backquoted title ++ " depends on itself"
  | .unexpectedActions kind => backquoted kind ++ " blocks do not accept actions"
  | .unknownVerb method => "unknown action method " ++ backquoted method
  | .invalidPath target => "action target " ++ backquoted target ++ " must start with '/'"
  | .duplicateAction method target first =>
    duplicateMessage "action" (method ++ " " ++ target) first

/-- The other places that a problem is about. -/
def related : Problem → List Position
  | .duplicateAttribute _ first => [first]
  | .duplicateKey _ first => [first]
  | .duplicateBlock _ first _ others => first :: others
  | .duplicateAction _ _ first => [first]
  | _ => []

/-- The notes on a problem. -/
def notes : Problem → List String
  | .unknownVerb _ => ["known methods: " ++ String.intercalate ", " Schema.verbs]
  | _ => []

/-- The report of a problem at a place. -/
def report (problem : Problem) (position : Position) : Diagnostic where
  severity := problem.severity
  rule := problem.rule.id
  message := problem.message
  position := position
  related := problem.related
  notes := problem.notes

end Problem

end ServiceDef
