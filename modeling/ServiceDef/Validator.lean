import ServiceDef.Failure
import ServiceDef.Parse
import ServiceDef.Rule.Builtin

/-!
# Validation

A validator runs all its rules on a document and reports what they find in reporting order.
The rules are run on complete documents only: a source with malformed text is reported for
that and for nothing else.
-/

namespace ServiceDef

/-- The built-in rules, in the order in which they are run. -/
def RuleName.all : List RuleName :=
  [.emptyDocument, .unknownKind, .misplacedBlock, .missingLabel, .requiredAttribute,
   .unknownAttribute, .attributeType, .duplicateAttribute, .duplicateKey, .duplicateBlock,
   .unresolvedReference, .selfReference, .unexpectedActions, .unknownVerb, .invalidPath,
   .duplicateAction]

/-- The built-in rule with the given identifier. -/
def RuleName.ofId? (id : String) : Option RuleName :=
  RuleName.all.find? fun name => name.id = id

/-- Rules that are run together. -/
structure Validator where
  rules : List Rule := []

/-- What is known of a source text after validation. -/
structure Report where
  path : String
  source : String
  /-- The document of the source, unless the source is malformed. -/
  document : Option Document
  diagnostics : List Diagnostic
deriving DecidableEq, Repr

namespace Validator

/-- The validator of all built-in rules. -/
def builtin : Validator where
  rules := RuleName.all.map Rule.builtin

/-- The validator with one more rule behind the others. -/
def addRule (validator : Validator) (rule : Rule) : Validator where
  rules := validator.rules ++ [rule]

/-- The identifiers of the rules. -/
def ids (validator : Validator) : List String :=
  validator.rules.map (·.id)

/-- A text that shows the rules of the validator. -/
def display (validator : Validator) : String :=
  "Validator \x7b rules: [" ++ String.intercalate ", " (validator.ids.map Text.showString) ++
    "] \x7d"

/-- What the rules find in a document, in reporting order. -/
def validate (validator : Validator) (document : Document) : List Diagnostic :=
  Diagnostic.sort (validator.rules.flatMap fun rule => rule.check document)

/-- Validates a source text. -/
def validateSource (validator : Validator) (path source : String) : Report :=
  let parsed := parse path source
  if Diagnostic.anyError parsed.diagnostics then
    { path := path, source := source, document := none, diagnostics := parsed.diagnostics }
  else
    { path := path
      source := source
      document := some parsed.document
      diagnostics := validator.validate parsed.document }

end Validator

end ServiceDef
