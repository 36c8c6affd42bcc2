import ServiceDef.Document

/-!
# Scopes

A label is visible from a block if it belongs to one of its siblings or to a sibling of a
block around it. A scope holds the blocks of one sibling list, an environment the scopes around
a block, and a site is a block together with its environment.
-/

namespace ServiceDef

/-- The labelled blocks of one sibling list. -/
structure Scope where
  siblings : List Block
deriving DecidableEq, Repr

/-- The first block with the given label. -/
def Scope.get? (scope : Scope) (label : String) : Option Block :=
  scope.siblings.find? fun block => block.label = some label

/-- Scopes inside each other, innermost first. -/
structure Environment where
  scopes : List Scope := []
deriving DecidableEq, Repr

namespace Environment

/-- The environment with one more scope inside of it. -/
def push (environment : Environment) (scope : Scope) : Environment where
  scopes := scope :: environment.scopes

/-- The innermost scope and the environment around it. -/
def pop? (environment : Environment) : Option (Scope × Environment) :=
  match environment.scopes with
  | [] => none
  | scope :: scopes => some (scope, { scopes := scopes })

/-- The block with the given label in the innermost scope that has one. -/
def lookup? (environment : Environment) (label : String) : Option Block :=
  environment.scopes.findSome? fun scope => scope.get? label

end Environment

/-- A block of a document and what is around it. -/
structure Site where
  block : Block
  /-- The block that holds the block of the site. -/
  parent : Option Block
  /-- The sibling lists around the block, its own one included. -/
  environment : Environment
deriving DecidableEq, Repr

namespace Site

mutual

/-- The sites of a block and of all blocks in it, each before those nested in it. -/
def ofBlock (environment : Environment) (parent : Option Block) : Block → List Site
  | ⟨kind, label, attributes, blocks, actions, comments, trailingComments, position⟩ =>
    let block : Block :=
      ⟨kind, label, attributes, blocks, actions, comments, trailingComments, position⟩
    { block := block, parent := parent, environment := environment } ::
      ofBlocks (environment.push { siblings := blocks }) (some block) blocks

/-- The sites of some blocks and of all blocks in them. -/
def ofBlocks (environment : Environment) (parent : Option Block) : List Block → List Site
  | [] => []
  | block :: blocks => ofBlock environment parent block ++ ofBlocks environment parent blocks

end

end Site

/-- The sites of all blocks of a document, each before those nested in it. -/
def Document.sites (document : Document) : List Site :=
  Site.ofBlocks (Environment.push {} { siblings := document.blocks }) none document.blocks

end ServiceDef
