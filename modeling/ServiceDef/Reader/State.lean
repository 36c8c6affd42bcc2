import ServiceDef.Diagnostic
import ServiceDef.Reader.Fault

/-!
# The state of a reader

A reader builds a document from tokens, one token after the other. Between two tokens it
holds the blocks that are still open, the mode that says what it is waiting for, and the
comments that have been read but belong to no part of the document yet.

A fault inside a statement gives the statement up. The reader then skips tokens until the
statement has ended, and keeps track of the brackets in between, so that a line break inside a
broken value does not end it.
-/

namespace ServiceDef

/-- The two kinds of brackets. -/
inductive Bracket where
  | square
  | curly
deriving DecidableEq, Repr

/-- The identifier that starts a block, an attribute or an action, with its place and the
comments above it. -/
structure Head where
  name : String
  comments : List String
  position : Position
deriving DecidableEq, Repr

/-- A list or map that waits for a value inside of it. -/
inductive OpenValue where
  | list (items : List Value)
  | map (entries : List (Entry Value)) (key : String) (position : Position)
deriving DecidableEq, Repr

/-- The bracket that an open list or map will be closed by. -/
def OpenValue.bracket : OpenValue → Bracket
  | .list _ => .square
  | .map _ _ _ => .curly

/-- A place inside the value of an attribute. All places name the lists and maps around them,
innermost first. -/
inductive ValuePlace where
  /-- In front of a value. -/
  | value (outer : List OpenValue)
  /-- In a list, in front of an item or the closing bracket. -/
  | item (items : List Value) (outer : List OpenValue)
  /-- In a list, behind an item. -/
  | itemEnd (items : List Value) (outer : List OpenValue)
  /-- In a map, in front of a key or the closing brace. -/
  | key (entries : List (Entry Value)) (outer : List OpenValue)
  /-- In a map, behind a key. -/
  | keyEnd (entries : List (Entry Value)) (key : String) (position : Position)
      (outer : List OpenValue)
  /-- In a map, behind the value of an entry. -/
  | entryEnd (entries : List (Entry Value)) (outer : List OpenValue)
deriving DecidableEq, Repr

/-- The brackets that are open at a place, innermost first. -/
def ValuePlace.brackets : ValuePlace → List Bracket
  | .value outer => outer.map OpenValue.bracket
  | .item _ outer => .square :: outer.map OpenValue.bracket
  | .itemEnd _ outer => .square :: outer.map OpenValue.bracket
  | .key _ outer => .curly :: outer.map OpenValue.bracket
  | .keyEnd _ _ _ outer => .curly :: outer.map OpenValue.bracket
  | .entryEnd _ outer => .curly :: outer.map OpenValue.bracket

/-- What is expected at a place. -/
def ValuePlace.expectation : ValuePlace → Expectation
  | .value _ => .value
  | .item _ _ => .value
  | .itemEnd _ _ => .listSeparator
  | .key _ _ => .mapKey
  | .keyEnd _ name _ _ => .mapEquals name
  | .entryEnd _ _ => .mapSeparator

/-- What a reader is waiting for. -/
inductive Mode where
  /-- A statement, or the end of the innermost block or group. -/
  | statement
  /-- The end of the line of a statement. -/
  | statementEnd
  /-- The end of a broken statement, behind the given brackets, innermost first. -/
  | skipping (brackets : List Bracket)
  /-- The label or brace behind the kind of a top-level block. -/
  | header (head : Head)
  /-- What follows the first identifier of a statement in a block. -/
  | named (name : String) (position : Position)
  /-- The brace behind a label, or the arrow behind a quoted target. -/
  | labelled (head : Head) (label : String)
  /-- An action or a value behind the key of a single action. -/
  | actionKey (head : Head)
  /-- The value of an attribute, at a place inside of it. -/
  | value (head : Head) (place : ValuePlace)
  /-- The end of the line of an attribute, with a comment on it. -/
  | attributeEnd (attr : Attribute)
  /-- The target behind the method of an action. -/
  | actionTarget (head : Head)
  /-- The arrow behind the target of an action. -/
  | actionArrow (head : Head) (target : String)
  /-- The handler behind the arrow of an action. -/
  | actionHandler (head : Head) (target : String)
  /-- The end of the line of an action, with a comment on it. -/
  | actionEnd (action : Action)
deriving DecidableEq, Repr

/-- A reader between two tokens. -/
structure Reader where
  /-- The top-level blocks that are complete. -/
  blocks : List Block := []
  /-- The blocks that are still open, innermost first. -/
  openBlocks : List Block := []
  /-- The place of the group of actions that is open in the innermost block. -/
  group : Option Position := none
  mode : Mode := .statement
  /-- The comments that belong to no part of the document yet. -/
  pending : List String := []
  diagnostics : List Diagnostic := []
deriving DecidableEq, Repr

namespace Reader

/-- The reader in another mode. -/
def enter (reader : Reader) (mode : Mode) : Reader :=
  { reader with mode := mode }

/-- The reader after it has taken over the comments of a token. -/
def absorb (reader : Reader) (token : Token) : Reader :=
  { reader with pending := reader.pending ++ token.comments }

/-- The reader without comments that wait for a part of the document. -/
def release (reader : Reader) : Reader :=
  { reader with pending := [] }

/-- The head of a part that starts with `name` and takes all waiting comments. -/
def head (reader : Reader) (name : String) (position : Position) : Head where
  name := name
  comments := reader.pending
  position := position

/-- The reader after it has found a fault. -/
def report (reader : Reader) (fault : ReadFault) (position : Position) : Reader :=
  { reader with diagnostics := reader.diagnostics ++ [Diagnostic.malformed fault.message position] }

/-- The reader after it has found a token in the place of something else. Invalid tokens have
been reported when they were scanned and are not reported again. -/
def expected (reader : Reader) (expectation : Expectation) (token : Token) : Reader :=
  match token.kind with
  | .invalid _ => reader
  | kind => reader.report (.unexpected expectation kind) token.position

/-- The reader with one more attribute in the innermost open block. -/
def addAttribute (reader : Reader) (attr : Attribute) : Reader :=
  { reader with
    openBlocks := reader.openBlocks.modifyHead fun block =>
      { block with attributes := block.attributes ++ [attr] } }

/-- The reader with one more action in the innermost open block. -/
def addAction (reader : Reader) (action : Action) : Reader :=
  { reader with
    openBlocks := reader.openBlocks.modifyHead fun block =>
      { block with actions := block.actions ++ [action] } }

/-- The reader inside of a new block. -/
def openBlock (reader : Reader) (head : Head) (label : Option String) : Reader :=
  { reader with
    openBlocks :=
      { kind := head.name, label := label, comments := head.comments, position := head.position } ::
        reader.openBlocks
    mode := .statement }

/-- The reader outside of `block`, which stood in `outer` and takes all waiting comments. -/
def closeBlock (reader : Reader) (block : Block) (outer : List Block) : Reader :=
  let closed := { block with trailingComments := reader.pending }
  let reader := { reader.release with mode := .statementEnd }
  match outer with
  | [] => { reader with blocks := reader.blocks ++ [closed], openBlocks := [] }
  | parent :: outer =>
    { reader with openBlocks := { parent with blocks := parent.blocks ++ [closed] } :: outer }

/-- What the reader is waiting for between two statements. -/
def statementExpectation (reader : Reader) : Expectation :=
  match reader.group, reader.openBlocks with
  | some _, _ => .action
  | none, [] => .block
  | none, _ :: _ => .statement

end Reader

end ServiceDef
