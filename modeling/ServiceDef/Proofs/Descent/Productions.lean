import ServiceDef.Proofs.Descent.Buffer

/-!
# Parsing by recursive descent

The grammar of documents as functions that call each other, one per production, with a loop for
everything that repeats. A production that meets a wrong token reports it and gives up; the loop
over statements around it then skips to the end of the statement.

All recursion goes through the loops: a list or map holds its items in a loop, a block its
statements. The productions are stated for any way to run the loops inside of them, and `Loop.run`
ties the knot down to a depth of calls and rounds. Below it there is no outcome.
-/

namespace ServiceDef

namespace Block

/-- The block with one more attribute. -/
def withAttribute (block : Block) (attr : Attribute) : Block :=
  { block with attributes := block.attributes ++ [attr] }

/-- The block with one more action. -/
def withAction (block : Block) (action : Action) : Block :=
  { block with actions := block.actions ++ [action] }

/-- The block with one more nested block. -/
def withChild (block child : Block) : Block :=
  { block with blocks := block.blocks ++ [child] }

end Block

/-- The document with one more block. -/
def Document.withBlock (document : Document) (block : Block) : Document :=
  { document with blocks := document.blocks ++ [block] }

namespace Descent

/-- The loops of the parser. -/
inductive Loop where
  /-- Over the blocks of a document. -/
  | document
  /-- Over the statements of a block. -/
  | block
  /-- Over the actions of a group that was opened at a place. -/
  | group (opened : Position)
  /-- Over the items of a list. -/
  | list
  /-- Over the entries of a map. -/
  | map
  /-- Over line breaks. -/
  | newlines
  /-- Over line breaks and commas. -/
  | separators
  /-- Over the tokens of a broken statement. -/
  | recovery
deriving DecidableEq, Repr

namespace Loop

/-- What a loop hands from round to round. -/
abbrev Carrier : Loop → Type
  | .document => Document
  | .block | .group _ => Block
  | .list => List Value
  | .map => List (Entry Value)
  | .newlines | .separators => Unit
  | .recovery => List Bracket

/-- What is left of a loop behind its last round. Lists and maps can be given up. -/
abbrev Result : Loop → Type
  | .document => Document
  | .block | .group _ => Block
  | .list => Option (List Value)
  | .map => Option (List (Entry Value))
  | .newlines | .separators | .recovery => Unit

/-- How a round of a loop ends: with another round or behind the loop. -/
inductive Turn (loop : Loop) where
  | again (carrier : loop.Carrier)
  | leave (result : loop.Result)

end Loop

/-- A way to run the loops, each from what it is handed to what is left of it. -/
abbrev Loops := (loop : Loop) → loop.Carrier → Run loop.Result

/-- A round of the loop over line breaks. -/
def newlinesTurn : Run (Loop.Turn .newlines) := do
  match (← look 0).kind with
  | .newline => do
    let _ ← bump
    return .again ()
  | _ => return .leave ()

/-- A round of the loop over line breaks and commas. -/
def separatorsTurn : Run (Loop.Turn .separators) := do
  match (← look 0).kind with
  | .newline | .comma => do
    let _ ← bump
    return .again ()
  | _ => return .leave ()

/-- Skips a token of a broken statement, behind which the given brackets are open. -/
def skipToken (brackets : List Bracket) : Run (Loop.Turn .recovery) := do
  let _ ← bump
  return .again brackets

/-- A round of the loop over the tokens of a broken statement, behind the given brackets. -/
def recoveryTurn (brackets : List Bracket) : Run (Loop.Turn .recovery) := do
  match (← look 0).kind with
  | .endOfFile => return .leave ()
  | .newline => if brackets.isEmpty then return .leave () else skipToken brackets
  | .leftBrace => skipToken (.curly :: brackets)
  | .leftBracket => skipToken (.square :: brackets)
  | .rightBrace =>
    if .curly ∈ brackets then skipToken (brackets.dropWhile (· ≠ .curly)).tail
    else return .leave ()
  | .rightBracket =>
    if .square ∈ brackets then skipToken (brackets.dropWhile (· ≠ .square)).tail
    else skipToken brackets
  | _ => skipToken brackets

/-- Reads the handler of an action, which is the next token, and the comment behind it. -/
def takeHandler (head : Head) (target handler : String) : Run (Option Action) := do
  let _ ← bump
  let trailing ← takeTrailing
  return some
    { method := head.name
      target := target
      handler := handler
      comments := head.comments
      trailingComment := trailing
      position := head.position }

/-- Reads an action behind its arrow. -/
def parseHandler (head : Head) (target : String) : Run (Option Action) := do
  match (← look 0).kind with
  | .identifier handler | .string handler => takeHandler head target handler
  | _ => do
    expected .handler
    return none

/-- Reads an action from its target on, which is the next token. -/
def parseArrow (head : Head) (target : String) : Run (Option Action) := do
  let _ ← bump
  match (← look 0).kind with
  | .arrow => do
    let _ ← bump
    parseHandler head target
  | _ => do
    expected .arrow
    return none

/-- Reads the action with the given method, which is the next token. -/
def parseAction (method : String) : Run (Option Action) := do
  let first ← bump
  let comments ← takeComments
  let head := { name := method, comments := comments, position := first.position }
  match (← look 0).kind with
  | .path target | .string target => parseArrow head target
  | _ => do
    expected .actionTarget
    return none

/-- Reads the label of a block, if it has one. -/
def parseLabel : Run (Option String) := do
  match (← look 0).kind with
  | .string label => do
    let _ ← bump
    return some label
  | _ => return none

section Productions

variable (loops : Loops)

/-- Skips line breaks. -/
def skipNewlines : Run Unit :=
  loops .newlines ()

/-- Skips the rest of a broken statement. -/
def synchronize : Run Unit := do
  let brackets ← takeOpenValues
  loops .recovery brackets

/-- Ends a statement, which has been read or given up. -/
def settle (read : Bool) : Run Unit := do
  if read then
    if ← endStatement then return () else synchronize loops
  else synchronize loops

/-- Skips a token that starts no statement, and the rest of its line. -/
def skipStatement (expectation : Expectation) : Run Unit := do
  expected expectation
  let _ ← bump
  synchronize loops

/-- Reads a value. -/
def parseValue : Run (Option Value) := do
  match (← look 0).kind with
  | .string contents => do
    let _ ← bump
    return some (.scalar (.string contents))
  | .number lexeme => do
    let _ ← bump
    return some (.scalar (.number lexeme))
  | .boolean value => do
    let _ ← bump
    return some (.scalar (.boolean value))
  | .leftBracket => do
    let _ ← bump
    openValue .square
    let some items ← loops .list [] | return none
    let _ ← bump
    closeValue
    return some (.list items)
  | .leftBrace => do
    let _ ← bump
    openValue .curly
    let some entries ← loops .map [] | return none
    let _ ← bump
    closeValue
    return some (.map entries)
  | _ => do
    expected .value
    return none

/-- Reads an item of a list and the comma behind it, up to the closing bracket. -/
def parseItem (items : List Value) : Run (Loop.Turn .list) := do
  let some item ← parseValue loops | return .leave none
  skipNewlines loops
  match (← look 0).kind with
  | .comma => do
    let _ ← bump
    return .again (items ++ [item])
  | .rightBracket => return .leave (some (items ++ [item]))
  | _ => do
    expected .listSeparator
    return .leave none

/-- A round of the loop over the items of a list. -/
def listTurn (items : List Value) : Run (Loop.Turn .list) := do
  skipNewlines loops
  match (← look 0).kind with
  | .rightBracket => return .leave (some items)
  | _ => parseItem loops items

/-- Reads the value of an entry of a map, behind its key and sign. -/
def parseEntryValue (entries : List (Entry Value)) (key : String) (position : Position) :
    Run (Loop.Turn .map) := do
  let some value ← parseValue loops | return .leave none
  match (← look 0).kind with
  | .newline | .comma | .rightBrace =>
    return .again (entries ++ [{ key := key, value := value, position := position }])
  | _ => do
    expected .mapSeparator
    return .leave none

/-- Reads an entry of a map behind its key. -/
def parseEntry (entries : List (Entry Value)) (key : String) (position : Position) :
    Run (Loop.Turn .map) := do
  match (← look 0).kind with
  | .equals | .colon => do
    let _ ← bump
    parseEntryValue loops entries key position
  | _ => do
    expected (.mapEquals key)
    return .leave none

/-- A round of the loop over the entries of a map. -/
def mapTurn (entries : List (Entry Value)) : Run (Loop.Turn .map) := do
  loops .separators ()
  match (← look 0).kind with
  | .rightBrace => return .leave (some entries)
  | .identifier key => do
    let first ← bump
    parseEntry loops entries key first.position
  | _ => do
    expected .mapKey
    return .leave none

/-- Reads the attribute with the given key. The key and the sign behind it are the next
tokens. -/
def parseAttribute (key : String) : Run (Option Attribute) := do
  let first ← bump
  let comments ← takeComments
  let _ ← bump
  let some value ← parseValue loops | return none
  let trailing ← takeTrailing
  return some
    { key := key
      value := value
      comments := comments
      trailingComment := trailing
      position := first.position }

/-- Reads the body of a block behind its head and label. -/
def parseBody (head : Head) (label : Option String) : Run (Option Block) := do
  match (← look 0).kind with
  | .leftBrace => do
    let _ ← bump
    let block ← loops .block
      { kind := head.name, label := label, comments := head.comments, position := head.position }
    let trailing ← takeComments
    return some { block with trailingComments := trailing }
  | _ => do
    expected (.openBrace head.name)
    return none

/-- Reads the block of the given kind, which is the next token. -/
def parseBlock (kind : String) : Run (Option Block) := do
  let first ← bump
  let comments ← takeComments
  let label ← parseLabel
  parseBody loops { name := kind, comments := comments, position := first.position } label

/-- Reads the statement with the given name, which is the next token, and a sign behind it. -/
def parseSigned (name : String) (block : Block) : Run (Option Block) := do
  if name = Word.action then
    match (← look 2).kind with
    | .identifier method => do
      let _ ← bump
      let _ ← bump
      return (← parseAction method).map block.withAction
    | _ => return (← parseAttribute loops name).map block.withAttribute
  else return (← parseAttribute loops name).map block.withAttribute

/-- Reads the statement with the given name, which is the next token, into a block. -/
def parseStatement (name : String) (block : Block) : Run (Option Block) := do
  match (← look 1).kind with
  | .path _ => return (← parseAction name).map block.withAction
  | .string _ =>
    if (← look 2).kind = .arrow then return (← parseAction name).map block.withAction
    else return (← parseBlock loops name).map block.withChild
  | .leftBrace =>
    if name = Word.actions then do
      let first ← bump
      let _ ← bump
      return some (← loops (.group first.position) block)
    else return (← parseBlock loops name).map block.withChild
  | .equals | .colon => parseSigned loops name block
  | _ => do
    let _ ← bump
    expected (.statementRest name)
    return none

/-- A round of the loop over the statements of a block. -/
def blockTurn (block : Block) : Run (Loop.Turn .block) := do
  noteRound
  skipNewlines loops
  match (← look 0).kind with
  | .rightBrace => do
    let _ ← bump
    return .leave block
  | .endOfFile => do
    report (.unclosedBlock block.kind block.label) block.position
    return .leave block
  | .identifier name => do
    let after ← parseStatement loops name block
    settle loops after.isSome
    return .again (after.getD block)
  | _ => do
    skipStatement loops .statement
    return .again block

/-- A round of the loop over the actions of a group. -/
def groupTurn (opened : Position) (block : Block) : Run (Loop.Turn (.group opened)) := do
  noteRound
  skipNewlines loops
  match (← look 0).kind with
  | .rightBrace => do
    let _ ← bump
    return .leave block
  | .endOfFile => do
    report .unclosedGroup opened
    return .leave block
  | .identifier method => do
    let after := (← parseAction method).map block.withAction
    settle loops after.isSome
    return .again (after.getD block)
  | _ => do
    skipStatement loops .action
    return .again block

/-- A round of the loop over the blocks of a document. -/
def documentTurn (document : Document) : Run (Loop.Turn .document) := do
  noteRound
  skipNewlines loops
  match (← look 0).kind with
  | .endOfFile => do
    let _ ← bump
    return .leave document
  | .identifier kind => do
    let after := (← parseBlock loops kind).map document.withBlock
    settle loops after.isSome
    return .again (after.getD document)
  | .rightBrace => do
    let stray ← bump
    report .strayBrace stray.position
    return .again document
  | _ => do
    skipStatement loops .block
    return .again document

/-- One round of a loop. -/
def Loop.turn : (loop : Loop) → loop.Carrier → Run loop.Turn
  | .document, carrier => documentTurn loops carrier
  | .block, carrier => blockTurn loops carrier
  | .group opened, carrier => groupTurn loops opened carrier
  | .list, carrier => listTurn loops carrier
  | .map, carrier => mapTurn loops carrier
  | .newlines, _ => newlinesTurn
  | .separators, _ => separatorsTurn
  | .recovery, carrier => recoveryTurn carrier

end Productions

/-- Repeats the rounds of a loop until one of them leaves it. The depth bounds the rounds of the
loop and of the loops inside of it. -/
def Loop.run : (depth : Nat) → Loops
  | 0, _, _ => fun _ => none
  | depth + 1, loop, carrier => do
    match ← Loop.turn (Loop.run depth) loop carrier with
    | .again carrier => Loop.run depth loop carrier
    | .leave result => return result

/-- Reads a document up to the end of the file. -/
def parseDocument (depth : Nat) (file : String) : Run Document := do
  let document ← Loop.run depth .document { file := file }
  let trailing ← takeComments
  return { document with trailingComments := trailing }

end Descent

end ServiceDef
