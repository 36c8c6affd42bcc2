import ServiceDef.Reader.State

/-!
# Reading one token

`Reader.step` is the reader behind one more token, and `Reader.finish` is the document at the
end of the file. Every token is consumed in one step, so reading ends with the tokens; a
fault never stops it.
-/

namespace ServiceDef

namespace Reader

/-- Begins the statement that starts with the identifier `name`. -/
def begin (reader : Reader) (name : String) (token : Token) : Reader :=
  let reader := reader.absorb token
  let head := reader.head name token.position
  match reader.group, reader.openBlocks with
  | some _, _ => reader.release.enter (.actionTarget head)
  | none, [] => reader.release.enter (.header head)
  | none, _ :: _ => reader.enter (.named name token.position)

/-- Closes the innermost group or block at a closing brace. -/
def close (reader : Reader) (token : Token) : Reader :=
  let reader := reader.absorb token
  match reader.group, reader.openBlocks with
  | some _, _ => { reader with group := none, mode := .statementEnd }
  | none, [] => (reader.report .strayBrace token.position).enter .statement
  | none, block :: outer => reader.closeBlock block outer

/-- Reads a token between two statements. -/
def stepStatement (reader : Reader) (token : Token) : Reader :=
  match token.kind with
  | .newline => (reader.absorb token).enter .statement
  | .rightBrace => reader.close token
  | .identifier name => reader.begin name token
  | _ =>
    ((reader.expected reader.statementExpectation token).absorb token).enter (.skipping [])

/-- Skips a token of a broken statement behind the given brackets. The statement ends at a line
break behind its last bracket, or before a closing brace that is not its own. A closing
bracket closes all brackets inside of its partner; one without a partner is skipped. -/
def stepSkipping (reader : Reader) (brackets : List Bracket) (token : Token) : Reader :=
  let skip (brackets : List Bracket) := (reader.absorb token).enter (.skipping brackets)
  let closeLast (bracket : Bracket) := skip (brackets.dropWhile (· ≠ bracket)).tail
  match token.kind with
  | .newline => if brackets.isEmpty then reader.stepStatement token else skip brackets
  | .leftBrace => skip (.curly :: brackets)
  | .leftBracket => skip (.square :: brackets)
  | .rightBrace => if .curly ∈ brackets then closeLast .curly else reader.stepStatement token
  | .rightBracket => if .square ∈ brackets then closeLast .square else skip brackets
  | _ => skip brackets

/-- Gives the statement up at a token in the place of something else. -/
def fail (reader : Reader) (expectation : Expectation) (brackets : List Bracket)
    (token : Token) : Reader :=
  (reader.expected expectation token).stepSkipping brackets token

/-- Reads the token behind a complete statement. -/
def stepStatementEnd (reader : Reader) (token : Token) : Reader :=
  match token.kind with
  | .newline => reader.stepStatement token
  | .rightBrace => reader.stepStatement token
  | _ => reader.fail .lineEnd [] token

/-- Reads the token behind the kind of a top-level block. -/
def stepHeader (reader : Reader) (head : Head) (token : Token) : Reader :=
  match token.kind with
  | .string label => (reader.absorb token).enter (.labelled head label)
  | .leftBrace => (reader.absorb token).openBlock head none
  | _ => reader.fail (.openBrace head.name) [] token

/-- Reads the token behind the first identifier of a statement in a block. -/
def stepNamed (reader : Reader) (name : String) (position : Position) (token : Token) : Reader :=
  let head := reader.head name position
  let taken := reader.release.absorb token
  match token.kind with
  | .path target => taken.enter (.actionArrow head target)
  | .string label => taken.enter (.labelled head label)
  | .leftBrace =>
    if name = Word.actions then
      { reader.absorb token with group := some position, mode := .statement }
    else taken.openBlock head none
  | .equals | .colon =>
    if name = Word.action then taken.enter (.actionKey head)
    else taken.enter (.value head (.value []))
  | _ => reader.fail (.statementRest name) [] token

/-- Reads the token behind an identifier and a string. Inside of a block, an arrow makes them
the method and the target of an action. -/
def stepLabelled (reader : Reader) (head : Head) (label : String) (token : Token) : Reader :=
  match token.kind, reader.openBlocks with
  | .leftBrace, _ => (reader.absorb token).openBlock head (some label)
  | .arrow, _ :: _ => (reader.absorb token).enter (.actionHandler head label)
  | _, _ => reader.fail (.openBrace head.name) [] token

/-- Takes a complete value into the list, map or attribute that waits for it. -/
def complete (reader : Reader) (head : Head) (outer : List OpenValue) (value : Value) : Reader :=
  match outer with
  | [] =>
    reader.enter (.attributeEnd
      { key := head.name, value := value, comments := head.comments, position := head.position })
  | .list items :: outer => reader.enter (.value head (.itemEnd (items ++ [value]) outer))
  | .map entries key position :: outer =>
    reader.enter (.value head
      (.entryEnd (entries ++ [{ key := key, value := value, position := position }]) outer))

/-- Reads the first token of a value. -/
def stepValue (reader : Reader) (head : Head) (outer : List OpenValue) (token : Token) :
    Reader :=
  match token.kind with
  | .string contents => (reader.absorb token).complete head outer (.scalar (.string contents))
  | .number lexeme => (reader.absorb token).complete head outer (.scalar (.number lexeme))
  | .boolean value => (reader.absorb token).complete head outer (.scalar (.boolean value))
  | .leftBracket => (reader.absorb token).enter (.value head (.item [] outer))
  | .leftBrace => (reader.absorb token).enter (.value head (.key [] outer))
  | _ => reader.fail .value (outer.map OpenValue.bracket) token

/-- Reads a token inside of the value of an attribute. -/
def stepPlace (reader : Reader) (head : Head) (place : ValuePlace) (token : Token) : Reader :=
  let move (place : ValuePlace) := (reader.absorb token).enter (.value head place)
  let wrong := reader.fail place.expectation place.brackets token
  match place with
  | .value outer => reader.stepValue head outer token
  | .item items outer =>
    match token.kind with
    | .newline => move place
    | .rightBracket => (reader.absorb token).complete head outer (.list items)
    | _ => reader.stepValue head (.list items :: outer) token
  | .itemEnd items outer =>
    match token.kind with
    | .newline => move place
    | .comma => move (.item items outer)
    | .rightBracket => (reader.absorb token).complete head outer (.list items)
    | _ => wrong
  | .key entries outer =>
    match token.kind with
    | .newline | .comma => move place
    | .rightBrace => (reader.absorb token).complete head outer (.map entries)
    | .identifier key => move (.keyEnd entries key token.position outer)
    | _ => wrong
  | .keyEnd entries key position outer =>
    match token.kind with
    | .equals | .colon => move (.value (.map entries key position :: outer))
    | _ => wrong
  | .entryEnd entries outer =>
    match token.kind with
    | .newline | .comma => move (.key entries outer)
    | .rightBrace => (reader.absorb token).complete head outer (.map entries)
    | _ => wrong

/-- Reads the token behind the key of a single action and its sign. -/
def stepActionKey (reader : Reader) (head : Head) (token : Token) : Reader :=
  match token.kind with
  | .identifier method =>
    reader.release.enter (.actionTarget
      { name := method
        comments := head.comments ++ reader.pending ++ token.comments
        position := token.position })
  | _ => reader.stepValue head [] token

/-- The comment that a line break ends, and the line break without it. -/
def lineComment (token : Token) : Option String × Token :=
  match token.kind, token.comments with
  | .newline, comment :: comments => (some comment, { token with comments := comments })
  | _, _ => (none, token)

/-- Reads the token behind the value of an attribute. -/
def stepAttributeEnd (reader : Reader) (attr : Attribute) (token : Token) : Reader :=
  let (comment, token) := lineComment token
  (reader.addAttribute { attr with trailingComment := comment }).stepStatementEnd token

/-- Reads the token behind the handler of an action. -/
def stepActionEnd (reader : Reader) (action : Action) (token : Token) : Reader :=
  let (comment, token) := lineComment token
  (reader.addAction { action with trailingComment := comment }).stepStatementEnd token

/-- Reads the token behind the method of an action. -/
def stepActionTarget (reader : Reader) (head : Head) (token : Token) : Reader :=
  match token.kind with
  | .path target | .string target => (reader.absorb token).enter (.actionArrow head target)
  | _ => reader.fail .actionTarget [] token

/-- Reads the token behind the target of an action. -/
def stepActionArrow (reader : Reader) (head : Head) (target : String) (token : Token) : Reader :=
  match token.kind with
  | .arrow => (reader.absorb token).enter (.actionHandler head target)
  | _ => reader.fail .arrow [] token

/-- Reads the token behind the arrow of an action. -/
def stepActionHandler (reader : Reader) (head : Head) (target : String) (token : Token) : Reader :=
  match token.kind with
  | .identifier handler | .string handler =>
    (reader.absorb token).enter (.actionEnd
      { method := head.name
        target := target
        handler := handler
        comments := head.comments
        position := head.position })
  | _ => reader.fail .handler [] token

/-- Reads one token. -/
def step (reader : Reader) (token : Token) : Reader :=
  match reader.mode with
  | .statement => reader.stepStatement token
  | .statementEnd => reader.stepStatementEnd token
  | .skipping brackets => reader.stepSkipping brackets token
  | .header head => reader.stepHeader head token
  | .named name position => reader.stepNamed name position token
  | .labelled head label => reader.stepLabelled head label token
  | .actionKey head => reader.stepActionKey head token
  | .value head place => reader.stepPlace head place token
  | .attributeEnd attr => reader.stepAttributeEnd attr token
  | .actionTarget head => reader.stepActionTarget head token
  | .actionArrow head target => reader.stepActionArrow head target token
  | .actionHandler head target => reader.stepActionHandler head target token
  | .actionEnd action => reader.stepActionEnd action token

/-- Reads a run of tokens. -/
def run (reader : Reader) (tokens : List Token) : Reader :=
  tokens.foldl step reader

/-- What is still missing when the file ends in a mode: nothing between two statements. -/
def missing : Mode → Option Expectation
  | .statement | .statementEnd | .skipping _ | .attributeEnd _ | .actionEnd _ => none
  | .header head => some (.openBrace head.name)
  | .named name _ => some (.statementRest name)
  | .labelled head _ => some (.openBrace head.name)
  | .actionKey _ => some .value
  | .value _ place => some place.expectation
  | .actionTarget _ => some .actionTarget
  | .actionArrow _ _ => some .arrow
  | .actionHandler _ _ => some .handler

/-- Ends the current statement at the end of the file. -/
def finishStatement (reader : Reader) (token : Token) : Reader :=
  let reader :=
    match missing reader.mode with
    | some expectation => reader.expected expectation token
    | none => reader
  match reader.mode with
  | .attributeEnd attr => (reader.addAttribute attr).enter .statement
  | .actionEnd action => (reader.addAction action).enter .statement
  | _ => reader.enter .statement

/-- Ends an open group of actions at the end of the file. -/
def finishGroup (reader : Reader) : Reader :=
  match reader.group with
  | some position => { reader.report .unclosedGroup position with group := none }
  | none => reader

/-- The outermost of some nested blocks, when `block` is complete and all blocks around it,
innermost first, end with it. -/
def nest (block : Block) : List Block → Block
  | [] => block
  | parent :: outer => nest { parent with blocks := parent.blocks ++ [block] } outer

/-- Ends all open blocks at the end of the file. The innermost one takes the waiting
comments. -/
def finishBlocks (reader : Reader) : Reader :=
  match reader.openBlocks with
  | [] => reader
  | block :: outer =>
    let closed := nest { block with trailingComments := reader.pending } outer
    let unclosed := (block :: outer).map fun block =>
      Diagnostic.malformed (ReadFault.unclosedBlock block.kind block.label).message block.position
    { reader.release with
      blocks := reader.blocks ++ [closed]
      openBlocks := []
      diagnostics := reader.diagnostics ++ unclosed }

/-- Reads the end of the file. -/
def finish (reader : Reader) (token : Token) : Reader :=
  (reader.finishStatement token).finishGroup.finishBlocks.absorb token

end Reader

end ServiceDef
