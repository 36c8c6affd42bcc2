import ServiceDef.Document
import ServiceDef.Token
import ServiceDef.Word

/-!
# Faults of a token stream

What a reader of tokens can find wrong, and the messages for it. Most faults are a token in
the place of something else; the others are about braces that have no partner.
-/

namespace ServiceDef

/-- What a reader can be waiting for. -/
inductive Expectation where
  | block
  | openBrace (kind : String)
  | statement
  | statementRest (name : String)
  | lineEnd
  | action
  | actionTarget
  | arrow
  | handler
  | value
  | listSeparator
  | mapKey
  | mapEquals (key : String)
  | mapSeparator
deriving DecidableEq, Repr

/-- How an expectation is named in messages. -/
def Expectation.describe : Expectation → String
  | .block => "a block"
  | .openBrace kind => "'\x7b' to open block " ++ backquoted kind
  | .statement => "an attribute, action, or block"
  | .statementRest name => "'=', '\x7b', or an action path after " ++ backquoted name
  | .lineEnd => "end of line"
  | .action => "an action statement"
  | .actionTarget => "an action path"
  | .arrow => "'->'"
  | .handler => "a handler name"
  | .value => "a value"
  | .listSeparator => "',' or ']'"
  | .mapKey => "a map key or '\x7d'"
  | .mapEquals key => "'=' after map key " ++ backquoted key
  | .mapSeparator => "',' or a new line between map entries"

/-- What is wrong at some place of a token stream. -/
inductive ReadFault where
  /-- A token stands where something else was expected. -/
  | unexpected (expected : Expectation) (found : TokenKind)
  /-- A closing brace stands outside of all blocks. -/
  | strayBrace
  /-- A block is still open at the end of the file. -/
  | unclosedBlock (kind : String) (label : Option String)
  /-- A group of actions is still open at the end of the file. -/
  | unclosedGroup
deriving DecidableEq, Repr

/-- The message for a fault. -/
def ReadFault.message : ReadFault → String
  | .unexpected expected found => "expected " ++ expected.describe ++ ", found " ++ found.describe
  | .strayBrace => "unexpected '\x7d' with no open block"
  | .unclosedBlock kind label =>
    "unclosed block " ++ backquoted (Block.title kind label) ++ ": expected '\x7d'"
  | .unclosedGroup => "unclosed " ++ backquoted Word.actions ++ " group: expected '\x7d'"

end ServiceDef
