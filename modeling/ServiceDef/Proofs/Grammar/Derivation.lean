import ServiceDef.Document
import ServiceDef.Token
import ServiceDef.Word

/-!
# The grammar of documents

The language of service definitions over the kinds of tokens. A derivation relates an input to
the tree of what it starts with and to the rest of the input behind it. The trees are documents
without comments and positions.

With `nl` for a line break, the productions are

* `Document  = nl* (Block (nl+ Block)*)? nl* Eof`
* `Block     = Ident String? '{' nl* (Statement (nl+ Statement)*)? nl* '}'`
* `Statement = Action | 'actions' '{' nl* (Action (nl+ Action)*)? nl* '}'
  | 'action' ('=' | ':') Action | Ident ('=' | ':') Value
  | Block`, where the block is not an unlabelled one of the kind `actions`
* `Action    = Ident (Path | String) '->' (Ident | String)`
* `Value     = String | Number | Boolean
  | '[' nl* (Value nl* (',' nl* Value nl*)* (',' nl*)?)? ']'
  | '{' sep* (Entry (sep+ Entry)*)? sep* '}'` with `sep = nl | ','`
* `Entry     = Ident ('=' | ':') Value`

This module contains no reader and no fact about one.
-/

namespace ServiceDef.Grammar

/-- Line breaks separate statements. -/
def IsNewline (kind : TokenKind) : Prop :=
  kind = .newline

/-- Line breaks and commas separate the entries of a map. -/
def IsSeparator (kind : TokenKind) : Prop :=
  kind = .newline ∨ kind = .comma

/-- The signs between a key and its value. -/
def IsSign (kind : TokenKind) : Prop :=
  kind = .equals ∨ kind = .colon

/-- Items with separators between them. With `ready` it is `sep* (item (sep+ item)*)? sep*`;
otherwise an item stands in front, and it is `(sep+ item)* sep*`. -/
inductive Series {α : Type} (IsSep : TokenKind → Prop)
    (Item : List TokenKind → α → List TokenKind → Prop) :
    Bool → List TokenKind → List α → List TokenKind → Prop where
  | done {ready rest} : Series IsSep Item ready rest [] rest
  | separator {ready kind input items rest} (separates : IsSep kind)
      (others : Series IsSep Item true input items rest) :
      Series IsSep Item ready (kind :: input) items rest
  | item {input item middle items rest} (first : Item input item middle)
      (others : Series IsSep Item false middle items rest) :
      Series IsSep Item true input (item :: items) rest

mutual

/-- `String | Number | Boolean | '[' ... ']' | '{' ... '}'` -/
inductive DerivesValue : List TokenKind → Value → List TokenKind → Prop where
  | string (contents : String) (rest : List TokenKind) :
      DerivesValue (.string contents :: rest) (.scalar (.string contents)) rest
  | number (lexeme : String) (rest : List TokenKind) :
      DerivesValue (.number lexeme :: rest) (.scalar (.number lexeme)) rest
  | boolean (value : Bool) (rest : List TokenKind) :
      DerivesValue (.boolean value :: rest) (.scalar (.boolean value)) rest
  | list {input items rest} (inside : DerivesItems true input items (.rightBracket :: rest)) :
      DerivesValue (.leftBracket :: input) (.list items) rest
  | map {input entries rest}
      (inside : Series IsSeparator DerivesEntry true input entries (.rightBrace :: rest)) :
      DerivesValue (.leftBrace :: input) (.map entries) rest

/-- The items of a list. With `ready` it is `nl* (Value nl* (',' nl* Value nl*)* (',' nl*)?)?`;
otherwise an item stands in front, and it is `nl* (',' nl* Value nl*)* (',' nl*)?`. -/
inductive DerivesItems : Bool → List TokenKind → List Value → List TokenKind → Prop where
  | done {ready rest} : DerivesItems ready rest [] rest
  | newline {ready input items rest} (others : DerivesItems ready input items rest) :
      DerivesItems ready (.newline :: input) items rest
  | comma {input items rest} (others : DerivesItems true input items rest) :
      DerivesItems false (.comma :: input) items rest
  | item {input item middle items rest} (first : DerivesValue input item middle)
      (others : DerivesItems false middle items rest) :
      DerivesItems true input (item :: items) rest

/-- `Ident ('=' | ':') Value` -/
inductive DerivesEntry : List TokenKind → Entry Value → List TokenKind → Prop where
  | entry {key sign input value rest} (assigns : IsSign sign)
      (part : DerivesValue input value rest) :
      DerivesEntry (.identifier key :: sign :: input) { key := key, value := value } rest

end

/-- The texts that can be the target of an action. -/
inductive IsTarget : TokenKind → String → Prop where
  | path (text : String) : IsTarget (.path text) text
  | string (text : String) : IsTarget (.string text) text

/-- The texts that can be the handler of an action. -/
inductive IsHandler : TokenKind → String → Prop where
  | identifier (text : String) : IsHandler (.identifier text) text
  | string (text : String) : IsHandler (.string text) text

/-- `Ident (Path | String) '->' (Ident | String)` -/
inductive DerivesAction : List TokenKind → Action → List TokenKind → Prop where
  | action {method targetKind target handlerKind handler rest} (aim : IsTarget targetKind target)
      (answer : IsHandler handlerKind handler) :
      DerivesAction (.identifier method :: targetKind :: .arrow :: handlerKind :: rest)
        { method := method, target := target, handler := handler } rest

/-- A statement of a block. The actions of a statement are those of a group, or only one. -/
inductive Statement where
  | assignment (attr : Attribute)
  | routes (actions : List Action)
  | nested (block : Block)

namespace Statement

/-- The attribute that a statement adds to its block. -/
def attributes : Statement → List Attribute
  | .assignment attr => [attr]
  | _ => []

/-- The actions that a statement adds to its block. -/
def actions : Statement → List Action
  | .routes actions => actions
  | _ => []

/-- The block that a statement adds to its block. -/
def blocks : Statement → List Block
  | .nested block => [block]
  | _ => []

end Statement

/-- The block with more statements at its end. Attributes, actions and blocks are kept apart,
each in written order. -/
def extend (block : Block) (statements : List Statement) : Block :=
  { block with
    attributes := block.attributes ++ statements.flatMap Statement.attributes
    actions := block.actions ++ statements.flatMap Statement.actions
    blocks := block.blocks ++ statements.flatMap Statement.blocks }

mutual

/-- `Action | 'actions' '{' ... '}' | 'action' ('=' | ':') Action | Ident ('=' | ':') Value
| Block` -/
inductive DerivesStatement : List TokenKind → Statement → List TokenKind → Prop where
  | action {input action rest} (route : DerivesAction input action rest) :
      DerivesStatement input (.routes [action]) rest
  | group {input actions rest}
      (inside : Series IsNewline DerivesAction true input actions (.rightBrace :: rest)) :
      DerivesStatement (.identifier Word.actions :: .leftBrace :: input) (.routes actions) rest
  | actionKey {sign input action rest} (assigns : IsSign sign)
      (route : DerivesAction input action rest) :
      DerivesStatement (.identifier Word.action :: sign :: input) (.routes [action]) rest
  | assignment {key sign input value rest} (assigns : IsSign sign)
      (part : DerivesValue input value rest) :
      DerivesStatement (.identifier key :: sign :: input)
        (.assignment { key := key, value := value }) rest
  | nested {input block rest} (part : DerivesBlock input block rest)
      (noGroup : ¬ (block.kind = Word.actions ∧ block.label = none)) :
      DerivesStatement input (.nested block) rest

/-- `Ident String? '{' nl* (Statement (nl+ Statement)*)? nl* '}'` -/
inductive DerivesBlock : List TokenKind → Block → List TokenKind → Prop where
  | unlabelled {kind input statements rest}
      (inside : Series IsNewline DerivesStatement true input statements (.rightBrace :: rest)) :
      DerivesBlock (.identifier kind :: .leftBrace :: input)
        (extend { kind := kind } statements) rest
  | labelled {kind label input statements rest}
      (inside : Series IsNewline DerivesStatement true input statements (.rightBrace :: rest)) :
      DerivesBlock (.identifier kind :: .string label :: .leftBrace :: input)
        (extend { kind := kind, label := some label } statements) rest

end

/-- `nl* (Block (nl+ Block)*)? nl* Eof`: the input derives from a document with the given blocks,
and nothing is left of it. -/
def DerivesDocument (input : List TokenKind) (blocks : List Block) : Prop :=
  ∃ content, input = content ++ [.endOfFile] ∧
    Series IsNewline DerivesBlock true content blocks []

end ServiceDef.Grammar
