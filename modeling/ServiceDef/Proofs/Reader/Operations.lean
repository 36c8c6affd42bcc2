import ServiceDef.Reader.Step

/-!
# Operations of a reader

How the operations of a reader act on its parts. A reader decides between the top level, a
block and a group of actions in `Reader.begin` and `Reader.close`; each of these decisions has
an equation of its own here, so that no later proof has to open them.
-/

namespace ServiceDef

attribute [ext] Reader

/-- The token of a kind, without comments and without a position. -/
def Token.bare (kind : TokenKind) : Token where
  kind := kind

namespace Reader

variable (reader : Reader)

/-! ## Beginning and closing -/

/-- In a group, an identifier is the method of an action. -/
theorem begin_of_group {position : Position} (name : String) (token : Token)
    (group : reader.group = some position) :
    reader.begin name token =
      (reader.absorb token).release.enter
        (.actionTarget ((reader.absorb token).head name token.position)) := by
  simp [begin, absorb, group]

/-- At the top level, an identifier is the kind of a block. -/
theorem begin_of_top (name : String) (token : Token) (group : reader.group = none)
    (top : reader.openBlocks = []) :
    reader.begin name token =
      (reader.absorb token).release.enter
        (.header ((reader.absorb token).head name token.position)) := by
  simp [begin, absorb, group, top]

/-- In a block, an identifier can start statements of all sorts. -/
theorem begin_of_block {block : Block} {outer : List Block} (name : String) (token : Token)
    (group : reader.group = none) (inside : reader.openBlocks = block :: outer) :
    reader.begin name token = (reader.absorb token).enter (.named name token.position) := by
  simp [begin, absorb, group, inside]

/-- A closing brace closes the group that is open. -/
theorem close_of_group {position : Position} (token : Token)
    (group : reader.group = some position) :
    reader.close token =
      { reader.absorb token with group := none, mode := .statementEnd } := by
  simp [close, absorb, group]

/-- A closing brace outside of all blocks is reported. -/
theorem close_of_top (token : Token) (group : reader.group = none)
    (top : reader.openBlocks = []) :
    reader.close token =
      ((reader.absorb token).report .strayBrace token.position).enter .statement := by
  simp [close, absorb, group, top]

/-- A closing brace closes the innermost block when no group is open in it. -/
theorem close_of_block {block : Block} {outer : List Block} (token : Token)
    (group : reader.group = none) (inside : reader.openBlocks = block :: outer) :
    reader.close token = (reader.absorb token).closeBlock block outer := by
  simp [close, absorb, group, inside]

/-- The reader with one more complete block in the innermost open block, or at the top level. -/
def addBlock (block : Block) : Reader :=
  match reader.openBlocks with
  | [] => { reader with blocks := reader.blocks ++ [block] }
  | parent :: outer =>
    { reader with openBlocks := { parent with blocks := parent.blocks ++ [block] } :: outer }

@[simp] theorem mode_addBlock (block : Block) : (reader.addBlock block).mode = reader.mode := by
  unfold addBlock
  split <;> rfl

@[simp] theorem group_addBlock (block : Block) : (reader.addBlock block).group = reader.group := by
  unfold addBlock
  split <;> rfl

/-- Closing a block adds it to the block around it, or to the top level. -/
theorem closeBlock_eq (block : Block) (outer : List Block) :
    reader.closeBlock block outer =
      ({ reader.release with openBlocks := outer, mode := .statementEnd } : Reader).addBlock
        { block with trailingComments := reader.pending } := by
  cases outer <;> rfl

/-- A fault at a token only adds to the diagnostics. -/
theorem expected_eq (expectation : Expectation) (token : Token) :
    ∃ found, reader.expected expectation token =
      { reader with diagnostics := reader.diagnostics ++ found } := by
  unfold expected
  split
  · exact ⟨[], by simp⟩
  · exact ⟨[_], rfl⟩

/-! ## Values

Most of what is kept by a step inside of a value does not depend on the value. These case principles
leave three cases: the value goes on, it was the last part of the attribute, or the token is wrong.
-/

section Values

variable (head : Head) (token : Token) {motive : Reader → Prop}
  (goesOn : ∀ place, motive ((reader.absorb token).enter (.value head place)))
  (ends : ∀ value, motive ((reader.absorb token).enter (.attributeEnd
    { key := head.name, value := value, comments := head.comments, position := head.position })))

include goesOn ends

theorem complete_cases (outer : List OpenValue) (value : Value) :
    motive ((reader.absorb token).complete head outer value) := by
  unfold complete
  split
  · exact ends value
  · exact goesOn _
  · exact goesOn _

/-- A first token of a value starts it or is all of it, unless it is wrong. -/
theorem stepValue_cases (outer : List OpenValue)
    (wrong : motive (reader.fail .value (outer.map OpenValue.bracket) token)) :
    motive (reader.stepValue head outer token) := by
  have done (value : Value) : motive ((reader.absorb token).complete head outer value) :=
    reader.complete_cases head token goesOn ends outer value
  unfold stepValue
  split
  · exact done _
  · exact done _
  · exact done _
  · exact goesOn _
  · exact goesOn _
  · exact wrong

/-- A token inside of a value continues the value or ends it, unless it is wrong. -/
theorem stepPlace_cases (place : ValuePlace)
    (wrong : ∀ expectation, motive (reader.fail expectation place.brackets token)) :
    motive (reader.stepPlace head place token) := by
  have first (outer : List OpenValue)
      (wrong : motive (reader.fail .value (outer.map OpenValue.bracket) token)) :
      motive (reader.stepValue head outer token) :=
    reader.stepValue_cases head token goesOn ends outer wrong
  have done (outer : List OpenValue) (value : Value) :
      motive ((reader.absorb token).complete head outer value) :=
    reader.complete_cases head token goesOn ends outer value
  cases place with
  | value outer => exact first outer (wrong .value)
  | item items outer =>
      simp only [stepPlace]
      split
      · exact goesOn _
      · exact done outer _
      · exact first (.list items :: outer) (wrong .value)
  | itemEnd items outer =>
      simp only [stepPlace]
      split
      · exact goesOn _
      · exact goesOn _
      · exact done outer _
      · exact wrong _
  | key entries outer =>
      simp only [stepPlace]
      split
      · exact goesOn _
      · exact goesOn _
      · exact done outer _
      · exact goesOn _
      · exact wrong _
  | keyEnd entries name position outer =>
      simp only [stepPlace]
      split
      · exact goesOn _
      · exact goesOn _
      · exact wrong _
  | entryEnd entries outer =>
      simp only [stepPlace]
      split
      · exact goesOn _
      · exact goesOn _
      · exact done outer _
      · exact wrong _

end Values

/-! ## Comments at the end of a line -/

/-- Taking the comment of a line break leaves its kind as it is. -/
@[simp] theorem kind_lineComment (token : Token) : (lineComment token).2.kind = token.kind := by
  unfold lineComment
  split <;> rfl

/-- Taking the comment of a line break leaves its place as it is. -/
@[simp] theorem position_lineComment (token : Token) :
    (lineComment token).2.position = token.position := by
  unfold lineComment
  split <;> rfl

/-- The token behind a value ends the attribute. -/
theorem stepAttributeEnd_eq (attr : Attribute) (token : Token) :
    reader.stepAttributeEnd attr token =
      (reader.addAttribute { attr with trailingComment := (lineComment token).1 }).stepStatementEnd
        (lineComment token).2 := rfl

/-- The token behind a handler ends the action. -/
theorem stepActionEnd_eq (action : Action) (token : Token) :
    reader.stepActionEnd action token =
      (reader.addAction { action with trailingComment := (lineComment token).1 }).stepStatementEnd
        (lineComment token).2 := rfl

/-! ## Runs -/

@[simp] theorem run_nil : reader.run [] = reader := rfl

@[simp] theorem run_cons (token : Token) (tokens : List Token) :
    reader.run (token :: tokens) = (reader.step token).run tokens := rfl

theorem run_append (first second : List Token) :
    reader.run (first ++ second) = (reader.run first).run second := by
  simp [run]

end Reader

end ServiceDef
