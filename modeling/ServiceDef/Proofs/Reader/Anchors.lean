import ServiceDef.Proofs.Reader.Reports

/-!
# Where the parts of a document stand

Every part that a reader builds stands at the token that names it, and behind all parts of its block
that were begun before it. The open blocks are nested the same way: each one stands behind all
parts of the block around it. A reader keeps this on malformed tokens as well, since a statement
that is given up adds nothing.

`Outline` is the invariant of the blocks of a reader, and `Reader.Anchored` adds what the mode
remembers of the current statement. Both are about a fixed list of tokens, of which the reader has
read those with an offset below a bound.
-/

namespace ServiceDef

/-! ## Positions -/

/-- The positions come one behind the other. -/
def Ascending (positions : List Position) : Prop :=
  positions.Pairwise (·.offset < ·.offset)

/-- The position comes behind all the others. -/
def Position.Follows (position : Position) (others : List Position) : Prop :=
  ∀ other ∈ others, other.offset < position.offset

/-- One of the tokens starts at the position. -/
def StartsToken (tokens : List Token) (position : Position) : Prop :=
  ∃ token ∈ tokens, token.position = position

/-- One of the tokens is the name and starts at the position. -/
def StartsName (tokens : List Token) (name : String) (position : Position) : Prop :=
  ∃ token ∈ tokens, token.kind = .identifier name ∧ token.position = position

/-- The diagnostic is about malformed text at the start of one of the tokens. -/
def Diagnostic.MalformedAt (tokens : List Token) (diagnostic : Diagnostic) : Prop :=
  ∃ message position, diagnostic = .malformed message position ∧ StartsToken tokens position

/-- If the token is a name, one of the tokens is the same name at its place. -/
def Token.Known (tokens : List Token) (token : Token) : Prop :=
  ∀ name, token.kind = .identifier name → StartsName tokens name token.position

theorem StartsName.startsToken {tokens : List Token} {name : String} {position : Position}
    (named : StartsName tokens name position) : StartsToken tokens position := by
  obtain ⟨token, member, -, same⟩ := named
  exact ⟨token, member, same⟩

/-- A list of positions goes on with a position behind all of them. -/
theorem Ascending.snoc {positions : List Position} {position : Position}
    (ascending : Ascending positions) (follows : position.Follows positions) :
    Ascending (positions ++ [position]) := by
  refine List.pairwise_append.2 ⟨ascending, List.pairwise_singleton _ _, ?_⟩
  intro other member last isLast
  rw [List.mem_singleton.1 isLast]
  exact follows other member

/-! ## Parts -/

/-- The keys of all maps in the value stand at tokens. -/
def Value.Placed (tokens : List Token) (value : Value) : Prop :=
  ∀ entries ∈ value.maps, ∀ entry ∈ entries, StartsName tokens entry.key entry.position

/-- The key of the attribute and the keys of the maps in it stand at tokens. -/
structure Attribute.Placed (tokens : List Token) (attr : Attribute) : Prop where
  key : StartsName tokens attr.key attr.position
  value : attr.value.Placed tokens

/-- The block and its own parts stand at tokens, and its attributes, actions and nested blocks each
come one behind the other, all of them behind the start of the block. -/
structure Block.Placed (tokens : List Token) (block : Block) : Prop where
  kind : StartsName tokens block.kind block.position
  attributes : ∀ attr ∈ block.attributes, attr.Placed tokens
  actions : ∀ action ∈ block.actions, StartsName tokens action.method action.position
  attributesAscend : Ascending (block.position :: block.attributes.map (·.position))
  actionsAscend : Ascending (block.position :: block.actions.map (·.position))
  blocksAscend : Ascending (block.position :: block.blocks.map (·.position))

/-- The block and all blocks in it are placed. -/
def Block.AllPlaced (tokens : List Token) (block : Block) : Prop :=
  ∀ inner ∈ block.preorder, inner.Placed tokens

/-- The positions of the block and of its own parts. -/
def Block.parts (block : Block) : List Position :=
  block.position :: (block.attributes.map (·.position) ++ block.actions.map (·.position) ++
    block.blocks.map (·.position))

namespace Value

variable {tokens : List Token}

theorem placed_list_iff (items : List Value) :
    (Value.list items).Placed tokens ↔ ∀ item ∈ items, item.Placed tokens := by
  simp only [Placed, maps, mapsOfItems_eq_flatMap, List.mem_flatMap]
  constructor
  · intro placed item member entries inside
    exact placed entries ⟨item, member, inside⟩
  · rintro placed entries ⟨item, member, inside⟩
    exact placed item member entries inside

theorem placed_map_iff (entries : List (Entry Value)) :
    (Value.map entries).Placed tokens ↔
      ∀ entry ∈ entries,
        StartsName tokens entry.key entry.position ∧ entry.value.Placed tokens := by
  simp only [Placed, maps, mapsOfEntries_eq_flatMap, List.mem_cons, List.mem_flatMap]
  constructor
  · intro placed entry member
    exact ⟨placed entries (.inl rfl) entry member,
      fun inner inside => placed inner (.inr ⟨entry, member, inside⟩)⟩
  · rintro placed inner (rfl | ⟨entry, member, inside⟩)
    · exact fun entry member => (placed entry member).1
    · exact (placed entry member).2 inner inside

end Value

namespace Block

variable {tokens : List Token} {block : Block}

theorem mem_preorderAll_iff {inner : Block} {blocks : List Block} :
    inner ∈ preorderAll blocks ↔ ∃ block ∈ blocks, inner ∈ block.preorder := by
  induction blocks with
  | nil => simp [preorderAll]
  | cons block blocks inductionHypothesis => simp [preorderAll, inductionHypothesis]

theorem mem_preorder_iff_nested {inner : Block} :
    inner ∈ block.preorder ↔ inner = block ∨ ∃ child ∈ block.blocks, inner ∈ child.preorder := by
  rw [← mem_preorderAll_iff]
  cases block
  rw [preorder, List.mem_cons]

theorem allPlaced_iff :
    block.AllPlaced tokens ↔
      block.Placed tokens ∧ ∀ child ∈ block.blocks, child.AllPlaced tokens := by
  constructor
  · intro placed
    exact ⟨placed block (mem_preorder_iff_nested.2 (.inl rfl)), fun child member inner inside =>
      placed inner (mem_preorder_iff_nested.2 (.inr ⟨child, member, inside⟩))⟩
  · rintro ⟨here, nested⟩ inner member
    rcases mem_preorder_iff_nested.1 member with rfl | ⟨child, childMember, inside⟩
    · exact here
    · exact nested child childMember inner inside

/-- Comments have no place. -/
theorem AllPlaced.trailing (placed : block.AllPlaced tokens) (comments : List String) :
    ({ block with trailingComments := comments } : Block).AllPlaced tokens := by
  obtain ⟨here, nested⟩ := allPlaced_iff.1 placed
  exact allPlaced_iff.2 ⟨⟨here.kind, here.attributes, here.actions, here.attributesAscend,
    here.actionsAscend, here.blocksAscend⟩, nested⟩

/-- A block with nothing in it yet. -/
theorem AllPlaced.empty {kind : String} {position : Position}
    (named : StartsName tokens kind position) (label : Option String) (comments : List String) :
    ({ kind := kind, label := label, comments := comments, position := position } :
      Block).AllPlaced tokens := by
  refine allPlaced_iff.2 ⟨⟨named, ?_, ?_, ?_, ?_, ?_⟩, ?_⟩
  all_goals simp [Ascending]

theorem AllPlaced.addAttribute (placed : block.AllPlaced tokens) {attr : Attribute}
    (attrPlaced : attr.Placed tokens) (follows : attr.position.Follows block.parts) :
    ({ block with attributes := block.attributes ++ [attr] } : Block).AllPlaced tokens := by
  obtain ⟨here, nested⟩ := allPlaced_iff.1 placed
  refine allPlaced_iff.2 ⟨⟨here.kind, ?_, here.actions, ?_, here.actionsAscend,
    here.blocksAscend⟩, nested⟩
  · simpa [or_imp, forall_and] using ⟨here.attributes, attrPlaced⟩
  · have extended := here.attributesAscend.snoc fun other member => follows other (by
      rcases List.mem_cons.1 member with rfl | member <;> simp_all [parts])
    simpa using extended

theorem AllPlaced.addAction (placed : block.AllPlaced tokens) {action : Action}
    (named : StartsName tokens action.method action.position)
    (follows : action.position.Follows block.parts) :
    ({ block with actions := block.actions ++ [action] } : Block).AllPlaced tokens := by
  obtain ⟨here, nested⟩ := allPlaced_iff.1 placed
  refine allPlaced_iff.2 ⟨⟨here.kind, here.attributes, ?_, here.attributesAscend, ?_,
    here.blocksAscend⟩, nested⟩
  · simpa [or_imp, forall_and] using ⟨here.actions, named⟩
  · have extended := here.actionsAscend.snoc fun other member => follows other (by
      rcases List.mem_cons.1 member with rfl | member <;> simp_all [parts])
    simpa using extended

theorem AllPlaced.addChild (placed : block.AllPlaced tokens) {child : Block}
    (childPlaced : child.AllPlaced tokens) (follows : child.position.Follows block.parts) :
    ({ block with blocks := block.blocks ++ [child] } : Block).AllPlaced tokens := by
  obtain ⟨here, nested⟩ := allPlaced_iff.1 placed
  refine allPlaced_iff.2 ⟨⟨here.kind, here.attributes, here.actions, here.attributesAscend,
    here.actionsAscend, ?_⟩, ?_⟩
  · have extended := here.blocksAscend.snoc fun other member => follows other (by
      rcases List.mem_cons.1 member with rfl | member <;> simp_all [parts])
    simpa using extended
  · simpa [or_imp, forall_and] using ⟨nested, childPlaced⟩

end Block

/-! ## Outlines -/

/-- The positions that the next part comes behind: those of the innermost open block and of its
parts, or those of the top-level blocks. -/
def frontier (blocks : List Block) : List Block → List Position
  | [] => blocks.map (·.position)
  | block :: _ => block.parts

/-- Each of the open blocks, innermost first, stands behind all parts of the block around it. -/
def Nested (blocks : List Block) : List Block → Prop
  | [] => True
  | block :: outer => block.position.Follows (frontier blocks outer) ∧ Nested blocks outer

/-- A part with the name starts at the position: it is named by a token that has been read, and
comes behind the frontier. -/
structure Begins (tokens : List Token) (bound : Nat) (front : List Position) (name : String)
    (position : Position) : Prop where
  named : StartsName tokens name position
  follows : position.Follows front
  read : position.offset < bound

/-- The blocks of a reader are placed and come one behind the other, the open ones inside of each
other, and the tokens of the frontier have been read. -/
structure Outline (tokens : List Token) (bound : Nat) (blocks openBlocks : List Block)
    (group : Option Position) : Prop where
  complete : ∀ block ∈ blocks, block.AllPlaced tokens
  opened : ∀ block ∈ openBlocks, block.AllPlaced tokens
  ascending : Ascending (blocks.map (·.position))
  nested : Nested blocks openBlocks
  read : ∀ position ∈ frontier blocks openBlocks, position.offset < bound
  grouped : ∀ position, group = some position → StartsToken tokens position

theorem Begins.mono {tokens : List Token} {bound larger : Nat} {front : List Position}
    {name : String} {position : Position} (begins : Begins tokens bound front name position)
    (le : bound ≤ larger) : Begins tokens larger front name position :=
  ⟨begins.named, begins.follows, Nat.lt_of_lt_of_le begins.read le⟩

namespace Outline

variable {tokens : List Token} {bound : Nat} {blocks openBlocks outer : List Block} {block : Block}
  {group : Option Position}

theorem mono {larger : Nat} (outline : Outline tokens bound blocks openBlocks group)
    (le : bound ≤ larger) : Outline tokens larger blocks openBlocks group :=
  ⟨outline.complete, outline.opened, outline.ascending, outline.nested,
    fun position member => Nat.lt_of_lt_of_le (outline.read position member) le, outline.grouped⟩

theorem withGroup {other : Option Position} (outline : Outline tokens bound blocks openBlocks group)
    (starts : ∀ position, other = some position → StartsToken tokens position) :
    Outline tokens bound blocks openBlocks other :=
  ⟨outline.complete, outline.opened, outline.ascending, outline.nested, outline.read, starts⟩

/-- A change of the innermost open block that leaves it at its place. -/
theorem changeHead (outline : Outline tokens bound blocks (block :: outer) group) (changed : Block)
    (same : changed.position = block.position) (placed : changed.AllPlaced tokens)
    (read : ∀ position ∈ changed.parts, position.offset < bound) :
    Outline tokens bound blocks (changed :: outer) group := by
  refine ⟨outline.complete, ?_, outline.ascending, ⟨?_, outline.nested.2⟩, read, outline.grouped⟩
  · exact List.forall_mem_cons.2 ⟨placed, (List.forall_mem_cons.1 outline.opened).2⟩
  · rw [same]
    exact outline.nested.1

/-- The parts of a block and one more are read. -/
theorem read_parts (outline : Outline tokens bound blocks (block :: outer) group)
    {changed : Block} {added : Position} (read : added.offset < bound)
    (parts : ∀ position ∈ changed.parts, position ∈ block.parts ∨ position = added) :
    ∀ position ∈ changed.parts, position.offset < bound := by
  intro position member
  rcases parts position member with before | rfl
  · exact outline.read position before
  · exact read

theorem addAttribute (outline : Outline tokens bound blocks openBlocks group) {attr : Attribute}
    (begins : Begins tokens bound (frontier blocks openBlocks) attr.key attr.position)
    (value : attr.value.Placed tokens) :
    Outline tokens bound blocks
      (openBlocks.modifyHead fun block => { block with attributes := block.attributes ++ [attr] })
      group := by
  cases openBlocks with
  | nil => exact outline
  | cons block outer =>
      have placed := (List.forall_mem_cons.1 outline.opened).1
      refine outline.changeHead { block with attributes := block.attributes ++ [attr] }
        rfl (placed.addAttribute ⟨begins.named, value⟩ begins.follows)
        (outline.read_parts begins.read fun position member => ?_)
      simp only [Block.parts, List.map_append, List.map_singleton, List.mem_cons, List.mem_append,
        List.not_mem_nil, or_false] at member ⊢
      grind

theorem addAction (outline : Outline tokens bound blocks openBlocks group) {action : Action}
    (begins : Begins tokens bound (frontier blocks openBlocks) action.method action.position) :
    Outline tokens bound blocks
      (openBlocks.modifyHead fun block => { block with actions := block.actions ++ [action] })
      group := by
  cases openBlocks with
  | nil => exact outline
  | cons block outer =>
      have placed := (List.forall_mem_cons.1 outline.opened).1
      refine outline.changeHead { block with actions := block.actions ++ [action] }
        rfl (placed.addAction begins.named begins.follows)
        (outline.read_parts begins.read fun position member => ?_)
      simp only [Block.parts, List.map_append, List.map_singleton, List.mem_cons, List.mem_append,
        List.not_mem_nil, or_false] at member ⊢
      grind

theorem addChild (outline : Outline tokens bound blocks (block :: outer) group) {child : Block}
    (placed : child.AllPlaced tokens) (follows : child.position.Follows block.parts)
    (read : child.position.offset < bound) :
    Outline tokens bound blocks ({ block with blocks := block.blocks ++ [child] } :: outer)
      group := by
  have here := (List.forall_mem_cons.1 outline.opened).1
  refine outline.changeHead { block with blocks := block.blocks ++ [child] } rfl
    (here.addChild placed follows) (outline.read_parts read fun position member => ?_)
  simp only [Block.parts, List.map_append, List.map_singleton, List.mem_cons, List.mem_append,
    List.not_mem_nil, or_false] at member ⊢
  grind

theorem addTop (outline : Outline tokens bound blocks [] group) {added : Block}
    (placed : added.AllPlaced tokens)
    (follows : added.position.Follows (blocks.map (·.position)))
    (read : added.position.offset < bound) : Outline tokens bound (blocks ++ [added]) [] group := by
  refine ⟨?_, by simp, ?_, trivial, ?_, outline.grouped⟩
  · simpa [or_imp, forall_and] using ⟨outline.complete, placed⟩
  · simpa using outline.ascending.snoc follows
  · have before := outline.read
    simp only [frontier, List.map_append, List.map_singleton, List.mem_append,
      List.mem_singleton] at before ⊢
    rintro position (member | rfl)
    · exact before position member
    · exact read

/-- A new block is opened. -/
theorem push (outline : Outline tokens bound blocks openBlocks group) {opened : Block}
    (placed : opened.AllPlaced tokens) (empty : opened.parts = [opened.position])
    (follows : opened.position.Follows (frontier blocks openBlocks))
    (read : opened.position.offset < bound) :
    Outline tokens bound blocks (opened :: openBlocks) group := by
  refine ⟨outline.complete, List.forall_mem_cons.2 ⟨placed, outline.opened⟩, outline.ascending,
    ⟨follows, outline.nested⟩, ?_, outline.grouped⟩
  simpa [frontier, empty] using read

/-- The blocks around an open block are outlined without it, and it stands behind their frontier. -/
theorem pop (outline : Outline tokens bound blocks (block :: outer) group) :
    Outline tokens bound blocks outer group ∧
      block.position.Follows (frontier blocks outer) ∧ block.position.offset < bound := by
  obtain ⟨follows, nested⟩ := outline.nested
  have read : block.position.offset < bound := outline.read _ List.mem_cons_self
  exact ⟨⟨outline.complete, (List.forall_mem_cons.1 outline.opened).2, outline.ascending, nested,
    fun position member => Nat.lt_trans (follows position member) read, outline.grouped⟩, follows,
    read⟩

/-- The innermost open block is closed together with all blocks around it. -/
theorem nest (outline : Outline tokens bound blocks (block :: outer) group) :
    Outline tokens bound (blocks ++ [Reader.nest block outer]) [] group := by
  induction outer generalizing block with
  | nil =>
      obtain ⟨around, follows, read⟩ := outline.pop
      exact around.addTop (List.forall_mem_cons.1 outline.opened).1 follows read
  | cons parent outer inductionHypothesis =>
      obtain ⟨around, follows, read⟩ := outline.pop
      have placed := (List.forall_mem_cons.1 outline.opened).1
      exact inductionHypothesis (around.addChild placed follows read)

end Outline

namespace Reader

/-- The blocks of the reader are outlined. -/
abbrev Outlined (tokens : List Token) (bound : Nat) (reader : Reader) : Prop :=
  Outline tokens bound reader.blocks reader.openBlocks reader.group

/-- The positions that the next part comes behind. -/
abbrev front (reader : Reader) : List Position :=
  frontier reader.blocks reader.openBlocks

end Reader

/-- What has been read of the list or map stands at tokens. -/
def OpenValue.Placed (tokens : List Token) : OpenValue → Prop
  | .list items => (Value.list items).Placed tokens
  | .map entries key position => (Value.map entries).Placed tokens ∧ StartsName tokens key position

/-- What has been read of the value stands at tokens. -/
def ValuePlace.Placed (tokens : List Token) : ValuePlace → Prop
  | .value outer => ∀ part ∈ outer, part.Placed tokens
  | .item items outer | .itemEnd items outer =>
    (Value.list items).Placed tokens ∧ ∀ part ∈ outer, part.Placed tokens
  | .key entries outer | .entryEnd entries outer =>
    (Value.map entries).Placed tokens ∧ ∀ part ∈ outer, part.Placed tokens
  | .keyEnd entries name position outer =>
    ((Value.map entries).Placed tokens ∧ StartsName tokens name position) ∧
      ∀ part ∈ outer, part.Placed tokens

namespace Mode

/-- The name and the place of the statement that a mode is part of. -/
def start? : Mode → Option (String × Position)
  | .statement | .statementEnd | .skipping _ => none
  | .header head | .labelled head _ | .actionKey head | .value head _ =>
    some (head.name, head.position)
  | .actionTarget head | .actionArrow head _ | .actionHandler head _ =>
    some (head.name, head.position)
  | .named name position => some (name, position)
  | .attributeEnd attr => some (attr.key, attr.position)
  | .actionEnd action => some (action.method, action.position)

/-- The maps that a mode remembers stand at tokens. -/
def ValuePlaced (tokens : List Token) : Mode → Prop
  | .value _ place => place.Placed tokens
  | .attributeEnd attr => attr.value.Placed tokens
  | _ => True

end Mode

namespace Reader

/-- The blocks of the reader are outlined, the current statement begins behind them, and what has
been read of its value stands at tokens. -/
structure Anchored (tokens : List Token) (bound : Nat) (reader : Reader) : Prop where
  outlined : reader.Outlined tokens bound
  start : ∀ name position, reader.mode.start? = some (name, position) →
    Begins tokens bound reader.front name position
  value : reader.mode.ValuePlaced tokens

namespace Outlined

variable {tokens : List Token} {reader : Reader} {token : Token} {bound : Nat}

/-- Between two statements, nothing is remembered of one. -/
theorem enterPlain (outlined : reader.Outlined tokens bound) {mode : Mode}
    (plain : mode.start? = none) (value : mode.ValuePlaced tokens) :
    (reader.enter mode).Anchored tokens bound where
  outlined := outlined
  start name position same := by
    rw [show (reader.enter mode).mode = mode from rfl, plain] at same
    cases same
  value := value

/-- A statement goes on under its name and at its place. -/
theorem enterStarted (outlined : reader.Outlined tokens bound) {mode : Mode} {name : String}
    {position : Position} (begins : Begins tokens bound reader.front name position)
    (started : mode.start? = some (name, position)) (value : mode.ValuePlaced tokens) :
    (reader.enter mode).Anchored tokens bound where
  outlined := outlined
  start other place same := by
    rw [show (reader.enter mode).mode = mode from rfl, started] at same
    cases same
    exact begins
  value := value

theorem expected (outlined : reader.Outlined tokens bound) (expectation : Expectation)
    (token : Token) : (reader.expected expectation token).Outlined tokens bound := by
  obtain ⟨found, same⟩ := expected_eq reader expectation token
  rw [same]
  exact outlined

theorem openBlock (outlined : reader.Outlined tokens bound) {head : Head}
    (begins : Begins tokens bound reader.front head.name head.position) (label : Option String) :
    (reader.openBlock head label).Anchored tokens bound :=
  ⟨outlined.push (.empty begins.named label head.comments) (by simp [Block.parts]) begins.follows
    begins.read, fun _ _ same => (by cases same), trivial⟩

/-- A block that stands behind the frontier is added. -/
theorem addBlock (outlined : reader.Outlined tokens bound) {block : Block}
    (placed : block.AllPlaced tokens) (follows : block.position.Follows reader.front)
    (read : block.position.offset < bound) : (reader.addBlock block).Outlined tokens bound := by
  obtain ⟨blocks, openBlocks, group, mode, pending, diagnostics⟩ := reader
  cases openBlocks with
  | nil => exact outlined.addTop placed follows read
  | cons parent outer => exact outlined.addChild placed follows read

theorem closeBlock (outlined : reader.Outlined tokens bound) {block : Block} {outer : List Block}
    (inside : reader.openBlocks = block :: outer) :
    (reader.closeBlock block outer).Anchored tokens bound := by
  rw [Outlined, inside] at outlined
  obtain ⟨around, follows, read⟩ := outlined.pop
  have placed := (List.forall_mem_cons.1 outlined.opened).1.trailing reader.pending
  have added : (Reader.addBlock
      ({ reader.release with openBlocks := outer, mode := .statementEnd } : Reader)
      { block with trailingComments := reader.pending }).Outlined tokens bound :=
    addBlock around placed follows read
  rw [closeBlock_eq]
  refine ⟨added, fun name position same => ?_, ?_⟩
  · rw [mode_addBlock] at same
    cases same
  · rw [mode_addBlock]
    trivial

/-! ## Between statements

A step reads a token behind the frontier. From here on, the bound before the step is the offset of
the token, and the bound behind it is the next one.
-/

/-- What was outlined before a token is outlined behind it. -/
theorem pass (outlined : reader.Outlined tokens bound) : reader.Outlined tokens (bound + 1) :=
  outlined.mono (Nat.le_succ bound)

theorem absorb (outlined : reader.Outlined tokens token.position.offset) :
    (reader.absorb token).Outlined tokens (token.position.offset + 1) :=
  outlined.pass

theorem release (outlined : reader.Outlined tokens bound) : reader.release.Outlined tokens bound :=
  outlined

/-- A part can begin at a token behind the frontier. -/
theorem begins (outlined : reader.Outlined tokens token.position.offset)
    (known : token.Known tokens) {name : String} (kind : token.kind = .identifier name) :
    Begins tokens (token.position.offset + 1) reader.front name token.position :=
  ⟨known name kind, outlined.read, Nat.lt_succ_self _⟩

theorem begin (outlined : reader.Outlined tokens token.position.offset) (known : token.Known tokens)
    {name : String} (kind : token.kind = .identifier name) :
    (reader.begin name token).Anchored tokens (token.position.offset + 1) := by
  have here := outlined.begins known kind
  cases group : reader.group with
  | some position =>
      rw [begin_of_group reader name token group]
      exact outlined.absorb.release.enterStarted here rfl trivial
  | none =>
      cases opened : reader.openBlocks with
      | nil =>
          rw [begin_of_top reader name token group opened]
          exact outlined.absorb.release.enterStarted here rfl trivial
      | cons block outer =>
          rw [begin_of_block reader name token group opened]
          exact outlined.absorb.enterStarted here rfl trivial

theorem close (outlined : reader.Outlined tokens token.position.offset) :
    (reader.close token).Anchored tokens (token.position.offset + 1) := by
  cases group : reader.group with
  | some position =>
      rw [close_of_group reader token group]
      exact ⟨outlined.pass.withGroup (by simp), fun _ _ same => (by cases same), trivial⟩
  | none =>
      cases opened : reader.openBlocks with
      | nil =>
          rw [close_of_top reader token group opened]
          have reported : ((reader.absorb token).report .strayBrace token.position).Outlined tokens
              (token.position.offset + 1) := outlined.absorb
          exact reported.enterPlain rfl trivial
      | cons block outer =>
          rw [close_of_block reader token group opened]
          exact outlined.absorb.closeBlock opened

theorem stepStatement (outlined : reader.Outlined tokens token.position.offset)
    (known : token.Known tokens) :
    (reader.stepStatement token).Anchored tokens (token.position.offset + 1) := by
  unfold Reader.stepStatement
  split
  · exact outlined.absorb.enterPlain rfl trivial
  · exact outlined.close
  · next name kind => exact outlined.begin known kind
  · exact (outlined.expected _ token).absorb.enterPlain rfl trivial

theorem stepSkipping (outlined : reader.Outlined tokens token.position.offset)
    (known : token.Known tokens) (brackets : List Bracket) :
    (reader.stepSkipping brackets token).Anchored tokens (token.position.offset + 1) := by
  have skip (brackets : List Bracket) :
      ((reader.absorb token).enter (.skipping brackets)).Anchored tokens
        (token.position.offset + 1) :=
    outlined.absorb.enterPlain rfl trivial
  have statement := outlined.stepStatement known
  unfold Reader.stepSkipping
  split
  · split
    · exact statement
    · exact skip _
  · exact skip _
  · exact skip _
  · split
    · exact skip _
    · exact statement
  · split <;> exact skip _
  · exact skip _

theorem fail (outlined : reader.Outlined tokens token.position.offset) (known : token.Known tokens)
    (expectation : Expectation) (brackets : List Bracket) :
    (reader.fail expectation brackets token).Anchored tokens (token.position.offset + 1) :=
  (outlined.expected expectation token).stepSkipping known brackets

theorem stepStatementEnd (outlined : reader.Outlined tokens token.position.offset)
    (known : token.Known tokens) :
    (reader.stepStatementEnd token).Anchored tokens (token.position.offset + 1) := by
  unfold Reader.stepStatementEnd
  split
  · exact outlined.stepStatement known
  · exact outlined.stepStatement known
  · exact outlined.fail known _ _

/-! ## Values -/

section Values

variable {head : Head} {outer : List OpenValue}

/-- A complete value is taken into the list, map or attribute that waits for it. -/
theorem complete (outlined : reader.Outlined tokens bound)
    (begins : Begins tokens bound reader.front head.name head.position)
    (outerPlaced : ∀ part ∈ outer, part.Placed tokens) {value : Value}
    (placed : value.Placed tokens) : (reader.complete head outer value).Anchored tokens bound := by
  unfold Reader.complete
  split
  · exact outlined.enterStarted begins rfl placed
  · rw [List.forall_mem_cons] at outerPlaced
    refine outlined.enterStarted begins rfl ⟨?_, outerPlaced.2⟩
    rw [Value.placed_list_iff]
    simpa [or_imp, forall_and] using ⟨(Value.placed_list_iff _).1 outerPlaced.1, placed⟩
  · rw [List.forall_mem_cons] at outerPlaced
    obtain ⟨⟨entriesPlaced, named⟩, others⟩ := outerPlaced
    refine outlined.enterStarted begins rfl ⟨?_, others⟩
    rw [Value.placed_map_iff] at entriesPlaced ⊢
    intro entry member
    rcases List.mem_append.1 member with before | last
    · exact entriesPlaced entry before
    · rw [List.mem_singleton.1 last]
      exact ⟨named, placed⟩

theorem stepValue (outlined : reader.Outlined tokens token.position.offset)
    (known : token.Known tokens)
    (begins : Begins tokens token.position.offset reader.front head.name head.position)
    (outerPlaced : ∀ part ∈ outer, part.Placed tokens) :
    (reader.stepValue head outer token).Anchored tokens (token.position.offset + 1) := by
  have started : Begins tokens (token.position.offset + 1) (reader.absorb token).front head.name
      head.position := begins.mono (Nat.le_succ _)
  have scalar (s : Scalar) : (Value.scalar s).Placed tokens := by simp [Value.Placed, Value.maps]
  unfold Reader.stepValue
  split
  · exact outlined.absorb.complete started outerPlaced (scalar _)
  · exact outlined.absorb.complete started outerPlaced (scalar _)
  · exact outlined.absorb.complete started outerPlaced (scalar _)
  · exact outlined.absorb.enterStarted started rfl ⟨by simp [Value.placed_list_iff], outerPlaced⟩
  · exact outlined.absorb.enterStarted started rfl ⟨by simp [Value.placed_map_iff], outerPlaced⟩
  · exact outlined.fail known _ _

theorem stepPlace (outlined : reader.Outlined tokens token.position.offset)
    (known : token.Known tokens)
    (begins : Begins tokens token.position.offset reader.front head.name head.position)
    {place : ValuePlace} (placed : place.Placed tokens) :
    (reader.stepPlace head place token).Anchored tokens (token.position.offset + 1) := by
  have started : Begins tokens (token.position.offset + 1) (reader.absorb token).front head.name
      head.position := begins.mono (Nat.le_succ _)
  have move {next : ValuePlace} (nextPlaced : next.Placed tokens) :
      ((reader.absorb token).enter (.value head next)).Anchored tokens
        (token.position.offset + 1) :=
    outlined.absorb.enterStarted started rfl nextPlaced
  have wrong := outlined.fail known place.expectation place.brackets
  cases place with
  | value outer => exact outlined.stepValue known begins placed
  | item items outer =>
      simp only [Reader.stepPlace]
      split
      · exact move placed
      · exact outlined.absorb.complete started placed.2 placed.1
      · exact outlined.stepValue known begins (List.forall_mem_cons.2 placed)
  | itemEnd items outer =>
      simp only [Reader.stepPlace]
      split
      · exact move placed
      · exact move placed
      · exact outlined.absorb.complete started placed.2 placed.1
      · exact wrong
  | key entries outer =>
      simp only [Reader.stepPlace]
      split
      · exact move placed
      · exact move placed
      · exact outlined.absorb.complete started placed.2 placed.1
      · next name kind => exact move ⟨⟨placed.1, known name kind⟩, placed.2⟩
      · exact wrong
  | keyEnd entries name position outer =>
      simp only [Reader.stepPlace]
      split
      · exact move (List.forall_mem_cons.2 placed)
      · exact move (List.forall_mem_cons.2 placed)
      · exact wrong
  | entryEnd entries outer =>
      simp only [Reader.stepPlace]
      split
      · exact move placed
      · exact move placed
      · exact outlined.absorb.complete started placed.2 placed.1
      · exact wrong

end Values

/-! ## Statements -/

section Statements

variable {head : Head}

/-- The reader behind the token goes on with the statement. -/
theorem goOn (outlined : reader.Outlined tokens token.position.offset)
    (begins : Begins tokens token.position.offset reader.front head.name head.position)
    {mode : Mode} (started : mode.start? = some (head.name, head.position))
    (value : mode.ValuePlaced tokens) :
    ((reader.absorb token).enter mode).Anchored tokens (token.position.offset + 1) :=
  outlined.absorb.enterStarted (begins.mono (Nat.le_succ _)) started value

theorem opens (outlined : reader.Outlined tokens token.position.offset)
    (begins : Begins tokens token.position.offset reader.front head.name head.position)
    (label : Option String) :
    ((reader.absorb token).openBlock head label).Anchored tokens (token.position.offset + 1) :=
  outlined.absorb.openBlock (begins.mono (Nat.le_succ _)) label

theorem stepHeader (outlined : reader.Outlined tokens token.position.offset)
    (known : token.Known tokens)
    (begins : Begins tokens token.position.offset reader.front head.name head.position) :
    (reader.stepHeader head token).Anchored tokens (token.position.offset + 1) := by
  unfold Reader.stepHeader
  split
  · exact outlined.goOn begins rfl trivial
  · exact outlined.opens begins none
  · exact outlined.fail known _ _

theorem stepNamed (outlined : reader.Outlined tokens token.position.offset)
    (known : token.Known tokens) {name : String} {position : Position}
    (begins : Begins tokens token.position.offset reader.front name position) :
    (reader.stepNamed name position token).Anchored tokens (token.position.offset + 1) := by
  have begun : Begins tokens token.position.offset reader.release.front
      (reader.head name position).name (reader.head name position).position := begins
  have goOn {mode : Mode} (started : mode.start? = some (name, position))
      (value : mode.ValuePlaced tokens) :
      ((reader.release.absorb token).enter mode).Anchored tokens (token.position.offset + 1) :=
    outlined.release.goOn begun started value
  have assigned : Anchored tokens (token.position.offset + 1)
      (if name = Word.action then
        (reader.release.absorb token).enter (.actionKey (reader.head name position))
      else (reader.release.absorb token).enter
        (.value (reader.head name position) (.value []))) := by
    split
    · exact goOn rfl trivial
    · exact goOn rfl (by simp [Mode.ValuePlaced, ValuePlace.Placed])
  unfold Reader.stepNamed
  split
  · exact goOn rfl trivial
  · exact goOn rfl trivial
  · split
    · refine ⟨outlined.pass.withGroup ?_, fun _ _ same => (by cases same), trivial⟩
      rintro place ⟨⟩
      exact begins.named.startsToken
    · exact outlined.release.opens begun none
  · exact assigned
  · exact assigned
  · exact outlined.fail known _ _

theorem stepLabelled (outlined : reader.Outlined tokens token.position.offset)
    (known : token.Known tokens)
    (begins : Begins tokens token.position.offset reader.front head.name head.position)
    (label : String) :
    (reader.stepLabelled head label token).Anchored tokens (token.position.offset + 1) := by
  unfold Reader.stepLabelled
  split
  · exact outlined.opens begins (some label)
  · exact outlined.goOn begins rfl trivial
  · exact outlined.fail known _ _

theorem stepActionKey (outlined : reader.Outlined tokens token.position.offset)
    (known : token.Known tokens)
    (begins : Begins tokens token.position.offset reader.front head.name head.position) :
    (reader.stepActionKey head token).Anchored tokens (token.position.offset + 1) := by
  unfold Reader.stepActionKey
  split
  · next method kind =>
      exact outlined.pass.release.enterStarted (outlined.begins known kind) rfl trivial
  · exact outlined.stepValue known begins (by simp)

theorem stepActionTarget (outlined : reader.Outlined tokens token.position.offset)
    (known : token.Known tokens)
    (begins : Begins tokens token.position.offset reader.front head.name head.position) :
    (reader.stepActionTarget head token).Anchored tokens (token.position.offset + 1) := by
  unfold Reader.stepActionTarget
  split
  · exact outlined.goOn begins rfl trivial
  · exact outlined.goOn begins rfl trivial
  · exact outlined.fail known _ _

theorem stepActionArrow (outlined : reader.Outlined tokens token.position.offset)
    (known : token.Known tokens)
    (begins : Begins tokens token.position.offset reader.front head.name head.position)
    (target : String) :
    (reader.stepActionArrow head target token).Anchored tokens (token.position.offset + 1) := by
  unfold Reader.stepActionArrow
  split
  · exact outlined.goOn begins rfl trivial
  · exact outlined.fail known _ _

theorem stepActionHandler (outlined : reader.Outlined tokens token.position.offset)
    (known : token.Known tokens)
    (begins : Begins tokens token.position.offset reader.front head.name head.position)
    (target : String) :
    (reader.stepActionHandler head target token).Anchored tokens (token.position.offset + 1) := by
  unfold Reader.stepActionHandler
  split
  · exact outlined.goOn begins rfl trivial
  · exact outlined.goOn begins rfl trivial
  · exact outlined.fail known _ _

/-- Taking its comment from a line break leaves it known. -/
theorem known_lineComment (known : token.Known tokens) : (lineComment token).2.Known tokens := by
  intro name kind
  rw [kind_lineComment] at kind
  rw [position_lineComment]
  exact known name kind

theorem stepAttributeEnd (outlined : reader.Outlined tokens token.position.offset)
    (known : token.Known tokens) {attr : Attribute}
    (begins : Begins tokens token.position.offset reader.front attr.key attr.position)
    (value : attr.value.Placed tokens) :
    (reader.stepAttributeEnd attr token).Anchored tokens (token.position.offset + 1) := by
  have added : (reader.addAttribute { attr with trailingComment := (lineComment token).1 }).Outlined
      tokens token.position.offset := outlined.addAttribute begins value
  rw [← position_lineComment token] at added ⊢
  rw [stepAttributeEnd_eq]
  exact added.stepStatementEnd (known_lineComment known)

theorem stepActionEnd (outlined : reader.Outlined tokens token.position.offset)
    (known : token.Known tokens) {action : Action}
    (begins : Begins tokens token.position.offset reader.front action.method action.position) :
    (reader.stepActionEnd action token).Anchored tokens (token.position.offset + 1) := by
  have added : (reader.addAction { action with trailingComment := (lineComment token).1 }).Outlined
      tokens token.position.offset := outlined.addAction begins
  rw [← position_lineComment token] at added ⊢
  rw [stepActionEnd_eq]
  exact added.stepStatementEnd (known_lineComment known)

end Statements

end Outlined

/-! ## Runs -/

namespace Anchored

variable {tokens : List Token} {reader : Reader} {token : Token} {bound : Nat}

theorem mono {larger : Nat} (anchored : reader.Anchored tokens bound) (le : bound ≤ larger) :
    reader.Anchored tokens larger :=
  ⟨anchored.outlined.mono le, fun name position same => (anchored.start name position same).mono le,
    anchored.value⟩

/-- A token behind the frontier keeps all parts in place, in every mode. -/
theorem step (anchored : reader.Anchored tokens token.position.offset)
    (known : token.Known tokens) :
    (reader.step token).Anchored tokens (token.position.offset + 1) := by
  obtain ⟨outlined, start, value⟩ := anchored
  unfold Reader.step
  cases mode : reader.mode with
  | statement => exact outlined.stepStatement known
  | statementEnd => exact outlined.stepStatementEnd known
  | skipping brackets => exact outlined.stepSkipping known brackets
  | header head => exact outlined.stepHeader known (start _ _ (by rw [mode]; rfl))
  | named name position => exact outlined.stepNamed known (start _ _ (by rw [mode]; rfl))
  | labelled head label => exact outlined.stepLabelled known (start _ _ (by rw [mode]; rfl)) label
  | actionKey head => exact outlined.stepActionKey known (start _ _ (by rw [mode]; rfl))
  | value head place =>
      rw [mode] at value
      exact outlined.stepPlace known (start _ _ (by rw [mode]; rfl)) value
  | attributeEnd attr =>
      rw [mode] at value
      exact outlined.stepAttributeEnd known (start _ _ (by rw [mode]; rfl)) value
  | actionTarget head => exact outlined.stepActionTarget known (start _ _ (by rw [mode]; rfl))
  | actionArrow head target =>
      exact outlined.stepActionArrow known (start _ _ (by rw [mode]; rfl)) target
  | actionHandler head target =>
      exact outlined.stepActionHandler known (start _ _ (by rw [mode]; rfl)) target
  | actionEnd action => exact outlined.stepActionEnd known (start _ _ (by rw [mode]; rfl))

/-- Tokens that come one behind the other keep all parts in place. -/
theorem run {rest : List Token} (anchored : reader.Anchored tokens bound)
    (members : ∀ token ∈ rest, token ∈ tokens)
    (behind : ∀ token ∈ rest, bound ≤ token.position.offset)
    (ascending : rest.Pairwise (·.position.offset < ·.position.offset)) :
    ∃ bound, (reader.run rest).Anchored tokens bound := by
  induction rest generalizing reader bound with
  | nil => exact ⟨bound, anchored⟩
  | cons token rest inductionHypothesis =>
      rw [List.forall_mem_cons] at members behind
      rw [List.pairwise_cons] at ascending
      have known : token.Known tokens := fun name kind => ⟨token, members.1, kind, rfl⟩
      exact inductionHypothesis ((anchored.mono behind.1).step known) members.2 ascending.1
        ascending.2

end Anchored

/-! ## The end of the file -/

section Finish

variable {tokens : List Token} {reader : Reader} {token : Token} {bound : Nat}

/-- The attribute or action that the file ends with is added like any other. -/
theorem Anchored.finishStatement (anchored : reader.Anchored tokens bound) (token : Token) :
    (reader.finishStatement token).Outlined tokens bound := by
  obtain ⟨found, reported⟩ := reader.reportMissing_eq token
  obtain ⟨outlined, start, value⟩ := anchored
  rw [finishStatement_match, reported]
  split
  · next attr mode =>
      replace mode : reader.mode = .attributeEnd attr := mode
      rw [mode] at start value
      exact outlined.addAttribute (start _ _ rfl) value
  · next action mode =>
      replace mode : reader.mode = .actionEnd action := mode
      rw [mode] at start
      exact outlined.addAction (start _ _ rfl)
  · exact outlined

theorem Outlined.finishGroup (outlined : reader.Outlined tokens bound) :
    reader.finishGroup.Outlined tokens bound := by
  unfold Reader.finishGroup
  split
  · exact outlined.withGroup (by simp)
  · exact outlined

theorem Outlined.finishBlocks (outlined : reader.Outlined tokens bound) :
    reader.finishBlocks.Outlined tokens bound := by
  unfold Reader.finishBlocks
  split
  · exact outlined
  · next block outer inside =>
      rw [Outlined, inside] at outlined
      have closed := outlined.changeHead { block with trailingComments := reader.pending } rfl
        ((List.forall_mem_cons.1 outlined.opened).1.trailing reader.pending) outlined.read
      exact closed.nest

/-- The end of the file closes all blocks at their places. -/
theorem Anchored.finish (anchored : reader.Anchored tokens bound) (token : Token) :
    (reader.finish token).Outlined tokens bound :=
  (anchored.finishStatement token).finishGroup.finishBlocks

/-- Every diagnostic is about malformed text at the start of a token. -/
def Reported (tokens : List Token) (reader : Reader) : Prop :=
  ∀ d ∈ reader.diagnostics, d.MalformedAt tokens

/-- Faults that are reported at the starts of tokens keep it so. -/
theorem Reported.add {after : Reader} (reported : reader.Reported tokens) {found : List Diagnostic}
    (added : after.diagnostics = reader.diagnostics ++ found)
    (starts : ∀ d ∈ found, d.MalformedAt tokens) : after.Reported tokens := by
  intro d member
  rw [added, List.mem_append] at member
  rcases member with before | inFound
  · exact reported d before
  · exact starts d inFound

/-- What a change reports at a token keeps it so. -/
theorem Reported.reports {after : Reader} {position : Position} (reported : reader.Reported tokens)
    (starts : StartsToken tokens position) (reports : Reports position reader after) :
    after.Reported tokens := by
  obtain ⟨found, added, atPosition⟩ := reports
  refine reported.add added fun d member => ?_
  obtain ⟨message, rfl⟩ := atPosition d member
  exact ⟨message, position, rfl, starts⟩

theorem Reported.run {rest : List Token} (reported : reader.Reported tokens)
    (members : ∀ token ∈ rest, token ∈ tokens) : (reader.run rest).Reported tokens := by
  induction rest generalizing reader with
  | nil => exact reported
  | cons token rest inductionHypothesis =>
      rw [List.forall_mem_cons] at members
      have stepped := reported.reports ⟨token, members.1, rfl⟩ (Reports.step reader token)
      exact inductionHypothesis stepped members.2

theorem Reported.finishStatement (reported : reader.Reported tokens)
    (starts : StartsToken tokens token.position) :
    (reader.finishStatement token).Reported tokens := by
  obtain ⟨change, statementEq⟩ := reader.finishStatement_eq token
  have missing : (reader.reportMissing token).Reported tokens := by
    unfold reportMissing
    split
    · exact reported.reports starts (Reports.expected reader token _)
    · exact reported
  rw [statementEq]
  exact missing

/-- An unclosed group is reported where it starts. -/
theorem Reported.finishGroup (reported : reader.Reported tokens)
    (outlined : reader.Outlined tokens bound) : reader.finishGroup.Reported tokens := by
  unfold Reader.finishGroup
  split
  · next position group =>
      refine reported.add rfl fun d member => ?_
      rw [List.mem_singleton.1 member]
      exact ⟨_, position, rfl, outlined.grouped position group⟩
  · exact reported

/-- Unclosed blocks are reported where they start. -/
theorem Reported.finishBlocks (reported : reader.Reported tokens)
    (outlined : reader.Outlined tokens bound) : reader.finishBlocks.Reported tokens := by
  unfold Reader.finishBlocks
  split
  · exact reported
  · next block outer inside =>
      refine reported.add rfl fun d member => ?_
      rw [← inside] at member
      obtain ⟨unclosed, opened, rfl⟩ := List.mem_map.1 member
      have placed := (Block.allPlaced_iff.1 (outlined.opened unclosed opened)).1
      exact ⟨_, unclosed.position, rfl, placed.kind.startsToken⟩

/-- What the file leaves open is reported at its end or where it was opened. -/
theorem Reported.finish (reported : reader.Reported tokens)
    (anchored : reader.Anchored tokens bound) (starts : StartsToken tokens token.position) :
    (reader.finish token).Reported tokens :=
  have outlined := anchored.finishStatement token
  ((reported.finishStatement starts).finishGroup outlined).finishBlocks outlined.finishGroup

end Finish

end Reader

end ServiceDef
