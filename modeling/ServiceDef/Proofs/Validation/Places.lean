import ServiceDef.Scope

/-!
# Places of blocks

`Document.Contains` says where the blocks of a document stand, and `Document.Visible` which labels
can be seen from there. Neither knows in which order a document is walked. The sites of a document
are the places of its blocks, each with the labels that are visible from it.
-/

namespace ServiceDef

/-- A block stands in the document inside of the blocks `around`, innermost first. -/
inductive Document.Contains (document : Document) : List Block → Block → Prop
  | top {block : Block} (member : block ∈ document.blocks) : document.Contains [] block
  | nested {around : List Block} {parent block : Block} (outer : document.Contains around parent)
      (member : block ∈ parent.blocks) : document.Contains (parent :: around) block

namespace Document

variable (document : Document)

/-- The blocks that stand beside each other right inside of the blocks `around`. -/
def siblings : List Block → List Block
  | [] => document.blocks
  | parent :: _ => parent.blocks

/-- A label can be seen from inside of the blocks `around` if a block there has it, or a block
beside one of them. -/
def Visible (around : List Block) (label : String) : Prop :=
  ∃ outer, outer <:+ around ∧ ∃ block ∈ document.siblings outer, block.label = some label

/-- The scopes of the sibling lists inside of the blocks `around` and outwards. -/
def environment : List Block → Environment
  | [] => Environment.push {} { siblings := document.blocks }
  | parent :: around => (environment around).push { siblings := parent.blocks }

/-- The site of a block that stands inside of the blocks `around`. -/
def site (around : List Block) (block : Block) : Site where
  block := block
  parent := around.head?
  environment := document.environment around

end Document

/-! ## Visible labels -/

namespace Document

variable {document : Document}

theorem visible_nil_iff (label : String) :
    document.Visible [] label ↔ ∃ block ∈ document.blocks, block.label = some label := by
  constructor
  · rintro ⟨outer, suffix, found⟩
    rw [List.suffix_nil.1 suffix] at found
    exact found
  · intro found
    exact ⟨[], List.suffix_refl _, found⟩

/-- Inside of a block, the labels right there are visible, and those that are visible around it. -/
theorem visible_cons_iff (parent : Block) (around : List Block) (label : String) :
    document.Visible (parent :: around) label ↔
      (∃ block ∈ parent.blocks, block.label = some label) ∨ document.Visible around label := by
  constructor
  · rintro ⟨outer, suffix, found⟩
    rcases List.suffix_cons_iff.1 suffix with rfl | suffix
    · exact .inl found
    · exact .inr ⟨outer, suffix, found⟩
  · rintro (found | ⟨outer, suffix, found⟩)
    · exact ⟨_, List.suffix_refl _, found⟩
    · exact ⟨outer, suffix.trans (List.suffix_cons _ _), found⟩

/-- Looking a label up succeeds exactly for the visible labels. -/
theorem lookup?_isSome_iff (around : List Block) (label : String) :
    ((document.environment around).lookup? label).isSome = true ↔
      document.Visible around label := by
  induction around with
  | nil =>
      rw [visible_nil_iff]
      simp [environment, Environment.lookup?, Environment.push, Scope.get?]
  | cons parent around inductionHypothesis =>
      rw [visible_cons_iff, ← inductionHypothesis]
      simp [environment, Environment.lookup?, Environment.push, Scope.get?]

end Document

/-! ## Sites -/

namespace Site

/-- The site of a block comes before those of the blocks in it. -/
theorem ofBlock_eq (environment : Environment) (parent : Option Block) (block : Block) :
    ofBlock environment parent block =
      { block := block, parent := parent, environment := environment } ::
        ofBlocks (environment.push { siblings := block.blocks }) (some block) block.blocks := by
  cases block
  rw [ofBlock]

theorem ofBlocks_eq_flatMap (environment : Environment) (parent : Option Block)
    (blocks : List Block) :
    ofBlocks environment parent blocks = blocks.flatMap (ofBlock environment parent) := by
  induction blocks with
  | nil => rfl
  | cons block blocks inductionHypothesis => simp [ofBlocks, inductionHypothesis]

theorem mem_ofBlocks_iff {environment : Environment} {parent : Option Block} {blocks : List Block}
    {site : Site} :
    site ∈ ofBlocks environment parent blocks ↔
      ∃ block ∈ blocks, site ∈ ofBlock environment parent block := by
  rw [ofBlocks_eq_flatMap, List.mem_flatMap]

end Site

namespace Document

variable {document : Document}

/-- The sites of a block and of the blocks in it are sites of the document. -/
theorem Contains.ofBlock_subset {around : List Block} {block : Block}
    (contains : document.Contains around block) :
    Site.ofBlock (document.environment around) around.head? block ⊆ document.sites := by
  induction contains with
  | top member =>
      intro site inBlock
      exact Site.mem_ofBlocks_iff.2 ⟨_, member, inBlock⟩
  | nested outer member inductionHypothesis =>
      intro site inBlock
      refine inductionHypothesis ?_
      rw [Site.ofBlock_eq]
      exact List.mem_cons_of_mem _ (Site.mem_ofBlocks_iff.2 ⟨_, member, inBlock⟩)

/-- The sites inside of a block are sites of places inside of it. -/
theorem Contains.exists_of_mem_ofBlock {block : Block} :
    ∀ {around : List Block}, document.Contains around block →
      ∀ site ∈ Site.ofBlock (document.environment around) around.head? block,
        ∃ around block, document.Contains around block ∧ site = document.site around block := by
  induction block using Block.induction with
  | step block inductionHypothesis =>
      intro around contains site member
      rw [Site.ofBlock_eq] at member
      rcases List.mem_cons.1 member with rfl | inside
      · exact ⟨around, block, contains, rfl⟩
      · obtain ⟨child, childMember, inChild⟩ := Site.mem_ofBlocks_iff.1 inside
        exact inductionHypothesis child childMember (contains.nested childMember) site inChild

/-- The sites of a document are the places of its blocks. -/
theorem mem_sites_iff (site : Site) :
    site ∈ document.sites ↔
      ∃ around block, document.Contains around block ∧ site = document.site around block := by
  constructor
  · intro member
    obtain ⟨block, blockMember, inBlock⟩ := Site.mem_ofBlocks_iff.1 member
    exact (Contains.top blockMember).exists_of_mem_ofBlock site inBlock
  · rintro ⟨around, block, contains, rfl⟩
    refine contains.ofBlock_subset ?_
    rw [Site.ofBlock_eq]
    exact List.mem_cons_self

end Document

/-! ## The order of blocks -/

mutual

theorem map_block_ofBlock (environment : Environment) (parent : Option Block) :
    (block : Block) → (Site.ofBlock environment parent block).map (·.block) = block.preorder
  | ⟨kind, label, attributes, blocks, actions, comments, trailingComments, position⟩ => by
      rw [Site.ofBlock, Block.preorder, List.map_cons, map_block_ofBlocks]

theorem map_block_ofBlocks (environment : Environment) (parent : Option Block) :
    (blocks : List Block) →
      (Site.ofBlocks environment parent blocks).map (·.block) = Block.preorderAll blocks
  | [] => by rw [Site.ofBlocks, Block.preorderAll, List.map_nil]
  | block :: blocks => by
      rw [Site.ofBlocks, Block.preorderAll, List.map_append, map_block_ofBlock,
        map_block_ofBlocks]

end

namespace Document

variable {document : Document}

/-- The sites of a document come in the order of its blocks. -/
theorem map_block_sites : document.sites.map (·.block) = document.preorder :=
  map_block_ofBlocks _ _ document.blocks

/-- The blocks of a document are those that stand anywhere in it. -/
theorem mem_preorder_iff (block : Block) :
    block ∈ document.preorder ↔ ∃ around, document.Contains around block := by
  rw [← map_block_sites, List.mem_map]
  constructor
  · rintro ⟨site, member, rfl⟩
    obtain ⟨around, block, contains, rfl⟩ := (mem_sites_iff site).1 member
    exact ⟨around, contains⟩
  · rintro ⟨around, contains⟩
    exact ⟨document.site around block, (mem_sites_iff _).2 ⟨around, block, contains, rfl⟩, rfl⟩

end Document

end ServiceDef
