import Mathlib.Data.List.Forall2
import ServiceDef.Proofs.Validation.Places

/-!
# Lexical scoping

The places of a document are its blocks with their addresses and with the blocks around them. The
address of a block is the index of each block on the way to it, from the top level inwards, so the
written order of blocks, each before those in it, is the lexicographic order of their addresses.

The sites of a document are its places, in this order. The environment of a site holds the sibling
lists from the block outwards and nothing else, so a label is resolved to the first block that has
it in the innermost of these lists (`Document.Resolves`). This is also what a walk sees that keeps
a single environment, which it changes on its way (`Environment.walkBlocks`).
-/

namespace ServiceDef

/-! ## Places -/

/-- A block stands in the document at an address, inside of the blocks `around`, innermost first. -/
inductive Document.Stands (document : Document) : List Nat → List Block → Block → Prop
  | top {index : Nat} {block : Block} (here : document.blocks[index]? = some block) :
      document.Stands [index] [] block
  | nested {address : List Nat} {around : List Block} {parent block : Block} {index : Nat}
      (outer : document.Stands address around parent) (here : parent.blocks[index]? = some block) :
      document.Stands (address ++ [index]) (parent :: around) block

/-- A block of a document and where it stands. -/
structure Place where
  /-- The index of each block on the way to the block, from the top level inwards. -/
  address : List Nat
  /-- The blocks that the block stands in, innermost first. -/
  around : List Block
  block : Block
deriving DecidableEq, Repr

namespace Place

mutual

/-- The places of a block at the given address and of all blocks in it. -/
def ofBlock (address : List Nat) (around : List Block) : Block → List Place
  | ⟨kind, label, attributes, blocks, actions, comments, trailingComments, position⟩ =>
    let block : Block :=
      ⟨kind, label, attributes, blocks, actions, comments, trailingComments, position⟩
    { address := address, around := around, block := block } ::
      ofBlocks address 0 (block :: around) blocks

/-- The places of some blocks beside each other, the first of which has the given index, and of all
blocks in them. -/
def ofBlocks (outer : List Nat) (index : Nat) (around : List Block) : List Block → List Place
  | [] => []
  | block :: blocks =>
    ofBlock (outer ++ [index]) around block ++ ofBlocks outer (index + 1) around blocks

end

end Place

/-- The places of all blocks of a document, each before those nested in it. -/
def Document.places (document : Document) : List Place :=
  Place.ofBlocks [] 0 [] document.blocks

/-- The site of a place. -/
def Place.site (document : Document) (place : Place) : Site :=
  document.site place.around place.block

namespace Place

theorem ofBlock_eq (address : List Nat) (around : List Block) (block : Block) :
    ofBlock address around block =
      { address := address, around := around, block := block } ::
        ofBlocks address 0 (block :: around) block.blocks := by
  cases block
  rw [ofBlock]

theorem mem_ofBlocks_iff {outer : List Nat} {first : Nat} {around blocks : List Block}
    {place : Place} :
    place ∈ ofBlocks outer first around blocks ↔
      ∃ index block, blocks[index]? = some block ∧
        place ∈ ofBlock (outer ++ [first + index]) around block := by
  induction blocks generalizing first with
  | nil => simp [ofBlocks]
  | cons block blocks inductionHypothesis =>
      rw [ofBlocks, List.mem_append, inductionHypothesis]
      constructor
      · rintro (here | ⟨index, other, found, inside⟩)
        · exact ⟨0, block, rfl, here⟩
        · exact ⟨index + 1, other, found, by rwa [Nat.add_right_comm] at inside⟩
      · rintro ⟨index, other, found, inside⟩
        cases index with
        | zero =>
            cases found
            exact .inl inside
        | succ index => exact .inr ⟨index, other, found, by rwa [Nat.add_right_comm]⟩

/-- The address of a block starts the addresses of the blocks in it. -/
theorem prefix_of_mem_ofBlock {block : Block} :
    ∀ {address : List Nat} {around : List Block},
      ∀ place ∈ ofBlock address around block, address <+: place.address := by
  induction block using Block.induction with
  | step block inductionHypothesis =>
      intro address around place member
      rw [ofBlock_eq] at member
      rcases List.mem_cons.1 member with rfl | inside
      · exact List.prefix_refl _
      · obtain ⟨index, child, found, inChild⟩ := mem_ofBlocks_iff.1 inside
        have deeper := inductionHypothesis child (List.mem_of_getElem? found) place inChild
        exact (List.prefix_append _ _).trans deeper

/-- Blocks beside each other and the blocks in them come in the order of their addresses. -/
theorem pairwise_ofBlocks {outer : List Nat} {first : Nat} {around blocks : List Block}
    (inside : ∀ block ∈ blocks, ∀ address around,
      (ofBlock address around block).Pairwise (·.address < ·.address)) :
    (ofBlocks outer first around blocks).Pairwise (·.address < ·.address) := by
  induction blocks generalizing first with
  | nil => exact .nil
  | cons block blocks inductionHypothesis =>
      rw [ofBlocks]
      refine List.pairwise_append.2 ⟨inside block List.mem_cons_self _ _,
        inductionHypothesis fun other member => inside other (List.mem_cons_of_mem block member),
        fun left leftMember right rightMember => ?_⟩
      -- The two addresses differ first in the index of the siblings that they go through.
      obtain ⟨index, other, -, rightInside⟩ := mem_ofBlocks_iff.1 rightMember
      obtain ⟨leftTail, leftAddress⟩ := prefix_of_mem_ofBlock left leftMember
      obtain ⟨rightTail, rightAddress⟩ := prefix_of_mem_ofBlock right rightInside
      have less : first < first + 1 + index := by omega
      rw [← leftAddress, ← rightAddress, List.append_assoc, List.append_assoc]
      exact List.append_left_lt (List.cons_lt_cons_iff.2 (.inl less))

theorem pairwise_ofBlock (block : Block) :
    ∀ address around, (ofBlock address around block).Pairwise (·.address < ·.address) := by
  induction block using Block.induction with
  | step block inductionHypothesis =>
      intro address around
      rw [ofBlock_eq]
      refine List.pairwise_cons.2 ⟨fun place member => ?_, pairwise_ofBlocks inductionHypothesis⟩
      obtain ⟨index, child, -, inChild⟩ := mem_ofBlocks_iff.1 member
      obtain ⟨tail, deeper⟩ := prefix_of_mem_ofBlock place inChild
      have below : address ++ [] < address ++ ([0 + index] ++ tail) :=
        List.append_left_lt (List.nil_lt_cons _ _)
      rwa [List.append_nil, ← List.append_assoc, deeper] at below

end Place

namespace Document

variable {document : Document}

/-- The places of a block that stands in the document, and of the blocks in it, are those of the
document. -/
theorem Stands.ofBlock_subset {address : List Nat} {around : List Block} {block : Block}
    (stands : document.Stands address around block) :
    Place.ofBlock address around block ⊆ document.places := by
  induction stands with
  | top here =>
      intro place inBlock
      exact Place.mem_ofBlocks_iff.2 ⟨_, _, here, by simpa using inBlock⟩
  | nested outer here inductionHypothesis =>
      intro place inBlock
      refine inductionHypothesis ?_
      rw [Place.ofBlock_eq]
      exact List.mem_cons_of_mem _ (Place.mem_ofBlocks_iff.2 ⟨_, _, here, by simpa using inBlock⟩)

/-- The blocks inside of a block stand at their places. -/
theorem Stands.of_mem_ofBlock {block : Block} :
    ∀ {address : List Nat} {around : List Block}, document.Stands address around block →
      ∀ place ∈ Place.ofBlock address around block,
        document.Stands place.address place.around place.block := by
  induction block using Block.induction with
  | step block inductionHypothesis =>
      intro address around stands place member
      rw [Place.ofBlock_eq] at member
      rcases List.mem_cons.1 member with rfl | inside
      · exact stands
      · obtain ⟨index, child, found, inChild⟩ := Place.mem_ofBlocks_iff.1 inside
        rw [Nat.zero_add] at inChild
        exact inductionHypothesis child (List.mem_of_getElem? found) (stands.nested found) place
          inChild

/-- The places of a document are those where a block stands. -/
theorem mem_places_iff (place : Place) :
    place ∈ document.places ↔ document.Stands place.address place.around place.block := by
  constructor
  · intro member
    obtain ⟨index, block, found, inBlock⟩ := Place.mem_ofBlocks_iff.1 member
    rw [List.nil_append, Nat.zero_add] at inBlock
    exact (Stands.top found).of_mem_ofBlock place inBlock
  · intro stands
    refine stands.ofBlock_subset ?_
    rw [Place.ofBlock_eq]
    exact List.mem_cons_self

/-- The places of a document come in the order of their addresses. -/
theorem pairwise_places : document.places.Pairwise (·.address < ·.address) :=
  Place.pairwise_ofBlocks fun block _ => Place.pairwise_ofBlock block

end Document

/-! ## Sites -/

mutual

theorem Place.map_site_ofBlock (document : Document) (address : List Nat) (around : List Block) :
    (block : Block) → (Place.ofBlock address around block).map (·.site document) =
      Site.ofBlock (document.environment around) around.head? block
  | ⟨kind, label, attributes, blocks, actions, comments, trailingComments, position⟩ => by
      rw [Place.ofBlock, Site.ofBlock, List.map_cons, Place.map_site_ofBlocks]
      rfl

theorem Place.map_site_ofBlocks (document : Document) (outer : List Nat) (index : Nat)
    (around : List Block) :
    (blocks : List Block) → (Place.ofBlocks outer index around blocks).map (·.site document) =
      Site.ofBlocks (document.environment around) around.head? blocks
  | [] => by rw [Place.ofBlocks, Site.ofBlocks, List.map_nil]
  | block :: blocks => by
      rw [Place.ofBlocks, Site.ofBlocks, List.map_append, Place.map_site_ofBlock,
        Place.map_site_ofBlocks]

end

/-- The sites of a document are those of its places, in the same order. -/
theorem Document.sites_eq_map_places (document : Document) :
    document.sites = document.places.map (·.site document) :=
  (Place.map_site_ofBlocks document [] 0 [] document.blocks).symm

/-! ## Walking with one environment -/

namespace Environment

/-- The environment without its innermost scope. -/
def leave (environment : Environment) : Environment :=
  match environment.pop? with
  | some (_, outer) => outer
  | none => environment

mutual

/-- Visits a block and then the blocks in it. Their scope is entered before them and left behind
them. The result is what was visited, with the environment at that time, and the environment in the
end. -/
def walkBlock (environment : Environment) :
    Block → List (Environment × Block) × Environment
  | ⟨kind, label, attributes, blocks, actions, comments, trailingComments, position⟩ =>
    let block : Block :=
      ⟨kind, label, attributes, blocks, actions, comments, trailingComments, position⟩
    let (visits, after) := walkBlocks (environment.push { siblings := blocks }) blocks
    ((environment, block) :: visits, after.leave)

/-- Visits some blocks one after the other. -/
def walkBlocks (environment : Environment) :
    List Block → List (Environment × Block) × Environment
  | [] => ([], environment)
  | block :: blocks =>
    let (visits, after) := walkBlock environment block
    let (others, last) := walkBlocks after blocks
    (visits ++ others, last)

end

mutual

/-- A walk leaves every scope that it enters, so it visits each block with the environment of its
site. -/
theorem walkBlock_eq (environment : Environment) (parent : Option Block) :
    (block : Block) → environment.walkBlock block =
      ((Site.ofBlock environment parent block).map fun site => (site.environment, site.block),
        environment)
  | ⟨kind, label, attributes, blocks, actions, comments, trailingComments, position⟩ => by
      rw [walkBlock, Site.ofBlock, walkBlocks_eq]
      rfl

theorem walkBlocks_eq (environment : Environment) (parent : Option Block) :
    (blocks : List Block) → environment.walkBlocks blocks =
      ((Site.ofBlocks environment parent blocks).map fun site => (site.environment, site.block),
        environment)
  | [] => by
      rw [walkBlocks, Site.ofBlocks]
      rfl
  | block :: blocks => by
      rw [walkBlocks, Site.ofBlocks, walkBlock_eq environment parent, List.map_append]
      dsimp only
      rw [walkBlocks_eq environment parent]

end

end Environment

/-- Walks a document with an environment that is empty at first. -/
def Document.walk (document : Document) : List (Environment × Block) × Environment :=
  let (visits, after) :=
    (Environment.push {} { siblings := document.blocks }).walkBlocks document.blocks
  (visits, after.leave)

theorem Document.walk_eq (document : Document) :
    document.walk =
      (document.sites.map fun site => (site.environment, site.block), {}) := by
  rw [Document.walk, Environment.walkBlocks_eq _ none]
  rfl

/-! ## Resolution of labels -/

/-- The first of some blocks that has the label. -/
def FirstLabelled (label : String) (siblings : List Block) (block : Block) : Prop :=
  ∃ before after, siblings = before ++ block :: after ∧ block.label = some label ∧
    ∀ other ∈ before, other.label ≠ some label

/-- From inside of the blocks `around`, the label means the given block: the first one that has it
in a sibling list around there, where no list further inside has such a block. -/
def Document.Resolves (document : Document) (around : List Block) (label : String)
    (block : Block) : Prop :=
  ∃ outer, outer <:+ around ∧ FirstLabelled label (document.siblings outer) block ∧
    ∀ inner, inner <:+ around → outer.length < inner.length →
      ∀ other ∈ document.siblings inner, other.label ≠ some label

theorem Scope.get?_eq_some_iff (siblings : List Block) (label : String) (block : Block) :
    ({ siblings := siblings } : Scope).get? label = some block ↔
      FirstLabelled label siblings block := by
  rw [Scope.get?, List.find?_eq_some_iff_append]
  constructor
  · rintro ⟨labelled, before, after, split, absent⟩
    exact ⟨before, after, split, by simpa using labelled, by simpa using absent⟩
  · rintro ⟨before, after, split, labelled, absent⟩
    exact ⟨by simpa using labelled, before, after, split, by simpa using absent⟩

theorem Scope.get?_eq_none_iff (siblings : List Block) (label : String) :
    ({ siblings := siblings } : Scope).get? label = none ↔
      ∀ block ∈ siblings, block.label ≠ some label := by
  simp [Scope.get?]

namespace Document

variable {document : Document}

theorem resolves_nil_iff (label : String) (block : Block) :
    document.Resolves [] label block ↔ FirstLabelled label document.blocks block := by
  constructor
  · rintro ⟨outer, suffix, first, -⟩
    rw [List.suffix_nil.1 suffix] at first
    exact first
  · intro first
    refine ⟨[], List.suffix_refl _, first, fun inner suffix longer => ?_⟩
    rw [List.suffix_nil.1 suffix] at longer
    cases longer

/-- Inside of a block, a label means a block right there if there is one that has it, and else what
it means around the block. -/
theorem resolves_cons_iff (parent : Block) (around : List Block) (label : String)
    (block : Block) :
    document.Resolves (parent :: around) label block ↔
      FirstLabelled label parent.blocks block ∨
        (∀ other ∈ parent.blocks, other.label ≠ some label) ∧
          document.Resolves around label block := by
  constructor
  · rintro ⟨outer, suffix, first, inside⟩
    rcases List.suffix_cons_iff.1 suffix with rfl | suffix
    · exact .inl first
    · have shorter := suffix.length_le
      refine .inr ⟨inside _ (List.suffix_refl _) (Nat.lt_succ_of_le shorter), outer, suffix, first,
        fun inner innerSuffix longer => ?_⟩
      exact inside inner (innerSuffix.trans (List.suffix_cons _ _)) longer
  · rintro (first | ⟨absent, outer, suffix, first, inside⟩)
    · refine ⟨_, List.suffix_refl _, first, fun inner suffix longer => ?_⟩
      exact absurd suffix.length_le (Nat.not_le.2 longer)
    · refine ⟨outer, suffix.trans (List.suffix_cons _ _), first, fun inner innerSuffix longer => ?_⟩
      rcases List.suffix_cons_iff.1 innerSuffix with rfl | innerSuffix
      · exact absent
      · exact inside inner innerSuffix longer

/-- Looking a label up finds the block that the label means. -/
theorem lookup?_eq_some_iff (around : List Block) (label : String) (block : Block) :
    (document.environment around).lookup? label = some block ↔
      document.Resolves around label block := by
  induction around with
  | nil =>
      rw [resolves_nil_iff, ← Scope.get?_eq_some_iff]
      simp [environment, Environment.lookup?, Environment.push]
  | cons parent around inductionHypothesis =>
      have lookup : (document.environment (parent :: around)).lookup? label =
          (({ siblings := parent.blocks } : Scope).get? label).or
            ((document.environment around).lookup? label) := by
        simp only [environment, Environment.lookup?, Environment.push, List.findSome?_cons]
        cases ({ siblings := parent.blocks } : Scope).get? label <;> rfl
      rw [resolves_cons_iff, ← inductionHypothesis, ← Scope.get?_eq_some_iff,
        ← Scope.get?_eq_none_iff, lookup, Option.or_eq_some_iff]

end Document

/-- Labels are resolved lexically. A walk with one environment visits the blocks of a document in
the order of their addresses, so each once, before the blocks in it and behind its siblings before
it. The visits are the sites of the document, and in the end no scope is left. At the visit of a
block, a label means the first block that has it in the innermost of the sibling lists around the
block, its own one included, and nothing exactly if no block of these lists has it. -/
theorem labels_resolve_lexically (document : Document) :
    document.places.Pairwise (·.address < ·.address) ∧
    (∀ place, place ∈ document.places ↔
      document.Stands place.address place.around place.block) ∧
    document.walk = (document.sites.map fun site => (site.environment, site.block), {}) ∧
    List.Forall₂
      (fun place site => site.block = place.block ∧ ∀ label,
        (∀ found, site.environment.lookup? label = some found ↔
          document.Resolves place.around label found) ∧
        (site.environment.lookup? label = none ↔
          ∀ outer, outer <:+ place.around → ∀ block ∈ document.siblings outer,
            block.label ≠ some label))
      document.places document.sites := by
  refine ⟨Document.pairwise_places, Document.mem_places_iff, document.walk_eq, ?_⟩
  rw [document.sites_eq_map_places, List.forall₂_map_right_iff]
  refine List.forall₂_same.2 fun place _ => ⟨rfl, fun label =>
    ⟨Document.lookup?_eq_some_iff place.around label, ?_⟩⟩
  have visible := @Document.lookup?_isSome_iff document place.around label
  rw [← Option.not_isSome_iff_eq_none]
  refine (not_congr visible).trans ?_
  simp [Document.Visible]

end ServiceDef
