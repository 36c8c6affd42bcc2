import ServiceDef.Proofs.Recovery.Containment
import ServiceDef.Proofs.Recovery.Values

/-!
# Broken values

A bracketed value that is not one of the grammar costs its own attribute and nothing else. It is
reported once, at one of its tokens, and the rest of the document is what it would be without the
attribute: the brackets of the value tell the reader where the attribute ends, over as many lines
as it may go.
-/

namespace ServiceDef

/-! ## Documents that grow by nothing -/

/-- A list that has grown by nothing is the same list. -/
theorem Grows.eq_of_none {α : Type} {before after : List α}
    (grown : Grows (fun _ => False) before after) : after = before := by
  induction grown with
  | nil => rfl
  | keep element _ inductionHypothesis => rw [inductionHypothesis]
  | extra isExtra _ _ => exact isExtra.elim

mutual

/-- A block that has grown by nothing is the same but for comments. -/
theorem BlockGrows.uncommented_eq {before after : Block} :
    BlockGrows (fun _ => False) before after →
      Relabelling.uncommented.block after = Relabelling.uncommented.block before
  | .body heading attributes actions blocks => by
      have nested := blocks.uncommented_eq
      simp only [Block.emptied, Block.mk.injEq] at heading
      obtain ⟨kind, label, -, -, -, -, -, position⟩ := heading
      rw [Relabelling.block_eq, Relabelling.block_eq, attributes.eq_of_none, actions.eq_of_none,
        nested, kind, label, position]
      rfl

/-- Blocks that have grown by nothing are the same but for comments. -/
theorem BlocksGrow.uncommented_eq {before after : List Block} :
    BlocksGrow (fun _ => False) before after →
      Relabelling.uncommented.blocks after = Relabelling.uncommented.blocks before
  | .nil => rfl
  | .keep same others => by
      rw [Relabelling.blocks, Relabelling.blocks, same.uncommented_eq, others.uncommented_eq]
  | .extra isExtra _ _ => isExtra.elim

end

/-- A reader that differs from another one in comments, and in that it has reported `found` before,
goes on to the same blocks but for comments, and reports the same behind `found`. -/
theorem Reader.finish_of_reported {first second : Reader} {found : List Diagnostic}
    (same : Relabelling.uncommented.reader second =
      { Relabelling.uncommented.reader first with diagnostics := found ++ first.diagnostics })
    (tokens : List Token) (last : Token) :
    ((second.run tokens).finish last).diagnostics =
        found ++ ((first.run tokens).finish last).diagnostics ∧
      Relabelling.uncommented.blocks ((second.run tokens).finish last).blocks =
        Relabelling.uncommented.blocks ((first.run tokens).finish last).blocks := by
  have alike : Alike (fun _ => False) found (Relabelling.uncommented.reader first)
      (Relabelling.uncommented.reader second) := by
    rw [same]
    exact
      { blocks := .refl _
        openBlocks := List.forall₂_same.2 fun block _ => .refl block
        group := rfl
        mode := rfl
        pending := rfl
        diagnostics := by simp [Relabelling.reader] }
  have ended := (alike.run (tokens.map Relabelling.uncommented.token)).finish
    (Relabelling.uncommented.token last)
  rw [← Relabelling.reader_run, ← Relabelling.reader_run, ← Relabelling.reader_finish,
    ← Relabelling.reader_finish] at ended
  constructor
  · simpa [Relabelling.reader] using ended.diagnostics
  · have same := ended.blocks.uncommented_eq
    simp only [Relabelling.reader, Relabelling.blocks_uncommented_twice] at same
    exact same

/-! ## The line of an attribute -/

section Line

variable (group : BracketGroup) (reader : Reader)

/-- The opening bracket leads into the group. -/
theorem BracketGroup.stepValue_opening (head : Head) :
    reader.stepValue head [] group.opening =
      (reader.absorb group.opening).enter (.value head group.place) := by
  unfold Reader.stepValue
  rw [group.opens, place]
  cases group.bracket <;> rfl

/-- No action starts with a bracket, so the word for a single action is a key in front of one. -/
theorem BracketGroup.stepActionKey_opening (head : Head) :
    reader.stepActionKey head group.opening = reader.stepValue head [] group.opening := by
  unfold Reader.stepActionKey
  rw [group.opens]
  cases group.bracket <;> rfl

/-- Behind a key and a sign, the opening bracket of a group leads into the value of an attribute.
The comments in front of the sign belong to the attribute. -/
theorem BracketGroup.step_sign_opening (name : String) (position : Position) {sign : Token}
    (assigns : Grammar.IsSign sign.kind) :
    (reader.stepNamed name position sign).step group.opening =
      ((reader.release.absorb sign).absorb group.opening).enter
        (.value (reader.head name position) group.place) := by
  have atSign : reader.stepNamed name position sign =
      if name = Word.action then
        (reader.release.absorb sign).enter (.actionKey (reader.head name position))
      else (reader.release.absorb sign).enter (.value (reader.head name position) (.value [])) := by
    unfold Reader.stepNamed
    rcases assigns with kind | kind <;> rw [kind]
  rw [atSign]
  split
  · exact (group.stepActionKey_opening _ _).trans (group.stepValue_opening _ _)
  · exact group.stepValue_opening _ _

variable {reader} {name : String} {key sign lineBreak : Token}

/-- In a block, a key, a sign and an opening bracket lead into the value of an attribute. -/
theorem BracketGroup.run_front (between : reader.mode = .statement) (noGroup : reader.group = none)
    (inBlock : reader.openBlocks ≠ []) (isKey : key.kind = .identifier name)
    (assigns : Grammar.IsSign sign.kind) :
    ∃ head pending, reader.run [key, sign, group.opening] =
      (group.start head pending).inside reader := by
  obtain ⟨block, outer, opened⟩ := List.exists_cons_of_ne_nil inBlock
  have atKey : reader.step key = (reader.absorb key).enter (.named name key.position) := by
    rw [← reader.begin_of_block name key noGroup opened]
    simp [Reader.step, between, Reader.stepStatement, isKey]
  have atOpening := group.step_sign_opening ((reader.absorb key).enter (.named name key.position))
    name key.position assigns
  refine ⟨(reader.absorb key).head name key.position, sign.comments ++ group.opening.comments, ?_⟩
  rw [Reader.run_cons, atKey, Reader.run_cons, Reader.run_cons, Reader.run_nil]
  refine atOpening.trans ?_
  simp [Reader.inside, start, Reader.enter, Reader.absorb, Reader.release, Reader.head]

/-- Behind the line of a group that is no value, a reader has reported one token of the group, and
apart from comments it is what it was. -/
theorem BracketGroup.run_line (noValue : ¬ group.IsValue) (between : reader.mode = .statement)
    (noGroup : reader.group = none) (inBlock : reader.openBlocks ≠ [])
    (isKey : key.kind = .identifier name) (assigns : Grammar.IsSign sign.kind)
    (isBreak : lineBreak.kind = .newline) :
    ∃ token ∈ group.tokens, ∃ expectation pending,
      reader.run (key :: sign :: (group.tokens ++ [lineBreak])) =
        { reader with
          pending := pending
          diagnostics :=
            reader.diagnostics ++
              [.malformed (ReadFault.unexpected expectation token.kind).message
                token.position] } := by
  obtain ⟨head, pending, front⟩ := group.run_front between noGroup inBlock isKey assigns
  obtain ⟨token, member, expectation, ending, skipped⟩ :=
    group.run_rest_of_not_isValue noValue head pending
  refine ⟨token, member, expectation, ending ++ lineBreak.comments, ?_⟩
  have split : key :: sign :: (group.tokens ++ [lineBreak]) =
      [key, sign, group.opening] ++ (group.rest ++ [lineBreak]) := rfl
  rw [split, Reader.run_append, front, Reader.run_append, skipped]
  simp [Reader.step, Reader.inside, Reader.brokenAt, Reader.stepSkipping, Reader.stepStatement,
    isBreak, Reader.absorb, Reader.enter, between]

end Line

/-! ## Insertions -/

/-- An accepted document and one more attribute. The attribute is put between two statements of a
block, and its value is a bracketed group that is no value of the grammar, on one line or on
many. -/
structure ValueInsertion (file : String) where
  before : List Token
  key : Token
  name : String
  sign : Token
  value : BracketGroup
  lineBreak : Token
  after : List Token
  last : Token
  isLast : last.kind = .endOfFile
  content : ∀ token ∈ before ++ after, token.kind ≠ .endOfFile ∧ token.kind.isInvalid = false
  /-- Nothing is reported about the document without the attribute. -/
  accepted : (parseTokens file (before ++ after ++ [last])).diagnostics = []
  /-- A statement, or the end of a block, is expected in front of the attribute. -/
  boundary : (({} : Reader).run before).mode = .statement
  noGroup : (({} : Reader).run before).group = none
  inBlock : (({} : Reader).run before).openBlocks ≠ []
  isKey : key.kind = .identifier name
  assigns : Grammar.IsSign sign.kind
  noValue : ¬ value.IsValue
  isBreak : lineBreak.kind = .newline

namespace ValueInsertion

variable {file : String} (edit : ValueInsertion file)

/-- The tokens of the attribute. -/
def line : List Token :=
  edit.key :: edit.sign :: (edit.value.tokens ++ [edit.lineBreak])

/-- The tokens without the attribute. -/
def original : List Token :=
  edit.before ++ edit.after ++ [edit.last]

/-- The tokens with the attribute. -/
def edited : List Token :=
  edit.before ++ edit.line ++ edit.after ++ [edit.last]

/-- The reader in front of the attribute. -/
def base : Reader :=
  ({} : Reader).run edit.before

theorem parsed_original :
    (parseTokens file edit.original).document.blocks =
        ((edit.base.run edit.after).finish edit.last).blocks ∧
      (parseTokens file edit.original).diagnostics =
        ((edit.base.run edit.after).finish edit.last).diagnostics := by
  rw [original, parseTokens_append file edit.isLast fun token member =>
    (edit.content token member).1, Reader.run_append]
  exact ⟨rfl, rfl⟩

/-- No token of the attribute ends the file. -/
theorem noEnd_line : ∀ token ∈ edit.line, token.kind ≠ .endOfFile := by
  intro token member
  simp only [line, List.mem_cons, List.mem_append, List.not_mem_nil, or_false] at member
  rcases member with rfl | rfl | inValue | rfl
  · simp [edit.isKey]
  · rcases edit.assigns with kind | kind <;> simp [kind]
  · exact (edit.value.valid_tokens token inValue).1
  · simp [edit.isBreak]

theorem parsed_edited :
    (parseTokens file edit.edited).document.blocks =
        (((edit.base.run edit.line).run edit.after).finish edit.last).blocks ∧
      (parseTokens file edit.edited).diagnostics =
        (((edit.base.run edit.line).run edit.after).finish edit.last).diagnostics :=
  parseTokens_between file edit.isLast (fun token member => (edit.content token member).1)
    edit.noEnd_line

/-- A broken bracketed value costs its own attribute and nothing else. One of its tokens is
reported, and nothing else is, and without comments the document is the one without the
attribute. -/
theorem costs_own_attribute :
    (∃ token ∈ edit.value.tokens, ∃ expectation,
      (parseTokens file edit.edited).diagnostics =
        [.malformed (ReadFault.unexpected expectation token.kind).message token.position]) ∧
    Relabelling.uncommented.blocks (parseTokens file edit.edited).document.blocks =
      Relabelling.uncommented.blocks (parseTokens file edit.original).document.blocks := by
  obtain ⟨originalBlocks, originalReports⟩ := edit.parsed_original
  obtain ⟨editedBlocks, editedReports⟩ := edit.parsed_edited
  have silent : ((edit.base.run edit.after).finish edit.last).diagnostics = [] :=
    originalReports.symm.trans edit.accepted
  have baseSilent := edit.base.diagnostics_eq_nil_of_finish edit.after edit.isLast silent
  obtain ⟨token, member, expectation, pending, behind⟩ := edit.value.run_line edit.noValue
    edit.boundary edit.noGroup edit.inBlock edit.isKey edit.assigns edit.isBreak
  have same : Relabelling.uncommented.reader (edit.base.run edit.line) =
      { Relabelling.uncommented.reader edit.base with
        diagnostics :=
          [.malformed (ReadFault.unexpected expectation token.kind).message token.position] ++
            edit.base.diagnostics } := by
    -- Only comments are waiting behind the line that were not waiting in front of it.
    rw [show edit.base.run edit.line = _ from behind, ← base, baseSilent]
    rfl
  obtain ⟨reports, blocks⟩ := Reader.finish_of_reported same edit.after edit.last
  rw [silent, List.append_nil] at reports
  refine ⟨⟨token, member, expectation, editedReports.trans reports⟩, ?_⟩
  rw [originalBlocks, editedBlocks, blocks]

open LineInsertion (placed)

/-- A list over several lines, with a map in it whose entry has no value, and with more brackets
behind that. -/
def brokenList : BracketGroup where
  bracket := .square
  opening := placed 3 11 .leftBracket
  content :=
    [placed 3 12 .newline, placed 4 1 (.number "1"), placed 4 2 .comma, placed 4 3 .newline,
      placed 5 1 .leftBrace, placed 5 2 (.identifier "k"), placed 5 4 .equals,
      placed 5 6 .rightBrace, placed 5 7 .comma, placed 5 9 .leftBracket, placed 5 10 .equals,
      placed 5 11 .leftBrace, placed 5 12 .newline, placed 6 1 .rightBrace,
      placed 6 2 .rightBracket, placed 6 3 .newline]
  closing := placed 7 1 .rightBracket
  opens := rfl
  closes := rfl
  nested := by decide
  valid := by decide

/-- A value would be read without a report. -/
theorem brokenList_not_isValue : ¬ brokenList.IsValue := by
  rintro ⟨value, derivation⟩
  let head : Head := { name := "action", comments := [], position := {} }
  have silent : ((({} : Reader).enter (.value head (.value []))).reads
      (brokenList.tokens.map (·.kind))).diagnostics = [] :=
    congrArg Reader.diagnostics (derivation.reads {} head [])
  exact absurd silent (by decide)

/-- The list as the value of an attribute in a nested block. -/
def brokenAttribute : ValueInsertion "" where
  before :=
    [placed 1 1 (.identifier "api"), placed 1 5 .leftBrace, placed 1 6 .newline,
      placed 2 1 (.identifier "limits"), placed 2 8 .leftBrace, placed 2 9 .newline]
  key := placed 3 1 (.identifier "action")
  name := "action"
  sign := placed 3 8 .equals
  value := brokenList
  lineBreak := placed 7 2 .newline
  after :=
    [placed 8 1 (.identifier "max"), placed 8 5 .equals, placed 8 7 (.number "2"),
      placed 8 8 .newline, placed 9 1 .rightBrace, placed 9 2 .newline, placed 10 1 .rightBrace,
      placed 10 2 .newline]
  last := placed 11 1 .endOfFile
  isLast := rfl
  content := by decide
  accepted := by decide
  boundary := by decide
  noGroup := by decide
  inBlock := by decide
  isKey := rfl
  assigns := .inl rfl
  noValue := brokenList_not_isValue
  isBreak := rfl

theorem costs_own_attribute_brokenAttribute :
    (∃ token ∈ brokenList.tokens, ∃ expectation,
      (parseTokens "" brokenAttribute.edited).diagnostics =
        [.malformed (ReadFault.unexpected expectation token.kind).message token.position]) ∧
    Relabelling.uncommented.blocks (parseTokens "" brokenAttribute.edited).document.blocks =
      Relabelling.uncommented.blocks (parseTokens "" brokenAttribute.original).document.blocks :=
  brokenAttribute.costs_own_attribute

end ValueInsertion

end ServiceDef
