import ServiceDef.Proofs.Reader.Anchors
import ServiceDef.Proofs.Scanning.Partition
import ServiceDef.Proofs.Validation.Reports

/-!
# Where positions point

Every position of a document points at the name of its part in the source text, and every position
of a diagnostic is the start of a token. Both hold of malformed sources too. What a reader builds
stands at the tokens it has read, tokens stand where the scanner found them in the text, and rules
report at places of the document.
-/

namespace ServiceDef

/-- The source goes on with the text at the position. -/
def Position.PointsAt (source text : String) (position : Position) : Prop :=
  ∃ before after : String, source = before ++ text ++ after ∧ position.offset = before.utf8ByteSize

/-- The block and its own parts point at their names in the source, and its attributes, actions and
nested blocks each come one behind the other, all of them behind the start of the block. -/
structure Block.PointsInto (source : String) (block : Block) : Prop where
  kind : block.position.PointsAt source block.kind
  attributes : ∀ attr ∈ block.attributes, attr.position.PointsAt source attr.key
  entries : ∀ attr ∈ block.attributes, ∀ entries ∈ attr.value.maps, ∀ entry ∈ entries,
    entry.position.PointsAt source entry.key
  actions : ∀ action ∈ block.actions, action.position.PointsAt source action.method
  attributesAscend : Ascending (block.position :: block.attributes.map (·.position))
  actionsAscend : Ascending (block.position :: block.actions.map (·.position))
  blocksAscend : Ascending (block.position :: block.blocks.map (·.position))

/-! ## Tokens in their source -/

/-- The tokens of a source come one behind the other. -/
theorem tokenize_ascending (file source : String) :
    (tokenize file source).1.Pairwise (·.position.offset < ·.position.offset) := by
  obtain ⟨pieces, partition, tokens⟩ := @Scanner.partition_drain (Scanner.start file source) rfl
  rw [tokenize, ← tokens]
  exact List.pairwise_map.2 partition.offsets_increase

/-- A name stands in the source where its token starts. -/
theorem StartsName.pointsAt {file source name : String} {position : Position}
    (named : StartsName (tokenize file source).1 name position) :
    position.PointsAt source name := by
  obtain ⟨pieces, partition, tokens⟩ := @Scanner.partition_drain (Scanner.start file source) rfl
  obtain ⟨token, member, kind, rfl⟩ := named
  rw [tokenize, ← tokens] at member
  obtain ⟨piece, pieceMember, rfl⟩ := List.mem_map.1 member
  obtain ⟨before, after, split⟩ := List.append_of_mem pieceMember
  have written := (partition.sound piece pieceMember).written
  rw [kind] at written
  have lexeme : piece.lexeme = name.toList := written
  have whole : pieces.flatMap Piece.text = source.toList := partition.flatMap_text
  rw [split, List.flatMap_append, List.flatMap_cons, Piece.text, lexeme,
    List.append_assoc piece.gap, ← List.append_assoc, ← List.append_assoc] at whole
  refine ⟨String.ofList (before.flatMap Piece.text ++ piece.gap),
    String.ofList (after.flatMap Piece.text), ?_, ?_⟩
  · rw [← String.toList_inj, ← whole]
    simp
  · rw [partition.position_eq split]
    exact (Position.isBehind_advance file _).offset

/-- What a scanner reports is at the tokens that it yields. -/
theorem Scanner.reported_drain {scanner : Scanner} (running : scanner.finished = false) :
    ∀ d ∈ scanner.drain.2.diagnostics,
      d ∈ scanner.diagnostics ∨ d.MalformedAt scanner.drain.1 := by
  induction text : scanner.rest using tokensOf_induction generalizing scanner with
  | atEnd _ split =>
      subst text
      rw [drain_of_end running split]
      exact fun d member => .inl member
  | lexeme _ c rest split inductionHypothesis =>
      subst text
      obtain ⟨after, drain, still, behind, -, found⟩ := drain_of_lexeme running split
      rw [drain]
      intro d member
      rcases inductionHypothesis still behind d member with
        before | ⟨message, position, rfl, token, inside, same⟩
      · rw [found, List.mem_append] at before
        rcases before with before | here
        · exact .inl before
        · obtain ⟨fault, -, rfl⟩ := Option.map_eq_some_iff.1 (Option.mem_toList.1 here)
          exact .inr ⟨_, _, rfl, _, List.mem_cons_self, rfl⟩
      · exact .inr ⟨message, position, rfl, token, List.mem_cons_of_mem _ inside, same⟩

/-! ## Parts and faults at tokens -/

/-- The blocks of a source are placed at its tokens, one behind the other, and what is wrong with
the source is reported at its tokens. -/
theorem parse_placed (file source : String) :
    (∀ block ∈ (parse file source).document.preorder, block.Placed (tokenize file source).1) ∧
    Ascending ((parse file source).document.blocks.map (·.position)) ∧
    ∀ d ∈ (parse file source).diagnostics, d.MalformedAt (tokenize file source).1 := by
  obtain ⟨content, last, stream, atEnd, others⟩ := tokenize_eq_append file source
  have ascending := tokenize_ascending file source
  have faults : ∀ d ∈ (tokenize file source).2, d.MalformedAt (tokenize file source).1 :=
    fun d member => (@Scanner.reported_drain (Scanner.start file source) rfl d member).resolve_left
      List.not_mem_nil
  have members : ∀ token ∈ content, token ∈ (tokenize file source).1 := by simp_all
  have start : ({} : Reader).Anchored (tokenize file source).1 0 :=
    ⟨⟨by simp, by simp, .nil, trivial, by simp [frontier], by simp⟩, by simp [Mode.start?], trivial⟩
  rw [stream, List.pairwise_append] at ascending
  obtain ⟨bound, anchored⟩ := start.run members (fun _ _ => Nat.zero_le _) ascending.1
  have reported : (({} : Reader).run content).Reported (tokenize file source).1 :=
    Reader.Reported.run (by simp [Reader.Reported]) members
  have outlined := anchored.finish last
  have finished := reported.finish anchored ⟨last, by simp [stream], rfl⟩
  have parsed := parseTokens_append file atEnd others
  rw [← stream] at parsed
  simp only [parse, parsed, Diagnostic.sort, List.mem_mergeSort, List.mem_append]
  refine ⟨fun inner member => ?_, outlined.ascending, fun d member => ?_⟩
  · obtain ⟨block, top, inside⟩ := Block.mem_preorderAll_iff.1 member
    exact Outline.complete outlined block top inner inside
  · rcases member with found | scanned
    · exact finished d found
    · exact faults d scanned

/-- All that parsing reports are errors. -/
theorem parse_silent_of_noError {file source : String}
    (noError : Diagnostic.anyError (parse file source).diagnostics = false) :
    (parse file source).diagnostics = [] := by
  rw [List.eq_nil_iff_forall_not_mem]
  intro d member
  obtain ⟨message, position, rfl, -⟩ := (parse_placed file source).2.2 d member
  have isError := List.any_eq_false.1 noError _ member
  exact isError rfl

/-- A place of a document is the start of a token. -/
theorem Document.Marks.startsToken {file source : String} {position : Position}
    (marks : (parse file source).document.Marks position) :
    StartsToken (tokenize file source).1 position := by
  obtain ⟨block, member, here⟩ := marks
  have placed := (parse_placed file source).1 block member
  cases here with
  | block => exact placed.kind.startsToken
  | attr attrMember => exact (placed.attributes _ attrMember).key.startsToken
  | entry attrMember inside entryMember =>
      exact ((placed.attributes _ attrMember).value _ inside _ entryMember).startsToken
  | action actionMember => exact (placed.actions _ actionMember).startsToken

/-- Every position points at what it names, in every source. All parts of a document point at their
names and come one behind the other, and every place of a diagnostic is the start of a token; only
an empty document is reported at the start of its file. -/
theorem positions_point (file source : String) :
    (∀ block ∈ (parse file source).document.preorder, block.PointsInto source) ∧
    Ascending ((parse file source).document.blocks.map (·.position)) ∧
    (∀ d ∈ (parse file source).diagnostics, ∀ position ∈ d.places,
      StartsToken (tokenize file source).1 position) ∧
    ∀ d ∈ (Validator.builtin.validateSource file source).diagnostics, ∀ position ∈ d.places,
      StartsToken (tokenize file source).1 position ∨
        d.rule = RuleName.emptyDocument.id ∧ position = Position.startOf file := by
  obtain ⟨placed, ascending, reported⟩ := parse_placed file source
  have faults : ∀ d ∈ (parse file source).diagnostics, ∀ position ∈ d.places,
      StartsToken (tokenize file source).1 position := by
    intro d member position at_
    obtain ⟨message, here, rfl, starts⟩ := reported d member
    rw [Diagnostic.places, Diagnostic.malformed, List.mem_singleton] at at_
    rwa [at_]
  refine ⟨fun block member => ?_, ascending, faults, fun d member position at_ => ?_⟩
  · have here := placed block member
    exact ⟨here.kind.pointsAt, fun attr inside => (here.attributes attr inside).key.pointsAt,
      fun attr inside entries maps entry inMap =>
        ((here.attributes attr inside).value entries maps entry inMap).pointsAt,
      fun action inside => (here.actions action inside).pointsAt, here.attributesAscend,
      here.actionsAscend, here.blocksAscend⟩
  · by_cases malformed : Diagnostic.anyError (parse file source).diagnostics = true
    · simp only [Validator.validateSource, malformed, if_true] at member
      exact .inl (faults d member position at_)
    · simp only [Validator.validateSource, malformed, Bool.false_eq_true, if_false] at member
      obtain ⟨rule, isRule, found⟩ := List.mem_flatMap.1 (List.mem_mergeSort.1 member)
      obtain ⟨name, -, rfl⟩ := List.mem_map.1 isRule
      obtain ⟨own, known⟩ := Rule.reportsOf_checkOf name _ d found
      rcases known position at_ with marks | ⟨rfl, start⟩
      · exact .inl marks.startsToken
      · exact .inr ⟨own, start⟩

end ServiceDef
