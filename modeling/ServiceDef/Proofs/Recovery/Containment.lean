import ServiceDef.Proofs.Grammar.Acceptance
import ServiceDef.Proofs.Grammar.Braces
import ServiceDef.Proofs.Reader.Erasure
import ServiceDef.Proofs.Recovery.Line
import ServiceDef.Proofs.Recovery.Lockstep

/-!
# Errors stay on their line

A line of any tokens, put between two statements of an accepted document, can only add to the
document, and all that is found wrong is on that line, as long as its brackets are nested and the
reader keeps count of its braces. There is one way not to: a brace that comes where a
statement is expected is consumed without being counted. Inside of a block, its closing brace
then closes the block, and `LineInsertion.containment` says that this is the only way for an
error to leave its line.
-/

namespace ServiceDef

/-! ## Without comments -/

namespace Relabelling

theorem nesting_map_token (change : Relabelling) (opened : List Bracket) (tokens : List Token) :
    nesting opened (tokens.map change.token) = nesting opened tokens := by
  rw [nesting, nesting, List.foldlM_map]
  rfl

theorem mode_eq_statement_iff (change : Relabelling) (mode : Mode) :
    change.mode mode = .statement ↔ mode = .statement := by
  cases mode <;> simp [Relabelling.mode]

theorem missesBrace_reader (change : Relabelling) (reader : Reader) (tokens : List Token) :
    (change.reader reader).missesBrace (tokens.map change.token) = reader.missesBrace tokens := by
  induction tokens generalizing reader with
  | nil => rfl
  | cons token tokens inductionHypothesis =>
      have between : (change.reader reader).mode = .statement ↔ reader.mode = .statement :=
        change.mode_eq_statement_iff reader.mode
      rw [List.map_cons, Reader.missesBrace, Reader.missesBrace, ← reader_step,
        inductionHypothesis]
      simp only [between]
      rfl

theorem level_reader (change : Relabelling) (reader : Reader) :
    (change.reader reader).level = reader.level := by
  have length (blocks : List Block) : (change.blocks blocks).length = blocks.length := by
    induction blocks with
    | nil => rfl
    | cons block blocks inductionHypothesis => simp [Relabelling.blocks, inductionHypothesis]
  cases group : reader.group <;> simp [Reader.level, Relabelling.reader, group, length]

end Relabelling

/-- A reader without comments is back where it was behind a line whose braces it has counted. -/
theorem Reader.alike_of_line {base : Reader} {line : List Token} {lineBreak : Token}
    {Extra : Position → Prop} (between : base.mode = .statement) (silent : base.diagnostics = [])
    (atTokens : ∀ token ∈ line ++ [lineBreak], Extra token.position)
    (nested : nesting [] line = some []) (isBreak : lineBreak.kind = .newline)
    (counted : base.level = 0 ∨ base.missesBrace line = false)
    (idle : (base.run (line ++ [lineBreak])).pending = base.pending) :
    Alike Extra (base.run (line ++ [lineBreak])).diagnostics base
      (base.run (line ++ [lineBreak])) := by
  have outside : base.HeadsOutside := by
    intro isHead
    rw [between] at isHead
    cases isHead
  have start : Levelled base.level [] base.shape :=
    ⟨[], 0, by simp [brackets_of_statement between], by simp [shape], .inl rfl⟩
  have atLine : ∀ token ∈ line, Extra token.position := fun token member =>
    atTokens token (List.mem_append_left _ member)
  obtain ⟨grown, levelled⟩ :=
    (Grown.refl between).run outside atLine start nested counted
  have closed := levelled.of_closed
  have stepped := (base.run line).bracketStep_step (outside.run line) lineBreak
  rw [isBreak, closed] at stepped
  have level : ((base.run line).step lineBreak).level = base.level := congrArg Prod.snd stepped
  have mode : ((base.run line).step lineBreak).mode = .statement :=
    mode_step_newline isBreak (congrArg Prod.fst closed)
  have behind := grown.step lineBreak (atTokens lineBreak (by simp)) (outside.run line)
    (by simp [isBreak])
  obtain ⟨group, openBlocks⟩ := behind.openBlocks_of_level level
  rw [run_append, run_cons, run_nil] at idle ⊢
  exact
    { blocks := behind.blocks
      openBlocks := openBlocks
      group := group
      mode := by rw [mode, between]
      pending := idle
      diagnostics := by rw [silent, List.append_nil] }

/-! ## Insertions -/

/-- An accepted document and one more line. The line is put between two statements, and it holds
any tokens whose brackets are properly nested. -/
structure LineInsertion (file : String) where
  before : List Token
  line : List Token
  lineBreak : Token
  after : List Token
  last : Token
  isLast : last.kind = .endOfFile
  content : ∀ token ∈ before ++ after, token.kind ≠ .endOfFile ∧ token.kind.isInvalid = false
  /-- Nothing is reported about the document without the line. -/
  accepted : (parseTokens file (before ++ after ++ [last])).diagnostics = []
  /-- A statement, or the end of a block or group, is expected in front of the line. -/
  boundary : (({} : Reader).run before).mode = .statement
  oneLine : ∀ token ∈ line, token.kind ≠ .newline ∧ token.kind ≠ .endOfFile
  nested : nesting [] line = some []
  isBreak : lineBreak.kind = .newline

namespace LineInsertion

variable {file : String} (edit : LineInsertion file)

/-- The tokens without the line. -/
def original : List Token :=
  edit.before ++ edit.after ++ [edit.last]

/-- The tokens with the line. -/
def edited : List Token :=
  edit.before ++ (edit.line ++ [edit.lineBreak]) ++ edit.after ++ [edit.last]

/-- The positions of the line. -/
def positions : List Position :=
  (edit.line ++ [edit.lineBreak]).map (·.position)

/-- The reader in front of the line. -/
def base : Reader :=
  ({} : Reader).run edit.before

/-- The reader behind the line. -/
def behind : Reader :=
  edit.base.run (edit.line ++ [edit.lineBreak])

/-- The end of the file, behind the tokens that follow the line. -/
def finished (reader : Reader) : Reader :=
  (reader.run edit.after).finish edit.last

/-- All that is found wrong is on the line, and all parts of the document are as without it, but for
comments. What is new comes from the line. -/
def Contained : Prop :=
  (∀ diagnostic ∈ (parseTokens file edit.edited).diagnostics,
    diagnostic.position ∈ edit.positions) ∧
  BlocksGrow (· ∈ edit.positions)
    (Relabelling.uncommented.blocks (parseTokens file edit.original).document.blocks)
    (Relabelling.uncommented.blocks (parseTokens file edit.edited).document.blocks)

/-- The line is outside of all blocks, or no opening brace in it comes where a statement is
expected. -/
def Counted : Prop :=
  edit.base.level = 0 ∨ edit.base.missesBrace edit.line = false

instance : Decidable edit.Counted :=
  inferInstanceAs (Decidable (_ ∨ _))

/-! ## Readings of the two documents -/

theorem parsed_original :
    (parseTokens file edit.original).document.blocks = (edit.finished edit.base).blocks ∧
      (parseTokens file edit.original).diagnostics = (edit.finished edit.base).diagnostics := by
  rw [original, parseTokens_append file edit.isLast fun token member =>
    (edit.content token member).1, Reader.run_append]
  exact ⟨rfl, rfl⟩

theorem parsed_edited :
    (parseTokens file edit.edited).document.blocks = (edit.finished edit.behind).blocks ∧
      (parseTokens file edit.edited).diagnostics = (edit.finished edit.behind).diagnostics := by
  have noEnd : ∀ token ∈ edit.line ++ [edit.lineBreak], token.kind ≠ .endOfFile := by
    intro token member
    rcases List.mem_append.1 member with inLine | isBreak
    · exact (edit.oneLine token inLine).2
    · simp [List.mem_singleton.1 isBreak, edit.isBreak]
  exact parseTokens_between file edit.isLast (fun token member => (edit.content token member).1)
    noEnd

theorem finished_silent : (edit.finished edit.base).diagnostics = [] := by
  rw [← edit.parsed_original.2]
  exact edit.accepted

/-- Nothing is reported in front of the line. -/
theorem base_silent : edit.base.diagnostics = [] :=
  edit.base.diagnostics_eq_nil_of_finish edit.after edit.isLast edit.finished_silent

theorem headsOutside_base : edit.base.HeadsOutside :=
  Reader.HeadsOutside.run (fun _ => rfl) edit.before

/-- All that is reported on the line is reported at one of its tokens. -/
theorem behind_reports : ∀ diagnostic ∈ edit.behind.diagnostics,
    diagnostic.position ∈ edit.positions := by
  obtain ⟨found, reported, atTokens⟩ :=
    Reader.diagnostics_run edit.base (edit.line ++ [edit.lineBreak])
  intro diagnostic member
  rw [behind, reported, edit.base_silent, List.nil_append] at member
  obtain ⟨token, inLine, same⟩ := atTokens diagnostic member
  rw [same]
  exact List.mem_map_of_mem inLine

/-! ## Lines whose braces are counted -/

/-- Without comments, the readings with and without the line are in lockstep behind it. -/
theorem alike_of_counted (counted : edit.Counted) :
    Alike (· ∈ edit.positions) edit.behind.diagnostics
      (Relabelling.uncommented.reader edit.base) (Relabelling.uncommented.reader edit.behind) := by
  have between : (Relabelling.uncommented.reader edit.base).mode = .statement :=
    (Relabelling.mode_eq_statement_iff _ _).2 edit.boundary
  have silent : (Relabelling.uncommented.reader edit.base).diagnostics = [] := by
    simp [Relabelling.reader, edit.base_silent]
  have read : Relabelling.uncommented.reader edit.behind =
      (Relabelling.uncommented.reader edit.base).run
        (edit.line.map Relabelling.uncommented.token ++
          [Relabelling.uncommented.token edit.lineBreak]) := by
    rw [behind, Relabelling.reader_run, List.map_append, List.map_singleton]
  have reported : (Relabelling.uncommented.reader edit.behind).diagnostics =
      edit.behind.diagnostics :=
    Relabelling.map_diagnostic_uncommented _
  rw [← reported, read]
  refine Reader.alike_of_line between silent ?_
    ((Relabelling.nesting_map_token _ _ _).trans edit.nested) edit.isBreak ?_ ?_
  · intro token member
    have relabelled : token ∈ (edit.line ++ [edit.lineBreak]).map
        Relabelling.uncommented.token := by
      simpa using member
    obtain ⟨source, inLine, rfl⟩ := List.mem_map.1 relabelled
    exact List.mem_map.2 ⟨source, inLine, rfl⟩
  · rw [Relabelling.level_reader, Relabelling.missesBrace_reader]
    exact counted
  · rw [← read]
    rfl

theorem contained_of_counted (counted : edit.Counted) : edit.Contained := by
  have ended := ((edit.alike_of_counted counted).run
    (edit.after.map Relabelling.uncommented.token)).finish
      (Relabelling.uncommented.token edit.last)
  rw [← Relabelling.reader_run, ← Relabelling.reader_run, ← Relabelling.reader_finish,
    ← Relabelling.reader_finish] at ended
  have silent : ((edit.base.run edit.after).finish edit.last).diagnostics = [] :=
    edit.finished_silent
  have reported : (edit.finished edit.behind).diagnostics = edit.behind.diagnostics := by
    simpa [Relabelling.reader, finished, silent] using ended.diagnostics
  rw [Contained, edit.parsed_original.1, edit.parsed_edited.1, edit.parsed_edited.2, reported]
  exact ⟨edit.behind_reports, ended.blocks⟩

/-! ## Lines with a missed brace -/

/-- If no token behind the line is at a position of the line, then errors that stay on the line
leave nothing to report about the tokens behind it. -/
theorem after_silent (apart : ∀ token ∈ edit.after, token.position ∉ edit.positions)
    (contained : edit.Contained) :
    (edit.behind.run edit.after).diagnostics = edit.behind.diagnostics := by
  obtain ⟨found, reported, atTokens⟩ := Reader.diagnostics_run edit.behind edit.after
  cases found with
  | nil => rw [reported, List.append_nil]
  | cons diagnostic found =>
      exfalso
      have inFinished : diagnostic ∈ (parseTokens file edit.edited).diagnostics := by
        rw [edit.parsed_edited.2]
        refine Reader.subset_diagnostics_finish _ _ ?_
        rw [reported]
        exact List.mem_append_right _ List.mem_cons_self
      obtain ⟨token, inAfter, same⟩ := atTokens diagnostic List.mem_cons_self
      have inLine := contained.1 diagnostic inFinished
      rw [same] at inLine
      exact apart token inAfter inLine

/-- In the document without the line, as many braces are closed as are opened. -/
theorem count_braces :
    ((edit.before ++ edit.after).map (·.kind)).count .leftBrace =
      ((edit.before ++ edit.after).map (·.kind)).count .rightBrace := by
  have valid : ∀ token ∈ edit.before ++ edit.after ++ [edit.last],
      token.kind.isInvalid = false := by
    intro token member
    rcases List.mem_append.1 member with inContent | isLast
    · exact (edit.content token inContent).2
    · rw [List.mem_singleton.1 isLast, edit.isLast]
      rfl
  obtain ⟨blocks, derivation⟩ := (Grammar.parseTokens_silent_iff file edit.isLast
    (fun token member => (edit.content token member).1) valid).1 edit.accepted
  exact Grammar.count_braces_of_series
    ((Grammar.derivesDocument_append edit.isLast blocks).1 derivation)

theorem depth_base : depth edit.base.shape = edit.base.level :=
  Reader.depth_of_statement edit.boundary

/-- Behind a line with a missed brace, at least one of the levels around it is gone. -/
theorem depth_behind_of_missed (inside : edit.base.level ≠ 0)
    (missed : edit.base.missesBrace edit.line = true) :
    depth edit.behind.shape + 1 ≤ edit.base.level := by
  have outside := edit.headsOutside_base
  have upToBreak := Reader.depth_run_of_missed outside edit.nested (Nat.pos_of_ne_zero inside)
    (Nat.le_of_eq edit.depth_base) missed
  have atBreak := depth_le ((edit.base.run edit.line).bracketStep_step (outside.run edit.line)
    edit.lineBreak) (by simp [edit.isBreak])
  rw [List.count_nil] at upToBreak
  rw [behind, Reader.run_append, Reader.run_cons, Reader.run_nil]
  omega

/-- One of the braces that are closed behind a line with a missed brace is stray, and that is
reported where it stands. -/
theorem counted_of_contained (apart : ∀ token ∈ edit.after, token.position ∉ edit.positions)
    (contained : edit.Contained) : edit.Counted := by
  by_contra notCounted
  obtain ⟨inside, missed⟩ : edit.base.level ≠ 0 ∧ edit.base.missesBrace edit.line = true := by
    simpa [Counted] using notCounted
  have atLine := edit.depth_behind_of_missed inside missed
  have upToLine : depth edit.base.shape + (edit.before.map (·.kind)).count .rightBrace ≤
      0 + (edit.before.map (·.kind)).count .leftBrace :=
    Reader.depth_run_of_silent (fun _ => rfl) edit.base_silent
  have upToEnd : depth (edit.behind.run edit.after).shape +
      (edit.after.map (·.kind)).count .rightBrace ≤
        depth edit.behind.shape + (edit.after.map (·.kind)).count .leftBrace :=
    Reader.depth_run_of_silent (edit.headsOutside_base.run _) (edit.after_silent apart contained)
  have balanced := edit.count_braces
  rw [depth_base] at upToLine
  rw [List.map_append, List.count_append, List.count_append] at balanced
  omega

/-- Errors stay on their line if its braces are counted. If no token behind the line is at a
position of the line, they stay there only then. -/
theorem containment :
    (edit.Counted → edit.Contained) ∧
      ((∀ token ∈ edit.after, token.position ∉ edit.positions) →
        edit.Contained → edit.Counted) :=
  ⟨edit.contained_of_counted, edit.counted_of_contained⟩

/-- The token of a kind at a line and a column. -/
def placed (line column : Nat) (kind : TokenKind) : Token where
  kind := kind
  position := { line := line, column := column }

/-- A line in a group of actions: the target of an action is missing, and nested brackets stand in
its place. -/
def brokenAction : LineInsertion "" where
  before :=
    [placed 1 1 (.identifier "api"), placed 1 5 .leftBrace, placed 1 6 .newline,
      placed 2 1 (.identifier "actions"), placed 2 9 .leftBrace, placed 2 10 .newline]
  line :=
    [placed 3 1 (.identifier "GET"), placed 3 5 .leftBracket, placed 3 6 .leftBrace,
      placed 3 7 .rightBrace, placed 3 8 .rightBracket]
  lineBreak := placed 3 9 .newline
  after :=
    [placed 4 1 (.identifier "GET"), placed 4 5 (.path "/"), placed 4 7 .arrow,
      placed 4 10 (.identifier "Home"), placed 4 14 .newline, placed 5 1 .rightBrace,
      placed 5 2 .newline, placed 6 1 .rightBrace, placed 6 2 .newline]
  last := placed 7 1 .endOfFile
  isLast := rfl
  content := by decide
  accepted := by decide
  boundary := by decide
  oneLine := by decide
  nested := by decide
  isBreak := rfl

/-- The line of an opening and a closing brace in a block. -/
def bareBraces : LineInsertion "" where
  before :=
    [placed 1 1 (.identifier "service"), placed 1 9 .leftBrace, placed 1 10 .newline]
  line := [placed 2 1 .leftBrace, placed 2 3 .rightBrace]
  lineBreak := placed 2 4 .newline
  after :=
    [placed 3 1 (.identifier "port"), placed 3 6 .equals, placed 3 8 (.number "80"),
      placed 3 10 .newline, placed 4 1 .rightBrace, placed 4 2 .newline]
  last := placed 5 1 .endOfFile
  isLast := rfl
  content := by decide
  accepted := by decide
  boundary := by decide
  oneLine := by decide
  nested := by decide
  isBreak := rfl

/-- The closing brace of the line closes the block around it, so the attribute behind the line is
taken for a block, and the closing brace of the block is stray. -/
theorem bareBraces_not_contained : ¬ bareBraces.Contained := by
  intro contained
  exact absurd contained.1 (by decide)

theorem containment_brokenAction :
    brokenAction.Contained ∧ (bareBraces.Contained → bareBraces.Counted) :=
  ⟨brokenAction.containment.1 (by decide), bareBraces.containment.2 (by decide)⟩

end LineInsertion

end ServiceDef
