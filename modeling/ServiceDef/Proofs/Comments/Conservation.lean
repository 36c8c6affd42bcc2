import ServiceDef.Proofs.Comments.Accounting
import ServiceDef.Proofs.Layout.NormalForm

/-!
# Comments are conserved

A source text without faults is parsed to a document that holds exactly its comments, each as
often as it was written. Canonical text is such a text too, and it is parsed to the same
structure, so formatting keeps all comments as well.
-/

namespace ServiceDef

/-! ## Positions -/

namespace Block

mutual

/-- The comments of a block have nothing to do with positions. -/
theorem commentBag_erasePositions :
    (block : Block) → block.erasePositions.commentBag = block.commentBag
  | ⟨kind, label, attributes, blocks, actions, comments, trailingComments, position⟩ => by
      rw [erasePositions, commentBag, commentBag, commentBagAll_erasePositions blocks,
        List.map_map, List.map_map]
      rfl

/-- The comments of blocks have nothing to do with positions. -/
theorem commentBagAll_erasePositions :
    (blocks : List Block) → commentBagAll (erasePositionsAll blocks) = commentBagAll blocks
  | [] => rfl
  | block :: blocks => by
      rw [erasePositionsAll, commentBagAll, commentBagAll, commentBag_erasePositions block,
        commentBagAll_erasePositions blocks]

end

end Block

theorem Document.commentBag_erasePositions (document : Document) :
    document.erasePositions.commentBag = document.commentBag := by
  simp [Document.commentBag, Document.erasePositions, Block.commentBagAll_erasePositions]

/-! ## Parsing -/

namespace Reader

/-- Between two statements outside of all blocks, nothing is remembered of a statement. -/
theorem commentBag_of_outer {mode : Mode} (complete : missing mode = none)
    (outer : mode.isInner = false) : mode.commentBag = 0 := by
  cases mode with
  | statement => rfl
  | statementEnd => rfl
  | skipping brackets => rfl
  | named name position => rfl
  | attributeEnd attr => cases outer
  | actionEnd action => cases outer
  | _ => cases complete

/-- A silent end of the file adds its comments to those that wait, and changes nothing else. -/
theorem finish_of_silent {reader : Reader} {token : Token}
    (valid : ∀ text, token.kind ≠ .invalid text)
    (silent : (reader.finish token).diagnostics = []) :
    (reader.finish token).blocks = reader.blocks ∧
      (reader.finish token).pending = reader.pending ++ token.comments := by
  obtain ⟨-, complete, group, top⟩ := (reader.diagnostics_finish_eq_nil_iff valid).1 silent
  obtain ⟨change, statement⟩ := reader.finishStatement_eq token
  have unreported : reader.reportMissing token = reader := by
    rw [reportMissing, complete]
  rw [unreported, top, List.modifyHead_nil] at statement
  simp [finish, statement, finishGroup, group, finishBlocks, absorb]

/-- At the silent end of a file, all comments are in complete blocks or behind the last one. -/
theorem commentBag_finish {reader : Reader} (rooted : reader.Rooted) {token : Token}
    (valid : ∀ text, token.kind ≠ .invalid text)
    (silent : (reader.finish token).diagnostics = []) :
    Block.commentBagAll (reader.finish token).blocks + ↑(reader.finish token).pending =
      reader.held + ↑token.comments := by
  obtain ⟨-, complete, -, top⟩ := (reader.diagnostics_finish_eq_nil_iff valid).1 silent
  obtain ⟨blocks, pending⟩ := finish_of_silent valid silent
  have outer : reader.mode.isInner = false := by
    by_contra inner
    exact rooted.mode (by simpa using inner) top
  rw [blocks, pending, held, kept, top, commentBag_of_outer complete outer]
  simp only [List.map_nil, List.sum_nil, ← Multiset.coe_add]
  abel

end Reader

open Reader

/-- A source text without faults is parsed to a document with exactly its comments. -/
theorem commentBag_parse {file source : String} (silent : (parse file source).diagnostics = []) :
    (((tokenize file source).1.flatMap (·.comments) : List String) : Multiset String) =
      (parse file source).document.commentBag := by
  obtain ⟨content, last, split, atEnd, others⟩ := tokenize_eq_append file source
  obtain ⟨valid, quiet⟩ := (parse_diagnostics_eq_nil_iff file source).1 silent
  have parsed := parseTokens_append file atEnd others
  rw [split, parsed] at quiet
  have document : (parse file source).document =
      (parseTokens file (content ++ [last])).document := by
    rw [← split]
    rfl
  have validContent : ∀ token ∈ content, ∀ text, token.kind ≠ .invalid text := by
    intro token member text invalid
    have isValid := valid token (by simp [split, member])
    rw [invalid] at isValid
    cases isValid
  have validLast : ∀ text, last.kind ≠ .invalid text := by simp [atEnd]
  have quietRun := ((({} : Reader).run content).diagnostics_finish_eq_nil_iff validLast).1 quiet
  have run := held_run Rooted.start validContent quietRun.1
  rw [document, parsed, Document.commentBag]
  rw [commentBag_finish (Rooted.start.run content) validLast quiet, run, split, List.flatMap_append,
    List.flatMap_singleton, ← Multiset.coe_add]
  simp [held, kept, Mode.commentBag]

/-- Formatting neither loses nor duplicates nor alters a comment. The comments of a source text
without faults are the comments of its document, each as often as it was written, and these are
the comments of the canonical text of the document, with any settings. -/
theorem comments_conserved (file other source : String) (settings : PrintSettings)
    (silent : (parse file source).diagnostics = []) :
    (((tokenize file source).1.flatMap (·.comments) : List String) : Multiset String) =
        (parse file source).document.commentBag ∧
      (parse file source).document.commentBag =
        (((tokenize other ((parse file source).document.print settings)).1.flatMap
          (·.comments) : List String) : Multiset String) := by
  obtain ⟨silentAgain, same⟩ := parse_print_parse file other source settings
  refine ⟨commentBag_parse silent, ?_⟩
  rw [commentBag_parse silentAgain, ← Document.commentBag_erasePositions, ← same,
    Document.commentBag_erasePositions]

/-- A source text with comments wherever they may stand, most of which are moved by formatting, and
one of which is written twice. -/
def commentedSource : String :=
  "# file\n\n# above\nservice \"a\" \x7b # open\n  # key\n  tags = [ # first\n    \"x\", # item\n" ++
    "    \"y\"\n    # last\n  ] # behind\n  actions \x7b # group\n    # route\n" ++
    "    GET /x -> h # end\n    # inner\n  \x7d # closed\n  # rest\n\x7d # after\n# file"

theorem comments_conserved_commentedSource :
    (parse "f" commentedSource).diagnostics = [] ∧
      (((tokenize "f" commentedSource).1.flatMap (·.comments) : List String) : Multiset String) =
        (parse "f" commentedSource).document.commentBag ∧
      (parse "f" commentedSource).document.commentBag =
        (((tokenize "g" ((parse "f" commentedSource).document.print { style := .multi })).1.flatMap
          (·.comments) : List String) : Multiset String) :=
  have silent : (parse "f" commentedSource).diagnostics = [] := by decide +kernel
  ⟨silent, comments_conserved "f" "g" commentedSource { style := .multi } silent⟩

end ServiceDef
