import ServiceDef.Proofs.Placement
import ServiceDef.Proofs.Reader.Openings

/-!
# How many diagnostics there are about one place

A source text is reported at most once at each of its tokens. Invalid tokens are reported by the
scanner only, and what is left open at the end of the file is reported where it was opened, which
no step has reported before. There is one exception: a closing brace outside of all blocks that
stands behind the kind or the label of a block is reported as the wrong token and then once more
as a brace without a block.
-/

namespace ServiceDef

open scoped List

/-- The diagnostics about a place. -/
def reportsAt (position : Position) (diagnostics : List Diagnostic) : List Diagnostic :=
  diagnostics.filter (·.position = position)

/-- Where the reader waits for the brace of a top-level block, the token is a closing brace. -/
def RefusedBrace (tokens : List Token) (token : Token) : Prop :=
  ∃ before after, tokens = before ++ token :: after ∧
    (({} : Reader).run before).refuses token = true

@[simp] theorem reportsAt_append (position : Position) (first second : List Diagnostic) :
    reportsAt position (first ++ second) = reportsAt position first ++ reportsAt position second :=
  List.filter_append ..

theorem reportsAt_eq_nil_iff {position : Position} {diagnostics : List Diagnostic} :
    reportsAt position diagnostics = [] ↔ ∀ d ∈ diagnostics, d.position ≠ position := by
  simp [reportsAt]

/-- Diagnostics that are all about one place. -/
theorem reportsAt_eq_self {position : Position} {diagnostics : List Diagnostic}
    (here : ∀ d ∈ diagnostics, d.position = position) :
    reportsAt position diagnostics = diagnostics := by
  simpa [reportsAt] using here

/-- Among diagnostics about different places, one is the only one about its place. -/
theorem reportsAt_of_nodup {diagnostics : List Diagnostic} {d : Diagnostic}
    (distinct : (diagnostics.map (·.position)).Nodup) (member : d ∈ diagnostics) :
    reportsAt d.position diagnostics = [d] := by
  have atMostOne : (reportsAt d.position diagnostics).length ≤ 1 := by
    have count := List.nodup_iff_count_le_one.1 distinct d.position
    rwa [List.count, List.countP_map, List.countP_eq_length_filter] at count
  have found : d ∈ reportsAt d.position diagnostics := by simpa [reportsAt] using member
  obtain ⟨other, one⟩ := List.length_eq_one_iff.1
    (Nat.le_antisymm atMostOne (List.length_pos_of_mem found))
  rw [one] at found ⊢
  rw [List.mem_singleton.1 found]

/-- Sorting does not change how often a place is reported. -/
theorem reportsAt_sort_perm (position : Position) (diagnostics : List Diagnostic) :
    reportsAt position (Diagnostic.sort diagnostics) ~ reportsAt position diagnostics :=
  (List.mergeSort_perm diagnostics _).filter _

/-- Tokens with different places, one of them between the others. -/
theorem ne_of_split {before after : List Token} {token : Token}
    (ascending : (before ++ token :: after).Pairwise (·.position.offset < ·.position.offset)) :
    (∀ other ∈ before, other.position ≠ token.position) ∧
      ∀ other ∈ after, other.position ≠ token.position := by
  rw [List.pairwise_append, List.pairwise_cons] at ascending
  obtain ⟨-, ⟨behind, -⟩, across⟩ := ascending
  refine ⟨fun other member same => ?_, fun other member same => ?_⟩
  · exact absurd (across other member token List.mem_cons_self) (by simp [same])
  · exact absurd (behind other member) (by simp [same])

/-- Two of the tokens with one place are the same. -/
theorem eq_of_position_eq {tokens : List Token} {first second : Token}
    (ascending : tokens.Pairwise (·.position.offset < ·.position.offset)) (inFirst : first ∈ tokens)
    (inSecond : second ∈ tokens) (same : first.position = second.position) : first = second := by
  obtain ⟨before, after, split⟩ := List.append_of_mem inSecond
  rw [split] at ascending inFirst
  obtain ⟨notBefore, notAfter⟩ := ne_of_split ascending
  rcases List.mem_append.1 inFirst with member | member
  · exact absurd same (notBefore first member)
  · rcases List.mem_cons.1 member with isSecond | member
    · exact isSecond
    · exact absurd same (notAfter first member)

namespace Reader

/-! ## What is open has not been reported -/

/-- All that is open starts at tokens that have been read, each at a place of its own which has not
been reported, and all that has been reported is about tokens that have been read. -/
structure Tidy (past : List Token) (reader : Reader) : Prop where
  named : ∀ opening ∈ reader.openings, StartsName past opening.1 opening.2
  told : ∀ d ∈ reader.diagnostics, StartsToken past d.position
  distinct : (reader.openings.map (·.2)).Nodup
  untold : ∀ opening ∈ reader.openings, ∀ d ∈ reader.diagnostics, d.position ≠ opening.2

namespace Tidy

variable {past : List Token} {reader : Reader}

/-- A fresh token is opened without a report, or it is reported and opens nothing. -/
theorem step (tidy : reader.Tidy past) {token : Token}
    (fresh : ∀ earlier ∈ past, earlier.position ≠ token.position) :
    (reader.step token).Tidy (past ++ [token]) := by
  have later {name : String} {position : Position} (named : StartsName past name position) :
      StartsName (past ++ [token]) name position := by
    obtain ⟨earlier, member, kind, same⟩ := named
    exact ⟨earlier, List.mem_append_left _ member, kind, same⟩
  have elsewhere {position : Position} (starts : StartsToken past position) :
      position ≠ token.position := by
    obtain ⟨earlier, member, rfl⟩ := starts
    exact fresh earlier member
  obtain ⟨found, stepEq, atToken⟩ := Reports.step reader token
  have here {d : Diagnostic} (member : d ∈ found) : d.position = token.position := by
    obtain ⟨message, rfl⟩ := atToken d member
    rfl
  have told : ∀ d ∈ (reader.step token).diagnostics,
      StartsToken (past ++ [token]) d.position := by
    intro d member
    rw [stepEq, List.mem_append] at member
    rcases member with before | inFound
    · obtain ⟨earlier, inPast, same⟩ := tidy.told d before
      exact ⟨earlier, List.mem_append_left _ inPast, same⟩
    · exact ⟨token, by simp, (here inFound).symm⟩
  have nodup {openings others : List (String × Position)} (fewer : openings <+~ others)
      (distinct : (others.map (·.2)).Nodup) : (openings.map (·.2)).Nodup := by
    obtain ⟨permuted, perm, sublist⟩ := fewer
    exact (perm.map _).nodup_iff.1 (distinct.sublist (sublist.map _))
  rcases reader.openings_step token with closed | ⟨name, kind, opened, silent⟩
  · refine ⟨fun opening member => later (tidy.named opening (closed.subset member)), told,
      nodup closed tidy.distinct, fun opening member d inside => ?_⟩
    have before := closed.subset member
    rw [stepEq, List.mem_append] at inside
    rcases inside with earlier | inFound
    · exact tidy.untold opening before d earlier
    · rw [here inFound]
      exact (elsewhere (tidy.named opening before).startsToken).symm
  · refine ⟨fun opening member => ?_, told, nodup opened ?_, fun opening member d inside => ?_⟩
    · rcases List.mem_cons.1 (opened.subset member) with rfl | before
      · exact ⟨token, by simp, kind, rfl⟩
      · exact later (tidy.named opening before)
    · rw [List.map_cons, List.nodup_cons]
      refine ⟨fun member => ?_, tidy.distinct⟩
      obtain ⟨opening, before, same⟩ := List.mem_map.1 member
      exact elsewhere (tidy.named opening before).startsToken same
    · rw [silent] at inside
      rcases List.mem_cons.1 (opened.subset member) with rfl | before
      · exact elsewhere (tidy.told d inside)
      · exact tidy.untold opening before d inside

/-- Reading tokens one behind the other keeps everything tidy. -/
theorem run (tidy : reader.Tidy past) {tokens : List Token}
    (ascending : (past ++ tokens).Pairwise (·.position.offset < ·.position.offset)) :
    (reader.run tokens).Tidy (past ++ tokens) := by
  induction tokens generalizing past reader with
  | nil => rwa [List.append_nil]
  | cons token tokens inductionHypothesis =>
      have stepped := tidy.step (ne_of_split ascending).1
      rw [List.append_cons] at ascending ⊢
      exact inductionHypothesis stepped ascending

end Tidy

/-! ## Runs -/

/-- A run reports each of its tokens as often as the step that reads it. -/
theorem length_reportsAt_run {before after : List Token} {token : Token}
    (ascending : (before ++ token :: after).Pairwise (·.position.offset < ·.position.offset)) :
    (reportsAt token.position (({} : Reader).run (before ++ token :: after)).diagnostics).length +
        (({} : Reader).run before).diagnostics.length =
      ((({} : Reader).run before).step token).diagnostics.length := by
  obtain ⟨notBefore, notAfter⟩ := ne_of_split ascending
  obtain ⟨early, earlyEq, earlyAt⟩ := diagnostics_run {} before
  obtain ⟨found, stepEq, atToken⟩ := Reports.step (({} : Reader).run before) token
  obtain ⟨late, lateEq, lateAt⟩ := diagnostics_run ((({} : Reader).run before).step token) after
  have noneEarly : reportsAt token.position (({} : Reader).run before).diagnostics = [] := by
    rw [earlyEq, reportsAt_eq_nil_iff]
    intro d member same
    obtain ⟨other, inBefore, atOther⟩ := earlyAt d (by simpa using member)
    exact notBefore other inBefore (atOther.symm.trans same)
  have noneLate : reportsAt token.position late = [] := by
    rw [reportsAt_eq_nil_iff]
    intro d member same
    obtain ⟨other, inAfter, atOther⟩ := lateAt d member
    exact notAfter other inAfter (atOther.symm.trans same)
  have allFound : reportsAt token.position found = found := by
    refine reportsAt_eq_self fun d member => ?_
    obtain ⟨message, rfl⟩ := atToken d member
    rfl
  rw [run_append, run_cons, lateEq, stepEq, reportsAt_append, reportsAt_append, noneEarly, noneLate,
    allFound]
  simp [Nat.add_comm]

/-- The reports about the group and the blocks that are open. -/
def unclosed (reader : Reader) : List Diagnostic :=
  (reader.group.map (Diagnostic.malformed ReadFault.unclosedGroup.message)).toList ++
    reader.openBlocks.map fun block =>
      Diagnostic.malformed (ReadFault.unclosedBlock block.kind block.label).message block.position

/-- What is open is reported where it starts. -/
theorem map_position_unclosed (reader : Reader) :
    reader.unclosed.map (·.position) = reader.enclosing.map (·.2) := by
  cases group : reader.group <;>
    simp [unclosed, enclosing, group, Diagnostic.malformed, Function.comp_def]

/-- The attribute or action that the file ends with leaves open what was open. -/
theorem unclosed_finishStatement (reader : Reader) (token : Token) :
    (reader.finishStatement token).unclosed = reader.unclosed := by
  obtain ⟨found, reported⟩ := reader.reportMissing_eq token
  rw [finishStatement_match, reported]
  split
  · cases opened : reader.openBlocks <;> simp [unclosed, addAttribute, enter, opened]
  · cases opened : reader.openBlocks <;> simp [unclosed, addAction, enter, opened]
  · rfl

/-- What is missing at the end of the file is reported there, at most once. -/
theorem diagnostics_finishStatement (reader : Reader) (token : Token) :
    ∃ missed, (reader.finishStatement token).diagnostics = reader.diagnostics ++ missed ∧
      missed.length ≤ 1 ∧ ∀ d ∈ missed, d.position = token.position := by
  obtain ⟨change, statementEq⟩ := reader.finishStatement_eq token
  rw [statementEq]
  show ∃ missed, (reader.reportMissing token).diagnostics = reader.diagnostics ++ missed ∧ _
  unfold reportMissing
  split
  · next expectation missing =>
      obtain ⟨missed, reported, here⟩ := Reports.expected reader token expectation
      refine ⟨missed, reported, ?_, fun d member => ?_⟩
      · have once := reader.length_expected token expectation
        rw [reported, List.length_append, Nat.add_right_inj] at once
        rw [once, Token.reportable]
        split <;> decide
      · obtain ⟨message, rfl⟩ := here d member
        rfl
  · exact ⟨[], by simp⟩

/-- What is open at the end of the file is reported where it starts. -/
theorem diagnostics_finishBlocks (reader : Reader) :
    reader.finishGroup.finishBlocks.diagnostics = reader.diagnostics ++ reader.unclosed := by
  cases group : reader.group <;> cases opened : reader.openBlocks <;>
    simp [finishGroup, finishBlocks, unclosed, report, group, opened]

namespace Tidy

variable {past : List Token} {reader : Reader}

/-- What is open starts at identifiers that have been read and not been reported. -/
theorem of_mem_unclosed (tidy : reader.Tidy past) {d : Diagnostic} (member : d ∈ reader.unclosed) :
    (∃ name, StartsName past name d.position) ∧
      reportsAt d.position reader.diagnostics = [] := by
  have opened : d.position ∈ reader.enclosing.map (·.2) := by
    rw [← reader.map_position_unclosed]
    exact List.mem_map_of_mem member
  obtain ⟨opening, inside, same⟩ := List.mem_map.1 opened
  have isOpen := reader.enclosing_sublist.subset inside
  rw [← same, reportsAt_eq_nil_iff]
  exact ⟨⟨opening.1, tidy.named opening isOpen⟩, tidy.untold opening isOpen⟩

/-- No two of the groups and blocks that are open start at one place. -/
theorem nodup_unclosed (tidy : reader.Tidy past) : (reader.unclosed.map (·.position)).Nodup := by
  rw [map_position_unclosed]
  exact tidy.distinct.sublist (reader.enclosing_sublist.map _)

end Tidy

end Reader

/-! ## Sources -/

/-- The scanner reports an invalid token once, and no other token. -/
theorem length_reportsAt_faults {file source : String} {token : Token}
    (member : token ∈ (tokenize file source).1) :
    (reportsAt token.position (tokenize file source).2).length =
      if token.kind.isInvalid then 1 else 0 := by
  have ascending := tokenize_ascending file source
  have faults : (tokenize file source).2.map (·.position) =
      ((tokenize file source).1.filter (·.kind.isInvalid)).map (·.position) :=
    @Scanner.positions_drain (Scanner.start file source) rfl
  have counted : (reportsAt token.position (tokenize file source).2).length =
      (((tokenize file source).1.filter (·.kind.isInvalid)).map (·.position)).count
        token.position := by
    rw [← faults, List.count, List.countP_map, List.countP_eq_length_filter]
    rfl
  rw [counted]
  split
  · next invalid =>
      have nodup : (((tokenize file source).1.filter (·.kind.isInvalid)).map
          (·.position)).Nodup := by
        refine List.pairwise_map.2 ((ascending.filter _).imp fun less same => ?_)
        rw [same] at less
        exact Nat.lt_irrefl _ less
      exact List.count_eq_one_of_mem nodup
        (List.mem_map_of_mem (List.mem_filter.2 ⟨member, invalid⟩))
  · next valid =>
      refine List.count_eq_zero.2 fun inside => ?_
      obtain ⟨other, isInvalid, same⟩ := List.mem_map.1 inside
      obtain ⟨inTokens, invalid⟩ := List.mem_filter.1 isInvalid
      rw [eq_of_position_eq ascending inTokens member same] at invalid
      exact valid invalid

section Source

variable {file source : String} {content : List Token} {last : Token}
  (stream : (tokenize file source).1 = content ++ [last])

include stream

/-- At the end of the file, a reader of a source is tidy. -/
theorem tidy_run : (({} : Reader).run content).Tidy content := by
  have ascending := tokenize_ascending file source
  rw [stream, List.pairwise_append] at ascending
  have start : ({} : Reader).Tidy [] :=
    ⟨by simp [Reader.openings, Reader.enclosing, Mode.start?], by simp,
      by simp [Reader.openings, Reader.enclosing, Mode.start?], by simp⟩
  simpa using start.run (by simpa using ascending.1)

/-- What is open at the end of the file starts at identifiers. -/
theorem reportsAt_unclosed_eq_nil {token : Token} (member : token ∈ (tokenize file source).1)
    (other : ∀ name, token.kind ≠ .identifier name) :
    reportsAt token.position (({} : Reader).run content).unclosed = [] := by
  rw [reportsAt_eq_nil_iff]
  intro d opened same
  obtain ⟨⟨name, identifier, inside, kind, here⟩, -⟩ := (tidy_run stream).of_mem_unclosed opened
  have known : identifier ∈ (tokenize file source).1 := by
    rw [stream]
    exact List.mem_append_left _ inside
  have isToken := eq_of_position_eq (tokenize_ascending file source) known member
    (here.trans same)
  exact other name (isToken ▸ kind)

/-- A token that is read without a report is reported only if something is left open there. -/
theorem length_reportsAt_run_unclosed_le {token : Token}
    (read : (reportsAt token.position (({} : Reader).run content).diagnostics).length ≤ 1) :
    (reportsAt token.position (({} : Reader).run content).diagnostics).length +
      (reportsAt token.position (({} : Reader).run content).unclosed).length ≤ 1 := by
  have tidy := tidy_run stream
  cases opened : reportsAt token.position (({} : Reader).run content).unclosed with
  | nil => simpa using read
  | cons d ds =>
      have found : d ∈ reportsAt token.position (({} : Reader).run content).unclosed := by
        simp [opened]
      obtain ⟨member, here⟩ := List.mem_filter.1 found
      rw [decide_eq_true_eq] at here
      have unreported := (tidy.of_mem_unclosed member).2
      have once := reportsAt_of_nodup tidy.nodup_unclosed member
      rw [here] at unreported once
      rw [← opened, unreported, once]
      exact Nat.le_refl 1

/-- A token of the content, between the tokens before and behind it. -/
theorem content_split {before after : List Token} {token : Token}
    (split : (tokenize file source).1 = before ++ token :: after) (inner : token ≠ last) :
    ∃ rest, content = before ++ token :: rest := by
  rw [stream] at split
  rcases List.eq_nil_or_concat after with rfl | ⟨rest, other, rfl⟩
  · obtain ⟨-, same⟩ := List.append_inj' split rfl
    exact absurd (List.singleton_inj.1 same).symm inner
  · rw [List.concat_eq_append, ← List.cons_append, ← List.append_assoc] at split
    exact ⟨rest, (List.append_inj' split rfl).1⟩

variable (atEnd : last.kind = .endOfFile) (others : ∀ token ∈ content, token.kind ≠ .endOfFile)

include atEnd others

/-- What the parser reports: the run of a reader over the content, what is missing at the end of the
file, and what is open there. -/
theorem parseTokens_diagnostics :
    ∃ missed : List Diagnostic, missed.length ≤ 1 ∧ (∀ d ∈ missed, d.position = last.position) ∧
      (parseTokens file (tokenize file source).1).diagnostics =
        (({} : Reader).run content).diagnostics ++ missed ++
          (({} : Reader).run content).unclosed := by
  obtain ⟨missed, statementEq, atMostOnce, here⟩ :=
    (({} : Reader).run content).diagnostics_finishStatement last
  refine ⟨missed, atMostOnce, here, ?_⟩
  rw [stream, parseTokens_append file atEnd others]
  show ((({} : Reader).run content).finishStatement last).finishGroup.finishBlocks.diagnostics = _
  rw [Reader.diagnostics_finishBlocks, statementEq, Reader.unclosed_finishStatement]

/-- At a token of the content, the parser reports what the run of the reader does and what is left
open there. -/
theorem reportsAt_parseTokens_content {token : Token} (member : token ∈ content) :
    reportsAt token.position (parseTokens file (tokenize file source).1).diagnostics =
      reportsAt token.position (({} : Reader).run content).diagnostics ++
        reportsAt token.position (({} : Reader).run content).unclosed := by
  obtain ⟨missed, -, here, diagnostics⟩ := parseTokens_diagnostics stream atEnd others
  have ascending := tokenize_ascending file source
  rw [stream] at ascending
  have elsewhere : reportsAt token.position missed = [] := by
    rw [reportsAt_eq_nil_iff]
    intro d inside same
    exact (ne_of_split ascending).1 token member (same.symm.trans (here d inside))
  rw [diagnostics, reportsAt_append, reportsAt_append, elsewhere, List.append_nil]

/-- At the end of the file, the parser reports at most once. -/
theorem length_reportsAt_last :
    (reportsAt last.position (parseTokens file (tokenize file source).1).diagnostics).length ≤
      1 := by
  obtain ⟨missed, atMostOnce, here, diagnostics⟩ := parseTokens_diagnostics stream atEnd others
  have ascending := tokenize_ascending file source
  rw [stream] at ascending
  have earlier : reportsAt last.position (({} : Reader).run content).diagnostics = [] := by
    rw [reportsAt_eq_nil_iff]
    intro d inside same
    obtain ⟨token, member, atToken⟩ := (tidy_run stream).told d inside
    exact (ne_of_split ascending).1 token member (atToken.trans same)
  have known : last ∈ (tokenize file source).1 := by simp [stream]
  have opened := reportsAt_unclosed_eq_nil stream known (by simp [atEnd])
  rw [diagnostics, reportsAt_append, reportsAt_append, earlier, opened, reportsAt_eq_self here]
  simpa using atMostOnce

/-- A refused brace is reported twice by the parser. -/
theorem length_reportsAt_of_refused {token : Token}
    (refused : RefusedBrace (tokenize file source).1 token) :
    (reportsAt token.position (parseTokens file (tokenize file source).1).diagnostics).length =
      2 := by
  obtain ⟨before, after, split, refuses⟩ := refused
  have brace : token.kind = .rightBrace := by
    simp only [Reader.refuses, Bool.and_eq_true, decide_eq_true_eq] at refuses
    exact refuses.1.1
  have inner : token ≠ last := by
    rintro rfl
    rw [atEnd] at brace
    cases brace
  obtain ⟨rest, rfl⟩ := content_split stream split inner
  have ascending := tokenize_ascending file source
  rw [stream, List.pairwise_append] at ascending
  have read := Reader.length_reportsAt_run ascending.1
  rw [Reader.length_step_of_refuses _ _ (Reader.Rooted.start.run before) refuses] at read
  rw [reportsAt_parseTokens_content stream atEnd others (by simp),
    reportsAt_unclosed_eq_nil stream (by simp [stream]) (by simp [brace]), List.append_nil]
  omega

/-- Every other token is reported at most once by the parser, and an invalid one never. -/
theorem length_reportsAt_parseTokens_le {token : Token}
    (member : token ∈ (tokenize file source).1)
    (accepted : ¬ RefusedBrace (tokenize file source).1 token) :
    (reportsAt token.position (parseTokens file (tokenize file source).1).diagnostics).length ≤
      token.reportable := by
  have known := member
  rw [stream, List.mem_append, List.mem_singleton] at member
  rcases member with inContent | rfl
  · obtain ⟨before, after, rfl⟩ := List.append_of_mem inContent
    have ascending := tokenize_ascending file source
    rw [stream, List.pairwise_append] at ascending
    have read := Reader.length_reportsAt_run ascending.1
    have accepts : (({} : Reader).run before).refuses token = false := by
      by_contra refuses
      exact accepted ⟨before, after ++ [last], by simp [stream], by simpa using refuses⟩
    have step := Reader.length_step_le _ _ (Reader.Rooted.start.run before) accepts
    have bounded : (reportsAt token.position
        (({} : Reader).run (before ++ token :: after)).diagnostics).length ≤ token.reportable := by
      omega
    rw [reportsAt_parseTokens_content stream atEnd others inContent, List.length_append]
    cases invalid : token.kind.isInvalid with
    | true =>
        have noName : ∀ name, token.kind ≠ .identifier name := by
          rintro name kind
          rw [kind] at invalid
          cases invalid
        rw [reportsAt_unclosed_eq_nil stream known noName]
        exact bounded
    | false =>
        have once : token.reportable = 1 := by simp [Token.reportable, invalid]
        rw [once] at bounded ⊢
        exact length_reportsAt_run_unclosed_le stream bounded
  · have once : token.reportable = 1 := by simp [Token.reportable, atEnd, TokenKind.isInvalid]
    rw [once]
    exact length_reportsAt_last stream atEnd others

end Source

/-- All that parsing reports about a place is reported by the parser or by the scanner. -/
theorem reportsAt_parse_perm (file source : String) (position : Position) :
    reportsAt position (parse file source).diagnostics ~
      reportsAt position (parseTokens file (tokenize file source).1).diagnostics ++
        reportsAt position (tokenize file source).2 := by
  rw [← reportsAt_append]
  exact reportsAt_sort_perm position _

/-- A refused brace is reported twice. -/
theorem length_reportsAt_parse_of_refused {file source : String} {token : Token}
    (refused : RefusedBrace (tokenize file source).1 token) :
    (reportsAt token.position (parse file source).diagnostics).length = 2 := by
  obtain ⟨content, last, stream, atEnd, others⟩ := tokenize_eq_append file source
  have twice := length_reportsAt_of_refused stream atEnd others refused
  obtain ⟨before, after, split, refuses⟩ := refused
  have valid : token.kind.isInvalid = false := by
    simp only [Reader.refuses, Bool.and_eq_true, decide_eq_true_eq] at refuses
    rw [refuses.1.1]
    rfl
  have scanned := @length_reportsAt_faults file source token (by simp [split])
  rw [(reportsAt_parse_perm file source token.position).length_eq, List.length_append, twice,
    scanned, valid]
  rfl

/-- The parser does not report an invalid token, and the scanner reports it once. -/
theorem reportsAt_of_invalid {file source : String} {token : Token}
    (member : token ∈ (tokenize file source).1) (invalid : token.kind.isInvalid = true) :
    reportsAt token.position (parseTokens file (tokenize file source).1).diagnostics = [] ∧
      (reportsAt token.position (parse file source).diagnostics).length = 1 := by
  obtain ⟨content, last, stream, atEnd, others⟩ := tokenize_eq_append file source
  have accepted : ¬ RefusedBrace (tokenize file source).1 token := by
    rintro ⟨before, after, -, refuses⟩
    simp only [Reader.refuses, Bool.and_eq_true, decide_eq_true_eq] at refuses
    rw [refuses.1.1] at invalid
    cases invalid
  have parsed := length_reportsAt_parseTokens_le stream atEnd others member accepted
  rw [Token.reportable, invalid, if_pos rfl, Nat.le_zero, List.length_eq_zero_iff] at parsed
  refine ⟨parsed, ?_⟩
  rw [(reportsAt_parse_perm file source token.position).length_eq, parsed, List.nil_append,
    length_reportsAt_faults member, invalid, if_pos rfl]

/-- Every token that is no refused brace is reported at most once. -/
theorem length_reportsAt_parse_le {file source : String} {token : Token}
    (member : token ∈ (tokenize file source).1)
    (accepted : ¬ RefusedBrace (tokenize file source).1 token) :
    (reportsAt token.position (parse file source).diagnostics).length ≤ 1 := by
  cases invalid : token.kind.isInvalid with
  | true => exact Nat.le_of_eq (reportsAt_of_invalid member invalid).2
  | false =>
      obtain ⟨content, last, stream, atEnd, others⟩ := tokenize_eq_append file source
      have parsed := length_reportsAt_parseTokens_le stream atEnd others member accepted
      rw [Token.reportable, invalid, if_neg Bool.false_ne_true] at parsed
      rw [(reportsAt_parse_perm file source token.position).length_eq, List.length_append,
        length_reportsAt_faults member, invalid, if_neg Bool.false_ne_true, Nat.add_zero]
      exact parsed

/-- The places of all diagnostics differ exactly if there is no refused brace. -/
theorem nodup_positions_iff (file source : String) :
    ((parse file source).diagnostics.map (·.position)).Nodup ↔
      ∀ token ∈ (tokenize file source).1, ¬ RefusedBrace (tokenize file source).1 token := by
  have counted (position : Position) :
      ((parse file source).diagnostics.map (·.position)).count position =
        (reportsAt position (parse file source).diagnostics).length := by
    rw [List.count, List.countP_map, List.countP_eq_length_filter]
    rfl
  rw [List.nodup_iff_count_le_one]
  constructor
  · intro distinct token member refused
    have once := distinct token.position
    rw [counted, length_reportsAt_parse_of_refused refused] at once
    exact absurd once (by decide)
  · intro accepted position
    rw [counted]
    by_cases nowhere : reportsAt position (parse file source).diagnostics = []
    · simp [nowhere]
    · -- Whatever is reported is reported at a token.
      obtain ⟨d, found⟩ := List.exists_mem_of_ne_nil _ nowhere
      obtain ⟨inside, here⟩ := List.mem_filter.1 found
      rw [decide_eq_true_eq] at here
      obtain ⟨message, place, rfl, token, member, same⟩ :=
        (parse_placed file source).2.2 d inside
      rw [← here]
      exact same ▸ length_reportsAt_parse_le member (accepted token member)

/-- What is left open at the end of the file starts at an identifier. -/
theorem startsName_of_mem_enclosing {file source : String} {opening : String × Position}
    (member :
      opening ∈ (({} : Reader).run (contentTokens (tokenize file source).1)).enclosing) :
    StartsName (tokenize file source).1 opening.1 opening.2 := by
  obtain ⟨content, last, stream, atEnd, others⟩ := tokenize_eq_append file source
  rw [stream, contentTokens_append atEnd others] at member
  obtain ⟨token, inside, kind, here⟩ :=
    (tidy_run stream).named opening ((Reader.enclosing_sublist _).subset member)
  exact ⟨token, by simp [stream, inside], kind, here⟩

/-- What is left open at the end of the file is reported once, where it starts. -/
theorem reportsAt_unclosed {file source : String} {d : Diagnostic}
    (opened : d ∈ (({} : Reader).run (contentTokens (tokenize file source).1)).unclosed) :
    reportsAt d.position (parse file source).diagnostics = [d] := by
  obtain ⟨content, last, stream, atEnd, others⟩ := tokenize_eq_append file source
  rw [stream, contentTokens_append atEnd others] at opened
  have tidy := tidy_run stream
  obtain ⟨⟨name, token, member, kind, here⟩, unreported⟩ := tidy.of_mem_unclosed opened
  have scanned : reportsAt token.position (tokenize file source).2 = [] := by
    have faults := @length_reportsAt_faults file source token (by simp [stream, member])
    simpa [kind, TokenKind.isInvalid] using faults
  have perm := reportsAt_parse_perm file source d.position
  rw [← here, reportsAt_parseTokens_content stream atEnd others member, scanned, here, unreported,
    reportsAt_of_nodup tidy.nodup_unclosed opened] at perm
  exact List.perm_singleton.1 perm

/-- There is one diagnostic for one problem, with one exception. No two diagnostics are about one
place, unless a closing brace outside of all blocks stands behind the kind or label of a block, and
such a brace is reported exactly twice. Every invalid token is reported exactly once, and not by
the parser. Every group and every block that is still open at the end of the file is reported
exactly once, at the identifier that it starts with. -/
theorem reported_once (file source : String) :
    ((∀ token ∈ (tokenize file source).1,
        (RefusedBrace (tokenize file source).1 token →
          (reportsAt token.position (parse file source).diagnostics).length = 2) ∧
        (¬ RefusedBrace (tokenize file source).1 token →
          (reportsAt token.position (parse file source).diagnostics).length ≤ 1)) ∧
      (((parse file source).diagnostics.map (·.position)).Nodup ↔
        ∀ token ∈ (tokenize file source).1, ¬ RefusedBrace (tokenize file source).1 token)) ∧
    (∀ token ∈ (tokenize file source).1, token.kind.isInvalid = true →
      reportsAt token.position (parseTokens file (tokenize file source).1).diagnostics = [] ∧
        (reportsAt token.position (parse file source).diagnostics).length = 1) ∧
    (∀ block ∈ (({} : Reader).run (contentTokens (tokenize file source).1)).openBlocks,
      StartsName (tokenize file source).1 block.kind block.position ∧
        reportsAt block.position (parse file source).diagnostics =
          [.malformed (ReadFault.unclosedBlock block.kind block.label).message block.position]) ∧
    ∀ position,
      (({} : Reader).run (contentTokens (tokenize file source).1)).group = some position →
      StartsName (tokenize file source).1 Word.actions position ∧
        reportsAt position (parse file source).diagnostics =
          [.malformed ReadFault.unclosedGroup.message position] := by
  refine ⟨⟨fun token member => ⟨length_reportsAt_parse_of_refused,
    length_reportsAt_parse_le member⟩, nodup_positions_iff file source⟩,
    fun token member invalid => reportsAt_of_invalid member invalid, fun block opened => ?_,
    fun position grouped => ?_⟩
  · exact ⟨startsName_of_mem_enclosing
        (List.mem_append_right _ (List.mem_map.2 ⟨block, opened, rfl⟩)),
      reportsAt_unclosed (List.mem_append_right _ (List.mem_map_of_mem opened))⟩
  · have inEnclosing : (Word.actions, position) ∈
        (({} : Reader).run (contentTokens (tokenize file source).1)).enclosing := by
      simp [Reader.enclosing, grouped]
    have inUnclosed : Diagnostic.malformed ReadFault.unclosedGroup.message position ∈
        (({} : Reader).run (contentTokens (tokenize file source).1)).unclosed := by
      simp [Reader.unclosed, grouped]
    exact ⟨startsName_of_mem_enclosing inEnclosing, reportsAt_unclosed inUnclosed⟩

/-- The closing brace behind a name outside of all blocks is reported twice. -/
theorem refusedBrace_reported_twice :
    ¬ ((parse "t.sdl" "a \x7d").diagnostics.map (·.position)).Nodup := by
  intro distinct
  have stream : (tokenize "t.sdl" "a \x7d").1 =
      [{ kind := .identifier "a", position := ⟨"t.sdl", 1, 1, 0⟩ }] ++
        { kind := .rightBrace, position := ⟨"t.sdl", 1, 3, 2⟩ } ::
          [{ kind := .endOfFile, position := ⟨"t.sdl", 1, 4, 3⟩ }] := by
    decide +kernel
  exact (nodup_positions_iff "t.sdl" "a \x7d").1 distinct _ (by rw [stream]; simp)
    ⟨_, _, stream, by decide⟩

end ServiceDef
