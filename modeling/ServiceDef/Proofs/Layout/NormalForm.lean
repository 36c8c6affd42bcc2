import ServiceDef.Format
import ServiceDef.Proofs.Layout.Positions
import ServiceDef.Proofs.Layout.RoundTrip
import ServiceDef.Proofs.Reader.Formed

/-!
# Canonical text is a normal form

Whatever a source text is, the document that is read from it is well formed. Its canonical text
is thus parsed back to the same structure, and printing that again gives nothing new, whichever
settings are used first.
-/

namespace ServiceDef

open Reader

/-- Every token of a source text is regular. -/
theorem tokenize_regular (file source : String) :
    ∀ token ∈ (tokenize file source).1, token.regular = true := by
  intro token member
  have unplaced := tokensOf_regular source.toList (Relabelling.unplaced.token token)
  rw [← map_tokenize file source] at unplaced
  exact unplaced (List.mem_map_of_mem member)

/-- The document of every source text is well formed, malformed as the text may be. -/
theorem wellFormed_parse (file source : String) :
    (parse file source).document.wellFormed = true := by
  obtain ⟨content, last, split, atEnd, others⟩ := tokenize_eq_append file source
  have regular := tokenize_regular file source
  rw [split] at regular
  have start : ({} : Reader).Formed := ⟨⟨rfl, rfl, rfl⟩, rfl, fun head same => by cases same⟩
  have read := start.run fun token member => regular token (List.mem_append_left _ member)
  have formed := read.finish (regular last (List.mem_append_right _ List.mem_cons_self))
  have document : (parse file source).document =
      (parseTokens file (content ++ [last])).document := by
    rw [← split]
    rfl
  rw [document, parseTokens_append file atEnd others]
  simp only [Document.wellFormed, formed.blocks, formed.pending, Bool.and_self]

/-- A document that was read is printed, and read again without a diagnostic and with the same
structure. -/
theorem parse_print_parse (file other source : String) (settings : PrintSettings) :
    (parse other ((parse file source).document.print settings)).diagnostics = [] ∧
      (parse other ((parse file source).document.print settings)).document.erasePositions =
        (parse file source).document.erasePositions :=
  parse_print_of_wellFormed other settings (wellFormed_parse file source)

/-- What was read again is printed as before, with all settings. -/
theorem print_parse_print (file other source : String) (first second : PrintSettings) :
    (parse other ((parse file source).document.print first)).document.print second =
      (parse file source).document.print second := by
  have same := (parse_print_parse file other source first).2
  rw [← Document.print_erasePositions, same, Document.print_erasePositions]

/-- A text without diagnostics is formatted. -/
theorem formatSource_of_silent (settings : PrintSettings) {path source : String}
    (silent : (parse path source).diagnostics = []) :
    formatSource settings path source =
      .ok
        { path := path
          source := source
          text := (parse path source).document.print settings } := by
  simp [formatSource, silent, Diagnostic.anyError]

/-- What was formatted is the canonical text of its document, with any settings. -/
theorem formatSource_ok {settings : PrintSettings} {path source : String} {formatted : Formatted}
    (success : formatSource settings path source = .ok formatted) (others : PrintSettings) :
    formatted.text = (parse path source).document.print settings ∧
      formatSource others path source =
        .ok
          { path := path
            source := source
            text := (parse path source).document.print others } := by
  unfold formatSource at success ⊢
  dsimp only at success ⊢
  split at success
  · cases success
  · next clean =>
      cases success
      exact ⟨rfl, by rw [if_neg clean]⟩

/-- Formatting is a stable normal form. The document of any source text, printed with any
settings, is parsed without a diagnostic to the same structure, and printing that gives the same
text as printing the document itself. Hence a formatted text is formatted to itself with the same
settings, and with other settings it is formatted like the text that it came from. -/
theorem format_normal_form (path source : String) (first second : PrintSettings) :
    ((parse path ((parse path source).document.print first)).diagnostics = [] ∧
      (parse path ((parse path source).document.print first)).document.sameStructure
        (parse path source).document = true ∧
      (parse path ((parse path source).document.print first)).document.print second =
        (parse path source).document.print second) ∧
    ∀ formatted, formatSource first path source = .ok formatted →
      (∃ again, formatSource first path formatted.text = .ok again ∧ again.changed = false) ∧
      ∃ later direct, formatSource second path formatted.text = .ok later ∧
        formatSource second path source = .ok direct ∧ later.text = direct.text := by
  obtain ⟨silent, same⟩ := parse_print_parse path path source first
  refine ⟨⟨silent, decide_eq_true same, print_parse_print path path source first second⟩, ?_⟩
  intro formatted success
  obtain ⟨text, direct⟩ := formatSource_ok success second
  rw [text]
  refine ⟨⟨_, formatSource_of_silent first silent, ?_⟩,
    ⟨_, _, formatSource_of_silent second silent, direct, ?_⟩⟩
  · simp [Formatted.changed, print_parse_print]
  · exact print_parse_print path path source first second

theorem format_normal_form_mixedDocument :
    ∃ formatted,
      formatSource { style := .multi, limit := 1 } "f" (mixedDocument.print {}) = .ok formatted ∧
      (∃ again, formatSource { style := .multi, limit := 1 } "f" formatted.text = .ok again ∧
        again.changed = false) ∧
      ∃ later direct, formatSource { style := .single } "f" formatted.text = .ok later ∧
        formatSource { style := .single } "f" (mixedDocument.print {}) = .ok direct ∧
        later.text = direct.text := by
  have wellFormed : mixedDocument.wellFormed = true := by decide
  have silent := (parse_print_of_wellFormed "f" {} wellFormed).1
  have success := formatSource_of_silent { style := .multi, limit := 1 } silent
  exact ⟨_, success, (format_normal_form "f" _ _ _).2 _ success⟩

end ServiceDef
