import ServiceDef.Proofs.WellFormed
import ServiceDef.Token.Lexeme

/-!
# How far lexemes reach

Words, numbers, paths and string literals are the longest runs of their characters. Each
well-formed text is such a run: reading it together with what stands behind it splits the two
apart again.
-/

namespace ServiceDef

/-- A run of characters of a class ends where the text behind it leaves the class. -/
theorem span_eq {p : Char → Bool} (body rest : List Char) (inside : ∀ c ∈ body, p c = true)
    (outside : ∀ c ∈ rest.head?, p c = false) :
    (body ++ rest).takeWhile p = body ∧ (body ++ rest).dropWhile p = rest := by
  rw [List.takeWhile_append_of_pos inside, List.dropWhile_append_of_pos inside]
  cases rest with
  | nil => simp
  | cons c rest => simp [outside c rfl]

/-! ## Numbers -/

namespace Word

theorem isDigits_iff (text : List Char) :
    isDigits text = true ↔ text ≠ [] ∧ ∀ c ∈ text, c.isDigit = true := by
  simp [isDigits]

/-- A number is made of digits, or of digits on both sides of a dot. -/
theorem isUnsigned_iff (text : List Char) :
    isUnsigned text = true ↔ ∃ whole, isDigits whole = true ∧
      (text = whole ∨ ∃ fraction, isDigits fraction = true ∧ text = whole ++ '.' :: fraction) := by
  have noDot {digits : List Char} (all : isDigits digits = true) :
      ∀ c ∈ digits, decide (c ≠ '.') = true := by
    intro c member
    have digit := ((isDigits_iff digits).1 all).2 c member
    simp only [decide_eq_true_eq]
    rintro rfl
    cases digit
  constructor
  · intro unsigned
    simp only [isUnsigned, Bool.and_eq_true] at unsigned
    refine ⟨text.takeWhile (· ≠ '.'), unsigned.1, ?_⟩
    have split := List.takeWhile_append_dropWhile (p := (· ≠ '.')) (l := text)
    cases tail : text.dropWhile (· ≠ '.') with
    | nil =>
        rw [tail, List.append_nil] at split
        exact .inl split.symm
    | cons c fraction =>
        have dot : c = '.' := by
          have first := List.head?_dropWhile_not (· ≠ '.') text
          rw [tail] at first
          simpa using first
        rw [tail] at unsigned split
        rw [dot] at split
        exact .inr ⟨fraction, unsigned.2, split.symm⟩
  · rintro ⟨whole, digits, rfl | ⟨fraction, more, rfl⟩⟩
    · have span := span_eq _ [] (noDot digits) (by simp)
      rw [List.append_nil] at span
      rw [isUnsigned, span.1, span.2, digits]
      rfl
    · have span := span_eq _ ('.' :: fraction) (noDot digits) (by simp)
      rw [isUnsigned, span.1, span.2, digits]
      exact more

/-- A number starts with a digit. -/
theorem digit_of_isUnsigned {text : List Char} (unsigned : isUnsigned text = true) :
    ∃ d rest, text = d :: rest ∧ d.isDigit = true := by
  obtain ⟨whole, digits, form⟩ := (isUnsigned_iff text).1 unsigned
  obtain ⟨notEmpty, inside⟩ := (isDigits_iff whole).1 digits
  obtain ⟨d, whole, rfl⟩ := List.exists_cons_of_ne_nil notEmpty
  rcases form with rfl | ⟨fraction, -, rfl⟩
  · exact ⟨d, whole, rfl, inside d List.mem_cons_self⟩
  · exact ⟨d, whole ++ '.' :: fraction, rfl, inside d List.mem_cons_self⟩

/-- A number without a sign is a number. -/
theorem isNumber_of_isUnsigned {text : List Char} (unsigned : isUnsigned text = true) :
    isNumber (String.ofList text) = true := by
  obtain ⟨d, rest, rfl, digit⟩ := digit_of_isUnsigned unsigned
  unfold isNumber
  rw [String.toList_ofList]
  split
  · next signed =>
      cases signed
      cases digit
  · exact unsigned

end Word

namespace Lexeme

/-- A number is read up to a text that goes on neither with a digit nor with a dot. -/
theorem spanNumber_append_of_isUnsigned {text rest : List Char}
    (unsigned : Word.isUnsigned text = true)
    (stops : ∀ c ∈ rest.head?, c.isDigit = false ∧ c ≠ '.') :
    spanNumber (text ++ rest) = (text, rest) := by
  obtain ⟨whole, digits, form⟩ := (Word.isUnsigned_iff text).1 unsigned
  have inside := ((Word.isDigits_iff whole).1 digits).2
  have outside : ∀ c ∈ rest.head?, c.isDigit = false := fun c first => (stops c first).1
  rcases form with rfl | ⟨fraction, more, rfl⟩
  · have span := span_eq _ _ inside outside
    unfold spanNumber
    rw [span.1, span.2]
    split
    · exact absurd rfl (stops '.' rfl).2
    · rfl
  · obtain ⟨notEmpty, moreInside⟩ := (Word.isDigits_iff fraction).1 more
    obtain ⟨d, fraction, rfl⟩ := List.exists_cons_of_ne_nil notEmpty
    have span := span_eq _ ('.' :: d :: (fraction ++ rest)) inside (by simp)
    have fractionSpan := span_eq _ _
      (fun c member => moreInside c (List.mem_cons_of_mem d member)) outside
    rw [List.append_assoc, show ('.' :: d :: fraction) ++ rest = '.' :: d :: (fraction ++ rest)
      from rfl]
    simp [spanNumber, span.1, span.2, moreInside d List.mem_cons_self, fractionSpan.1,
      fractionSpan.2]

/-! ## Paths -/

/-- A path is read up to white space or the end of the text. -/
theorem spanPath_append_of_stops {text rest : List Char} (depth : Nat)
    (stops : ∀ c ∈ rest.head?, Text.isWhiteSpace c = true)
    (noArrow : Word.hasArrow text = false) (noSpace : ∀ c ∈ text, Text.isWhiteSpace c = false)
    (openFirst : Word.bracesOpenFirst depth text = true) :
    spanPath depth (text ++ rest) = (text, rest) := by
  induction text generalizing depth with
  | nil =>
      rw [List.nil_append, spanPath.eq_def]
      cases rest with
      | nil => rfl
      | cons c rest => exact if_pos (by simp [stops c rfl])
  | cons c text inductionHypothesis =>
      simp only [Word.hasArrow, Bool.or_eq_false_iff] at noArrow
      have solid := noSpace c List.mem_cons_self
      have next := fun depth open_ => inductionHypothesis depth noArrow.2
        (fun d member => noSpace d (List.mem_cons_of_mem c member)) open_
      have noArrowHere : (c = '-' && (text ++ rest).head? = some '>') = false := by
        cases text with
        | nil =>
            have solidBehind : rest.head? ≠ some '>' := fun first =>
              absurd (stops '>' first) (by decide)
            simp [solidBehind]
        | cons d text => exact noArrow.1
      rw [List.cons_append, spanPath.eq_def]
      dsimp only
      rw [if_neg (by rw [solid, noArrowHere]; simp)]
      rw [Word.bracesOpenFirst.eq_def] at openFirst
      dsimp only at openFirst
      by_cases opens : c = '{'
      · rw [if_pos opens] at openFirst ⊢
        rw [next _ openFirst]
      · rw [if_neg opens] at openFirst ⊢
        by_cases closes : c = '}'
        · rw [if_pos closes] at openFirst ⊢
          cases depth with
          | zero => cases openFirst
          | succ depth =>
              dsimp only at openFirst ⊢
              rw [next _ openFirst]
        · rw [if_neg closes] at openFirst ⊢
          rw [next _ openFirst]

/-- What is read as the rest of a path can be written as one: it has no white space and no arrow,
and closes no brace that it has not opened. -/
theorem spanPath_bare (depth : Nat) (text : List Char) :
    Word.hasArrow (spanPath depth text).1 = false ∧
      (∀ c ∈ (spanPath depth text).1, Text.isWhiteSpace c = false) ∧
      Word.bracesOpenFirst depth (spanPath depth text).1 = true := by
  induction text generalizing depth with
  | nil => exact ⟨rfl, by simp [spanPath], rfl⟩
  | cons c text inductionHypothesis =>
      rw [spanPath.eq_def]
      dsimp only
      split
      · exact ⟨rfl, by simp, rfl⟩
      · next goesOn =>
          rw [Bool.or_eq_true, not_or, Bool.not_eq_true, Bool.not_eq_true] at goesOn
          -- The character behind a dash in the path is the one behind it in the text.
          have noArrow (inner : Nat) :
              Word.hasArrow (c :: (spanPath inner text).1) = false := by
            rw [Word.hasArrow, (inductionHypothesis inner).1, Bool.or_false,
              Bool.and_eq_false_imp]
            intro dash
            have behind := goesOn.2
            rw [dash, Bool.true_and, decide_eq_false_iff_not] at behind
            refine decide_eq_false fun first => behind ?_
            obtain ⟨others, start⟩ := List.head?_eq_some_iff.1 first
            rw [← spanPath_append inner text, start]
            rfl
          have noSpace (inner : Nat) :
              ∀ d ∈ c :: (spanPath inner text).1, Text.isWhiteSpace d = false :=
            List.forall_mem_cons.2 ⟨goesOn.1, (inductionHypothesis inner).2.1⟩
          split
          · next opens =>
              refine ⟨noArrow _, noSpace _, ?_⟩
              rw [Word.bracesOpenFirst.eq_def]
              dsimp only
              rw [if_pos opens]
              exact (inductionHypothesis _).2.2
          · next other =>
              split
              · next closes =>
                  cases depth with
                  | zero => exact ⟨rfl, by simp, rfl⟩
                  | succ depth =>
                      refine ⟨noArrow _, noSpace _, ?_⟩
                      rw [Word.bracesOpenFirst.eq_def]
                      dsimp only
                      rw [if_neg other, if_pos closes]
                      exact (inductionHypothesis _).2.2
              · next inside =>
                  refine ⟨noArrow _, noSpace _, ?_⟩
                  rw [Word.bracesOpenFirst.eq_def]
                  dsimp only
                  rw [if_neg other, if_neg inside]
                  exact (inductionHypothesis _).2.2

end Lexeme

/-! ## String literals -/

namespace Text

/-- An escaped character is read as the character. -/
theorem spanQuoted_escape (c : Char) (rest : List Char) :
    spanQuoted (escape c ++ rest) = (spanQuoted rest).push [c] (escape c) := by
  unfold escape
  by_cases quote : c = '"'
  · subst quote
    rfl
  by_cases backslash : c = '\\'
  · subst backslash
    rfl
  by_cases newline : c = '\n'
  · subst newline
    rfl
  by_cases tab : c = '\t'
  · subst tab
    rfl
  by_cases return_ : c = '\r'
  · subst return_
    rfl
  rw [if_neg quote, if_neg backslash, if_neg newline, if_neg tab, if_neg return_]
  rw [List.singleton_append, spanQuoted.eq_def]
  simp [quote, backslash, newline]

/-- A string literal is read up to its closing quote, and stands for what was quoted. -/
theorem spanQuoted_escaped (contents rest : List Char) :
    spanQuoted (contents.flatMap escape ++ '"' :: rest) =
      { contents := contents
        text := contents.flatMap escape ++ ['"']
        rest := rest
        closed := true } := by
  induction contents with
  | nil =>
      rw [List.flatMap_nil, List.nil_append, spanQuoted.eq_def]
      simp
  | cons c contents inductionHypothesis =>
      rw [List.flatMap_cons, List.append_assoc, spanQuoted_escape, inductionHypothesis]
      simp [QuotedSpan.push]

/-- A text whose last character is no white space has no white space at its end. -/
theorem trimEnd_of_getLast? {text : List Char} (solid : text.getLast?.any isWhiteSpace = false) :
    trimEnd text = text := by
  unfold trimEnd
  rw [List.getLast?_eq_head?_reverse] at solid
  have span := span_eq (p := isWhiteSpace) [] text.reverse (by simp)
    (fun c first => by rw [Option.mem_def.1 first] at solid; exact solid)
  rw [List.nil_append] at span
  rw [span.2, List.reverse_reverse]

end Text

end ServiceDef
