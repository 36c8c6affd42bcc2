import ServiceDef.Layout.Line
import ServiceDef.Proofs.Scanning.Spelling

/-!
# The characters of lines and flows

A list of lines is written with a line break behind each of them. The text of a flow does not
end with a line break, so that more text can follow it on its last line.
-/

namespace ServiceDef

namespace Line

@[simp] theorem join_nil : join [] = "" := rfl

/-- The characters of lines, the first one before the others. -/
@[simp] theorem toList_join_cons (line : Line) (lines : List Line) :
    (join (line :: lines)).toList =
      List.replicate (indentWidth line.depth) ' ' ++
        (line.content.toList ++ '\n' :: (join lines).toList) := by
  simp [join, text]

/-- The characters of lines in two parts. -/
@[simp] theorem toList_join_append (first second : List Line) :
    (join (first ++ second)).toList = (join first).toList ++ (join second).toList := by
  simp [join]

end Line

namespace Flow

theorem text_lead (flow : Flow) (head : String) : (flow.lead head).text = head ++ flow.text := by
  simp [text, lead, String.append_assoc]

theorem join_appendLast (tail : String) (line : Line) (lines : List Line) :
    String.join ((appendLast tail (line :: lines)).map fun line => "\n" ++ line.text) =
      String.join ((line :: lines).map fun line => "\n" ++ line.text) ++ tail := by
  induction lines generalizing line with
  | nil => simp [appendLast, Line.text, Line.append, String.append_assoc]
  | cons next lines inductionHypothesis =>
      have others := inductionHypothesis next
      simp only [appendLast, List.map_cons, String.join_cons] at others ⊢
      rw [others]
      simp only [String.append_assoc]

theorem text_trail (flow : Flow) (tail : String) : (flow.trail tail).text = flow.text ++ tail := by
  obtain ⟨first, rest⟩ := flow
  cases rest with
  | nil => simp [trail, text]
  | cons line lines =>
      simp only [trail, text, join_appendLast]
      rw [String.append_assoc]

/-- A flow that starts a line. -/
theorem toList_join_lines (flow : Flow) (depth : Nat) :
    (Line.join (flow.lines depth)).toList =
      List.replicate (indentWidth depth) ' ' ++ (flow.text.toList ++ ['\n']) := by
  obtain ⟨first, rest⟩ := flow
  induction rest generalizing first depth with
  | nil => simp [lines, text]
  | cons line rest inductionHypothesis =>
      have others := inductionHypothesis line.depth line.content
      simp only [lines] at others ⊢
      rw [Line.toList_join_cons, others]
      simp [text, Line.text]

/-- A flow of several lines. -/
theorem toList_text_append (first : String) (lines : List Line) (last : Line) :
    (Flow.mk first (lines ++ [last])).text.toList =
      first.toList ++ '\n' :: ((Line.join lines).toList ++
        (List.replicate (indentWidth last.depth) ' ' ++ last.content.toList)) := by
  have whole := toList_join_lines (Flow.mk first (lines ++ [last])) 0
  -- Both sides with a line break at the end are the lines of the flow.
  simp only [Flow.lines, Line.toList_join_cons, Line.toList_join_append, Line.join_nil] at whole
  refine @List.append_cancel_right _ _ ['\n'] _ ?_
  simpa [indentWidth] using whole.symm

end Flow

/-- Indentation means nothing, so the lines of a flow are spelled like its text. -/
theorem spells_lines (flow : Flow) (depth : Nat) {tokens : List Token}
    (spelling : Spells Anywhere (flow.text.toList ++ ['\n']) tokens) :
    Spells Anywhere (Line.join (flow.lines depth)).toList tokens := by
  rw [Flow.toList_join_lines]
  exact (spells_spaces _).followedBy spelling

end ServiceDef
