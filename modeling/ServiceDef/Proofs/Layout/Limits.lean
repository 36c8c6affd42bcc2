import ServiceDef.Proofs.Layout.Outline

/-!
# Limits of line width

A limit of zero stands for no limit: every limit that no line exceeds without one gives the same
text. And a greater limit never gives more lines. Both hold because the width that is compared
with a limit is never more than the width of the line that is printed, and because the choice
about one part never depends on the choice about another.
-/

namespace ServiceDef

/-- The width of a line in characters. -/
def Line.width (line : Line) : Nat :=
  indentWidth line.depth + line.content.length

theorem Line.length_text (line : Line) : line.text.length = line.width := by
  simp [text, width]

/-! ## Layouts without a limit -/

namespace Flow

/-- No line of a flow that starts behind `column` characters is wider than the limit. -/
structure Within (limit column : Nat) (flow : Flow) : Prop where
  first : column + flow.first.length ≤ limit
  rest : ∀ line ∈ flow.rest, line.width ≤ limit

namespace Within

variable {limit column depth : Nat} {flow : Flow}

theorem ofLines (narrow : ∀ line ∈ flow.lines depth, line.width ≤ limit) :
    flow.Within limit (indentWidth depth) :=
  have ⟨first, rest⟩ := List.forall_mem_cons.1 narrow
  ⟨first, rest⟩

/-- A flow is narrower than with something in front of it. -/
theorem ofLead {head : String} (within : (flow.lead head).Within limit column) :
    flow.Within limit (column + head.length) where
  first := by simpa [lead, Nat.add_assoc] using within.first
  rest := within.rest

/-- A flow is no wider than with something at its end. -/
theorem ofTrail {tail : String} (within : (flow.trail tail).Within limit column) :
    flow.Within limit column := by
  -- The tail stands on the only line of the flow or on its last one.
  obtain ⟨first, rest⟩ := flow
  rcases List.eq_nil_or_concat rest with rfl | ⟨inner, last, rfl⟩
  · have front := within.first
    simp only [trail, String.length_append] at front
    exact ⟨by simp only; omega, by simp⟩
  · rw [List.concat_eq_append] at within ⊢
    rw [trail_append] at within
    obtain ⟨inside, closing⟩ := List.forall_mem_append.1 within.rest
    have last := closing _ List.mem_cons_self
    simp only [Line.width, Line.append, String.length_append] at last
    refine ⟨within.first, List.forall_mem_append.2 ⟨inside, List.forall_mem_singleton.2 ?_⟩⟩
    simp only [Line.width]
    omega

end Within

/-- The text on one line if it fits, and the given flow if not. -/
def inlineOr (limit column : Nat) (inline : Option String) (broken : Flow) : Flow :=
  match Value.fitting? limit column inline with
  | some text => { first := text }
  | none => broken

/-- A choice is made without a limit as with one that no line exceeds. -/
theorem inlineOr_eq_of_within {limit column : Nat} {inline : Option String}
    {broken unlimited : Flow} (within : (inlineOr 0 column inline unlimited).Within limit column)
    (same : unlimited.Within limit column → broken = unlimited) :
    inlineOr limit column inline broken = inlineOr 0 column inline unlimited := by
  cases inline with
  | none => exact same within
  | some text =>
      have narrow : column + text.length ≤ limit := within.first
      simp [inlineOr, Value.fitting?, Option.filter_some, fits, narrow]

end Flow

namespace Value

theorem layout_list_cons (limit depth column : Nat) (item : Value) (items : List Value) :
    layout limit depth column (.list (item :: items)) =
      Flow.inlineOr limit column (inlineItems? (item :: items))
        { first := "["
          rest := layoutItems limit (depth + 1) (item :: items) ++
            [{ depth := depth, content := "]" }] } := by
  rw [layout]
  rfl

theorem layout_map_cons (limit depth column : Nat) (entry : Entry Value)
    (entries : List (Entry Value)) :
    layout limit depth column (.map (entry :: entries)) =
      Flow.inlineOr limit column (inlineEntries? (entry :: entries))
        { first := "\x7b"
          rest := layoutEntries limit (depth + 1) (entry :: entries) ++
            [{ depth := depth, content := "\x7d" }] } := by
  rw [layout]
  rfl

/-- The value is laid out without a limit as with one that no line exceeds. -/
def Unlimited (limit : Nat) (value : Value) : Prop :=
  ∀ depth column, (layout 0 depth column value).Within limit column →
    layout limit depth column value = layout 0 depth column value

theorem layoutItems_eq_of_narrow {limit depth : Nat} {items : List Value}
    (unlimited : ∀ item ∈ items, item.Unlimited limit)
    (narrow : ∀ line ∈ layoutItems 0 depth items, line.width ≤ limit) :
    layoutItems limit depth items = layoutItems 0 depth items := by
  induction items with
  | nil => rfl
  | cons item items inductionHypothesis =>
      obtain ⟨own, others⟩ := List.forall_mem_append.1 narrow
      rw [layoutItems, layoutItems,
        unlimited item List.mem_cons_self depth _ (Flow.Within.ofLines own).ofTrail,
        inductionHypothesis (fun other member => unlimited other (List.mem_cons_of_mem item member))
          others]

theorem layoutEntries_eq_of_narrow {limit depth : Nat} {entries : List (Entry Value)}
    (unlimited : ∀ entry ∈ entries, entry.value.Unlimited limit)
    (narrow : ∀ line ∈ layoutEntries 0 depth entries, line.width ≤ limit) :
    layoutEntries limit depth entries = layoutEntries 0 depth entries := by
  induction entries with
  | nil => rfl
  | cons entry entries inductionHypothesis =>
      obtain ⟨own, others⟩ := List.forall_mem_append.1 narrow
      rw [layoutEntries, layoutEntries,
        unlimited entry List.mem_cons_self depth _ (Flow.Within.ofLines own).ofLead,
        inductionHypothesis
          (fun other member => unlimited other (List.mem_cons_of_mem entry member)) others]

/-- Every value is laid out without a limit as with one that no line exceeds. -/
theorem unlimited (limit : Nat) (value : Value) : value.Unlimited limit := by
  induction value using Value.induction with
  | scalar s => exact fun _ _ _ => rfl
  | list items inductionHypothesis =>
      intro depth column within
      cases items with
      | nil => rfl
      | cons item items =>
          rw [layout_list_cons] at within
          rw [layout_list_cons, layout_list_cons]
          refine Flow.inlineOr_eq_of_within within fun broken => ?_
          rw [layoutItems_eq_of_narrow inductionHypothesis (List.forall_mem_append.1 broken.rest).1]
  | map entries inductionHypothesis =>
      intro depth column within
      cases entries with
      | nil => rfl
      | cons entry entries =>
          rw [layout_map_cons] at within
          rw [layout_map_cons, layout_map_cons]
          refine Flow.inlineOr_eq_of_within within fun broken => ?_
          rw [layoutEntries_eq_of_narrow inductionHypothesis
            (List.forall_mem_append.1 broken.rest).1]

end Value

namespace Layout

variable {style : ActionStyle} {limit depth : Nat}

theorem attributeLines_eq_of_narrow {attr : Attribute}
    (narrow : ∀ line ∈ attributeLines 0 depth attr, line.width ≤ limit) :
    attributeLines limit depth attr = attributeLines 0 depth attr := by
  have within := Flow.Within.ofLines (List.forall_mem_append.1 narrow).2
  rw [attributeLines, attributeLines, attr.value.unlimited limit depth _ within.ofTrail.ofLead]

theorem actionsLines_eq_of_narrow {actions : List Action}
    (narrow : ∀ line ∈ actionsLines { style := style, limit := 0 } depth actions,
      line.width ≤ limit) :
    actionsLines { style := style, limit := limit } depth actions =
      actionsLines { style := style, limit := 0 } depth actions := by
  cases style with
  | single => rfl
  | multi => rfl
  | auto =>
      -- Without a limit, all actions fit.
      have all : (actions.all fun action => fits 0 (actionWidth depth action)) = true :=
        List.all_eq_true.2 fun _ _ => rfl
      rw [actionsLines_auto, if_pos all] at narrow
      rw [actionsLines_auto, actionsLines_auto, if_pos all, if_pos]
      · rfl
      · refine List.all_eq_true.2 fun action member => ?_
        have width := narrow _
          (List.mem_flatMap.2 ⟨action, member, List.mem_append_right _ List.mem_cons_self⟩)
        simp only [Line.width, String.length_append] at width
        have narrower : actionWidth depth action ≤ limit := by
          unfold actionWidth
          omega
        simp [fits, narrower]

/-- A part is laid out without a limit as with one that no line exceeds. -/
theorem Part.lines_eq_of_narrow {part : Part}
    (narrow : ∀ line ∈ part.lines { style := style, limit := 0 }, line.width ≤ limit) :
    part.lines { style := style, limit := limit } = part.lines { style := style, limit := 0 } := by
  cases part with
  | fixed line => rfl
  | assignment depth attr => exact attributeLines_eq_of_narrow narrow
  | actions depth block => exact actionsLines_eq_of_narrow narrow

theorem documentLines_eq_of_narrow {document : Document}
    (narrow : ∀ line ∈ documentLines { style := style, limit := 0 } document,
      line.width ≤ limit) :
    documentLines { style := style, limit := limit } document =
      documentLines { style := style, limit := 0 } document := by
  rw [← flatMap_outline] at narrow ⊢
  rw [← flatMap_outline, List.flatMap, List.flatMap]
  refine congrArg List.flatten (List.map_congr_left fun part member => ?_)
  exact part.lines_eq_of_narrow fun line inside =>
    narrow line (List.mem_flatMap.2 ⟨part, member, inside⟩)

end Layout

/-! ## Greater limits -/

/-- What fits within a limit fits within a greater one. -/
theorem fits_mono {low high width : Nat} (positive : 1 ≤ low) (le : low ≤ high)
    (fitting : fits low width = true) : fits high width = true := by
  simp only [fits, Bool.or_eq_true, decide_eq_true_eq] at fitting ⊢
  omega

namespace Flow

theorem length_lines_trail (flow : Flow) (tail : String) (depth : Nat) :
    ((flow.trail tail).lines depth).length = flow.rest.length + 1 := by
  obtain ⟨first, rest⟩ := flow
  rcases List.eq_nil_or_concat rest with rfl | ⟨inner, last, rfl⟩
  · rfl
  · rw [List.concat_eq_append, trail_append]
    simp [lines]

/-- A greater limit never breaks what a smaller one keeps on one line. -/
theorem length_inlineOr_le {low high column : Nat} (positive : 1 ≤ low) (le : low ≤ high)
    {inline : Option String} {narrow wide : Flow} (fewer : wide.rest.length ≤ narrow.rest.length) :
    (inlineOr high column inline wide).rest.length ≤
      (inlineOr low column inline narrow).rest.length := by
  cases inline with
  | none => exact fewer
  | some text =>
      simp only [inlineOr, Value.fitting?, Option.filter_some]
      by_cases fitting : fits high (column + text.length) = true
      · rw [if_pos fitting]
        exact Nat.zero_le _
      · rw [if_neg fitting, if_neg fun fits => fitting (fits_mono positive le fits)]
        exact fewer

end Flow

section Greater

variable {low high : Nat} (positive : 1 ≤ low) (le : low ≤ high)

namespace Value

/-- The layout of a value has no more lines with the greater limit. -/
def Shrinks (low high : Nat) (value : Value) : Prop :=
  ∀ depth column, (layout high depth column value).rest.length ≤
    (layout low depth column value).rest.length

theorem length_layoutItems_le {items : List Value}
    (shrinks : ∀ item ∈ items, item.Shrinks low high) (depth : Nat) :
    (layoutItems high depth items).length ≤ (layoutItems low depth items).length := by
  induction items with
  | nil => exact Nat.le_refl _
  | cons item items inductionHypothesis =>
      have own := shrinks item List.mem_cons_self depth (indentWidth depth)
      have others := inductionHypothesis fun other member =>
        shrinks other (List.mem_cons_of_mem item member)
      simp only [layoutItems, List.length_append, Flow.length_lines_trail]
      omega

theorem length_layoutEntries_le {entries : List (Entry Value)}
    (shrinks : ∀ entry ∈ entries, entry.value.Shrinks low high) (depth : Nat) :
    (layoutEntries high depth entries).length ≤ (layoutEntries low depth entries).length := by
  induction entries with
  | nil => exact Nat.le_refl _
  | cons entry entries inductionHypothesis =>
      have own := shrinks entry List.mem_cons_self depth
        (indentWidth depth + (keyText entry.key).length)
      have others := inductionHypothesis fun other member =>
        shrinks other (List.mem_cons_of_mem entry member)
      simp only [layoutEntries, List.length_append, Flow.lines, Flow.lead, List.length_cons]
      omega

include positive le in
/-- Every value has a layout with no more lines when the limit is greater. -/
theorem shrinks (value : Value) : value.Shrinks low high := by
  induction value using Value.induction with
  | scalar s => exact fun _ _ => Nat.le_refl _
  | list items inductionHypothesis =>
      intro depth column
      cases items with
      | nil => exact Nat.le_refl _
      | cons item items =>
          rw [layout_list_cons, layout_list_cons]
          refine Flow.length_inlineOr_le positive le ?_
          simpa using length_layoutItems_le inductionHypothesis (depth + 1)
  | map entries inductionHypothesis =>
      intro depth column
      cases entries with
      | nil => exact Nat.le_refl _
      | cons entry entries =>
          rw [layout_map_cons, layout_map_cons]
          refine Flow.length_inlineOr_le positive le ?_
          simpa using length_layoutEntries_le inductionHypothesis (depth + 1)

end Value

namespace Layout

variable {style : ActionStyle}

theorem length_flatMap_le {α β : Type} {parts : List α} {first second : α → List β}
    (le : ∀ part ∈ parts, (first part).length ≤ (second part).length) :
    (parts.flatMap first).length ≤ (parts.flatMap second).length := by
  induction parts with
  | nil => exact Nat.le_refl _
  | cons part parts inductionHypothesis =>
      have own := le part List.mem_cons_self
      have others := inductionHypothesis fun other member =>
        le other (List.mem_cons_of_mem part member)
      simp only [List.flatMap_cons, List.length_append]
      omega

/-- The actions of a block have no more lines on lines of the block than in a group. -/
theorem length_single_le_multi (limit other depth : Nat) (actions : List Action) :
    (actionsLines { style := .single, limit := limit } depth actions).length ≤
      (actionsLines { style := .multi, limit := other } depth actions).length := by
  have same := @length_flatMap_le _ _ actions (actionLines (depth + 1)) (actionLines (depth + 2))
    fun action _ => by simp [actionLines, commentLines]
  simp only [actionsLines, actionLayout, List.length_append, List.length_cons]
  omega

include positive le

theorem length_actionsLines_le (depth : Nat) (actions : List Action) :
    (actionsLines { style := style, limit := high } depth actions).length ≤
      (actionsLines { style := style, limit := low } depth actions).length := by
  cases style with
  | single => exact Nat.le_refl _
  | multi => exact Nat.le_refl _
  | auto =>
      rw [actionsLines_auto, actionsLines_auto]
      by_cases all : (actions.all fun action => fits high (actionWidth depth action)) = true
      · rw [if_pos all]
        split
        · exact Nat.le_refl _
        · exact length_single_le_multi high low depth actions
      · have none : ¬ (actions.all fun action => fits low (actionWidth depth action)) = true :=
          fun fitting => all (List.all_eq_true.2 fun action member =>
            fits_mono positive le (List.all_eq_true.1 fitting action member))
        rw [if_neg all, if_neg none]
        exact Nat.le_refl _

/-- The layout of a part has no more lines with the greater limit. -/
theorem Part.length_lines_le (part : Part) :
    (part.lines { style := style, limit := high }).length ≤
      (part.lines { style := style, limit := low }).length := by
  cases part with
  | fixed line => exact Nat.le_refl _
  | assignment depth attr =>
      have value := attr.value.shrinks positive le depth
        (indentWidth depth + (Value.keyText attr.key).length)
      simp only [lines, attributeLines, List.length_append, Flow.length_lines_trail, Flow.lead]
      omega
  | actions depth block => exact length_actionsLines_le positive le depth block.actions

theorem length_documentLines_le (document : Document) :
    (documentLines { style := style, limit := high } document).length ≤
      (documentLines { style := style, limit := low } document).length := by
  rw [← flatMap_outline, ← flatMap_outline]
  exact length_flatMap_le fun part _ => part.length_lines_le positive le

end Layout

end Greater

/-- A limit of zero stands for no limit, and limits are monotone. For every well-formed document
and every style, a limit that no line of the text without a limit exceeds gives that text, and
the text for a greater limit has no more lines than the text for a smaller one. -/
theorem print_limits (document : Document) (wellFormed : document.wellFormed = true)
    (style : ActionStyle) :
    (∀ limit, 1 ≤ limit →
      (∀ line ∈ Text.lines (document.print { style := style, limit := 0 }),
        line.length ≤ limit) →
      document.print { style := style, limit := limit } =
        document.print { style := style, limit := 0 }) ∧
    ∀ low high, 1 ≤ low → low ≤ high →
      (Text.lines (document.print { style := style, limit := high })).length ≤
        (Text.lines (document.print { style := style, limit := low })).length := by
  constructor
  · intro limit _ narrow
    rw [lines_print _ wellFormed, List.forall_mem_map] at narrow
    refine congrArg Line.join (Layout.documentLines_eq_of_narrow fun line member => ?_)
    rw [← Line.length_text]
    exact narrow line member
  · intro low high positive le
    rw [lines_print _ wellFormed, lines_print _ wellFormed, List.length_map, List.length_map]
    exact Layout.length_documentLines_le positive le document

theorem print_limits_mixedDocument :
    mixedDocument.wellFormed = true ∧
      mixedDocument.print { style := .auto, limit := 27 } =
        mixedDocument.print { style := .auto, limit := 0 } ∧
      (Text.lines (mixedDocument.print { style := .auto, limit := 27 })).length ≤
        (Text.lines (mixedDocument.print { style := .auto, limit := 17 })).length := by
  have wellFormed : mixedDocument.wellFormed = true := by decide
  have limits := print_limits mixedDocument wellFormed .auto
  exact ⟨wellFormed, limits.1 27 (by decide) (by decide +kernel),
    limits.2 17 27 (by decide) (by decide)⟩

end ServiceDef
