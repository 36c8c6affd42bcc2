import Mathlib.Data.List.Chain
import ServiceDef.Proofs.Layout.NormalForm
import ServiceDef.Proofs.Layout.Shape
import ServiceDef.Proofs.Scanning.Locality

/-!
# Indentation and blank lines

The indentation of canonical text says how many brackets are open, and blank lines stand only
between other lines, neither behind an opening bracket nor in front of a closing one
(`Text.LaidOut`). Both follow from the shape of the lines: `Line.Nests` follows the open brackets
from line to line, and `Line.Adjacent` is about two lines that follow each other. The brackets are
those that a scanner finds in the whole text, so the tokens of the text are found line by line at
the end.
-/

namespace ServiceDef

/-! ## The layout law -/

namespace Text

/-- A line with nothing but white space on it. -/
def IsBlank (line : String) : Prop :=
  ∀ c ∈ line.toList, isWhiteSpace c = true

/-- Whether the first token on a line, which is counted from zero, closes a bracket. -/
def closesAt (tokens : List Token) (index : Nat) : Bool :=
  (tokensOnLine index tokens).head?.any (·.kind.closes)

/-- Whether the last token on a line in front of its line break opens a bracket. -/
def opensAt (tokens : List Token) (index : Nat) : Bool :=
  (tokensOnLine index tokens).dropLast.getLast?.any (·.kind.opens)

/-- Text in canonical layout, in a file of the given name. -/
structure LaidOut (file text : String) : Prop where
  /-- The text starts with a line that is not blank. -/
  first : ∃ line ∈ (lines text).head?, ¬ IsBlank line
  /-- The text ends with exactly one line break. -/
  ending : ∃ body c, text.toList = body ++ [c, '\n'] ∧ c ≠ '\n'
  /-- No line ends with white space. -/
  trimmed : ∀ line ∈ lines text, ∀ c ∈ line.toList.getLast?, isWhiteSpace c = false
  /-- A blank line stands neither next to another one, nor right behind an opening bracket, nor
  right in front of a closing one. -/
  separated : ∀ index upper lower, (lines text)[index]? = some upper →
    (lines text)[index + 1]? = some lower →
      (IsBlank upper → ¬ IsBlank lower ∧ closesAt (tokenize file text).1 (index + 1) = false) ∧
      (IsBlank lower → opensAt (tokenize file text).1 index = false)
  /-- A line that is not blank starts with two spaces for each bracket that is open in front of it,
  but for the one that its first token closes. -/
  indented : ∀ index line, (lines text)[index]? = some line → ¬ IsBlank line →
    ∃ opened depth,
      nesting [] ((tokenize file text).1.filter (·.position.line ≤ index)) = some opened ∧
      opened.length = depth + (if closesAt (tokenize file text).1 index then 1 else 0) ∧
      ∃ c rest, line.toList = List.replicate (2 * depth) ' ' ++ c :: rest ∧ c ≠ ' '

end Text

/-! ## Single lines -/

/-- Balanced tokens do not start with a closing bracket. -/
theorem Balanced.head?_closes {kinds : List TokenKind} (balanced : Balanced kinds) :
    kinds.head?.any (·.closes) = false := by
  cases kinds with
  | nil => rfl
  | cons kind kinds => exact balanced.closes_eq_false

/-- Balanced tokens do not end with an opening bracket. -/
theorem Balanced.getLast?_opens {kinds : List TokenKind} (balanced : Balanced kinds) :
    kinds.getLast?.any (·.opens) = false := by
  induction kinds using List.reverseRecOn with
  | nil => rfl
  | append_singleton kinds kind => simpa using balanced.opens_eq_false

namespace Line

/-- Whether the first token of a line closes a bracket. -/
def closes (line : Line) : Bool :=
  line.kinds.head?.any (·.closes)

/-- Whether the last token of a line opens a bracket. -/
def opens (line : Line) : Bool :=
  line.kinds.getLast?.any (·.opens)

theorem isBlank_blank : Text.IsBlank blank.text := by
  simp [Text.IsBlank, blank, text, indentWidth]

/-- A line with solid content is not blank. -/
theorem not_isBlank {line : Line} (solid : Solid line.content) : ¬ Text.IsBlank line.text := by
  obtain ⟨c, rest, chars, visible⟩ := solid.starts
  intro white
  have isWhite := white c (by simp [text, chars])
  rw [visible] at isWhite
  cases isWhite

theorem closes_opening {line : Line} {bracket : Bracket} {front : List TokenKind}
    (opens : line.kinds = front ++ [bracket.opening]) (balanced : Balanced front) :
    line.closes = false := by
  rw [closes, opens]
  cases front with
  | nil => cases bracket <;> rfl
  | cons kind kinds => exact balanced.closes_eq_false

theorem opens_closing {line : Line} {bracket : Bracket} {back : List TokenKind}
    (closes : line.kinds = bracket.closing :: back) (balanced : Balanced back) :
    line.opens = false := by
  rw [opens, closes]
  induction back using List.reverseRecOn with
  | nil => cases bracket <;> rfl
  | append_singleton kinds kind =>
      rw [← List.cons_append, List.getLast?_concat]
      exact balanced.opens_eq_false

/-! ## Blank lines -/

/-- Two lines that can follow each other. -/
structure Adjacent (upper lower : Line) : Prop where
  below : Text.IsBlank upper.text → ¬ Text.IsBlank lower.text ∧ lower.closes = false
  above : Text.IsBlank lower.text → upper.opens = false

/-- Lines that are not blank can follow each other. -/
theorem Adjacent.of_text {upper lower : Line} (first : ¬ Text.IsBlank upper.text)
    (second : ¬ Text.IsBlank lower.text) : Adjacent upper lower :=
  ⟨fun blank => absurd blank first, fun blank => absurd blank second⟩

/-- The first line is not blank and closes nothing. -/
theorem Shaped.head {depth : Nat} {lines : List Line} (shaped : Shaped depth lines) :
    ∀ line ∈ lines.head?, ¬ Text.IsBlank line.text ∧ line.closes = false := by
  induction shaped with
  | nil => simp
  | statement solid balanced =>
      simpa using ⟨not_isBlank solid, balanced.head?_closes⟩
  | enclosed openingSolid opens frontBalanced =>
      simpa using ⟨not_isBlank openingSolid, closes_opening opens frontBalanced⟩
  | append _ _ first second =>
      intro line isHead
      rw [List.head?_append, Option.mem_def, Option.or_eq_some_iff] at isHead
      rcases isHead with here | ⟨-, here⟩
      · exact first line here
      · exact second line here
  | separate _ _ firstLines _ first _ =>
      intro line isHead
      rw [List.head?_append_of_ne_nil _ firstLines] at isHead
      exact first line isHead

/-- The last line is not blank and opens nothing. -/
theorem Shaped.last {depth : Nat} {lines : List Line} (shaped : Shaped depth lines) :
    ∀ line ∈ lines.getLast?, ¬ Text.IsBlank line.text ∧ line.opens = false := by
  induction shaped with
  | nil => simp
  | statement solid balanced =>
      simpa using ⟨not_isBlank solid, balanced.getLast?_opens⟩
  | enclosed _ _ _ _ closingSolid closes backBalanced =>
      rw [List.getLast?_concat]
      simpa using ⟨not_isBlank closingSolid, opens_closing closes backBalanced⟩
  | append _ _ first second =>
      intro line isLast
      rw [List.getLast?_append, Option.mem_def, Option.or_eq_some_iff] at isLast
      rcases isLast with here | ⟨-, here⟩
      · exact second line here
      · exact first line here
  | separate _ _ _ secondLines _ second =>
      intro line isLast
      rw [List.getLast?_append_cons, List.getLast?_cons_of_ne_nil secondLines] at isLast
      exact second line isLast

/-- The lines can follow each other as they do. -/
theorem Shaped.isChain {depth : Nat} {lines : List Line} (shaped : Shaped depth lines) :
    lines.IsChain Adjacent := by
  induction shaped with
  | nil => exact .nil
  | statement => exact .singleton _
  | @enclosed depth opening closing _ _ _ inner openingSolid _ _ inside closingSolid _ _ chain =>
      have opened : ¬ Text.IsBlank (Line.mk depth opening).text := not_isBlank openingSolid
      have closed : ¬ Text.IsBlank (Line.mk depth closing).text := not_isBlank closingSolid
      have upper : (Line.mk depth opening :: inner).IsChain Adjacent :=
        List.isChain_cons.2
          ⟨fun lower isHead => .of_text opened (inside.head lower isHead).1, chain⟩
      refine List.isChain_append.2 ⟨upper, .singleton _, fun last isLast lower isHead => ?_⟩
      cases isHead
      rw [List.getLast?_cons, Option.mem_some_iff] at isLast
      cases ends : inner.getLast? with
      | none =>
          rw [ends] at isLast
          exact .of_text (isLast ▸ opened) closed
      | some line =>
          rw [ends] at isLast
          exact .of_text (isLast ▸ (inside.last line ends).1) closed
  | append front back first second =>
      refine List.isChain_append.2 ⟨first, second, fun upper isLast lower isHead => ?_⟩
      exact .of_text (front.last upper isLast).1 (back.head lower isHead).1
  | separate front back _ _ first second =>
      -- The only blank line. There are lines on both sides of it, since neither part is empty.
      refine List.isChain_append.2 ⟨first, List.isChain_cons.2 ⟨?_, second⟩, ?_⟩
      · intro lower isHead
        obtain ⟨text, closes⟩ := back.head lower isHead
        exact ⟨fun _ => ⟨text, closes⟩, fun isBlank => absurd isBlank text⟩
      · intro upper isLast lower isHead
        cases isHead
        obtain ⟨text, opens⟩ := front.last upper isLast
        exact ⟨fun isBlank => absurd isBlank text, fun _ => opens⟩

/-! ## Open brackets -/

/-- Lines between which the brackets `opened` become `after`. Each line is indented by the brackets
that are open in front of it, but for the one that it closes first. -/
inductive Nests : List Bracket → List Line → List Bracket → Prop
  | nil {opened : List Bracket} : Nests opened [] opened
  | blank {opened after : List Bracket} {lines : List Line} (others : Nests opened lines after) :
      Nests opened (blank :: lines) after
  | text {opened inner after : List Bracket} {line : Line} {lines : List Line}
      (solid : Solid line.content)
      (indented : opened.length = line.depth + if line.closes then 1 else 0)
      (nests : nestingOf opened line.kinds = some inner) (others : Nests inner lines after) :
      Nests opened (line :: lines) after

theorem Nests.append {opened middle after : List Bracket} {first second : List Line}
    (front : Nests opened first middle) (back : Nests middle second after) :
    Nests opened (first ++ second) after := by
  induction front with
  | nil => exact back
  | blank _ inductionHypothesis => exact .blank (inductionHypothesis back)
  | text solid indented nests _ inductionHypothesis =>
      exact .text solid indented nests (inductionHypothesis back)

/-- Lines at some depth have as many brackets open around them, and leave these as they were. -/
theorem Shaped.nests {depth : Nat} {lines : List Line} (shaped : Shaped depth lines) :
    ∀ opened : List Bracket, opened.length = depth → Nests opened lines opened := by
  induction shaped with
  | nil => exact fun _ _ => .nil
  | @statement depth content solid balanced =>
      intro opened deep
      refine .text solid ?_ (balanced opened) .nil
      rw [closes, balanced.head?_closes]
      exact deep
  | @enclosed depth opening closing bracket front back inner openingSolid opens frontBalanced _
      closingSolid closes backBalanced inductionHypothesis =>
      intro opened deep
      -- Both lines stand outside of the bracket: it is not open yet in front of the first one, and
      -- the last one closes it with its first token.
      have enter : nestingOf opened (kinds { depth := depth, content := opening }) =
          some (bracket :: opened) := by
        rw [opens, nestingOf_append, frontBalanced, Option.bind_some, nestingOf_cons, nest_opening,
          Option.bind_some, nestingOf_nil]
      have leave : nestingOf (bracket :: opened) (kinds { depth := depth, content := closing }) =
          some opened := by
        rw [closes, nestingOf_cons, nest_closing, Option.bind_some, backBalanced]
      have within := inductionHypothesis (bracket :: opened) (by rw [List.length_cons, deep])
      refine .text openingSolid ?_ enter (within.append (.text closingSolid ?_ leave .nil))
      · rw [closes_opening opens frontBalanced]
        exact deep
      · have closesFirst : Line.closes { depth := depth, content := closing } = true := by
          rw [Line.closes, closes]
          exact closes_closing bracket
        rw [closesFirst, List.length_cons, deep]
        rfl
  | append _ _ first second =>
      exact fun opened deep => (first opened deep).append (second opened deep)
  | separate _ _ _ _ first second =>
      exact fun opened deep => (first opened deep).append (.blank (second opened deep))

theorem kinds_blank : blank.kinds = [] := by
  exact @lineKinds_code 0 "" [] none .nil rfl

/-- All lines but the blank ones are solid. -/
theorem Nests.solid {opened after : List Bracket} {lines : List Line}
    (run : Nests opened lines after) : ∀ line ∈ lines, line = Line.blank ∨ Solid line.content := by
  induction run with
  | nil => simp
  | blank _ inductionHypothesis =>
      exact List.forall_mem_cons.2 ⟨.inl rfl, inductionHypothesis⟩
  | text solid _ _ _ inductionHypothesis =>
      exact List.forall_mem_cons.2 ⟨.inr solid, inductionHypothesis⟩

/-- A line that is not blank is indented by the brackets that the lines above it leave open. -/
theorem Nests.indented_at {opened after : List Bracket} {lines : List Line}
    (run : Nests opened lines after) {index : Nat} {line : Line}
    (here : lines[index]? = some line) (notBlank : ¬ Text.IsBlank line.text) :
    ∃ inner, nestingOf opened ((lines.take index).flatMap fun above => above.kinds ++ [.newline]) =
        some inner ∧
      inner.length = line.depth + if line.closes then 1 else 0 := by
  induction run generalizing index with
  | nil => simp at here
  | @blank opened _ lines _ inductionHypothesis =>
      cases index with
      | zero =>
          cases here
          exact absurd isBlank_blank notBlank
      | succ index =>
          obtain ⟨inner, nests, deep⟩ := inductionHypothesis here
          refine ⟨inner, ?_, deep⟩
          rw [List.take_succ_cons, List.flatMap_cons, kinds_blank]
          exact nests
  | @text opened middle _ first lines _ indented nests _ inductionHypothesis =>
      cases index with
      | zero =>
          cases here
          exact ⟨opened, rfl, indented⟩
      | succ index =>
          obtain ⟨inner, others, deep⟩ := inductionHypothesis here
          refine ⟨inner, ?_, deep⟩
          rw [List.take_succ_cons, List.flatMap_cons, List.append_assoc, nestingOf_append, nests]
          exact others

end Line

/-! ## The tokens of a text, line by line -/

namespace Line

variable {lines : List Line} {line : Line} {index : Nat}

theorem join_cons (line : Line) (lines : List Line) :
    join (line :: lines) = line.text ++ "\n" ++ join lines := by
  simp [join, String.join_cons]

theorem kinds_atLineEnd (file : String) (line : Line) :
    ((tokenize file line.text).1.map Token.atLineEnd).map (·.kind) = line.kinds ++ [.newline] := by
  obtain ⟨content, last, split, atEnd, others⟩ := tokenize_eq_append file line.text
  have kinds : line.kinds = content.map (·.kind) := by
    rw [Line.kinds, Text.lineKinds, kinds_tokenize, ← kinds_tokenize file, split]
    simp
  rw [split, Token.map_atLineEnd atEnd others, List.map_append, kinds]
  rfl

variable (oneLine : ∀ line ∈ lines, OneLine line.text)

include oneLine

/-- The tokens on a line of a text. -/
theorem kinds_tokensOnLine (file : String) (here : lines[index]? = some line) :
    (tokensOnLine index (tokenize file (join lines)).1).map (·.kind) =
      line.kinds ++ [.newline] := by
  induction lines generalizing index with
  | nil => simp at here
  | cons first lines inductionHypothesis =>
      rw [List.forall_mem_cons] at oneLine
      have tokens := @tokensOnLine_break file _ oneLine.1 (join lines)
      rw [join_cons]
      cases index with
      | zero =>
          cases here
          rw [tokens.1, kinds_atLineEnd]
      | succ index =>
          rw [tokens.2 index, List.map_map]
          exact inductionHypothesis oneLine.2 here

/-- The tokens above a line of a text. -/
theorem kinds_above (file : String) (inside : index ≤ lines.length) :
    ((tokenize file (join lines)).1.filter (·.position.line ≤ index)).map (·.kind) =
      (lines.take index).flatMap fun line => line.kinds ++ [.newline] := by
  -- One line after the other is taken off the front of the text.
  induction index generalizing lines with
  | zero =>
      rw [List.take_zero, List.flatMap_nil, List.map_eq_nil_iff, List.filter_eq_nil_iff]
      intro token member
      have atLeast := one_le_line_of_mem_tokenize member
      simp
      omega
  | succ index inductionHypothesis =>
      cases lines with
      | nil => simp at inside
      | cons first lines =>
          rw [List.forall_mem_cons] at oneLine
          rw [join_cons, filter_line_break oneLine.1, List.map_append, kinds_atLineEnd,
            List.map_map, List.take_succ_cons, List.flatMap_cons]
          exact congrArg _ (inductionHypothesis oneLine.2 (by simpa using inside))

theorem closesAt_eq (file : String) (here : lines[index]? = some line) :
    Text.closesAt (tokenize file (join lines)).1 index = line.closes := by
  have kinds := kinds_tokensOnLine oneLine file here
  have first : Text.closesAt (tokenize file (join lines)).1 index =
      ((tokensOnLine index (tokenize file (join lines)).1).map (·.kind)).head?.any (·.closes) := by
    rw [Text.closesAt, List.head?_map, Option.any_map]
  rw [first, kinds, closes]
  cases line.kinds <;> rfl

theorem opensAt_eq (file : String) (here : lines[index]? = some line) :
    Text.opensAt (tokenize file (join lines)).1 index = line.opens := by
  have kinds := kinds_tokensOnLine oneLine file here
  have last : Text.opensAt (tokenize file (join lines)).1 index =
      ((tokensOnLine index (tokenize file (join lines)).1).map (·.kind)).dropLast.getLast?.any
        (·.opens) := by
    rw [Text.opensAt, ← List.map_dropLast, List.getLast?_map, Option.any_map]
  rw [last, kinds, List.dropLast_concat, opens]

end Line

/-! ## Whole texts -/

namespace Line

theorem oneLine_text {line : Line} (oneLine : OneLine line.content) : OneLine line.text :=
  (oneLine_append _ _).2 ⟨by simp [OneLine], oneLine⟩

theorem join_eq_empty_iff (lines : List Line) : join lines = "" ↔ lines = [] := by
  cases lines with
  | nil => simp
  | cons line lines =>
      refine iff_of_false (fun empty => ?_) (List.cons_ne_nil _ _)
      have chars := congrArg String.toList empty
      rw [toList_join_cons] at chars
      simp at chars

/-- A line with solid content ends with its last character. -/
theorem getLast?_text {line : Line} (solid : Solid line.content) :
    ∃ c ∈ line.text.toList.getLast?, Text.isWhiteSpace c = false := by
  obtain ⟨front, c, chars, visible⟩ := solid.ends
  exact ⟨c, by simp [text, chars], visible⟩

/-- A line with solid content starts with the spaces of its depth. -/
theorem toList_text {line : Line} (solid : Solid line.content) :
    ∃ c rest, line.text.toList = List.replicate (2 * line.depth) ' ' ++ c :: rest ∧ c ≠ ' ' := by
  obtain ⟨c, rest, chars, visible⟩ := solid.starts
  refine ⟨c, rest, by simp [text, chars, indentWidth], ?_⟩
  rintro rfl
  cases visible

section LaidOut

variable {lines : List Line} (shaped : Shaped 0 lines)
  (oneLine : ∀ line ∈ lines, OneLine line.content)

include shaped

theorem Shaped.solid_of_not_isBlank {line : Line} (member : line ∈ lines)
    (notBlank : ¬ Text.IsBlank line.text) : Solid line.content := by
  rcases (shaped.nests [] rfl).solid line member with rfl | solid
  · exact absurd isBlank_blank notBlank
  · exact solid

theorem Shaped.ending (notEmpty : lines ≠ []) :
    ∃ body c, (join lines).toList = body ++ [c, '\n'] ∧ c ≠ '\n' := by
  have text := (shaped.last _ (List.getLast?_eq_some_getLast notEmpty)).1
  have solid := shaped.solid_of_not_isBlank (List.getLast_mem notEmpty) text
  obtain ⟨front, c, chars, visible⟩ := solid.ends
  refine ⟨(join lines.dropLast).toList ++
    (List.replicate (indentWidth (lines.getLast notEmpty).depth) ' ' ++ front), c, ?_, ?_⟩
  · conv_lhs => rw [← List.dropLast_concat_getLast notEmpty]
    simp [chars]
  · rintro rfl
    cases visible

theorem Shaped.trimmed :
    ∀ line ∈ lines.map Line.text, ∀ c ∈ line.toList.getLast?, Text.isWhiteSpace c = false := by
  refine List.forall_mem_map.2 fun line member c isLast => ?_
  rcases (shaped.nests [] rfl).solid line member with rfl | solid
  · cases isLast
  · obtain ⟨d, ends, visible⟩ := getLast?_text solid
    rwa [Option.mem_unique isLast ends]

include oneLine

/-- Shaped lines make a text in canonical layout, if there are any. -/
theorem Shaped.laidOut (notEmpty : lines ≠ []) (file : String) :
    Text.LaidOut file (join lines) := by
  have textLines : Text.lines (join lines) = lines.map Line.text := lines_join oneLine
  have allText : ∀ line ∈ lines, OneLine line.text := fun line member =>
    oneLine_text (oneLine line member)
  refine ⟨?_, shaped.ending notEmpty, textLines ▸ shaped.trimmed, ?_, ?_⟩
  · obtain ⟨line, others, rfl⟩ := List.exists_cons_of_ne_nil notEmpty
    rw [textLines]
    exact ⟨line.text, rfl, (shaped.head line rfl).1⟩
  · rw [textLines]
    intro index upperText lowerText above below
    rw [List.getElem?_map, Option.map_eq_some_iff] at above below
    obtain ⟨upper, above, rfl⟩ := above
    obtain ⟨lower, below, rfl⟩ := below
    rw [closesAt_eq allText file below, opensAt_eq allText file above]
    obtain ⟨inside, rfl⟩ := List.getElem?_eq_some_iff.1 below
    obtain ⟨_, rfl⟩ := List.getElem?_eq_some_iff.1 above
    have adjacent := List.isChain_iff_getElem.1 shaped.isChain index inside
    exact ⟨adjacent.below, adjacent.above⟩
  · rw [textLines]
    intro index lineText here notBlank
    rw [List.getElem?_map, Option.map_eq_some_iff] at here
    obtain ⟨line, here, rfl⟩ := here
    obtain ⟨opened, nests, deep⟩ := (shaped.nests [] rfl).indented_at here notBlank
    obtain ⟨inside, -⟩ := List.getElem?_eq_some_iff.1 here
    rw [nesting_eq_nestingOf, kinds_above allText file inside.le, closesAt_eq allText file here]
    exact ⟨opened, line.depth, nests, deep,
      toList_text (shaped.solid_of_not_isBlank (List.mem_of_getElem? here) notBlank)⟩

end LaidOut

end Line

/-- The layout law of canonical text. Of whatever source it is the canonical text, and under
whatever settings, it is empty, which is the case exactly if there are neither blocks nor comments
at the end of the source, or it is laid out by its brackets. -/
theorem canonical_text_laidOut (file source name : String) (settings : PrintSettings) :
    ((parse file source).document.print settings = "" ↔
      (parse file source).document.blocks = [] ∧
        (parse file source).document.trailingComments = []) ∧
    ((parse file source).document.print settings = "" ∨
      Text.LaidOut name ((parse file source).document.print settings)) := by
  have wellFormed := wellFormed_parse file source
  have empty : (parse file source).document.print settings = "" ↔
      Layout.documentLines settings (parse file source).document = [] :=
    Line.join_eq_empty_iff _
  refine ⟨empty.trans (Layout.documentLines_eq_nil_iff settings wellFormed), ?_⟩
  by_cases noLines : Layout.documentLines settings (parse file source).document = []
  · exact .inl (empty.2 noLines)
  · refine .inr ((Layout.shaped_documentLines settings wellFormed).laidOut ?_ noLines name)
    exact fun line member => (Layout.proper_documentLines settings wellFormed line member).oneLine

end ServiceDef
