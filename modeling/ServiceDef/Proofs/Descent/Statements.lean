import ServiceDef.Proofs.Descent.Values

/-!
# Statements and blocks

The productions of actions, attributes and blocks, and the loops around them. Every statement
starts with an identifier that is consumed whatever becomes of the statement, and a token that
starts no statement is skipped; so every round of a loop over statements consumes a token, or the
loop is left.
-/

namespace ServiceDef.Descent

/-- The frame with one more complete block in the innermost open block, or at the top level. -/
def Frame.addBlock (frame : Frame) (block : Block) : Frame :=
  match frame.openBlocks with
  | [] => { frame with blocks := frame.blocks ++ [block] }
  | parent :: outer => { frame with openBlocks := parent.withChild block :: outer }

/-- A block has been read up to its closing brace. What waits in front of the brace is its own. -/
def BlockRead (target : Target) (blocks outer : List Block) (limit : Nat) (block : Block)
    (view : View) : Prop :=
  Tracks target
    (Frame.addBlock ⟨blocks, outer, none⟩ { block with trailingComments := view.pending })
    .statementEnd [] limit view.released

/-- The loops end when few enough tokens are left. -/
structure Handles (loops : Loops) (bound : Nat) : Prop extends HandlesValues loops bound where
  block {target : Target} {blocks outer : List Block} {block : Block} {limit : Nat} {view : View} :
    limit ≤ bound →
    Tracks target ⟨blocks, block :: outer, none⟩ .statement [] limit view →
    Ends (loops .block block) view fun after state =>
      BlockRead target blocks outer limit after state.view
  group {target : Target} {blocks outer : List Block} {block : Block} {opened : Position}
      {limit : Nat} {view : View} :
    limit ≤ bound →
    Tracks target ⟨blocks, block :: outer, some opened⟩ .statement [] limit view →
    Ends (loops (.group opened) block) view fun after state =>
      Tracks target ⟨blocks, after :: outer, none⟩ .statementEnd [] limit state.view

variable {target : Target} {frame : Frame} {mode : Mode} {brackets : List Bracket}
  {limit bound : Nat} {view : View} {loops : Loops} {blocks outer : List Block} {block : Block}
  {token : Token} {rest : List Token}

/-! ## The end of a statement -/

/-- A statement that can end here has ended; otherwise it is given up. -/
theorem endStatement_ends (here : Tracks target frame .statementEnd [] limit view) :
    Ends endStatement view fun ended state =>
      if ended then Tracks target frame .statement [] limit state.view
      else GivenUp target frame limit state.view := by
  refine ends_look_next fun kind position comments next => ?_
  cases kind with
  | newline => exact .pure fun state same => same ▸ here.switch next (by simp) rfl
  | rightBrace =>
      refine .pure fun state same => same ▸ here.switch next (by simp) ?_
      exact ((view.reader frame .statement).close_enter .statementEnd _).symm
  | endOfFile =>
      have finished : Tracks target frame .statement [] limit view :=
        here.enter (by
          rw [View.outcome_nil (next.atEnd rfl).1, View.outcome_nil (next.atEnd rfl).1]
          rfl)
      exact .pure fun state same => same ▸ finished
  | _ =>
      exact here.fails next (by simp) rfl fun state given => by simpa using given

/-- What is left of a broken statement is skipped. -/
theorem synchronize_ends (handles : HandlesValues loops bound) (le : limit ≤ bound + 1)
    (given : GivenUp target frame limit view) :
    Ends (synchronize loops) view fun _ state =>
      Tracks target frame .statement [] limit state.view := by
  obtain ⟨brackets, here⟩ := given
  refine gives_takeOpenValues.then (handles.recovery le ?_)
  exact
    { here with
      outcome_eq := fun claimed => by
        rw [here.openValues_eq claimed]
        exact here.outcome_eq claimed
      openValues_eq := fun _ => rfl }

/-- A production has read something into the frame that it belongs to, or it has been given
up. -/
def PartRead {α : Type} (target : Target) (frame : Frame) (added : α → Frame) (limit : Nat) :
    Option α → View → Prop
  | some part, view => Tracks target (added part) .statementEnd [] limit view
  | none, view => GivenUp target frame limit view

theorem PartRead.map {α β : Type} {added : α → Frame} {form : β → α} :
    {result : Option β} → PartRead target frame (added ∘ form) limit result view →
      PartRead target frame added limit (result.map form) view
  | some _, read => read
  | none, given => given

/-- A statement that has been read or given up is ended. -/
theorem settle_ends {α : Type} {added : α → Frame} {result : Option α}
    (handles : HandlesValues loops bound) (le : limit ≤ bound + 1)
    (read : PartRead target frame added limit result view) :
    Ends (settle loops result.isSome) view fun _ state =>
      Tracks target ((result.map added).getD frame) .statement [] limit state.view := by
  cases result with
  | none => exact synchronize_ends handles le read
  | some part =>
      refine (endStatement_ends read).bind fun ended state holds => ?_
      cases ended with
      | true => exact .pure fun other same => same ▸ holds
      | false => exact synchronize_ends handles le holds

/-- A token that starts no statement is consumed, and its line skipped. -/
theorem skipStatement_ends (handles : HandlesValues loops bound) (le : limit ≤ bound + 1)
    {expectation : Expectation} (here : Tracks target frame .statement [] (limit + 1) view)
    (next : view.Next token) (proper : token.kind ≠ .endOfFile)
    (step : (view.reader frame .statement).step token =
      (((view.reader frame .statement).expected expectation token).absorb token).enter
        (.skipping [])) :
    Ends (skipStatement loops expectation) view fun _ state =>
      Tracks target frame .statement [] limit state.view := by
  obtain ⟨rest, content⟩ := next.content_eq proper
  have kept : (view.missing expectation token).content = token :: rest := by
    simpa using content
  refine (gives_expected expectation next).then ((gives_bump kept).then ?_)
  refine synchronize_ends handles le ⟨[], here.move ?_ ?_ ?_ ?_ ?_ ?_⟩
  · simp [View.behind]
  · simp [View.behind]
  · simp [View.behind]
  · simp [View.behind, content]
  · exact here.length_rest_lt content
  · rw [View.outcome_cons content, step, ← View.reader_missing, View.outcome]
    simp only [View.behind, View.final_missing]
    rfl

/-! ## Actions and attributes -/

/-- The comment on the line of a statement belongs to the statement. -/
theorem takeTrailing_ends {added : Option String → Frame}
    (here : Tracks target frame mode brackets limit view)
    (step : ∀ token, (view.reader frame mode).step token =
      (view.reader (added (Reader.lineComment token).1) mode).stepStatementEnd
        (Reader.lineComment token).2)
    (final : (view.reader frame mode).finish view.final =
      (view.reader (added none) .statementEnd).finish view.final) :
    Ends takeTrailing view fun trailing state =>
      Tracks target (added trailing) .statementEnd brackets limit state.view := by
  by_cases commented : ∃ position comment comments rest,
      view.content = ⟨.newline, position, comment :: comments⟩ :: rest
  · obtain ⟨position, comment, comments, rest, content⟩ := commented
    refine (gives_takeTrailing_some content).ends fun state same => same ▸ ?_
    refine here.move rfl rfl rfl (by simp [content]) (by simpa [content] using here.left) ?_
    rw [View.outcome_cons content, step, View.outcome_cons rfl]
    simp [Reader.step, View.reader, Reader.stepStatementEnd, Reader.stepStatement, Reader.absorb,
      Reader.lineComment, Reader.enter]
  · refine (gives_takeTrailing_none ?_).ends fun state same => same ▸ here.enter ?_
    · exact fun position comment comments rest content =>
        commented ⟨position, comment, comments, rest, content⟩
    · cases content : view.content with
      | nil => rw [View.outcome_nil content, View.outcome_nil content, final]
      | cons token rest =>
          have plain : Reader.lineComment token = (none, token) := by
            obtain ⟨kind, position, comments⟩ := token
            unfold Reader.lineComment
            split
            next comment comments kindEq commentsEq =>
              exact absurd ⟨position, comment, comments, rest, by simp_all⟩ commented
            next => rfl
          rw [View.outcome_cons content, View.outcome_cons content, step, plain]
          exact congrArg (fun reader => (reader.run rest).finish view.final)
            ((view.reader (added none) .statementEnd).stepStatementEnd_enter mode token).symm

/-- The head of the statement that starts with the first token of a view. -/
def View.head (view : View) (name : String) (first : Token) : Head where
  name := name
  comments := view.pending ++ first.comments
  position := first.position

section Actions

variable {group : Option Position} {head : Head}

/-- What an action has been read into. -/
abbrev ActionRead (target : Target) (blocks outer : List Block) (block : Block)
    (group : Option Position) (limit : Nat) (result : Option Action) (view : View) : Prop :=
  PartRead target ⟨blocks, block :: outer, group⟩
    (fun action => ⟨blocks, block.withAction action :: outer, group⟩) limit result view

theorem takeHandler_ends {path handler : String} (content : view.content = token :: rest)
    (here : Tracks target ⟨blocks, block :: outer, group⟩ (.actionHandler head path) [] limit view)
    (step : (view.reader ⟨blocks, block :: outer, group⟩ (.actionHandler head path)).step token =
      (view.behind token rest).reader ⟨blocks, block :: outer, group⟩ (.actionEnd
        { method := head.name
          target := path
          handler := handler
          comments := head.comments
          position := head.position })) :
    Ends (takeHandler head path handler) view fun result state =>
      ActionRead target blocks outer block group limit result state.view := by
  refine (gives_bump content).then ?_
  have complete := here.pass content step
  exact (takeTrailing_ends complete (fun _ => rfl) rfl).returning fun _ _ read => read

theorem parseHandler_ends {path : String}
    (here : Tracks target ⟨blocks, block :: outer, group⟩ (.actionHandler head path) [] limit
      view) :
    Ends (parseHandler head path) view fun result state =>
      ActionRead target blocks outer block group limit result state.view := by
  refine ends_look_next fun kind position comments next => ?_
  cases kind with
  | identifier handler =>
      obtain ⟨rest, content⟩ := next.content_eq (by simp)
      exact takeHandler_ends content here rfl
  | string handler =>
      obtain ⟨rest, content⟩ := next.content_eq (by simp)
      exact takeHandler_ends content here rfl
  | _ => exact here.fails next (fun _ => rfl) rfl fun state given => given

theorem parseArrow_ends {path : String} (content : view.content = token :: rest)
    (here : Tracks target ⟨blocks, block :: outer, group⟩ (.actionTarget head) [] limit view)
    (step : (view.reader ⟨blocks, block :: outer, group⟩ (.actionTarget head)).step token =
      (view.behind token rest).reader ⟨blocks, block :: outer, group⟩ (.actionArrow head path)) :
    Ends (parseArrow head path) view fun result state =>
      ActionRead target blocks outer block group limit result state.view := by
  refine (gives_bump content).then (ends_look_next fun kind position comments next => ?_)
  have behind := here.pass content step
  cases kind with
  | arrow =>
      obtain ⟨rest, content⟩ := next.content_eq (by simp)
      exact (gives_bump content).then
        (parseHandler_ends (behind.pass content rfl))
  | _ => exact behind.fails next (fun _ => rfl) rfl fun state given => given

/-- An action is read behind its method. -/
theorem parseAction_ends {method : String} (content : view.content = token :: rest)
    (here : Tracks target ⟨blocks, block :: outer, group⟩ (.actionTarget (view.head method token))
      [] limit (view.behind token rest).released) :
    Ends (parseAction method) view fun result state =>
      ActionRead target blocks outer block group limit result state.view := by
  refine (gives_bump content).then (gives_takeComments.then ?_)
  refine ends_look_next fun kind place comments next => ?_
  cases kind with
  | path path =>
      obtain ⟨rest, content⟩ := next.content_eq (by simp)
      exact parseArrow_ends content here rfl
  | string path =>
      obtain ⟨rest, content⟩ := next.content_eq (by simp)
      exact parseArrow_ends content here rfl
  | _ => exact here.fails next (fun _ => rfl) rfl fun state given => given

end Actions

/-- An attribute is read behind its key and sign. -/
theorem parseAttribute_ends (handles : HandlesValues loops bound) (le : limit ≤ bound)
    {key : String} {sign : Token} (content : view.content = token :: sign :: rest)
    (here : Tracks target ⟨blocks, block :: outer, none⟩ (.value (view.head key token) (.value []))
      [] (limit + 1) ((view.behind token (sign :: rest)).released.behind sign rest)) :
    Ends (parseAttribute loops key) view fun result state =>
      PartRead target ⟨blocks, block :: outer, none⟩
        (fun attr => ⟨blocks, block.withAttribute attr :: outer, none⟩) (limit + 1) result
        state.view := by
  refine (gives_bump content).then (gives_takeComments.then ((gives_bump rfl).then ?_))
  refine (parseValue_ends handles le here).bind fun result state read => ?_
  cases result with
  | none => exact .pure fun state same => same ▸ read
  | some value =>
      have complete : Tracks target ⟨blocks, block :: outer, none⟩ (.attributeEnd
          { key := key
            value := value
            comments := view.pending ++ token.comments
            position := token.position }) [] (limit + 1) state.view := read.weaken (Nat.le_succ _)
      exact (takeTrailing_ends complete (fun _ => rfl) rfl).returning fun _ _ read => read

/-! ## Blocks -/

/-- A block has been read up to the label that it has, or to what follows if it has none. -/
def LabelRead (target : Target) (blocks outer : List Block) (head : Head) (limit : Nat)
    (tokens : List Token) : Option String → View → Prop
  | some label, view =>
    Tracks target ⟨blocks, outer, none⟩ (.labelled head label) [] limit view ∧
      ∃ first, tokens = first :: view.content ∧ first.kind = .string label
  | none, view =>
    Tracks target ⟨blocks, outer, none⟩ (.header head) [] limit view ∧
      ∀ first, view.Next first → ∀ label, first.kind ≠ .string label

theorem parseLabel_ends {head : Head}
    (here : Tracks target ⟨blocks, outer, none⟩ (.header head) [] limit view) :
    Ends parseLabel view fun label state =>
      LabelRead target blocks outer head limit view.content label state.view := by
  refine ends_look_next fun kind position comments next => ?_
  cases kind with
  | string label =>
      obtain ⟨rest, content⟩ := next.content_eq (by simp)
      refine (gives_bump content).then (.pure fun state same => same ▸ ⟨?_, _, content, rfl⟩)
      exact here.pass content rfl
  | _ =>
      refine .pure fun state same => ?_
      rw [same]
      exact ⟨here, fun first found => by rw [found.unique next]; simp⟩

section Blocks

variable (handles : Handles loops bound) (le : limit ≤ bound)

include handles le

/-- A block is read from its opening brace on. -/
theorem parseBody_ends {head : Head} {label : Option String}
    (here : Tracks target ⟨blocks, outer, none⟩ mode [] limit view)
    (expects : Reader.missing mode = some (.openBrace head.name))
    (opens : ∀ position comments,
      (view.reader ⟨blocks, outer, none⟩ mode).step ⟨.leftBrace, position, comments⟩ =
        ((view.reader ⟨blocks, outer, none⟩ mode).absorb
          ⟨.leftBrace, position, comments⟩).openBlock head label)
    (stuck : ∀ token, view.Next token → token.kind ≠ .leftBrace →
      (view.reader ⟨blocks, outer, none⟩ mode).step token =
        (view.reader ⟨blocks, outer, none⟩ mode).fail (.openBrace head.name) [] token) :
    Ends (parseBody loops head label) view fun result state =>
      PartRead target ⟨blocks, outer, none⟩ (Frame.addBlock ⟨blocks, outer, none⟩) limit result
        state.view := by
  refine ends_look_next fun kind position comments next => ?_
  cases kind with
  | leftBrace =>
      obtain ⟨rest, content⟩ := next.content_eq (by simp)
      have inside : Tracks target
          ⟨blocks,
            { kind := head.name
              label := label
              comments := head.comments
              position := head.position } :: outer, none⟩ .statement [] limit _ :=
        here.pass content (opens position comments)
      refine (gives_bump content).then ?_
      refine (handles.block le inside).bind fun block state read => ?_
      exact gives_takeComments.then (.pure fun other same => same ▸ read)
  | _ =>
      exact here.fails next (fun _ => expects) (stuck _ next (by simp)) fun state given => given

/-- A block is read behind its kind. Inside of another block, a label with an arrow behind it is
the target of an action. -/
theorem parseBlock_ends {kind : String} (content : view.content = token :: rest)
    (here : Tracks target ⟨blocks, outer, none⟩ (.header (view.head kind token)) [] limit
      (view.behind token rest).released)
    (noArrow : outer ≠ [] → ∀ label, ¬[.string label, .arrow] <+: rest.map (·.kind)) :
    Ends (parseBlock loops kind) view fun result state =>
      PartRead target ⟨blocks, outer, none⟩ (Frame.addBlock ⟨blocks, outer, none⟩) limit result
        state.view := by
  refine (gives_bump content).then (gives_takeComments.then ?_)
  refine (parseLabel_ends here).bind fun label state read => ?_
  cases label with
  | none =>
      obtain ⟨here, notString⟩ := read
      refine parseBody_ends handles le here rfl (fun _ _ => rfl) fun token next other => ?_
      obtain ⟨kind, place, texts⟩ := token
      cases kind with
      | string label => exact absurd rfl (notString _ next label)
      | leftBrace => exact absurd rfl other
      | _ => rfl
  | some label =>
      obtain ⟨here, first, split, isLabel⟩ := read
      refine parseBody_ends handles le here rfl (fun _ _ => rfl) fun token next other => ?_
      obtain ⟨kind, place, texts⟩ := token
      cases kind with
      | leftBrace => exact absurd rfl other
      | arrow =>
          obtain ⟨after, behind⟩ := next.content_eq (by simp)
          cases outer with
          | nil => rfl
          | cons parent outer =>
              obtain rfl : rest = first :: state.view.content := split
              refine absurd ?_ (noArrow (by simp) label)
              simp [isLabel, behind]
      | _ => rfl

/-- The statement has been read into the block, or has been given up. -/
abbrev StatementRead (target : Target) (blocks outer : List Block) (block : Block) (limit : Nat)
    (result : Option Block) (view : View) : Prop :=
  PartRead target ⟨blocks, block :: outer, none⟩ (fun after => ⟨blocks, after :: outer, none⟩)
    limit result view

omit handles le in
/-- A single action is read behind its key and sign. -/
theorem singleAction_ends {key method : String} {sign first : Token}
    (content : view.content = token :: sign :: first :: rest)
    (isMethod : first.kind = .identifier method)
    (here : Tracks target ⟨blocks, block :: outer, none⟩ (.actionKey (view.head key token)) []
      limit ((view.behind token (sign :: first :: rest)).released.behind sign (first :: rest))) :
    Ends (do
        let _ ← bump
        let _ ← bump
        return (← parseAction method).map block.withAction) view
      fun result state => StatementRead target blocks outer block limit result state.view := by
  have behind : Tracks target ⟨blocks, block :: outer, none⟩
      (.actionTarget (((view.behind token (sign :: first :: rest)).behind sign
        (first :: rest)).head method first)) [] limit
      (((view.behind token (sign :: first :: rest)).behind sign (first :: rest)).behind first
        rest).released := by
    refine here.move rfl rfl rfl (List.suffix_cons _ _) (Nat.lt_of_succ_lt here.left) ?_
    obtain ⟨kind, position, comments⟩ := first
    subst isMethod
    rfl
  exact (gives_bump content).then ((gives_bump rfl).then
    ((parseAction_ends rfl behind).returning fun _ _ read => PartRead.map read))

/-- A statement with a sign is an attribute, or a single action behind its key. -/
theorem parseSigned_ends {name : String} {sign : Token}
    (content : view.content = token :: sign :: rest)
    (here : Tracks target ⟨blocks, block :: outer, none⟩ (.named name token.position) [] limit
      (view.behind token (sign :: rest)))
    (step : ((view.behind token (sign :: rest)).reader ⟨blocks, block :: outer, none⟩
        (.named name token.position)).step sign =
      if name = Word.action then
        ((view.behind token (sign :: rest)).released.behind sign rest).reader
          ⟨blocks, block :: outer, none⟩ (.actionKey (view.head name token))
      else
        ((view.behind token (sign :: rest)).released.behind sign rest).reader
          ⟨blocks, block :: outer, none⟩ (.value (view.head name token) (.value []))) :
    Ends (parseSigned loops name block) view fun result state =>
      StatementRead target blocks outer block limit result state.view := by
  obtain ⟨limit, rfl⟩ := here.limit_eq_succ
  have signed {mode : Mode}
      (step : ((view.behind token (sign :: rest)).reader ⟨blocks, block :: outer, none⟩
          (.named name token.position)).step sign =
        ((view.behind token (sign :: rest)).released.behind sign rest).reader
          ⟨blocks, block :: outer, none⟩ mode) :
      Tracks target ⟨blocks, block :: outer, none⟩ mode [] (limit + 1)
        ((view.behind token (sign :: rest)).released.behind sign rest) := by
    refine here.move rfl rfl rfl (List.suffix_cons _ _) (Nat.lt_of_succ_lt here.left) ?_
    exact congrArg (fun reader => (reader.run rest).finish view.final) step.symm
  have attr (value : Tracks target ⟨blocks, block :: outer, none⟩
      (.value (view.head name token) (.value [])) [] (limit + 1)
      ((view.behind token (sign :: rest)).released.behind sign rest)) :
      Ends (do return (← parseAttribute loops name).map block.withAttribute) view
        fun result state => StatementRead target blocks outer block (limit + 1) result state.view :=
    (parseAttribute_ends handles.toHandlesValues (Nat.le_of_succ_le le) content value).returning
      fun _ _ read => PartRead.map read
  unfold parseSigned
  by_cases isAction : name = Word.action
  · rw [if_pos isAction] at step ⊢
    have keyed := signed step
    refine ends_look (show view.content = [token, sign] ++ rest from content)
      fun kind position comments next => ?_
    have following : ((view.behind token (sign :: rest)).released.behind sign rest).Next
        ⟨kind, position, comments⟩ := next.congr rfl rfl
    cases kind with
    | identifier method =>
        obtain ⟨after, split⟩ := following.content_eq (by simp)
        obtain rfl : rest = ⟨.identifier method, position, comments⟩ :: after := split
        exact singleAction_ends content rfl keyed
    | _ => exact attr (keyed.enter (View.outcome_eq_of_next following rfl rfl rfl))
  · rw [if_neg isAction] at step ⊢
    exact attr (signed step)

/-- A statement in a block is what the tokens behind its name make it. -/
theorem parseStatement_ends {name : String} {position : Position} {comments : List String}
    (content : view.content = ⟨.identifier name, position, comments⟩ :: rest)
    (here : Tracks target ⟨blocks, block :: outer, none⟩ .statement [] (limit + 1) view) :
    Ends (parseStatement loops name block) view fun result state =>
      StatementRead target blocks outer block limit result state.view := by
  have named : Tracks target ⟨blocks, block :: outer, none⟩ (.named name position) [] limit
      (view.behind ⟨.identifier name, position, comments⟩ rest) := here.bump content rfl
  -- The reader releases the comments above the statement one token later than the parser.
  have taken {mode : Mode}
      (same : (view.behind ⟨.identifier name, position, comments⟩ rest).released.outcome
          ⟨blocks, block :: outer, none⟩ mode =
        (view.behind ⟨.identifier name, position, comments⟩ rest).outcome
          ⟨blocks, block :: outer, none⟩ (.named name position)) :
      Tracks target ⟨blocks, block :: outer, none⟩ mode [] limit
        (view.behind ⟨.identifier name, position, comments⟩ rest).released :=
    named.move rfl rfl rfl (List.suffix_refl _) named.left same
  have action (behind : Tracks target ⟨blocks, block :: outer, none⟩
      (.actionTarget (view.head name ⟨.identifier name, position, comments⟩)) [] limit
      (view.behind ⟨.identifier name, position, comments⟩ rest).released) :
      Ends (do return (← parseAction name).map block.withAction) view
        fun result state => StatementRead target blocks outer block limit result state.view :=
    (parseAction_ends content behind).returning fun _ _ read => PartRead.map read
  have nested (behind : Tracks target ⟨blocks, block :: outer, none⟩
      (.header (view.head name ⟨.identifier name, position, comments⟩)) [] limit
      (view.behind ⟨.identifier name, position, comments⟩ rest).released)
      (noArrow : ∀ label, ¬[.string label, .arrow] <+: rest.map (·.kind)) :
      Ends (do return (← parseBlock loops name).map block.withChild) view
        fun result state => StatementRead target blocks outer block limit result state.view :=
    (parseBlock_ends handles le content behind fun _ => noArrow).returning
      fun _ _ read => PartRead.map read
  refine ends_look (show view.content = [_] ++ rest from content)
    fun kind place texts next => ?_
  have following : (view.behind ⟨.identifier name, position, comments⟩ rest).Next
      ⟨kind, place, texts⟩ := next.congr rfl rfl
  cases kind with
  | path path =>
      obtain ⟨after, split⟩ := following.content_eq (by simp)
      obtain rfl : rest = ⟨.path path, place, texts⟩ :: after := split
      exact action (taken rfl)
  | string label =>
      obtain ⟨after, split⟩ := following.content_eq (by simp)
      obtain rfl : rest = ⟨.string label, place, texts⟩ :: after := split
      refine ends_look (show view.content = [_, _] ++ after from content)
        fun kind place texts next => ?_
      by_cases arrow : kind = .arrow
      · subst arrow
        obtain ⟨later, split⟩ := next.content_eq (by simp)
        obtain rfl : after = ⟨.arrow, place, texts⟩ :: later := split
        exact action (taken rfl)
      · rw [if_neg arrow]
        refine nested (taken rfl) fun label starts => ?_
        cases after with
        | nil => simp at starts
        | cons first later =>
            obtain rfl : first = ⟨kind, place, texts⟩ := next.headD
            simp [Ne.symm arrow] at starts
  | leftBrace =>
      obtain ⟨after, split⟩ := following.content_eq (by simp)
      obtain rfl : rest = ⟨.leftBrace, place, texts⟩ :: after := split
      by_cases isGroup : name = Word.actions
      · rw [if_pos isGroup]
        have inside : Tracks target ⟨blocks, block :: outer, some position⟩ .statement [] limit _ :=
          named.pass rfl (if_pos isGroup)
        refine (gives_bump content).then ((gives_bump rfl).then ?_)
        exact (handles.group le inside).returning fun _ _ read => read
      · rw [if_neg isGroup]
        refine nested (taken ?_) (by simp)
        exact congrArg (fun reader : Reader => (reader.run after).finish view.final)
          (if_neg isGroup).symm
  | equals =>
      obtain ⟨after, split⟩ := following.content_eq (by simp)
      obtain rfl : rest = ⟨.equals, place, texts⟩ :: after := split
      exact parseSigned_ends handles le content named rfl
  | colon =>
      obtain ⟨after, split⟩ := following.content_eq (by simp)
      obtain rfl : rest = ⟨.colon, place, texts⟩ :: after := split
      exact parseSigned_ends handles le content named rfl
  | _ =>
      exact (gives_bump content).then
        (named.fails following (fun _ => rfl) rfl fun state given => given)

/-! ## Rounds -/

omit handles le in
/-- At the start of a round of a loop over statements, no bracket is open. -/
theorem Tracks.noted (here : Tracks target frame mode [] limit view) :
    Tracks target frame mode [] limit view.noted :=
  { here with
    closed := fun claimed round member => by
      rcases List.mem_append.1 member with earlier | now
      · exact here.closed claimed round earlier
      · exact (List.mem_singleton.1 now).trans (here.openValues_eq claimed) }

omit handles le in
/-- At the end of the file, an open block is reported and closed, and the blocks around it are left
to their own loops. -/
theorem View.outcome_unclosedBlock (content : view.content = []) :
    (view.reporting (.unclosedBlock block.kind block.label) block.position).released.outcome
        (Frame.addBlock ⟨blocks, outer, none⟩ { block with trailingComments := view.pending })
        .statementEnd =
      view.outcome ⟨blocks, block :: outer, none⟩ .statement := by
  have reported : (view.reporting (.unclosedBlock block.kind block.label)
      block.position).released.content = [] := content
  rw [View.outcome_nil content, View.outcome_nil reported]
  cases outer with
  | nil => rfl
  | cons parent outer =>
      refine Reader.ext rfl rfl rfl rfl rfl ?_
      exact List.append_assoc ..

omit handles le in
/-- At the end of the file, an open group is reported and closed. -/
theorem View.outcome_unclosedGroup {opened : Position} (content : view.content = []) :
    (view.reporting .unclosedGroup opened).outcome ⟨blocks, block :: outer, none⟩ .statementEnd =
      view.outcome ⟨blocks, block :: outer, some opened⟩ .statement := by
  have reported : (view.reporting .unclosedGroup opened).content = [] := content
  rw [View.outcome_nil content, View.outcome_nil reported]
  rfl

/-- A round of the loop over the statements of a block has read or skipped one, or the block has
ended. -/
def BlockTurned (target : Target) (blocks outer : List Block) (limit : Nat) :
    Loop.Turn .block → View → Prop :=
  Turned .block (fun block => Tracks target ⟨blocks, block :: outer, none⟩ .statement [] limit)
    (BlockRead target blocks outer (limit + 1))

theorem blockTurn_ends
    (here : Tracks target ⟨blocks, block :: outer, none⟩ .statement [] (limit + 1) view) :
    Ends (blockTurn loops block) view fun turn state =>
      BlockTurned target blocks outer limit turn state.view := by
  refine gives_noteRound.then ?_
  refine (handles.newlines (Nat.succ_le_succ le) (fun _ _ _ => rfl) here.noted).bind ?_
  rintro _ state ⟨here, past⟩
  refine ends_look_next fun kind position comments next => ?_
  have notNewline := past _ next
  cases kind with
  | newline => exact absurd rfl notNewline
  | rightBrace =>
      obtain ⟨rest, content⟩ := next.content_eq (by simp)
      refine (gives_bump content).then (.pure fun state same => same ▸ ?_)
      refine (here.take content ?_).weaken (Nat.le_succ _)
      cases outer <;> rfl
  | endOfFile =>
      refine (gives_report _ _).then (.pure fun state same => same ▸ ?_)
      exact here.move rfl rfl rfl (List.suffix_refl _) here.left
        (View.outcome_unclosedBlock (next.atEnd rfl).1)
  | identifier name =>
      obtain ⟨rest, content⟩ := next.content_eq (by simp)
      refine (parseStatement_ends handles le content here).bind fun after state read => ?_
      refine (settle_ends handles.toHandlesValues (Nat.le_succ_of_le le) read).returning ?_
      intro _ state settled
      cases after <;> exact settled
  | _ =>
      exact (skipStatement_ends handles.toHandlesValues (Nat.le_succ_of_le le) here next (by simp)
        rfl).returning fun _ _ read => read

/-- A round of the loop over the actions of a group has read or skipped one, or the group has
ended. -/
def GroupTurned (target : Target) (blocks outer : List Block) (opened : Position) (limit : Nat) :
    Loop.Turn (.group opened) → View → Prop :=
  Turned (.group opened)
    (fun block => Tracks target ⟨blocks, block :: outer, some opened⟩ .statement [] limit)
    (fun block => Tracks target ⟨blocks, block :: outer, none⟩ .statementEnd [] (limit + 1))

theorem groupTurn_ends {opened : Position}
    (here : Tracks target ⟨blocks, block :: outer, some opened⟩ .statement [] (limit + 1) view) :
    Ends (groupTurn loops opened block) view fun turn state =>
      GroupTurned target blocks outer opened limit turn state.view := by
  refine gives_noteRound.then ?_
  refine (handles.newlines (Nat.succ_le_succ le) (fun _ _ _ => rfl) here.noted).bind ?_
  rintro _ state ⟨here, past⟩
  refine ends_look_next fun kind position comments next => ?_
  have notNewline := past _ next
  cases kind with
  | newline => exact absurd rfl notNewline
  | rightBrace =>
      obtain ⟨rest, content⟩ := next.content_eq (by simp)
      refine (gives_bump content).then (.pure fun state same => same ▸ ?_)
      exact (here.bump content rfl).weaken (Nat.le_succ _)
  | endOfFile =>
      refine (gives_report _ _).then (.pure fun state same => same ▸ ?_)
      exact here.move rfl rfl rfl (List.suffix_refl _) here.left
        (View.outcome_unclosedGroup (next.atEnd rfl).1)
  | identifier method =>
      obtain ⟨rest, content⟩ := next.content_eq (by simp)
      have behind : Tracks target ⟨blocks, block :: outer, some opened⟩
          (.actionTarget (state.view.head method ⟨.identifier method, position, comments⟩)) [] limit
          _ := here.take content rfl
      refine (parseAction_ends content behind).bind fun action state read => ?_
      have added : PartRead target ⟨blocks, block :: outer, some opened⟩
          (fun after => ⟨blocks, after :: outer, some opened⟩) limit
          (action.map block.withAction) state.view := PartRead.map read
      refine (settle_ends handles.toHandlesValues (Nat.le_succ_of_le le) added).returning ?_
      intro _ state settled
      cases action <;> exact settled
  | _ =>
      exact (skipStatement_ends handles.toHandlesValues (Nat.le_succ_of_le le) here next (by simp)
        rfl).returning fun _ _ read => read

end Blocks

/-! ## Loops -/

theorem BlockRead.weaken {larger : Nat} (read : BlockRead target blocks outer limit block view)
    (le : limit ≤ larger) : BlockRead target blocks outer larger block view :=
  Tracks.weaken read le

/-- All loops inside of a document end, by the number of tokens that are left. -/
theorem handles_run (bound : Nat) : Handles (Loop.run (bound + 1)) bound := by
  induction bound with
  | zero =>
      exact
        { handlesValues_run 0 with
          block := fun le here => absurd here.left (by omega)
          group := fun le here => absurd here.left (by omega) }
  | succ bound inductionHypothesis =>
      refine { handlesValues_run (bound + 1) with block := ?_, group := ?_ }
      · intro target blocks outer block limit view le here
        obtain ⟨limit, rfl⟩ := here.limit_eq_succ
        have le := Nat.le_of_succ_le_succ le
        refine ends_run (blockTurn_ends inductionHypothesis le here) ?_ fun _ _ turned => turned
        intro block state turned
        exact (inductionHypothesis.block le turned).mono fun _ _ read =>
          read.weaken (Nat.le_succ _)
      · intro target blocks outer block opened limit view le here
        obtain ⟨limit, rfl⟩ := here.limit_eq_succ
        have le := Nat.le_of_succ_le_succ le
        refine ends_run (groupTurn_ends inductionHypothesis le here) ?_ fun _ _ turned => turned
        intro block state turned
        exact (inductionHypothesis.group le turned).mono fun _ _ read =>
          read.weaken (Nat.le_succ _)

end ServiceDef.Descent
