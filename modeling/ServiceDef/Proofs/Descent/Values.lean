import ServiceDef.Proofs.Descent.Tracking

/-!
# Skipping and values

The loops that only skip tokens, and the productions of values. Every round of such a loop that
does not leave it consumes a token, so that the loop ends; what a production reads or gives up is
what a reader reads or gives up.
-/

namespace ServiceDef

/-- The mode of a reader behind a complete value. -/
def Mode.completion (head : Head) (outer : List OpenValue) (value : Value) : Mode :=
  match outer with
  | [] =>
    .attributeEnd
      { key := head.name, value := value, comments := head.comments, position := head.position }
  | .list items :: outer => .value head (.itemEnd (items ++ [value]) outer)
  | .map entries key position :: outer =>
    .value head
      (.entryEnd (entries ++ [{ key := key, value := value, position := position }]) outer)

theorem Reader.complete_eq_enter (reader : Reader) (head : Head) (outer : List OpenValue)
    (value : Value) :
    reader.complete head outer value = reader.enter (.completion head outer value) := by
  unfold complete Mode.completion
  split <;> rfl

namespace Descent

/-- In the mode, a line break only leaves its comments. -/
def SkipsNewlines (frame : Frame) (mode : Mode) : Prop :=
  ∀ (view : View) (position : Position) (comments : List String),
    (view.reader frame mode).step ⟨.newline, position, comments⟩ =
      (view.reader frame mode).absorb ⟨.newline, position, comments⟩

/-- No line break comes next. -/
def View.PastNewlines (view : View) : Prop :=
  ∀ token, view.Next token → token.kind ≠ .newline

/-- Neither a line break nor a comma comes next. -/
def View.PastSeparators (view : View) : Prop :=
  ∀ token, view.Next token → token.kind ≠ .newline ∧ token.kind ≠ .comma

variable {target : Target} {frame : Frame} {mode : Mode} {brackets : List Bracket}
  {limit depth : Nat} {view : View}

/-! ## Skipping -/

/-- A round of the loop over line breaks consumes one, or none comes next. -/
theorem newlinesTurn_ends (skips : SkipsNewlines frame mode)
    (here : Tracks target frame mode brackets (limit + 1) view) :
    Ends newlinesTurn view fun turn state =>
      Turned .newlines (fun _ => Tracks target frame mode brackets limit)
        (fun _ view => Tracks target frame mode brackets (limit + 1) view ∧ view.PastNewlines)
        turn state.view := by
  refine ends_look_next fun kind position comments next => ?_
  have past (other : kind ≠ .newline) : view.PastNewlines := fun token found => by
    rw [found.unique next]
    exact other
  cases kind with
  | newline =>
      obtain ⟨rest, content⟩ := next.content_eq (by simp)
      refine (gives_bump content).then (.pure fun state same => ?_)
      rw [same]
      exact here.bump content (skips view position comments)
  | _ => exact .pure fun state same => same ▸ ⟨here, past (by simp)⟩

/-- A round of the loop over line breaks and commas consumes one, or none comes next. -/
theorem separatorsTurn_ends {head : Head} {entries : List (Entry Value)} {outer : List OpenValue}
    (here : Tracks target frame (.value head (.key entries outer)) brackets (limit + 1) view) :
    Ends separatorsTurn view fun turn state =>
      Turned .separators
        (fun _ => Tracks target frame (.value head (.key entries outer)) brackets limit)
        (fun _ view =>
          Tracks target frame (.value head (.key entries outer)) brackets (limit + 1) view ∧
            view.PastSeparators)
        turn state.view := by
  refine ends_look_next fun kind position comments next => ?_
  have past (notNewline : kind ≠ .newline) (notComma : kind ≠ .comma) : view.PastSeparators :=
    fun token found => by
      rw [found.unique next]
      exact ⟨notNewline, notComma⟩
  cases kind with
  | newline =>
      obtain ⟨rest, content⟩ := next.content_eq (by simp)
      exact (gives_bump content).then (.pure fun state same => same ▸ here.bump content rfl)
  | comma =>
      obtain ⟨rest, content⟩ := next.content_eq (by simp)
      exact (gives_bump content).then (.pure fun state same => same ▸ here.bump content rfl)
  | _ => exact .pure fun state same => same ▸ ⟨here, past (by simp) (by simp)⟩

/-- A round of the loop over a broken statement consumes a token, or the statement has ended. -/
theorem recoveryTurn_ends {opened : List Bracket}
    (here : Tracks target frame (.skipping opened) brackets (limit + 1) view) :
    Ends (recoveryTurn opened) view fun turn state =>
      Turned .recovery (fun opened => Tracks target frame (.skipping opened) brackets limit)
        (fun _ => Tracks target frame .statement brackets (limit + 1)) turn state.view := by
  refine ends_look_next fun kind position comments next => ?_
  have skip {others : List Bracket} (proper : kind ≠ .endOfFile)
      (step : ∀ reader : Reader, reader.stepSkipping opened ⟨kind, position, comments⟩ =
        (reader.absorb ⟨kind, position, comments⟩).enter (.skipping others)) :
      Ends (skipToken others) view fun turn state =>
        Turned .recovery (fun opened => Tracks target frame (.skipping opened) brackets limit)
          (fun _ => Tracks target frame .statement brackets (limit + 1)) turn state.view := by
    obtain ⟨rest, content⟩ := next.content_eq proper
    exact (gives_bump content).then
      (.pure fun state same => same ▸ here.bump content (step _))
  cases kind with
  | endOfFile =>
      have finished : Tracks target frame .statement brackets (limit + 1) view :=
        here.enter (by
          rw [View.outcome_nil (next.atEnd rfl).1, View.outcome_nil (next.atEnd rfl).1]
          rfl)
      exact .pure fun state same => same ▸ finished
  | newline =>
      cases opened with
      | nil => exact .pure fun state same => same ▸ here.switch next (by simp) rfl
      | cons bracket opened => exact skip (by simp) fun reader => rfl
  | leftBrace => exact skip (by simp) fun reader => rfl
  | leftBracket => exact skip (by simp) fun reader => rfl
  | rightBrace =>
      by_cases isOpen : .curly ∈ opened
      · simp only [isOpen, if_true]
        exact skip (by simp) fun reader => by simp [Reader.stepSkipping, isOpen]
      · simp only [isOpen, if_false]
        have step : (view.reader frame .statement).step ⟨.rightBrace, position, comments⟩ =
            (view.reader frame (.skipping opened)).step ⟨.rightBrace, position, comments⟩ := by
          refine ((view.reader frame .statement).close_enter (.skipping opened) _).symm.trans ?_
          exact (if_neg isOpen).symm
        exact .pure fun state same => same ▸ here.switch next (by simp) step
  | rightBracket =>
      by_cases isOpen : .square ∈ opened
      · simp only [isOpen, if_true]
        exact skip (by simp) fun reader => by simp [Reader.stepSkipping, isOpen]
      · simp only [isOpen, if_false]
        exact skip (by simp) fun reader => by simp [Reader.stepSkipping, isOpen]
  | _ => exact skip (by simp) fun reader => rfl

/-! ## Values -/

/-- What has been read is a value in front of which lists and maps were open, or it has been
given up. -/
def ValueRead (target : Target) (frame : Frame) (head : Head) (outer : List OpenValue)
    (limit : Nat) : Option Value → View → Prop
  | some value, view =>
    Tracks target frame (.completion head outer value) (outer.map OpenValue.bracket) limit view
  | none, view => GivenUp target frame (limit + 1) view

/-- What has been read are the items of a list in front of its closing bracket, or it has been
given up. -/
def ListRead (target : Target) (frame : Frame) (head : Head) (outer : List OpenValue)
    (limit : Nat) : Option (List Value) → View → Prop
  | some items, view =>
    Tracks target frame (.value head (.item items outer))
        (.square :: outer.map OpenValue.bracket) limit view ∧
      ∃ position comments rest, view.content = ⟨.rightBracket, position, comments⟩ :: rest
  | none, view => GivenUp target frame limit view

/-- What has been read are the entries of a map in front of its closing brace, or it has been
given up. -/
def MapRead (target : Target) (frame : Frame) (head : Head) (outer : List OpenValue)
    (limit : Nat) : Option (List (Entry Value)) → View → Prop
  | some entries, view =>
    Tracks target frame (.value head (.key entries outer))
        (.curly :: outer.map OpenValue.bracket) limit view ∧
      ∃ position comments rest, view.content = ⟨.rightBrace, position, comments⟩ :: rest
  | none, view => GivenUp target frame limit view

theorem ListRead.weaken {head : Head} {outer : List OpenValue} {larger : Nat}
    (le : limit ≤ larger) : {result : Option (List Value)} →
      ListRead target frame head outer limit result view →
      ListRead target frame head outer larger result view
  | some _, ⟨here, closing⟩ => ⟨here.weaken le, closing⟩
  | none, given => GivenUp.weaken given le

theorem MapRead.weaken {head : Head} {outer : List OpenValue} {larger : Nat}
    (le : limit ≤ larger) : {result : Option (List (Entry Value))} →
      MapRead target frame head outer limit result view →
      MapRead target frame head outer larger result view
  | some _, ⟨here, closing⟩ => ⟨here.weaken le, closing⟩
  | none, given => GivenUp.weaken given le

/-- A round of the loop over the items of a list has read one of them or ended the list. -/
def ListTurned (target : Target) (frame : Frame) (head : Head) (outer : List OpenValue)
    (limit : Nat) : Loop.Turn .list → View → Prop :=
  Turned .list
    (fun items => Tracks target frame (.value head (.item items outer))
      (.square :: outer.map OpenValue.bracket) limit)
    (ListRead target frame head outer (limit + 1))

/-- A round of the loop over the entries of a map has read one of them or ended the map. -/
def MapTurned (target : Target) (frame : Frame) (head : Head) (outer : List OpenValue)
    (limit : Nat) : Loop.Turn .map → View → Prop :=
  Turned .map
    (fun entries => Tracks target frame (.value head (.key entries outer))
      (.curly :: outer.map OpenValue.bracket) limit)
    (MapRead target frame head outer (limit + 1))

/-- The loops end when few enough tokens are left: those that only skip when at most `bound` are
left, lists and maps when less than `bound` are left. -/
structure HandlesValues (loops : Loops) (bound : Nat) : Prop where
  newlines {target : Target} {frame : Frame} {mode : Mode} {brackets : List Bracket} {limit : Nat}
      {view : View} : limit ≤ bound + 1 → SkipsNewlines frame mode →
    Tracks target frame mode brackets limit view →
    Ends (loops .newlines ()) view fun _ state =>
      Tracks target frame mode brackets limit state.view ∧ state.view.PastNewlines
  separators {target : Target} {frame : Frame} {head : Head} {entries : List (Entry Value)}
      {outer : List OpenValue} {brackets : List Bracket} {limit : Nat} {view : View} :
    limit ≤ bound + 1 →
    Tracks target frame (.value head (.key entries outer)) brackets limit view →
    Ends (loops .separators ()) view fun _ state =>
      Tracks target frame (.value head (.key entries outer)) brackets limit state.view ∧
        state.view.PastSeparators
  recovery {target : Target} {frame : Frame} {opened brackets : List Bracket} {limit : Nat}
      {view : View} : limit ≤ bound + 1 →
    Tracks target frame (.skipping opened) brackets limit view →
    Ends (loops .recovery opened) view fun _ state =>
      Tracks target frame .statement brackets limit state.view
  list {target : Target} {frame : Frame} {head : Head} {items : List Value}
      {outer : List OpenValue} {limit : Nat} {view : View} : limit ≤ bound →
    Tracks target frame (.value head (.item items outer))
      (.square :: outer.map OpenValue.bracket) limit view →
    Ends (loops .list items) view fun result state =>
      ListRead target frame head outer limit result state.view
  map {target : Target} {frame : Frame} {head : Head} {entries : List (Entry Value)}
      {outer : List OpenValue} {limit : Nat} {view : View} : limit ≤ bound →
    Tracks target frame (.value head (.key entries outer))
      (.curly :: outer.map OpenValue.bracket) limit view →
    Ends (loops .map entries) view fun result state =>
      MapRead target frame head outer limit result state.view

/-- In front of an item, a list is like any place for a value. -/
theorem item_as_value {head : Head} {outer : List OpenValue} {items : List Value}
    {token : Token} (next : view.Next token) (notNewline : token.kind ≠ .newline)
    (notBracket : token.kind ≠ .rightBracket)
    (here : Tracks target frame (.value head (.item items outer)) brackets limit view) :
    Tracks target frame (.value head (.value (.list items :: outer))) brackets limit view := by
  refine here.enter (View.outcome_eq_of_next next rfl rfl ?_)
  obtain ⟨kind, position, comments⟩ := token
  cases kind with
  | newline => exact absurd rfl notNewline
  | rightBracket => exact absurd rfl notBracket
  | _ => rfl

section Productions

variable {loops : Loops} {bound : Nat} (handles : HandlesValues loops bound) {head : Head}
  {outer : List OpenValue}

include handles

theorem parseValue_ends (le : limit ≤ bound)
    (here : Tracks target frame (.value head (.value outer)) (outer.map OpenValue.bracket)
      (limit + 1) view) :
    Ends (parseValue loops) view fun result state =>
      ValueRead target frame head outer limit result state.view := by
  refine ends_look_next fun kind position comments next => ?_
  have scalar {value : Value} (proper : kind ≠ .endOfFile)
      (step : ∀ reader : Reader, reader.stepValue head outer ⟨kind, position, comments⟩ =
        (reader.absorb ⟨kind, position, comments⟩).complete head outer value) :
      Ends (do let _ ← bump; return some value) view fun result state =>
        ValueRead target frame head outer limit result state.view := by
    obtain ⟨rest, content⟩ := next.content_eq proper
    refine (gives_bump content).then (.pure fun state same => same ▸ here.bump content ?_)
    exact (step _).trans (Reader.complete_eq_enter ..)
  cases kind with
  | string contents => exact scalar (by simp) fun reader => rfl
  | number lexeme => exact scalar (by simp) fun reader => rfl
  | boolean value => exact scalar (by simp) fun reader => rfl
  | leftBracket =>
      obtain ⟨rest, content⟩ := next.content_eq (by simp)
      have inside : Tracks target frame (.value head (.item [] outer)) (outer.map OpenValue.bracket)
          limit (view.behind ⟨.leftBracket, position, comments⟩ rest) := here.bump content rfl
      refine (gives_bump content).then ((gives_openValue .square).then ?_)
      refine (handles.list le (inside.openValue .square)).bind fun result state read => ?_
      cases result with
      | none => exact .pure fun state same => same ▸ read.weaken (Nat.le_succ _)
      | some items =>
          obtain ⟨atEnd, position, comments, rest, content⟩ := read
          refine (gives_bump content).then (gives_closeValue.then (.pure fun state same => ?_))
          rw [same]
          refine Tracks.closeValue (atEnd.pass content ?_)
          exact Reader.complete_eq_enter ..
  | leftBrace =>
      obtain ⟨rest, content⟩ := next.content_eq (by simp)
      have inside : Tracks target frame (.value head (.key [] outer)) (outer.map OpenValue.bracket)
          limit (view.behind ⟨.leftBrace, position, comments⟩ rest) := here.bump content rfl
      refine (gives_bump content).then ((gives_openValue .curly).then ?_)
      refine (handles.map le (inside.openValue .curly)).bind fun result state read => ?_
      cases result with
      | none => exact .pure fun state same => same ▸ read.weaken (Nat.le_succ _)
      | some entries =>
          obtain ⟨atEnd, position, comments, rest, content⟩ := read
          refine (gives_bump content).then (gives_closeValue.then (.pure fun state same => ?_))
          rw [same]
          refine Tracks.closeValue (atEnd.pass content ?_)
          exact Reader.complete_eq_enter ..
  | _ => exact here.fails next (fun _ => rfl) rfl fun state given => given

/-- An item and the comma behind it are consumed, or the list ends or is given up. -/
theorem parseItem_ends {items : List Value} (le : limit ≤ bound)
    (here : Tracks target frame (.value head (.value (.list items :: outer)))
      (.square :: outer.map OpenValue.bracket) (limit + 1) view) :
    Ends (parseItem loops items) view fun turn state =>
      ListTurned target frame head outer limit turn state.view := by
  refine (parseValue_ends handles le here).bind fun result state read => ?_
  cases result with
  | none => exact .pure fun state same => same ▸ read
  | some item =>
      have skips : SkipsNewlines frame (.value head (.itemEnd (items ++ [item]) outer)) :=
        fun _ _ _ => rfl
      refine (handles.newlines (Nat.le_succ_of_le le) skips read).bind ?_
      rintro _ state ⟨here, past⟩
      refine ends_look_next fun kind position comments next => ?_
      have notNewline := past _ next
      cases kind with
      | newline => exact absurd rfl notNewline
      | comma =>
          obtain ⟨rest, content⟩ := next.content_eq (by simp)
          exact (gives_bump content).then (.pure fun state same => same ▸ here.pass content rfl)
      | rightBracket =>
          obtain ⟨rest, content⟩ := next.content_eq (by simp)
          have closing : Tracks target frame (.value head (.item (items ++ [item]) outer))
              (.square :: outer.map OpenValue.bracket) limit state.view :=
            here.switch next (by simp) rfl
          exact .pure fun state same => same ▸
            ⟨closing.weaken (Nat.le_succ _), position, comments, rest, content⟩
      | _ =>
          exact here.fails next (fun _ => rfl) rfl fun state given =>
            given.weaken (Nat.le_succ _)

theorem listTurn_ends {items : List Value} (le : limit ≤ bound)
    (here : Tracks target frame (.value head (.item items outer))
      (.square :: outer.map OpenValue.bracket) (limit + 1) view) :
    Ends (listTurn loops items) view fun turn state =>
      ListTurned target frame head outer limit turn state.view := by
  refine (handles.newlines (Nat.succ_le_succ le) (fun _ _ _ => rfl) here).bind ?_
  rintro _ state ⟨here, past⟩
  refine ends_look_next fun kind position comments next => ?_
  have notNewline := past _ next
  cases kind with
  | newline => exact absurd rfl notNewline
  | rightBracket =>
      obtain ⟨rest, content⟩ := next.content_eq (by simp)
      exact .pure fun state same => same ▸ ⟨here, position, comments, rest, content⟩
  | _ => exact parseItem_ends handles le (item_as_value next (by simp) (by simp) here)

/-- The value of an entry is consumed, or the map is given up. -/
theorem parseEntryValue_ends {entries : List (Entry Value)} {key : String} {position : Position}
    (le : limit ≤ bound)
    (here : Tracks target frame (.value head (.value (.map entries key position :: outer)))
      (.curly :: outer.map OpenValue.bracket) (limit + 1) view) :
    Ends (parseEntryValue loops entries key position) view fun turn state =>
      MapTurned target frame head outer limit turn state.view := by
  refine (parseValue_ends handles le here).bind fun result state read => ?_
  cases result with
  | none => exact .pure fun state same => same ▸ read
  | some value =>
      refine ends_look_next fun kind sign comments next => ?_
      cases kind with
      -- Behind an entry, the reader treats what can follow as in front of a key.
      | newline => exact .pure fun state same => same ▸ Tracks.switch read next (by simp) rfl
      | comma => exact .pure fun state same => same ▸ Tracks.switch read next (by simp) rfl
      | rightBrace => exact .pure fun state same => same ▸ Tracks.switch read next (by simp) rfl
      | _ =>
          exact Tracks.fails read next (fun _ => rfl) rfl fun state given =>
            given.weaken (Nat.le_succ _)

/-- An entry is consumed behind its key, or the map is given up. -/
theorem parseEntry_ends {entries : List (Entry Value)} {key : String} {position : Position}
    (le : limit ≤ bound)
    (here : Tracks target frame (.value head (.keyEnd entries key position outer))
      (.curly :: outer.map OpenValue.bracket) (limit + 1) view) :
    Ends (parseEntry loops entries key position) view fun turn state =>
      MapTurned target frame head outer limit turn state.view := by
  refine ends_look_next fun kind sign comments next => ?_
  have signed (proper : kind ≠ .endOfFile)
      (step : ∀ rest, (view.reader frame (.value head (.keyEnd entries key position outer))).step
          ⟨kind, sign, comments⟩ =
        (view.behind ⟨kind, sign, comments⟩ rest).reader frame
          (.value head (.value (.map entries key position :: outer)))) :
      Ends (do let _ ← bump; parseEntryValue loops entries key position) view
        fun turn state => MapTurned target frame head outer limit turn state.view := by
    obtain ⟨rest, content⟩ := next.content_eq proper
    have value := here.bump content (step _)
    exact (gives_bump content).then
      (parseEntryValue_ends handles le (value.weaken (Nat.le_succ _)))
  cases kind with
  | equals => exact signed (by simp) fun rest => rfl
  | colon => exact signed (by simp) fun rest => rfl
  | _ => exact here.fails next (fun _ => rfl) rfl fun state given => given

theorem mapTurn_ends {entries : List (Entry Value)} (le : limit ≤ bound)
    (here : Tracks target frame (.value head (.key entries outer))
      (.curly :: outer.map OpenValue.bracket) (limit + 1) view) :
    Ends (mapTurn loops entries) view fun turn state =>
      MapTurned target frame head outer limit turn state.view := by
  refine (handles.separators (Nat.succ_le_succ le) here).bind ?_
  rintro _ state ⟨here, past⟩
  refine ends_look_next fun kind position comments next => ?_
  have notSeparator := past _ next
  cases kind with
  | newline => exact absurd rfl notSeparator.1
  | comma => exact absurd rfl notSeparator.2
  | rightBrace =>
      obtain ⟨rest, content⟩ := next.content_eq (by simp)
      exact .pure fun state same => same ▸ ⟨here, position, comments, rest, content⟩
  | identifier key =>
      obtain ⟨rest, content⟩ := next.content_eq (by simp)
      have named : Tracks target frame (.value head (.keyEnd entries key position outer))
          (.curly :: outer.map OpenValue.bracket) limit _ := here.bump content rfl
      exact (gives_bump content).then
        (parseEntry_ends handles le (named.weaken (Nat.le_succ _)))
  | _ => exact here.fails next (fun _ => rfl) rfl fun state given => given

end Productions

/-! ## Loops -/

/-- The loop over line breaks ends. -/
theorem run_newlines_ends (le : limit ≤ depth) (skips : SkipsNewlines frame mode)
    (here : Tracks target frame mode brackets limit view) :
    Ends (Loop.run depth .newlines ()) view fun _ state =>
      Tracks target frame mode brackets limit state.view ∧ state.view.PastNewlines :=
  ends_run_of_turns .newlines (fun limit _ view => Tracks target frame mode brackets limit view)
    (fun limit _ view => Tracks target frame mode brackets limit view ∧ view.PastNewlines)
    Tracks.left (newlinesTurn_ends skips)
    (fun ⟨here, past⟩ => ⟨here.weaken (Nat.le_succ _), past⟩) le here

/-- The loop over line breaks and commas ends. -/
theorem run_separators_ends {head : Head} {entries : List (Entry Value)} {outer : List OpenValue}
    (le : limit ≤ depth)
    (here : Tracks target frame (.value head (.key entries outer)) brackets limit view) :
    Ends (Loop.run depth .separators ()) view fun _ state =>
      Tracks target frame (.value head (.key entries outer)) brackets limit state.view ∧
        state.view.PastSeparators :=
  ends_run_of_turns .separators
    (fun limit _ view =>
      Tracks target frame (.value head (.key entries outer)) brackets limit view)
    (fun limit _ view =>
      Tracks target frame (.value head (.key entries outer)) brackets limit view ∧
        view.PastSeparators)
    Tracks.left separatorsTurn_ends
    (fun ⟨here, past⟩ => ⟨here.weaken (Nat.le_succ _), past⟩) le here

/-- The loop over a broken statement ends. -/
theorem run_recovery_ends {opened : List Bracket} (le : limit ≤ depth)
    (here : Tracks target frame (.skipping opened) brackets limit view) :
    Ends (Loop.run depth .recovery opened) view fun _ state =>
      Tracks target frame .statement brackets limit state.view :=
  ends_run_of_turns .recovery
    (fun limit opened view => Tracks target frame (.skipping opened) brackets limit view)
    (fun limit _ view => Tracks target frame .statement brackets limit view)
    Tracks.left recoveryTurn_ends (fun here => here.weaken (Nat.le_succ _)) le here

/-- The loops that only skip and those of values end, by the number of tokens that are left. -/
theorem handlesValues_run (bound : Nat) : HandlesValues (Loop.run (bound + 1)) bound := by
  induction bound with
  | zero =>
      exact
        { newlines := run_newlines_ends
          separators := run_separators_ends
          recovery := run_recovery_ends
          list := fun le here => absurd here.left (by omega)
          map := fun le here => absurd here.left (by omega) }
  | succ bound inductionHypothesis =>
      refine
        { newlines := run_newlines_ends
          separators := run_separators_ends
          recovery := run_recovery_ends
          list := ?_
          map := ?_ }
      · intro target frame head items outer limit view le here
        obtain ⟨limit, rfl⟩ := here.limit_eq_succ
        have le := Nat.le_of_succ_le_succ le
        refine ends_run (listTurn_ends inductionHypothesis le here) ?_ fun _ _ turned => turned
        intro items state turned
        exact (inductionHypothesis.list le turned).mono fun _ _ => .weaken (Nat.le_succ _)
      · intro target frame head entries outer limit view le here
        obtain ⟨limit, rfl⟩ := here.limit_eq_succ
        have le := Nat.le_of_succ_le_succ le
        refine ends_run (mapTurn_ends inductionHypothesis le here) ?_ fun _ _ turned => turned
        intro entries state turned
        exact (inductionHypothesis.map le turned).mono fun _ _ => .weaken (Nat.le_succ _)

end Descent

end ServiceDef
