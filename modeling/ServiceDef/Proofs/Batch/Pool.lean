import Mathlib.Logic.Relation
import ServiceDef.Batch

/-!
# A pool of workers

A batch is run by a dispatcher and some workers, which share two channels. The dispatcher sends the
indices of the files over a channel that holds one index per worker; the workers run the job and
send back results with their indices over a channel without a bound. The dispatcher sends all
indices before it takes a result, stores each result in the slot of its index, and returns when no
worker is left.

`Pool.Step` is one step of any of them. Channels keep the order of their messages, hand out each
message once, and are closed for one side once all of the other side are gone. The cancel token can
be raised by others at any time, which `Pool.Reachable` allows between any two steps.
-/

namespace ServiceDef

/-- What a worker is doing. -/
inductive Worker (α : Type) where
  /-- It waits for an index. -/
  | waiting
  /-- It has an index and is about to run the job. -/
  | working (index : Nat)
  /-- It has run the job and is about to send the result. -/
  | reporting (index : Nat) (result : Except Failure α)
  | stopped

/-- What the dispatcher is doing. -/
inductive Phase (α : Type) where
  /-- It is about to look at the cancel token, in front of the next index. -/
  | offering
  /-- It is about to send the next index. -/
  | sending
  /-- It has closed the channel of indices and takes results. -/
  | collecting
  | returned (results : List (Except Failure α))

/-- A pool between two steps. -/
structure Pool (α : Type) where
  phase : Phase α
  /-- How many indices have been sent, which is also the next index. -/
  sent : Nat := 0
  workers : List (Worker α)
  /-- The indices on their way to the workers. -/
  queue : List Nat := []
  /-- The results on their way to the dispatcher. -/
  results : List (Nat × Except Failure α) := []
  slots : List (Option (Except Failure α))
  /-- Whether the cancel token is raised. -/
  raised : Bool
  /-- The indices whose job has been run, in this order. -/
  calls : List Nat := []

/-- Whether the dispatcher has closed the channel of indices. -/
def Phase.isClosed {α : Type} : Phase α → Bool
  | .offering | .sending => false
  | .collecting | .returned _ => true

/-- The index that a worker has taken and not reported yet. -/
def Worker.held {α : Type} : Worker α → List Nat
  | .working index => [index]
  | .reporting index _ => [index]
  | .waiting | .stopped => []

/-- The index that a worker has taken and not run yet. -/
def Worker.assigned {α : Type} : Worker α → List Nat
  | .working index => [index]
  | .waiting | .reporting _ _ | .stopped => []

namespace Pool

variable {α : Type}

/-- The results in the order of the paths; a slot without a result stands for a file that was never
sent. -/
def outcome (paths : List String) (slots : List (Option (Except Failure α))) :
    List (Except Failure α) :=
  List.zipWith (fun slot path => slot.getD (.error (.cancelled path))) slots paths

/-- The pool at the start of a batch. Without files, there is nothing to do. -/
def start (options : BatchOptions) (processors : Nat) (paths : List String) : Pool α :=
  match paths with
  | [] => { phase := .returned [], workers := [], slots := [], raised := options.cancelled }
  | _ :: _ =>
    { phase := .offering
      workers := List.replicate (options.workerCount processors paths.length) .waiting
      slots := paths.map fun _ => none
      raised := options.cancelled }

variable (job : String → Except Failure α) (paths : List String)

/-- One step of the dispatcher or of a worker. -/
inductive Step : Pool α → Pool α → Prop
  /-- The token is not raised, and the next index is sent next. -/
  | offer {pool : Pool α} (atLoop : pool.phase = .offering) (more : pool.sent < paths.length)
      (lowered : pool.raised = false) : Step pool { pool with phase := .sending }
  /-- The token is raised or all indices are sent, and the channel is closed. -/
  | close {pool : Pool α} (atLoop : pool.phase = .offering)
      (ended : pool.raised = true ∨ paths.length ≤ pool.sent) :
      Step pool { pool with phase := .collecting }
  /-- The channel has room, and a worker is there to read from it. -/
  | send {pool : Pool α} (atSend : pool.phase = .sending)
      (room : pool.queue.length < pool.workers.length)
      (heard : ∃ worker ∈ pool.workers, worker ≠ .stopped) :
      Step pool
        { pool with phase := .offering, sent := pool.sent + 1, queue := pool.queue ++ [pool.sent] }
  /-- No worker is left to send to. -/
  | refuse {pool : Pool α} (atSend : pool.phase = .sending)
      (gone : ∀ worker ∈ pool.workers, worker = .stopped) :
      Step pool { pool with phase := .collecting }
  /-- A worker takes the first index of the channel. -/
  | receive {pool : Pool α} {before after : List (Worker α)} {index : Nat} {queue : List Nat}
      (turn : pool.workers = before ++ .waiting :: after) (first : pool.queue = index :: queue) :
      Step pool { pool with workers := before ++ .working index :: after, queue := queue }
  /-- A worker finds the channel empty and closed. -/
  | stop {pool : Pool α} {before after : List (Worker α)}
      (turn : pool.workers = before ++ .waiting :: after) (empty : pool.queue = [])
      (closed : pool.phase.isClosed = true) :
      Step pool { pool with workers := before ++ .stopped :: after }
  /-- A worker runs the job. -/
  | call {pool : Pool α} {before after : List (Worker α)} {index : Nat} {path : String}
      (turn : pool.workers = before ++ .working index :: after)
      (named : paths[index]? = some path) :
      Step pool
        { pool with
          workers := before ++ .reporting index (job path) :: after
          calls := pool.calls ++ [index] }
  /-- A worker sends its result. -/
  | report {pool : Pool α} {before after : List (Worker α)} {index : Nat}
      {result : Except Failure α} (turn : pool.workers = before ++ .reporting index result :: after)
      (heard : ∀ results, pool.phase ≠ .returned results) :
      Step pool
        { pool with
          workers := before ++ .waiting :: after
          results := pool.results ++ [(index, result)] }
  /-- A worker finds nobody to send its result to. -/
  | abandon {pool : Pool α} {before after : List (Worker α)} {index : Nat}
      {result : Except Failure α} {results : List (Except Failure α)}
      (turn : pool.workers = before ++ .reporting index result :: after)
      (gone : pool.phase = .returned results) :
      Step pool { pool with workers := before ++ .stopped :: after }
  /-- The dispatcher stores the first result of the channel. -/
  | collect {pool : Pool α} {index : Nat} {result : Except Failure α}
      {results : List (Nat × Except Failure α)} (collecting : pool.phase = .collecting)
      (first : pool.results = (index, result) :: results) :
      Step pool { pool with slots := pool.slots.set index (some result), results := results }
  /-- The dispatcher finds the channel of results empty and closed. -/
  | finish {pool : Pool α} (collecting : pool.phase = .collecting) (empty : pool.results = [])
      (gone : ∀ worker ∈ pool.workers, worker = .stopped) :
      Step pool { pool with phase := .returned (outcome paths pool.slots) }

/-- The pools that a batch can come to, when the cancel token can be raised at any time. -/
inductive Reachable (options : BatchOptions) (processors : Nat) : Pool α → Prop
  | start : Reachable options processors (start options processors paths)
  | step {pool next : Pool α} (reached : Reachable options processors pool)
      (step : Step job paths pool next) : Reachable options processors next
  | raise {pool : Pool α} (reached : Reachable options processors pool) :
      Reachable options processors { pool with raised := true }

/-- Some steps of the dispatcher and the workers. -/
abbrev Steps : Pool α → Pool α → Prop :=
  Relation.ReflTransGen (Step job paths)

variable {job} {paths} {pool next : Pool α}

/-! ## Control -/

variable (paths) in
/-- Workers stop only behind the last index, the channel of indices is closed behind all of them
unless the token is raised, and nothing is left when the dispatcher returns. -/
structure Orderly (pool : Pool α) : Prop where
  staffed : (∀ results, pool.phase ≠ .returned results) → pool.workers ≠ []
  stopped : .stopped ∈ pool.workers → pool.phase.isClosed = true ∧ pool.queue = []
  exhausted : pool.phase.isClosed = true → pool.raised = false → paths.length ≤ pool.sent
  returned : ∀ results, pool.phase = .returned results →
    results = outcome paths pool.slots ∧ pool.queue = [] ∧ pool.results = [] ∧
      ∀ worker ∈ pool.workers, worker = .stopped

namespace Orderly

theorem start (options : BatchOptions) (processors : Nat) :
    Orderly paths (Pool.start options processors paths : Pool α) := by
  cases paths with
  | nil =>
      exact ⟨by simp [Pool.start], by simp [Pool.start], by simp, by simp [Pool.start, outcome]⟩
  | cons path paths =>
      have some : options.workerCount processors (path :: paths).length ≠ 0 := by
        simp [BatchOptions.workerCount]
      refine ⟨fun _ => ?_, ?_, by simp [Pool.start, Phase.isClosed], by simp [Pool.start]⟩
      · simpa [Pool.start] using some
      · simp [Pool.start]

/-- No worker has stopped as long as indices can be sent. -/
theorem not_stopped (orderly : Orderly paths pool) (isOpen : pool.phase.isClosed = false) :
    .stopped ∉ pool.workers := by
  intro stopped
  rw [(orderly.stopped stopped).1] at isOpen
  cases isOpen

/-- A worker that has not stopped is waited for. -/
theorem not_returned (orderly : Orderly paths pool) {before after : List (Worker α)}
    {worker : Worker α} (turn : pool.workers = before ++ worker :: after)
    (active : worker ≠ .stopped) (results : List (Except Failure α)) :
    pool.phase ≠ .returned results := by
  intro returned
  obtain ⟨-, -, -, gone⟩ := orderly.returned results returned
  exact active (gone worker (by simp [turn]))

/-- Another turn of a worker that has not stopped. -/
theorem turn (orderly : Orderly paths pool) {before after : List (Worker α)}
    {worker : Worker α} (turn : pool.workers = before ++ worker :: after)
    (active : worker ≠ .stopped) {next : Pool α} {changed : Worker α}
    (workers : next.workers = before ++ changed :: after) (phase : next.phase = pool.phase)
    (sent : next.sent = pool.sent) (raised : next.raised = pool.raised)
    (queue : pool.queue = [] → next.queue = [])
    (stopped : changed = .stopped → pool.phase.isClosed = true ∧ pool.queue = []) :
    Orderly paths next := by
  refine ⟨by simp [workers], fun member => ?_, ?_, fun results returned => ?_⟩
  · have before : pool.phase.isClosed = true ∧ pool.queue = [] := by
      rw [workers, List.mem_append, List.mem_cons] at member
      rcases member with left | here | right
      · exact orderly.stopped (by simp [turn, left])
      · exact stopped here.symm
      · exact orderly.stopped (by simp [turn, right])
    rw [phase]
    exact ⟨before.1, queue before.2⟩
  · rw [phase, sent, raised]
    exact orderly.exhausted
  · rw [phase] at returned
    exact absurd returned (orderly.not_returned turn active results)

theorem step (orderly : Orderly paths pool) (step : Step job paths pool next) :
    Orderly paths next := by
  cases step with
  | offer atLoop more lowered =>
      have working := orderly.not_stopped (by rw [atLoop]; rfl)
      exact ⟨fun _ => orderly.staffed (by simp [atLoop]), fun stopped => absurd stopped working,
        by simp [Phase.isClosed], by simp⟩
  | close atLoop ended =>
      have working := orderly.not_stopped (by rw [atLoop]; rfl)
      refine ⟨fun _ => orderly.staffed (by simp [atLoop]), fun stopped => absurd stopped working,
        fun _ lowered => ?_, by simp⟩
      exact ended.resolve_left (by simpa using lowered)
  | send atSend room heard =>
      have working := orderly.not_stopped (by rw [atSend]; rfl)
      exact ⟨fun _ => orderly.staffed (by simp [atSend]), fun stopped => absurd stopped working,
        by simp [Phase.isClosed], by simp⟩
  | refuse atSend gone =>
      -- The workers are all there, since the channel has not been closed.
      have working := orderly.not_stopped (by rw [atSend]; rfl)
      obtain ⟨worker, member⟩ := List.exists_mem_of_ne_nil _ (orderly.staffed (by simp [atSend]))
      rw [gone worker member] at member
      exact absurd member working
  | receive turn first =>
      exact orderly.turn turn (by simp) rfl rfl rfl rfl (by simp [first]) (by simp)
  | stop turn empty closed =>
      exact orderly.turn turn (by simp) rfl rfl rfl rfl id fun _ => ⟨closed, empty⟩
  | call turn named => exact orderly.turn turn (by simp) rfl rfl rfl rfl id (by simp)
  | report turn heard => exact orderly.turn turn (by simp) rfl rfl rfl rfl id (by simp)
  | abandon turn gone => exact absurd gone (orderly.not_returned turn (by simp) _)
  | collect collecting first =>
      exact ⟨fun _ => orderly.staffed (by simp [collecting]), orderly.stopped, orderly.exhausted,
        by simp [collecting]⟩
  | finish collecting empty gone =>
      obtain ⟨worker, member⟩ :=
        List.exists_mem_of_ne_nil _ (orderly.staffed (by simp [collecting]))
      have stopped := member
      rw [gone worker member] at stopped
      refine ⟨by simp, fun _ => ⟨rfl, (orderly.stopped stopped).2⟩, fun _ => ?_, ?_⟩
      · exact orderly.exhausted (by rw [collecting]; rfl)
      · rintro results ⟨⟩
        exact ⟨rfl, (orderly.stopped stopped).2, empty, gone⟩

end Orderly

/-! ## Accounting

Each index that has been sent is in one place: on its way to a worker, with a worker, on its way
back, or in its slot.
-/

/-- How many times an index is in the pool. -/
def load (pool : Pool α) (index : Nat) : Nat :=
  pool.queue.count index + (pool.workers.flatMap Worker.held).count index +
    (pool.results.map Prod.fst).count index + if (pool.slots[index]?).join.isSome then 1 else 0

/-- How many times the job of an index has been run or is still to be run. -/
def dues (pool : Pool α) (index : Nat) : Nat :=
  pool.queue.count index + (pool.workers.flatMap Worker.assigned).count index +
    pool.calls.count index

variable (paths) in
/-- Every index that has been sent is in the pool once, and its job is run once. -/
structure Accounted (pool : Pool α) : Prop where
  slots : pool.slots.length = paths.length
  sent : pool.sent ≤ paths.length
  sending : pool.phase = .sending → pool.sent < paths.length
  load : ∀ index, pool.load index = if index < pool.sent then 1 else 0
  dues : ∀ index, pool.dues index = if index < pool.sent then 1 else 0

/-- The indices of one worker count beside those of the others. -/
theorem count_flatMap_turn (part : Worker α → List Nat) (before after : List (Worker α))
    (worker : Worker α) (index : Nat) :
    ((before ++ worker :: after).flatMap part).count index =
      (part worker).count index + ((before ++ after).flatMap part).count index := by
  simp only [List.flatMap_append, List.flatMap_cons, List.count_append]
  omega

theorem Accounted.step (accounted : Accounted paths pool) (orderly : Orderly paths pool)
    (step : Step job paths pool next) :
    Accounted paths next := by
  obtain ⟨slots, sent, sending, load, dues⟩ := accounted
  cases step with
  | offer atLoop more lowered => exact ⟨slots, sent, fun _ => more, load, dues⟩
  | close atLoop ended => exact ⟨slots, sent, by simp, load, dues⟩
  | send atSend room heard =>
      refine ⟨slots, sending atSend, by simp, fun index => ?_, fun index => ?_⟩
      · have before := load index
        simp only [Pool.load, List.count_append, List.count_singleton] at before ⊢
        grind
      · have before := dues index
        simp only [Pool.dues, List.count_append, List.count_singleton] at before ⊢
        grind
  | refuse atSend gone => exact ⟨slots, sent, by simp, load, dues⟩
  | receive turn first =>
      refine ⟨slots, sent, sending, fun index => ?_, fun index => ?_⟩
      · rw [← load index]
        simp only [Pool.load, turn, first, count_flatMap_turn, Worker.held, List.count_cons,
          List.count_nil]
        omega
      · rw [← dues index]
        simp only [Pool.dues, turn, first, count_flatMap_turn, Worker.assigned, List.count_cons,
          List.count_nil]
        omega
  | stop turn empty closed =>
      refine ⟨slots, sent, sending, fun index => ?_, fun index => ?_⟩
      · rw [← load index]
        simp only [Pool.load, turn, count_flatMap_turn, Worker.held]
      · rw [← dues index]
        simp only [Pool.dues, turn, count_flatMap_turn, Worker.assigned]
  | call turn named =>
      refine ⟨slots, sent, sending, fun index => ?_, fun index => ?_⟩
      · rw [← load index]
        simp only [Pool.load, turn, count_flatMap_turn, Worker.held]
      · rw [← dues index]
        simp only [Pool.dues, turn, count_flatMap_turn, Worker.assigned, List.count_append,
          List.count_nil]
        omega
  | report turn heard =>
      refine ⟨slots, sent, sending, fun index => ?_, fun index => ?_⟩
      · rw [← load index]
        simp only [Pool.load, turn, count_flatMap_turn, Worker.held, List.map_append,
          List.map_singleton, List.count_append, List.count_nil]
        omega
      · rw [← dues index]
        simp only [Pool.dues, turn, count_flatMap_turn, Worker.assigned]
  | abandon turn gone => exact absurd gone (orderly.not_returned turn (by simp) _)
  | @collect stored result results collecting first =>
      refine ⟨by simpa using slots, sent, sending, fun index => ?_, dues⟩
      rw [← load index]
      have once := load stored
      simp only [Pool.load, first, List.map_cons, List.count_cons, List.getElem?_set] at once ⊢
      -- The index was on its way back, so its slot is still empty.
      by_cases same : stored = index
      · subst same
        grind
      · simp [same]
  | finish collecting empty gone => exact ⟨slots, sent, by simp, load, dues⟩

theorem Accounted.start (options : BatchOptions) (processors : Nat) :
    Accounted paths (Pool.start options processors paths : Pool α) := by
  have idle (part : Worker α → List Nat) (nothing : part .waiting = []) (count : Nat) :
      (List.replicate count .waiting).flatMap part = [] := by
    simp [nothing]
  cases paths with
  | nil => exact ⟨rfl, Nat.le_refl _, by simp [Pool.start], by simp [Pool.start, Pool.load],
      by simp [Pool.start, Pool.dues]⟩
  | cons path paths =>
      refine ⟨by simp [Pool.start], Nat.zero_le _, by simp [Pool.start], fun index => ?_,
        fun index => ?_⟩
      · simp only [Pool.start, Pool.load, idle Worker.held rfl, List.getElem?_map]
        cases (path :: paths)[index]? <;> rfl
      · simp [Pool.start, Pool.dues, idle Worker.assigned rfl]

/-- What is in the pool has been sent. -/
theorem Accounted.lt_sent (accounted : Accounted paths pool) {index : Nat}
    (present : 0 < pool.load index) : index < pool.sent := by
  rw [accounted.load index] at present
  split at present
  · assumption
  · cases present

/-! ## Results -/

variable (job paths) in
/-- The result is that of the job for the file of the index. -/
def Answers (index : Nat) (result : Except Failure α) : Prop :=
  (paths[index]?).map job = some result

variable (job paths) in
/-- All results, wherever they are, are those of the job. -/
structure Faithful (pool : Pool α) : Prop where
  reporting : ∀ index result, .reporting index result ∈ pool.workers →
    Answers job paths index result
  results : ∀ index result, (index, result) ∈ pool.results → Answers job paths index result
  slots : ∀ index result, pool.slots[index]? = some (some result) → Answers job paths index result

namespace Faithful

theorem start (options : BatchOptions) (processors : Nat) :
    Faithful job paths (Pool.start options processors paths) := by
  cases paths with
  | nil => exact ⟨by simp [Pool.start], by simp [Pool.start], by simp [Pool.start]⟩
  | cons path paths =>
      refine ⟨by simp [Pool.start], by simp [Pool.start], fun index result stored => ?_⟩
      have member := List.mem_of_getElem? stored
      simp [Pool.start] at member

/-- Another turn of a worker, which reports nothing wrong. -/
theorem turn (faithful : Faithful job paths pool) {before after : List (Worker α)}
    {worker changed : Worker α} (turn : pool.workers = before ++ worker :: after)
    (answers : ∀ index result, changed = .reporting index result → Answers job paths index result) :
    ∀ index result, .reporting index result ∈ before ++ changed :: after →
      Answers job paths index result := by
  intro index result member
  rw [List.mem_append, List.mem_cons] at member
  rcases member with left | here | right
  · exact faithful.reporting index result (by simp [turn, left])
  · exact answers index result here.symm
  · exact faithful.reporting index result (by simp [turn, right])

theorem step (faithful : Faithful job paths pool) (step : Step job paths pool next) :
    Faithful job paths next := by
  have same := faithful
  obtain ⟨reporting, results, slots⟩ := same
  cases step with
  | offer => exact ⟨reporting, results, slots⟩
  | close => exact ⟨reporting, results, slots⟩
  | send => exact ⟨reporting, results, slots⟩
  | refuse => exact ⟨reporting, results, slots⟩
  | receive turn => exact ⟨faithful.turn turn (by simp), results, slots⟩
  | stop turn => exact ⟨faithful.turn turn (by simp), results, slots⟩
  | call turn named =>
      refine ⟨faithful.turn turn ?_, results, slots⟩
      rintro index result ⟨⟩
      simp [Answers, named]
  | @report before after index result turn heard =>
      refine ⟨faithful.turn turn (by simp), fun other found member => ?_, slots⟩
      rcases List.mem_append.1 member with inChannel | here
      · exact results other found inChannel
      · cases List.mem_singleton.1 here
        exact reporting index result (by simp [turn])
  | abandon turn => exact ⟨faithful.turn turn (by simp), results, slots⟩
  | @collect index result others collecting first =>
      refine ⟨reporting, fun other found member => ?_, fun other found stored => ?_⟩
      · exact results other found (by simp [first, member])
      · rw [List.getElem?_set] at stored
        split at stored
        · next same =>
            split at stored
            · cases same
              cases stored
              exact results index result (by simp [first])
            · cases stored
        · exact slots other found stored
  | finish => exact ⟨reporting, results, slots⟩

end Faithful

/-! ## Cancelled batches -/

/-- The token was raised before the first index. -/
structure Cancelled (pool : Pool α) : Prop where
  raised : pool.raised = true
  nothing : pool.sent = 0
  loop : pool.phase ≠ .sending

theorem Cancelled.step (cancelled : Cancelled pool) (step : Step job paths pool next) :
    Cancelled next := by
  obtain ⟨raised, nothing, loop⟩ := cancelled
  cases step with
  | offer atLoop more lowered => simp [raised] at lowered
  | send atSend => exact absurd atSend loop
  | close => exact ⟨raised, nothing, by simp⟩
  | refuse => exact ⟨raised, nothing, by simp⟩
  | finish => exact ⟨raised, nothing, by simp⟩
  | receive => exact ⟨raised, nothing, loop⟩
  | stop => exact ⟨raised, nothing, loop⟩
  | call => exact ⟨raised, nothing, loop⟩
  | report => exact ⟨raised, nothing, loop⟩
  | abandon => exact ⟨raised, nothing, loop⟩
  | collect => exact ⟨raised, nothing, loop⟩

end Pool

end ServiceDef
