import Mathlib.Data.List.Nodup
import ServiceDef.Proofs.Batch.Pool

/-!
# Batches under every schedule

Whatever the order in which the dispatcher and the workers take their steps, a batch comes to its
end, and its results are those of `runBatch`. A pool cannot get stuck, although all indices are sent
before the first result is taken: as long as an index can be sent no worker has stopped, and results
never wait for room. Each step makes the pool lighter, so every schedule ends.
-/

namespace ServiceDef.Pool

variable {α : Type} {job : String → Except Failure α} {paths : List String} {pool next : Pool α}
  {options : BatchOptions} {processors : Nat}

/-! ## Invariants of reachable pools -/

namespace Reachable

theorem orderly (reached : Reachable job paths options processors pool) : Orderly paths pool := by
  induction reached with
  | start => exact .start options processors
  | step _ step inductionHypothesis => exact inductionHypothesis.step step
  | raise _ inductionHypothesis =>
      exact ⟨inductionHypothesis.staffed, inductionHypothesis.stopped, by simp,
        inductionHypothesis.returned⟩

theorem accounted (reached : Reachable job paths options processors pool) :
    Accounted paths pool := by
  induction reached with
  | start => exact .start options processors
  | step earlier step inductionHypothesis => exact inductionHypothesis.step earlier.orderly step
  | raise _ inductionHypothesis =>
      obtain ⟨slots, sent, sending, load, dues⟩ := inductionHypothesis
      exact ⟨slots, sent, sending, load, dues⟩

theorem faithful (reached : Reachable job paths options processors pool) :
    Faithful job paths pool := by
  induction reached with
  | start => exact .start options processors
  | step _ step inductionHypothesis => exact inductionHypothesis.step step
  | raise _ inductionHypothesis =>
      obtain ⟨reporting, results, slots⟩ := inductionHypothesis
      exact ⟨reporting, results, slots⟩

theorem cancelled (reached : Reachable job paths options processors pool)
    (cancelled : options.cancelled = true) : Cancelled pool := by
  induction reached with
  | start => cases paths <;> exact ⟨cancelled, rfl, by simp [Pool.start]⟩
  | step _ step inductionHypothesis => exact inductionHypothesis.step step
  | raise _ inductionHypothesis =>
      exact ⟨rfl, inductionHypothesis.nothing, inductionHypothesis.loop⟩

end Reachable

/-! ## Progress -/

/-- A worker that has not stopped can go on, unless it waits for an index that may still be sent. -/
theorem exists_step_of_worker (orderly : Orderly paths pool) (accounted : Accounted paths pool)
    {worker : Worker α} (member : worker ∈ pool.workers) (active : worker ≠ .stopped)
    (served : pool.queue ≠ [] ∨ pool.phase.isClosed = true) : ∃ next, Step job paths pool next := by
  obtain ⟨before, after, turn⟩ := List.append_of_mem member
  cases worker with
  | waiting =>
      cases queue : pool.queue with
      | nil => exact ⟨_, .stop turn queue (served.resolve_left (by simp [queue]))⟩
      | cons index others => exact ⟨_, .receive turn queue⟩
  | working index =>
      -- The index has been sent, so there is a file for it.
      have present : 0 < pool.load index := by
        simp only [Pool.load, turn, count_flatMap_turn, Worker.held, List.count_singleton_self]
        omega
      have inside : index < paths.length :=
        Nat.lt_of_lt_of_le (accounted.lt_sent present) accounted.sent
      exact ⟨_, .call turn (List.getElem?_eq_getElem inside)⟩
  | reporting index result => exact ⟨_, .report turn (orderly.not_returned turn active)⟩
  | stopped => exact absurd rfl active

/-- A pool that has not returned can go on. -/
theorem exists_step (orderly : Orderly paths pool) (accounted : Accounted paths pool)
    (running : ∀ results, pool.phase ≠ .returned results) : ∃ next, Step job paths pool next := by
  obtain ⟨worker, member⟩ := List.exists_mem_of_ne_nil _ (orderly.staffed running)
  cases phase : pool.phase with
  | offering =>
      by_cases ended : pool.raised = true ∨ paths.length ≤ pool.sent
      · exact ⟨_, .close phase ended⟩
      · simp only [not_or, Bool.not_eq_true, Nat.not_le] at ended
        exact ⟨_, .offer phase ended.2 ended.1⟩
  | sending =>
      have active : worker ≠ .stopped := by
        rintro rfl
        exact orderly.not_stopped (by rw [phase]; rfl) member
      by_cases room : pool.queue.length < pool.workers.length
      · exact ⟨_, .send phase room ⟨worker, member, active⟩⟩
      · -- The channel is full, so a worker has something to do.
        refine exists_step_of_worker orderly accounted member active (.inl fun empty => room ?_)
        rw [empty]
        exact List.length_pos_of_mem member
  | collecting =>
      cases results : pool.results with
      | cons first others => exact ⟨_, .collect phase results⟩
      | nil =>
          by_cases busy : ∃ worker ∈ pool.workers, worker ≠ .stopped
          · obtain ⟨worker, inside, active⟩ := busy
            exact exists_step_of_worker orderly accounted inside active (.inr (by rw [phase]; rfl))
          · refine ⟨_, .finish phase results fun worker inside => ?_⟩
            exact Classical.not_not.1 fun active => busy ⟨worker, inside, active⟩
  | returned results => exact absurd phase (running results)

/-! ## Termination -/

/-- What the workers still have to do with their indices, and then to stop. -/
def crewWeight : List (Worker α) → Nat
  | [] => 0
  | .waiting :: others => 1 + crewWeight others
  | .working _ :: others => 4 + crewWeight others
  | .reporting _ _ :: others => 3 + crewWeight others
  | .stopped :: others => crewWeight others

/-- What the dispatcher still has to do for the next index, and then to return. -/
def phaseWeight : Phase α → Nat
  | .offering => 3
  | .sending => 2
  | .collecting => 1
  | .returned _ => 0

/-- What is still to be done. An index weighs less the further it has come. -/
def weight (paths : List String) (pool : Pool α) : Nat :=
  7 * (paths.length - pool.sent) + phaseWeight pool.phase + 4 * pool.queue.length +
    crewWeight pool.workers + pool.results.length

theorem crewWeight_append (before after : List (Worker α)) :
    crewWeight (before ++ after) = crewWeight before + crewWeight after := by
  induction before with
  | nil => simp [crewWeight]
  | cons worker before inductionHypothesis =>
      cases worker <;> simp [crewWeight, inductionHypothesis, Nat.add_assoc]

theorem weight_step (accounted : Accounted paths pool) (step : Step job paths pool next) :
    next.weight paths < pool.weight paths := by
  cases step with
  | offer atLoop => simp [weight, phaseWeight, atLoop]
  | close atLoop => simp [weight, phaseWeight, atLoop]
  | send atSend =>
      have more := accounted.sending atSend
      simp only [weight, phaseWeight, atSend, List.length_append, List.length_singleton]
      omega
  | refuse atSend => simp [weight, phaseWeight, atSend]
  | receive turn first =>
      simp only [weight, turn, first, crewWeight_append, crewWeight, List.length_cons]
      omega
  | stop turn =>
      simp only [weight, turn, crewWeight_append, crewWeight]
      omega
  | call turn =>
      simp only [weight, turn, crewWeight_append, crewWeight]
      omega
  | report turn =>
      simp only [weight, turn, crewWeight_append, crewWeight, List.length_append,
        List.length_singleton]
      omega
  | abandon turn =>
      simp only [weight, turn, crewWeight_append, crewWeight]
      omega
  | collect collecting first => simp [weight, first]
  | finish collecting => simp [weight, phaseWeight, collecting]

/-- Every pool that a batch can come to can be run to its end. -/
theorem exists_complete {pool : Pool α} (reached : Reachable job paths options processors pool) :
    ∃ last results, Steps job paths pool last ∧ last.phase = .returned results := by
  by_cases complete : ∃ results, pool.phase = .returned results
  · obtain ⟨results, returned⟩ := complete
    exact ⟨pool, results, .refl, returned⟩
  · have running (results : List (Except Failure α)) : pool.phase ≠ .returned results :=
      fun returned => complete ⟨results, returned⟩
    obtain ⟨next, step⟩ := exists_step reached.orderly reached.accounted running
    have lighter := weight_step reached.accounted step
    obtain ⟨last, results, steps, returned⟩ := exists_complete (reached.step step)
    exact ⟨last, results, .head step steps, returned⟩
termination_by pool.weight paths

/-! ## Results -/

/-- When the dispatcher has returned, no index is left on its way. -/
theorem flatMap_of_returned (orderly : Orderly paths pool) {results : List (Except Failure α)}
    (returned : pool.phase = .returned results) (part : Worker α → List Nat)
    (nothing : part .stopped = []) : pool.workers.flatMap part = [] := by
  obtain ⟨-, -, -, gone⟩ := orderly.returned results returned
  refine List.flatMap_eq_nil_iff.2 fun worker member => ?_
  rw [gone worker member, nothing]

/-- The job has been run once for each index that was sent, and for no other. -/
theorem calls_perm (reached : Reachable job paths options processors pool)
    {results : List (Except Failure α)} (returned : pool.phase = .returned results) :
    pool.calls.Perm (List.range pool.sent) := by
  obtain ⟨-, queue, -, -⟩ := reached.orderly.returned results returned
  refine List.perm_iff_count.2 fun index => ?_
  have dues := reached.accounted.dues index
  simp only [Pool.dues, queue, flatMap_of_returned reached.orderly returned Worker.assigned rfl,
    List.count_nil, Nat.zero_add] at dues
  rw [dues, List.count_range]

/-- The slots of the indices that were sent hold the results of the job, and the others are
empty. -/
theorem slots_of_returned (reached : Reachable job paths options processors pool)
    {results : List (Except Failure α)} (returned : pool.phase = .returned results) {index : Nat}
    {path : String} (named : paths[index]? = some path) :
    pool.slots[index]? = some (if index < pool.sent then some (job path) else none) := by
  obtain ⟨-, queue, empty, -⟩ := reached.orderly.returned results returned
  have load := reached.accounted.load index
  simp only [Pool.load, queue, empty, flatMap_of_returned reached.orderly returned Worker.held rfl,
    List.map_nil, List.count_nil, Nat.zero_add] at load
  have inside : index < pool.slots.length := by
    rw [reached.accounted.slots]
    exact (List.getElem?_eq_some_iff.1 named).1
  have slot := List.getElem?_eq_getElem inside
  have stored := reached.faithful.slots index
  rw [slot] at load stored ⊢
  cases content : pool.slots[index] with
  | none =>
      rw [content] at load
      have unsent : ¬index < pool.sent := fun sent => by simp [sent] at load
      rw [if_neg unsent]
  | some result =>
      rw [content] at load
      have sent : index < pool.sent := Classical.not_not.1 fun unsent => by simp [unsent] at load
      have answers := stored result (by rw [content])
      rw [Answers, named] at answers
      rw [if_pos sent, ← Option.some.inj answers]

/-- A batch returns the results of the job for all files that were sent, and the others are
cancelled. -/
theorem results_of_returned (reached : Reachable job paths options processors pool)
    {results : List (Except Failure α)} (returned : pool.phase = .returned results) :
    results = (paths.take pool.sent).map job ++
      (paths.drop pool.sent).map fun path => .error (.cancelled path) := by
  have sent := reached.accounted.sent
  rw [(reached.orderly.returned results returned).1]
  refine List.ext_getElem? fun index => ?_
  rw [outcome, List.getElem?_zipWith, List.getElem?_append, List.length_map, List.length_take,
    Nat.min_eq_left sent]
  simp only [List.getElem?_map, List.getElem?_take, List.getElem?_drop]
  cases named : paths[index]? with
  | none =>
      have outside : paths.length ≤ index := List.getElem?_eq_none_iff.1 named
      have unsent : ¬index < pool.sent := by omega
      have behind : paths[pool.sent + (index - pool.sent)]? = none := by
        rw [Nat.add_sub_cancel' (Nat.le_of_not_lt unsent), named]
      simp [unsent, behind]
  | some path =>
      rw [slots_of_returned reached returned named]
      by_cases early : index < pool.sent
      · simp [early]
      · have behind : pool.sent + (index - pool.sent) = index := by omega
        simp [early, behind, named]

/-- The job is never run twice for one index. -/
theorem nodup_calls (accounted : Accounted paths pool) : pool.calls.Nodup := by
  refine List.nodup_iff_count_le_one.2 fun index => ?_
  have dues := accounted.dues index
  rw [Pool.dues] at dues
  split at dues <;> omega

/-- The results of a batch do not depend on the schedule. Every pool that a batch can come to can go
on unless it has returned, and can be run to its end. If the token is not raised, a complete run has
run the job once per index, and returns the results of the job in the order of the files. If the
token was raised before the start, no job is ever run and every file is cancelled. -/
theorem results_independent_of_schedule (options : BatchOptions) (processors : Nat)
    (job : String → Except Failure α) (paths : List String) (pool : Pool α)
    (reached : Reachable job paths options processors pool) :
    ((∀ results, pool.phase ≠ .returned results) → ∃ next, Step job paths pool next) ∧
    (∃ last results, Steps job paths pool last ∧ last.phase = .returned results) ∧
    pool.calls.Nodup ∧
    (pool.raised = false → ∀ results, pool.phase = .returned results →
      pool.calls.Perm (List.range paths.length) ∧ results = paths.map job ∧
        results = runBatch options job paths) ∧
    (options.cancelled = true → pool.calls = [] ∧ ∀ results, pool.phase = .returned results →
      results = (paths.map fun path => .error (.cancelled path)) ∧
        results = runBatch options job paths) := by
  refine ⟨exists_step reached.orderly reached.accounted, exists_complete reached,
    nodup_calls reached.accounted, fun lowered results returned => ?_, fun cancelled => ?_⟩
  · have closed : pool.phase.isClosed = true := by rw [returned]; rfl
    have all : pool.sent = paths.length :=
      Nat.le_antisymm reached.accounted.sent (reached.orderly.exhausted closed lowered)
    have notCancelled : options.cancelled = false := by
      rw [← Bool.not_eq_true]
      intro cancelled
      rw [(reached.cancelled cancelled).raised] at lowered
      cases lowered
    have calls := calls_perm reached returned
    have results := results_of_returned reached returned
    rw [all] at calls results
    simp only [List.take_length, List.drop_length, List.map_nil, List.append_nil] at results
    exact ⟨calls, results, by simp [results, runBatch, notCancelled]⟩
  · have nothing := (reached.cancelled cancelled).nothing
    refine ⟨List.eq_nil_iff_forall_not_mem.2 fun index member => ?_, fun results returned => ?_⟩
    · have dues := reached.accounted.dues index
      have called := List.count_pos_iff.2 member
      rw [nothing, Pool.dues, if_neg (Nat.not_lt_zero index)] at dues
      omega
    · have results := results_of_returned reached returned
      rw [nothing] at results
      simp only [List.take_zero, List.map_nil, List.nil_append, List.drop_zero] at results
      exact ⟨results, by simp [results, runBatch, cancelled]⟩

/-- Two workers, of which the second overtakes the first. -/
theorem results_independent_of_schedule_overtaking :
    ∃ pool : Pool Nat,
      Reachable (fun path => .ok path.length) ["a", "bc"] { workers := some 2 } 1 pool ∧
      pool.calls = [1, 0] ∧ pool.phase = .returned [.ok 1, .ok 2] ∧
      pool.calls.Perm (List.range 2) ∧
      [.ok 1, .ok 2] =
        runBatch { workers := some 2 } (fun path => .ok path.length) ["a", "bc"] := by
  let job : String → Except Failure Nat := fun path => .ok path.length
  let files : List String := ["a", "bc"]
  have idle : Reachable job files { workers := some 2 } 1
      { phase := .offering
        workers := [.waiting, .waiting]
        slots := [none, none]
        raised := false } :=
    .start
  have waited : ∃ worker ∈ ([.waiting, .waiting] : List (Worker Nat)), worker ≠ .stopped :=
    ⟨.waiting, by simp, by simp⟩
  have sent : Reachable job files { workers := some 2 } 1
      { phase := .collecting, sent := 2, workers := [.waiting, .waiting], queue := [0, 1]
        slots := [none, none], raised := false } :=
    ((((idle.step (.offer rfl (by decide) rfl)).step (.send rfl (by decide) waited)).step
      (.offer rfl (by decide) rfl)).step (.send rfl (by decide) waited)).step
      (.close rfl (.inr (by decide)))
  have taken : Reachable job files { workers := some 2 } 1
      { phase := .collecting, sent := 2, workers := [.working 0, .working 1]
        slots := [none, none], raised := false } :=
    (sent.step (@Step.receive _ job files _ [] [.waiting] 0 [1] rfl rfl)).step
      (@Step.receive _ job files _ [.working 0] [] 1 [] rfl rfl)
  have run : Reachable job files { workers := some 2 } 1
      { phase := .collecting, sent := 2, workers := [.waiting, .waiting]
        results := [(1, .ok 2), (0, .ok 1)], slots := [none, none], raised := false
        calls := [1, 0] } :=
    (((taken.step (@Step.call _ job files _ [.working 0] [] 1 "bc" rfl rfl)).step
      (@Step.report _ job files _ [.working 0] [] 1 (.ok 2) rfl (by simp))).step
      (@Step.call _ job files _ [] [.waiting] 0 "a" rfl rfl)).step
      (@Step.report _ job files _ [] [.waiting] 0 (.ok 1) rfl (by simp))
  have complete : Reachable job files { workers := some 2 } 1
      { phase := .returned [.ok 1, .ok 2], sent := 2, workers := [.stopped, .stopped]
        slots := [some (.ok 1), some (.ok 2)], raised := false, calls := [1, 0] } :=
    ((((run.step (.collect rfl rfl)).step (.collect rfl rfl)).step
      (@Step.stop _ job files _ [] [.waiting] rfl rfl rfl)).step
      (@Step.stop _ job files _ [.stopped] [] rfl rfl rfl)).step (.finish rfl rfl (by simp))
  have agree := (results_independent_of_schedule _ _ _ _ _ complete).2.2.2.1 rfl _ rfl
  exact ⟨_, complete, rfl, rfl, agree.1, agree.2.2⟩

end ServiceDef.Pool
