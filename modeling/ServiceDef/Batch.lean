import ServiceDef.Failure

/-!
# Batches

A batch runs one job for each of some files. The results stand in the order of the files,
whatever the order in which the jobs end, and a failing job has no influence on the others. A
batch that is cancelled before it starts runs no job.
-/

namespace ServiceDef

/-- How a batch is to be run. -/
structure BatchOptions where
  /-- The number of workers; nothing or zero asks for one per processor. -/
  workers : Option Nat := none
  /-- Whether the batch has been cancelled before its start. -/
  cancelled : Bool := false
deriving DecidableEq, Repr

namespace BatchOptions

/-- The number of workers for some jobs, on a machine with the given number of processors: at
least one, and not more than there are jobs. -/
def workerCount (options : BatchOptions) (processors jobs : Nat) : Nat :=
  let wanted := (options.workers.filter (0 < ·)).getD processors
  max (min wanted jobs) 1

end BatchOptions

/-- The results of a batch, in the order of its files. -/
def runBatch {α : Type} (options : BatchOptions) (job : String → Except Failure α)
    (paths : List String) : List (Except Failure α) :=
  paths.map fun path => if options.cancelled then .error (.cancelled path) else job path

end ServiceDef
