import TemplateFlow.Flow.Runner

/-!
# Concurrent runs

Several runs that share a catalog go on at the same time: in any order, one of them performs a step,
or a promise that one of them waits for becomes ready. A run that waits goes on only when its
promise is ready. A pool is the state between two such moves, and a schedule is a list of moves.
-/

namespace TemplateFlow

/-- A run that goes on beside others. -/
structure ActiveRun where
  job : Job Outcome
  /-- Whether the promise it waits for is ready. -/
  ready : Bool := false

namespace ActiveRun

/-- Performs a step, unless the run waits for a promise that is not ready. -/
def advance (c : Catalog) (r : ActiveRun) : Catalog × ActiveRun :=
  if r.job.isWaiting && !r.ready then (c, r)
  else
    let (c', job) := r.job.step c
    (c', { job })

/-- Makes the promise ready that the run waits for. -/
def complete (r : ActiveRun) : ActiveRun :=
  if r.job.isWaiting then { r with ready := true } else r

end ActiveRun

/-- Runs that share a catalog. -/
structure Pool where
  catalog : Catalog
  runs : List ActiveRun

namespace Pool

/-- What happens between two states of a pool. -/
inductive Move where
  /-- The run in a place performs a step. -/
  | advance (index : Nat)
  /-- The promise that the run in a place waits for becomes ready. -/
  | complete (index : Nat)
  deriving DecidableEq, Inhabited

/-- The pool in which runs of the given flows begin, each in its context. -/
def start (runner : Runner) (catalog : Catalog) (flows : List (List Step × Context)) : Pool where
  catalog := catalog
  runs := flows.map fun (flow, context) => { job := runner.execute flow context }

/-- The pool after a move; a move of a run that there is not changes nothing. -/
def move (p : Pool) : Move → Pool
  | .advance i =>
    match p.runs[i]? with
    | some r =>
      let (c, r') := r.advance p.catalog
      { catalog := c, runs := p.runs.set i r' }
    | none => p
  | .complete i => { p with runs := p.runs.modify i ActiveRun.complete }

/-- The pool after the moves of a schedule. -/
def follow (p : Pool) (schedule : List Move) : Pool := schedule.foldl move p

/-- The result of every run that has ended. -/
def results (p : Pool) : List (Option (Except FlowError Outcome)) :=
  p.runs.map fun r => r.job.result?

end Pool

end TemplateFlow
