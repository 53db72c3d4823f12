import TemplateFlow.Flow.Builtin

/-!
# Runs

A run performs the steps of a flow in order. Each is performed in the context that the steps before
it have left; what it yields is waited for if it is a promise, and then stored under the name of
the step, or under a common name if the step has none. The first failure ends the run.

The run of a flow is a job (`Runner.execute`). The flows inside a step are run by the same runner,
in contexts derived from that of the step, and nothing they store is seen outside.
-/

namespace TemplateFlow

/-- Runs flows. -/
structure Runner where
  registry : Registry
  /-- The name for the results of steps that have none. -/
  defaultOutput : String := "temp"

namespace Runner

/-- The name that the result of a step is stored under. -/
def outputName (r : Runner) (step : Step) : String :=
  step.outputVar.getD r.defaultOutput

mutual

/-- The run of a flow. -/
def execute (r : Runner) (flow : List Step) (context : Context) : Job Outcome := do
  Job.log (.runStarted flow.length)
  let outcome ← r.executeFrom 0 flow context .null
  Job.log .runFinished
  return outcome
termination_by (flowWeight flow, 1)

/-- The run of the steps that are left, from the index of the first; `last` is the result so far. -/
def executeFrom (r : Runner) (index : Nat) (flow : List Step) (context : Context) (last : Value) :
    Job Outcome :=
  match flow with
  | [] => return ⟨last, context.outputs⟩
  | step :: rest => do
    Job.log (.stepDispatched index step.kind)
    let yielded ← r.registry.dispatch step context fun inner _ innerContext =>
      r.execute inner innerContext
    let value ← Job.settle yielded
    r.executeFrom (index + 1) rest (context.store (r.outputName step) value) value
termination_by (flowWeight flow, 0)
decreasing_by
  · simp only [flowWeight] at *
    apply Prod.Lex.left
    omega
  · simp only [flowWeight]
    apply Prod.Lex.left
    have := Action.weight_pos step.action
    have := step.weight_eq
    omega

end

/-- Performs one step outside of any run. A promise is not waited for. -/
def dispatch (r : Runner) (step : Step) (context : Context) : Job Value :=
  r.registry.dispatch step context fun inner _ innerContext => r.execute inner innerContext

end Runner

end TemplateFlow
