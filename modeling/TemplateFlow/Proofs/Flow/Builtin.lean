import TemplateFlow.Flow.Runner

/-!
# The built-in handlers in a run

The built-in registry has a handler for each of the built-in kinds and for no other
(`Builtin.get?_registry`). A handler of a runner is given the run of the same runner for the flows
inside its step, so that a condition is the rendering of its text and then the run of one branch
(`Runner.dispatch_condition`).
-/

namespace TemplateFlow

namespace Builtin

/-- The handlers of the built-in registry, by their kinds. -/
theorem get?_registry (kind : String) :
    Dictionary.get? registry.handlers kind =
      if kind = Action.initApiKind then some initApi
      else if kind = Action.callApiKind then some callApi
      else if kind = Action.declareKind then some declare
      else if kind = Action.callKind then some call
      else if kind = Action.conditionKind then some condition
      else none := by
  simp only [registry, Registry.register, Dictionary.get?_insert, Registry.empty,
    Dictionary.get?_nil]

end Builtin

namespace Runner

variable {r : Runner}

/-- A step is performed by the handler of its kind. -/
theorem dispatch_of_get? {step : Step} {handler : Handler}
    (h : Dictionary.get? r.registry.handlers step.kind = some handler) (context : Context) :
    r.dispatch step context =
      handler step context fun inner _ innerContext => r.execute inner innerContext := by
  rw [dispatch, Registry.dispatch, h]

/-- Without a handler of its kind a step fails. -/
theorem dispatch_of_get?_eq_none {step : Step}
    (h : Dictionary.get? r.registry.handlers step.kind = none) (context : Context) :
    r.dispatch step context = .fail (.unknownAction step.kind) := by
  rw [dispatch, Registry.dispatch, h]

/-- A condition renders its text and yields the result of one branch, which is run in a copy of the
context. -/
theorem dispatch_condition
    (h : Dictionary.get? r.registry.handlers Action.conditionKind = some Builtin.condition)
    (text : String) (onTrue onFalse : Option (List Step)) (name : Option String)
    (context : Context) :
    r.dispatch ⟨.condition text onTrue onFalse, name⟩ context = (do
      let taken := (← Job.ofRendering (context.render text)).isTruthy
      Job.log (.conditionEvaluated text taken)
      Outcome.result <$> r.execute (Builtin.branch taken onTrue onFalse) (context.enter 0)) :=
  @dispatch_of_get? r ⟨.condition text onTrue onFalse, name⟩ _ h context

end Runner

end TemplateFlow
