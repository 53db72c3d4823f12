import TemplateFlow.Context
import TemplateFlow.Flow.Job

/-!
# Handlers

Every kind of step is performed by the handler that is registered for it. A handler gets the step
and the context it is performed in, and yields a value. It may perform flows inside the step, as
long as they weigh less than the step.
-/

namespace TemplateFlow

/-- What a run that succeeded leaves. -/
structure Outcome where
  /-- The value of the last step; null without a step. -/
  result : Value
  outputs : Outputs

/-- Performs flows below a weight, each in a context of its own. -/
abbrev Performer (weight : Nat) :=
  (flow : List Step) → flowWeight flow < weight → Context → Job Outcome

/-- Performs steps. -/
abbrev Handler := (step : Step) → Context → Performer step.weight → Job Value

/-- The handlers by the kinds of steps they are registered for. -/
structure Registry where
  handlers : Dictionary Handler := []

namespace Registry

/-- The registry without handlers. -/
def empty : Registry := {}

/-- The registry with one more handler, which replaces that of the same kind. -/
def register (r : Registry) (kind : String) (handler : Handler) : Registry where
  handlers := Dictionary.insert r.handlers kind handler

/-- What registering a handler reports, unless it is meant to replace another. -/
def registerEvents (r : Registry) (kind : String) (replaces : Bool) : List Event :=
  if Dictionary.contains r.handlers kind && !replaces then [.handlerReplaced kind] else []

/-- Whether there is a handler for a kind. -/
def contains (r : Registry) (kind : String) : Bool := Dictionary.contains r.handlers kind

/-- The kinds that there are handlers for, in order. -/
def kinds (r : Registry) : List String := Dictionary.keys r.handlers

/-- Performs a step by the handler for its kind. -/
def dispatch (r : Registry) (step : Step) (context : Context) (perform : Performer step.weight) :
    Job Value :=
  match Dictionary.get? r.handlers step.kind with
  | some handler => handler step context perform
  | none => .fail (.unknownAction step.kind)

end Registry

end TemplateFlow
