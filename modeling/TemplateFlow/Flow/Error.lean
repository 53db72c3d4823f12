/-!
# Failures of runs

What ends a run before its last step. Templates are not among the reasons: they always have a
value.
-/

namespace TemplateFlow

/-- Why a run failed. -/
inductive FlowError where
  /-- No handler is registered for the kind of a step. -/
  | unknownAction (kind : String)
  /-- A handler was given a step of a kind that it does not perform. -/
  | invalidStep (kind : String)
  /-- A handler failed. -/
  | handler (kind message : String)
  /-- The promise that a step yielded was rejected. -/
  | apiRejected (message : String)
  deriving DecidableEq, Inhabited

namespace FlowError

/-- The text of the failure. -/
def message : FlowError → String
  | .unknownAction kind => "unknown action kind: " ++ kind
  | .invalidStep kind => "handler for '" ++ kind ++ "' received an incompatible step"
  | .handler kind message => "action '" ++ kind ++ "' failed: " ++ message
  | .apiRejected message => "api call rejected: " ++ message

end FlowError

end TemplateFlow
