import TemplateFlow.Text.Quoted

/-!
# Events

What a run reports about itself while it goes on. An event has a level, a message that depends on
its form only, and fields that tell it from others of the form. Templates report what keeps them
from having a value; there is no other sign of it, since the empty text that they yield then is
also a value.
-/

namespace TemplateFlow

/-- How much an event matters. -/
inductive Level where
  | warn
  | info
  | debug
  deriving DecidableEq, Inhabited

namespace Level

/-- The name of the level. -/
def name : Level → String
  | .warn => "WARN"
  | .info => "INFO"
  | .debug => "DEBUG"

end Level

/-- Something that happened and is reported. -/
inductive Event where
  /-- The expression of a template is none. -/
  | templateParseFailed (expression : String)
  /-- The expression of a template refers to names that are not bound. -/
  | unknownIdentifiers (expression : String) (names : List String)
  /-- The expression of a template breaks another rule. -/
  | templateRejected (expression finding : String)
  /-- The expression of a template has no value. -/
  | evaluationFailed (expression error : String)
  /-- A handler was registered for a kind of step that had one. -/
  | handlerReplaced (kind : String)
  | runStarted (steps : Nat)
  | runFinished
  | stepDispatched (index : Nat) (kind : String)
  | componentCalled (template : String)
  | apiCalled (template : String)
  | conditionEvaluated (condition : String) (taken : Bool)
  /-- An API was registered under a key that had one. -/
  | apiReplaced (key : String)
  | catalogInitialized (baseUrl : Option String) (hasParams : Bool)
  deriving DecidableEq, Inhabited

namespace Event

/-- Warnings are what a template or a registry objects to; the limits of a run and the settings of
the catalog inform; the rest helps to follow a run. -/
def level : Event → Level
  | .templateParseFailed _ | .unknownIdentifiers _ _ | .templateRejected _ _
  | .evaluationFailed _ _ | .handlerReplaced _ => .warn
  | .runStarted _ | .runFinished | .catalogInitialized _ _ => .info
  | .stepDispatched _ _ | .componentCalled _ | .apiCalled _ | .conditionEvaluated _ _
  | .apiReplaced _ => .debug

/-- The message of the form of event. -/
def message : Event → String
  | .templateParseFailed _ => "template parse failed"
  | .unknownIdentifiers _ _ => "template references unknown identifiers"
  | .templateRejected _ _ => "template rejected"
  | .evaluationFailed _ _ => "template evaluation failed"
  | .handlerReplaced _ => "action already registered, replacing handler"
  | .runStarted _ => "flow run started"
  | .runFinished => "flow run finished"
  | .stepDispatched _ _ => "dispatching step"
  | .componentCalled _ => "calling component"
  | .apiCalled _ => "calling api"
  | .conditionEvaluated _ _ => "condition evaluated"
  | .apiReplaced _ => "replacing registered api"
  | .catalogInitialized _ _ => "api catalog initialized"

/-- A truth value as a field. -/
def flagText (b : Bool) : String := if b then "true" else "false"

/-- The fields by name, as texts. An expression is shown without the blanks around it. -/
def fields : Event → List (String × String)
  | .templateParseFailed expression => [("expression", Text.trim expression)]
  | .unknownIdentifiers expression names =>
    [("expression", Text.trim expression), ("unknown", Text.debugList names)]
  | .templateRejected expression finding =>
    [("expression", Text.trim expression), ("error", finding)]
  | .evaluationFailed expression error =>
    [("expression", Text.trim expression), ("error", error)]
  | .handlerReplaced kind => [("kind", kind)]
  | .runStarted steps => [("steps", toString steps)]
  | .runFinished => []
  | .stepDispatched index kind => [("index", toString index), ("kind", kind)]
  | .componentCalled template => [("template", template)]
  | .apiCalled template => [("template", template)]
  | .conditionEvaluated condition taken => [("condition", condition), ("taken", flagText taken)]
  | .apiReplaced key => [("api", key)]
  | .catalogInitialized baseUrl hasParams =>
    [("base_url", baseUrl.getD ""), ("default_params", flagText hasParams)]

end Event

end TemplateFlow
