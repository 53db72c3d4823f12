import TemplateFlow.Json

/-!
# Flows

A flow is a list of steps, performed in order. A step is an action and the name its result is
stored under, which may be left open. Five kinds of action are built in; any other kind carries the
data that it was written with, for a handler that knows it.

A condition holds flows inside it. `Step.weight` bounds whatever a step can make a run perform
inside it, so that a run can recurse on it.
-/

namespace TemplateFlow

/-- The settings of the catalog of APIs; what is left out stays as it is. -/
structure ApiConfig where
  baseUrl : Option String := none
  defaultParams : Option (Dictionary Json) := none
  deriving Inhabited

/-- One named value of a declaration. -/
structure DeclaredField where
  /-- The component that the value reads from, kept for editing tools. -/
  component : Option String
  name : String
  value : String
  deriving DecidableEq, Inhabited

/-- What is declared: an object of named values, or one value. -/
inductive Declaration where
  | fields (fields : List DeclaredField)
  | value (component : Option String) (value : String)
  deriving DecidableEq, Inhabited

mutual

/-- What a step does. Texts stand for their values as templates. -/
inductive Action where
  /-- Performs one of two flows. -/
  | condition (condition : String) (onTrue onFalse : Option (List Step))
  /-- Calls a method of a component. -/
  | call (component method : String) (args : List String)
  /-- Calls an API of the catalog. -/
  | callApi (method : String) (args : List String)
  /-- Yields what is declared. -/
  | declare (declaration : Declaration)
  /-- Changes the settings of the catalog. -/
  | initApi (config : ApiConfig)
  /-- Whatever the handler of the kind makes of the data. -/
  | custom (kind : String) (payload : Dictionary Json)

/-- A step of a flow. -/
structure Step where
  action : Action
  /-- The name of the result; without one a run has a name of its own. -/
  outputVar : Option String

end

namespace Action

/-! ## Kinds -/

/-- The kind of a condition. -/
def conditionKind : String := "condition"

/-- The kind of a call of a component. -/
def callKind : String := "call"

/-- The kind of a call of an API. -/
def callApiKind : String := "callApi"

/-- The kind of a declaration. -/
def declareKind : String := "declare"

/-- The kind of a change of the settings. -/
def initApiKind : String := "initApi"

/-- The kinds that are built in. -/
def builtinKinds : List String :=
  [conditionKind, callKind, callApiKind, declareKind, initApiKind]

/-- The kind of an action, under which its handler is registered. -/
def kind : Action → String
  | .condition _ _ _ => conditionKind
  | .call _ _ _ => callKind
  | .callApi _ _ => callApiKind
  | .declare _ => declareKind
  | .initApi _ => initApiKind
  | .custom kind _ => kind

end Action

namespace Step

/-- The kind of the step's action. -/
def kind (s : Step) : String := s.action.kind

/-- The data of a step whose kind is not built in. -/
def payload? (s : Step) : Option (Dictionary Json) :=
  match s.action with
  | .custom _ payload => some payload
  | _ => none

/-- A step of a kind that is not built in. -/
def custom (kind : String) (payload : Dictionary Json) : Step := ⟨.custom kind payload, none⟩

end Step

/-! ## Weight -/

mutual

/-- The weight of an action: above that of each flow inside it, and above the size of its data. -/
def Action.weight : Action → Nat
  | .condition _ onTrue onFalse => 1 + max (branchWeight onTrue) (branchWeight onFalse)
  | .custom _ payload => 1 + Json.sizeMembers payload
  | _ => 1

/-- The weight of a step. -/
def Step.weight : Step → Nat
  | ⟨action, _⟩ => action.weight

/-- The weight of a flow, which grows with every step. -/
def flowWeight : List Step → Nat
  | [] => 0
  | s :: rest => 1 + s.weight + flowWeight rest

/-- The weight of a branch. -/
def branchWeight : Option (List Step) → Nat
  | none => 0
  | some flow => 1 + flowWeight flow

end

theorem Step.weight_eq (s : Step) : s.weight = s.action.weight := by
  cases s
  simp [Step.weight]

/-- No action is without weight. -/
theorem Action.weight_pos (a : Action) : 0 < a.weight := by
  cases a <;> simp only [Action.weight] <;> omega

end TemplateFlow
