import TemplateFlow.Flow.Data
import TemplateFlow.Flow.Registry

/-!
# The built-in handlers

One handler for each of the built-in kinds of action. Every text of an action is rendered in the
context of the step, and none of them makes the step fail; a handler fails only if the step is of
another kind than its own.
-/

namespace TemplateFlow

namespace Builtin

/-- The failure of a handler for a step that is none of its own. -/
def refuse (step : Step) : Job Value := .fail (.invalidStep step.kind)

/-- The flow that a condition performs, an absent one being empty. -/
def branch (taken : Bool) (onTrue onFalse : Option (List Step)) : List Step :=
  (if taken then onTrue else onFalse).getD []

theorem flowWeight_branch_lt (taken : Bool) (text : String) (onTrue onFalse : Option (List Step)) :
    flowWeight (branch taken onTrue onFalse) < (Action.condition text onTrue onFalse).weight := by
  have h (b : Option (List Step)) : flowWeight (b.getD []) ≤ branchWeight b := by
    cases b <;> simp [flowWeight, branchWeight]
  have hTrue := h onTrue
  have hFalse := h onFalse
  cases taken <;> simp only [branch, Action.weight] <;> simp <;> omega

/-- Performs one of the two flows of a condition. What is stored inside the flow stays there. -/
def condition : Handler := fun step context perform =>
  match step, perform with
  | ⟨.condition text onTrue onFalse, name⟩, perform => do
    let taken := (← Job.ofRendering (context.render text)).isTruthy
    Job.log (.conditionEvaluated text taken)
    Outcome.result <$> perform (branch taken onTrue onFalse)
      (by simpa only [Step.weight] using flowWeight_branch_lt taken text onTrue onFalse)
      (context.enter 0)
  | step, _ => refuse step

/-- Calls a method of a component. -/
def call : Handler := fun step context _ =>
  match step with
  | ⟨.call component method args, _⟩ => do
    let template := Template.callComponent component method args
    Job.log (.componentCalled template)
    Job.ofRendering (context.render template)
  | step => refuse step

/-- Calls an API, which is bound for this one template. -/
def callApi : Handler := fun step context _ =>
  match step with
  | ⟨.callApi method args, _⟩ => do
    let template := Template.callApi method args
    Job.log (.apiCalled template)
    let catalog ← Job.catalog
    Job.ofRendering
      (context.render template [(Catalog.bindingName, catalog.binding context.outputs.site)])
  | step => refuse step

/-- Renders the fields of a declaration, each in the same context, over those that came before. -/
def declareFields (context : Context) (index : Nat) (values : Bindings) :
    List DeclaredField → Job Bindings
  | [] => pure values
  | f :: rest => do
    let value ← Job.ofRendering ((context.part index).render f.value)
    declareFields context (index + 1) (Dictionary.insert values f.name value) rest

/-- Yields what is declared. -/
def declare : Handler := fun step context _ =>
  match step with
  | ⟨.declare (.value _ text), _⟩ => Job.ofRendering (context.render text)
  | ⟨.declare (.fields fields), _⟩ => Value.obj <$> declareFields context 0 [] fields
  | step => refuse step

/-- The template whose value acknowledges new settings. -/
def acknowledgement (config : ApiConfig) : String :=
  Template.ofExpression
    ("\x7b status: 'success', message: 'API initialized', params: " ++
      (Json.obj (config.defaultParams.getD [])).compress ++ " \x7d")

/-- Gives settings to the catalog and acknowledges them. -/
def initApi : Handler := fun step _ _ =>
  match step with
  | ⟨.initApi config, _⟩ =>
    .configure config (Job.ofRendering (Context.empty.render (acknowledgement config)))
  | step => refuse step

/-- The registry of the built-in handlers. -/
def registry : Registry :=
  Registry.empty
    |>.register Action.conditionKind condition
    |>.register Action.callKind call
    |>.register Action.declareKind declare
    |>.register Action.callApiKind callApi
    |>.register Action.initApiKind initApi

end Builtin

end TemplateFlow
