import TemplateFlow.Flow.Turns

/-!
# Sessions

A session keeps a runner, a catalog and a context from one run to the next. What a run does to the
catalog stays; its outputs are seen by later runs only if they are kept.
-/

namespace TemplateFlow

/-- What is kept between runs. -/
structure Session where
  runner : Runner
  catalog : Catalog := {}
  context : Context := {}

namespace Session

/-- Registers an API, and reports if it replaces another. -/
def register (s : Session) (entry : ApiEntry) : Session × List Event :=
  ({ s with catalog := s.catalog.register entry }, s.catalog.registerEvents entry)

/-- Gives settings to the catalog, and reports it. -/
def configure (s : Session) (config : ApiConfig) : Session × List Event :=
  let catalog := s.catalog.configure config
  ({ s with catalog }, [catalog.initializedEvent])

/-- Performs a job to its end. -/
def perform {α : Type} (s : Session) (job : Job α) : Session × Job.Report α :=
  let report := job.run s.catalog
  ({ s with catalog := report.catalog }, report)

/-- Runs a flow. -/
def run (s : Session) (flow : List Step) : Session × Job.Report Outcome :=
  s.perform (s.runner.execute flow s.context)

/-- Keeps the outputs of a run that succeeded. -/
def keep (s : Session) (report : Job.Report Outcome) : Session :=
  match report.result with
  | .ok outcome => { s with context := { s.context with outputs := outcome.outputs } }
  | .error _ => s

/-- Performs a step outside of any run. -/
def dispatch (s : Session) (step : Step) : Session × Job.Report Value :=
  s.perform (s.runner.dispatch step s.context)

/-- Runs several flows at the same time, which take turns. -/
def runAll (s : Session) (flows : List (List Step)) :
    Session × List (Except FlowError Outcome) :=
  let (catalog, results) := (Group.start s.runner s.catalog s.context flows).finish
  ({ s with catalog }, results)

/-- Puts a value among the outputs. -/
def set (s : Session) (name : String) (value : Value) : Session :=
  let outputs := s.context.outputs
  { s with context.outputs.values := Dictionary.insert outputs.values name value }

/-- The value of a text in the context. -/
def render (s : Session) (text : String) (locals : Bindings) : Rendering :=
  s.context.render text locals

/-- The object that templates call APIs through. -/
def binding (s : Session) : Value := s.catalog.binding s.context.outputs.site

end Session

end TemplateFlow
