import TemplateFlow.Flow.Catalog
import TemplateFlow.Flow.Error
import TemplateFlow.Template

/-!
# Jobs

A job is work that goes on in steps, between which other jobs may go on: it looks at the shared
catalog, registers an API or gives settings to it, reports events, makes calls of the host, and
waits for promises. It ends with a result or a failure.

A job is a tree of such steps. It can be performed to its end without interruption (`Job.run`), or
one step at a time (`Job.step`); the promises that are waited for are made when an API is called,
so waiting itself changes nothing.
-/

namespace TemplateFlow

/-- Work that yields a result of type `α`. -/
inductive Job (α : Type) where
  /-- The end. -/
  | done (result : Except FlowError α)
  /-- Reports an event. -/
  | report (event : Event) (next : Job α)
  /-- Makes calls of the host. -/
  | invoke (calls : List Invocation) (next : Job α)
  /-- Looks at the catalog. -/
  | look (next : Catalog → Job α)
  /-- Registers an API in the catalog. -/
  | register (entry : ApiEntry) (next : Job α)
  /-- Gives settings to the catalog. -/
  | configure (config : ApiConfig) (next : Job α)
  /-- Waits for a promise, of a task or of none. -/
  | await (task : Option Site) (next : Job α)

namespace Job

variable {α β : Type}

/-! ## Sequences -/

/-- The job that has ended with a failure. -/
def fail (error : FlowError) : Job α := .done (.error error)

/-- One job after another; a failure ends both. -/
protected def bind : Job α → (α → Job β) → Job β
  | .done (.ok a), f => f a
  | .done (.error e), _ => .done (.error e)
  | .report event next, f => .report event (next.bind f)
  | .invoke calls next, f => .invoke calls (next.bind f)
  | .look next, f => .look fun c => (next c).bind f
  | .register entry next, f => .register entry (next.bind f)
  | .configure config next, f => .configure config (next.bind f)
  | .await task next, f => .await task (next.bind f)

instance : Monad Job where
  pure a := .done (.ok a)
  bind := Job.bind

/-- Reports an event. -/
def log (event : Event) : Job Unit := .report event (pure ())

/-- The catalog as it is. -/
def catalog : Job Catalog := .look pure

/-- The value of a rendered text, with its calls and reports. -/
def ofRendering (r : Rendering) : Job Value :=
  .invoke r.calls (r.events.foldr .report (pure r.value))

/-- Waits for a value that is a promise, and goes on with what it resolves to. -/
def settle : Value → Job Value
  | .resolved task v => .await task (settle v)
  | .rejected task message => .await task (fail (.apiRejected message))
  | v => pure v

/-! ## Performance -/

/-- What became of a job that was performed to its end. -/
structure Report (α : Type) where
  result : Except FlowError α
  /-- The catalog that is left. -/
  catalog : Catalog
  calls : List Invocation := []
  events : List Event := []

/-- The report with calls made before. -/
def Report.afterCalls (calls : List Invocation) (r : Report α) : Report α :=
  { r with calls := calls ++ r.calls }

/-- The report with events before. -/
def Report.afterEvents (events : List Event) (r : Report α) : Report α :=
  { r with events := events ++ r.events }

/-- Performs a job without interruption. -/
def run (c : Catalog) : Job α → Report α
  | .done result => { result, catalog := c }
  | .report event next => (run c next).afterEvents [event]
  | .invoke calls next => (run c next).afterCalls calls
  | .look next => run c (next c)
  | .register entry next => (run (c.register entry) next).afterEvents (c.registerEvents entry)
  | .configure config next =>
    let changed := c.configure config
    (run changed next).afterEvents [changed.initializedEvent]
  | .await _ next => run c next

/-- Performs one step of a job: the catalog that it leaves, and the rest of the job. -/
def step (c : Catalog) : Job α → Catalog × Job α
  | .done result => (c, .done result)
  | .report _ next => (c, next)
  | .invoke _ next => (c, next)
  | .look next => (c, next c)
  | .register entry next => (c.register entry, next)
  | .configure config next => (c.configure config, next)
  | .await _ next => (c, next)

/-- The result of a job that has ended. -/
def result? : Job α → Option (Except FlowError α)
  | .done result => some result
  | _ => none

/-- Whether a job waits for a promise. -/
def isWaiting : Job α → Bool
  | .await _ _ => true
  | _ => false

end Job

end TemplateFlow
