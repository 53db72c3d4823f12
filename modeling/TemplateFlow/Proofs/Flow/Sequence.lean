import TemplateFlow.Flow.Runner
import TemplateFlow.Proofs.Flow.Job

/-!
# Flows one after the other

The run of a flow that is put together from two is the run of the first and then, unless it fails,
the run of the second in the context that the first one leaves. Nothing is asked of the handlers:
they may change the catalog, make calls, fail, run flows inside a step, and yield promises.

Two things tell the second part of a run from a run of its own, and neither is seen by a handler.
The steps are counted from where the first part ends, which only the reports show; and a flow
without a step yields the last value before it, which is null in a run of its own.

## Main definitions

* `Runner.perform`: the value of a step, waited for if it is a promise.
* `Context.after`: the context with the outputs that a run leaves.

## Main results

* `Runner.executeFrom_append`: the steps of two flows, as jobs.
* `Runner.run_execute_append`: the report of two flows, with what is left of a run that a step
  ends.
-/

namespace TemplateFlow

/-- The context with the outputs that a run leaves. -/
def Context.after (context : Context) (o : Outcome) : Context :=
  { context with outputs := o.outputs }

namespace Runner

variable (r : Runner)

/-- The value of a step: what its handler yields, waited for if it is a promise. -/
def perform (step : Step) (context : Context) : Job Value := do
  let yielded ← r.dispatch step context
  Job.settle yielded

/-! ## The equations of a run -/

/-- The empty flow has the last value before it. -/
theorem executeFrom_nil (index : Nat) (context : Context) (last : Value) :
    r.executeFrom index [] context last = pure ⟨last, context.outputs⟩ := by
  rw [executeFrom]

/-- A flow is its first step and then the others, with the value of the first one stored. -/
theorem executeFrom_cons (index : Nat) (step : Step) (rest : List Step) (context : Context)
    (last : Value) :
    r.executeFrom index (step :: rest) context last = (do
      Job.log (.stepDispatched index step.kind)
      let value ← r.perform step context
      r.executeFrom (index + 1) rest (context.store (r.outputName step) value) value) := by
  rw [executeFrom, perform]
  simp only [bind_assoc]
  rfl

/-- A run reports its start and its end, and performs its steps in between. -/
theorem execute_eq (flow : List Step) (context : Context) :
    r.execute flow context = (do
      Job.log (.runStarted flow.length)
      let outcome ← r.executeFrom 0 flow context .null
      Job.log .runFinished
      return outcome) := by
  rw [execute]

/-- The steps of two flows are performed as those of the first and then those of the second, in the
context that the first ones leave. -/
theorem executeFrom_append (index : Nat) (f g : List Step) (context : Context) (last : Value) :
    r.executeFrom index (f ++ g) context last = (do
      let o ← r.executeFrom index f context last
      r.executeFrom (index + f.length) g (context.after o) o.result) := by
  induction f generalizing index context last with
  | nil =>
    rw [executeFrom_nil, pure_bind]
    rfl
  | cons step f ih =>
    rw [List.cons_append, executeFrom_cons, executeFrom_cons]
    simp only [ih, bind_assoc]
    -- The index behind both flows does not depend on how they are divided.
    have hindex : index + 1 + f.length = index + (step :: f).length := by
      rw [List.length_cons]
      omega
    rw [hindex]
    rfl

/-! ## Reports -/

variable {r} {c : Catalog}

/-- Around the steps of a run nothing happens but the reports of its limits. -/
theorem run_execute (flow : List Step) (context : Context) :
    ((r.execute flow context).run c).Agrees ((r.executeFrom 0 flow context .null).run c) ∧
      ((r.execute flow context).run c).events =
        .runStarted flow.length :: ((r.executeFrom 0 flow context .null).run c).events ++
          match ((r.executeFrom 0 flow context .null).run c).result with
          | .ok _ => [.runFinished]
          | .error _ => [] := by
  rw [execute_eq, Job.run_log_bind, Job.run_bind]
  cases h : ((r.executeFrom 0 flow context .null).run c).result with
  | ok o =>
    rw [Job.Report.andThen_of_ok h]
    exact ⟨⟨h.symm, rfl, List.append_nil _⟩, rfl⟩
  | error e =>
    rw [Job.Report.andThen_of_error h]
    exact ⟨⟨h.symm, rfl, rfl⟩, (List.append_nil _).symm⟩

theorem agrees_execute (flow : List Step) (context : Context) :
    ((r.execute flow context).run c).Agrees ((r.executeFrom 0 flow context .null).run c) :=
  (run_execute flow context).1

/-- The report of a flow is that of its first step and then that of the others. -/
theorem run_executeFrom_cons (index : Nat) (step : Step) (rest : List Step) (context : Context)
    (last : Value) :
    (r.executeFrom index (step :: rest) context last).run c =
      (((r.perform step context).run c).andThen fun value c' =>
        (r.executeFrom (index + 1) rest (context.store (r.outputName step) value) value).run
          c').afterEvents [.stepDispatched index step.kind] := by
  rw [executeFrom_cons, Job.run_log_bind, Job.run_bind]

/-- The number of the first step is seen in the reports only. -/
theorem agrees_executeFrom (index other : Nat) (flow : List Step) (context : Context)
    (last : Value) :
    ((r.executeFrom index flow context last).run c).Agrees
      ((r.executeFrom other flow context last).run c) := by
  induction flow generalizing index other context last c with
  | nil =>
    rw [executeFrom_nil, executeFrom_nil]
    exact .refl _
  | cons step rest ih =>
    rw [run_executeFrom_cons, run_executeFrom_cons]
    have h := (Job.Report.Agrees.refl ((r.perform step context).run c)).andThen
      (fun value c' => ih (c := c') (index + 1) (other + 1)
        (context.store (r.outputName step) value) value)
    exact ⟨h.result, h.catalog, h.calls⟩

/-- The steps of a flow leave what a run of the flow leaves, but for the value of a flow without a
step, which is the last one before it. -/
theorem run_executeFrom (index : Nat) (flow : List Step) (context : Context) (last : Value) :
    ((r.executeFrom index flow context last).run c).Agrees
      { (r.execute flow context).run c with
        result := ((r.execute flow context).run c).result.map fun o =>
          { result := if flow.isEmpty then last else o.result, outputs := o.outputs } } := by
  have hown := agrees_execute (r := r) (c := c) flow context
  cases flow with
  | nil =>
    rw [executeFrom_nil] at hown ⊢
    refine ⟨?_, hown.catalog.symm, hown.calls.symm⟩
    rw [hown.result]
    rfl
  | cons step rest =>
    -- A step makes its own value the last one, whatever was there before.
    have hlast : r.executeFrom index (step :: rest) context last =
        r.executeFrom index (step :: rest) context .null := by
      rw [executeFrom_cons, executeFrom_cons]
    have hsteps := agrees_executeFrom (r := r) (c := c) index 0 (step :: rest) context .null
    rw [hlast]
    refine ⟨?_, hsteps.catalog.trans hown.catalog.symm, hsteps.calls.trans hown.calls.symm⟩
    rw [hsteps.result, ← hown.result]
    cases ((r.execute (step :: rest) context).run c).result <;> rfl

/-- The events of a run that succeeds are those of its steps, between the reports of its limits. -/
theorem events_execute_of_ok {flow : List Step} {context : Context} {o : Outcome}
    (h : ((r.execute flow context).run c).result = .ok o) :
    ((r.execute flow context).run c).events =
      .runStarted flow.length :: ((r.executeFrom 0 flow context .null).run c).events ++
        [.runFinished] := by
  obtain ⟨hsteps, hevents⟩ := run_execute (r := r) (c := c) flow context
  rw [hevents, ← hsteps.result, h]

/-! ## Runs of two flows -/

/-- A run that fails is not continued. -/
theorem agrees_execute_append_of_error {f g : List Step} {context : Context} {e : FlowError}
    (h : ((r.execute f context).run c).result = .error e) :
    ((r.execute (f ++ g) context).run c).Agrees ((r.execute f context).run c) := by
  have hfirst := agrees_execute (r := r) (c := c) f context
  have hwhole := agrees_execute (r := r) (c := c) (f ++ g) context
  rw [executeFrom_append, Job.run_bind,
    Job.Report.andThen_of_error (hfirst.result.symm.trans h)] at hwhole
  exact ⟨hwhole.result.trans h.symm, hwhole.catalog.trans hfirst.catalog.symm,
    hwhole.calls.trans hfirst.calls.symm⟩

/-- A run that succeeds is continued with the catalog and the outputs that it leaves. -/
theorem agrees_execute_append_of_ok {f : List Step} {context : Context} {o : Outcome}
    (h : ((r.execute f context).run c).result = .ok o) (g : List Step) :
    ((r.execute (f ++ g) context).run c).Agrees
      (((r.executeFrom f.length g (context.after o) o.result).run
        ((r.execute f context).run c).catalog).afterCalls ((r.execute f context).run c).calls) := by
  have hfirst := agrees_execute (r := r) (c := c) f context
  have hwhole := agrees_execute (r := r) (c := c) (f ++ g) context
  rw [executeFrom_append, Job.run_bind, Job.Report.andThen_of_ok (hfirst.result.symm.trans h),
    Nat.zero_add, ← hfirst.catalog, ← hfirst.calls] at hwhole
  exact ⟨hwhole.result, hwhole.catalog, hwhole.calls⟩

/-- The steps of a flow up to one that fails, and nothing of those behind it. -/
theorem run_executeFrom_append_of_error {f : List Step} {step : Step} {context : Context}
    {index : Nat} {last : Value} {o : Outcome} {e : FlowError} {first : Job.Report Outcome}
    {failing : Job.Report Value} (hfirst : (r.executeFrom index f context last).run c = first)
    (hfailing : (r.perform step (context.after o)).run first.catalog = failing)
    (h : first.result = .ok o) (hstep : failing.result = .error e) (g : List Step) :
    (r.executeFrom index (f ++ step :: g) context last).run c =
      { result := .error e, catalog := failing.catalog, calls := first.calls ++ failing.calls,
        events := first.events ++
          .stepDispatched (index + f.length) step.kind :: failing.events } := by
  subst hfirst hfailing
  rw [executeFrom_append, Job.run_bind, Job.Report.andThen_of_ok h, run_executeFrom_cons,
    Job.Report.andThen_of_error hstep]
  rfl

end Runner

/-! ## Main result -/

/-- The run of two flows is the run of the first one and, if that succeeds, the run of the second
one with the outputs and the catalog that the first one leaves: with the same calls, the same
catalog, and the same failure or the same outputs. Its result is that of the second flow, unless
that has no step. A step that fails is the last that a run dispatches, and the catalog stays as it
is then. -/
theorem Runner.run_execute_append (r : Runner) (f g : List Step) (context : Context)
    (c : Catalog) :
    let first := (r.execute f context).run c
    let whole := (r.execute (f ++ g) context).run c
    (∀ e, first.result = .error e →
      whole.result = .error e ∧ whole.catalog = first.catalog ∧ whole.calls = first.calls) ∧
    (∀ o, first.result = .ok o →
      let second := (r.execute g (context.after o)).run first.catalog
      whole.catalog = second.catalog ∧ whole.calls = first.calls ++ second.calls ∧
        whole.result = second.result.map fun o' =>
          { result := if g.isEmpty then o.result else o'.result, outputs := o'.outputs }) ∧
    ∀ o step e, first.result = .ok o →
      let failing := (r.perform step (context.after o)).run first.catalog
      failing.result = .error e →
      let stopped := (r.execute (f ++ step :: g) context).run c
      stopped.result = .error e ∧ stopped.catalog = failing.catalog ∧
        stopped.calls = first.calls ++ failing.calls ∧
        ∃ events, first.events = .runStarted f.length :: events ++ [.runFinished] ∧
          stopped.events = .runStarted (f ++ step :: g).length :: events ++
            .stepDispatched f.length step.kind :: failing.events := by
  intro first whole
  refine ⟨fun e h => ?_, fun o h => ?_, fun o step e h => ?_⟩
  · have hwhole := agrees_execute_append_of_error (g := g) h
    exact ⟨hwhole.result.trans h, hwhole.catalog, hwhole.calls⟩
  · have hwhole := agrees_execute_append_of_ok h g
    have hsecond := run_executeFrom (r := r) (c := first.catalog) f.length g (context.after o)
      o.result
    refine ⟨hwhole.catalog.trans hsecond.catalog, hwhole.calls.trans ?_,
      hwhole.result.trans hsecond.result⟩
    exact congrArg (first.calls ++ ·) hsecond.calls
  · intro failing hfailing stopped
    -- The steps of the first flow and the failing step are known by themselves, so the reports are
    -- put together from theirs.
    obtain ⟨hfirst, -⟩ := run_execute (r := r) (c := c) f context
    obtain ⟨hstopped, hevents⟩ := run_execute (r := r) (c := c) (f ++ step :: g) context
    have hstep : (r.perform step (context.after o)).run
        ((r.executeFrom 0 f context .null).run c).catalog = failing := by
      rw [← hfirst.catalog]
    have hsteps := run_executeFrom_append_of_error rfl hstep (hfirst.result.symm.trans h)
      hfailing g
    rw [hsteps] at hstopped hevents
    rw [Nat.zero_add] at hevents
    refine ⟨hstopped.result, hstopped.catalog, ?_, _, events_execute_of_ok h, ?_⟩
    · rw [hstopped.calls, ← hfirst.calls]
    · rw [hevents, List.append_nil]
      rfl

/-- A runner whose one handler gives the catalog a base URL. -/
def settingRunner : Runner where
  registry := Registry.empty.register "set" fun _ _ _ =>
    .configure { baseUrl := some "/api" } (pure .null)

/-- The base URL is given twice, before a step that no handler is registered for, and not at all
after such a step. -/
theorem Runner.run_execute_append_set :
    let set := Step.custom "set" []
    let unset := Step.custom "unset" []
    let stored := ({} : Outputs).store "temp" .null
    let report (flow : List Step) := (settingRunner.execute flow {}).run {}
    ((report [set]).result = .ok ⟨.null, stored⟩ ∧
      (report [unset]).result = .error (.unknownAction "unset")) ∧
    (report ([set] ++ [set])).result = .ok ⟨.null, stored.store "temp" .null⟩ ∧
    ((report ([set] ++ unset :: [set])).result = .error (.unknownAction "unset") ∧
      (report ([set] ++ unset :: [set])).catalog.baseUrl = some "/api") ∧
    (report ([unset] ++ [set])).catalog.baseUrl = none := by
  intro set unset stored report
  have hset : (report [set]).result = .ok ⟨.null, stored⟩ := by
    simp only [report, execute_eq, executeFrom_cons, executeFrom_nil]
    rfl
  have hunset : (report [unset]).result = .error (.unknownAction "unset") := by
    simp only [report, execute_eq, executeFrom_cons, executeFrom_nil]
    rfl
  obtain ⟨-, hgoesOn, hstops⟩ := run_execute_append settingRunner [set] [set] {} {}
  obtain ⟨hfails, -⟩ := run_execute_append settingRunner [unset] [set] {} {}
  refine ⟨⟨hset, hunset⟩, (hgoesOn _ hset).2.2.trans ?_, ⟨?_, ?_⟩, ?_⟩
  · simp only [execute_eq, executeFrom_cons, executeFrom_nil]
    rfl
  · exact (hstops _ unset _ hset rfl).1
  · rw [(hstops _ unset (.unknownAction "unset") hset rfl).2.1]
    simp only [execute_eq, executeFrom_cons, executeFrom_nil]
    rfl
  · rw [(hfails _ hunset).2.1]
    simp only [execute_eq, executeFrom_cons, executeFrom_nil]
    rfl

end TemplateFlow
