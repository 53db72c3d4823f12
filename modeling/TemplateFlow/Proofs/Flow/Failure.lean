import TemplateFlow.Proofs.Flow.RoundTrip
import TemplateFlow.Proofs.Flow.Steady
import TemplateFlow.Proofs.Template.Verdict

/-!
# Failures of the built-in handlers

A run of the built-in handlers fails for two reasons only. A custom step, which no handler is
registered for, is unknown; and a promise that a step yields may be rejected. That a handler is
given a step of another kind than its own can not happen to a flow that was read from data, since
the kind of a step there tells what its action is, at every depth.

Templates are not among the reasons. A step of a built-in kind always yields a value, however its
templates are rendered, unless it is a condition whose branch fails.

## Main definitions

* `Runner.StepFailure`: how a step fails, whatever its handler is.
* `Runner.Failure`: the two reasons, at any depth of a flow.

## Main results

* `Runner.exists_stepFailure`: a run fails with a step of its flow.
* `Builtin.performed_dispatch`: what a step of a flow that was read comes to.
* `Runner.execute_result_cases`: how a run ends.
-/

namespace TemplateFlow

/-! ## Failures of steps -/

namespace Runner

variable {r : Runner}

/-- A step fails in a context: its handler fails, or the promise that it yields is rejected. -/
inductive StepFailure (r : Runner) (s : Step) : FlowError → Prop where
  | handler {context : Context} {c : Catalog} {e : FlowError}
    (h : ((r.dispatch s context).run c).result = .error e) : StepFailure r s e
  | promise {context : Context} {c : Catalog} {yielded : Value} {task : Option Site}
    {message : String} (h : ((r.dispatch s context).run c).result = .ok yielded)
    (hleads : yielded.LeadsTo (.rejected task message)) : StepFailure r s (.apiRejected message)

/-- A step that can not be performed fails in its handler, or with the promise that it has
yielded. -/
theorem stepFailure_of_perform {s : Step} {context : Context} {c : Catalog} {e : FlowError}
    (h : ((r.perform s context).run c).result = .error e) : r.StepFailure s e := by
  rw [perform] at h
  cases hdispatch : ((r.dispatch s context).run c).result with
  | ok yielded =>
    -- The handler has done its part, so it is the promise that fails.
    rw [Job.result_run_bind_of_ok hdispatch] at h
    obtain ⟨task, message, hleads, rfl⟩ := Job.exists_rejected_of_settle h
    exact .promise hdispatch hleads
  | error e' =>
    rw [Job.run_bind, Job.Report.andThen_of_error hdispatch] at h
    cases h
    exact .handler hdispatch

/-- The steps of a flow fail with one of them. -/
theorem exists_stepFailure_executeFrom {flow : List Step} {index : Nat} {context : Context}
    {last : Value} {c : Catalog} {e : FlowError}
    (h : ((r.executeFrom index flow context last).run c).result = .error e) :
    ∃ s ∈ flow, r.StepFailure s e := by
  induction flow generalizing index context last c with
  | nil =>
    rw [executeFrom_nil] at h
    cases h
  | cons s rest ih =>
    rw [executeFrom_cons, Job.result_run_log_bind] at h
    cases hperform : ((r.perform s context).run c).result with
    | ok value =>
      -- The failure is one of the steps that are left, in the context that this one leaves.
      rw [Job.result_run_bind_of_ok hperform] at h
      obtain ⟨t, ht, hfailure⟩ := ih h
      exact ⟨t, List.mem_cons_of_mem _ ht, hfailure⟩
    | error e' =>
      rw [Job.run_bind, Job.Report.andThen_of_error hperform] at h
      cases h
      exact ⟨s, List.mem_cons_self, stepFailure_of_perform hperform⟩

/-- A run fails with a step of its flow. -/
theorem exists_stepFailure {flow : List Step} {context : Context} {c : Catalog} {e : FlowError}
    (h : ((r.execute flow context).run c).result = .error e) :
    ∃ s ∈ flow, r.StepFailure s e := by
  rw [(agrees_execute flow context).result] at h
  exact exists_stepFailure_executeFrom h

end Runner

/-! ## The built-in handlers -/

/-- The steps at any depth of an ordinary flow are ordinary. -/
theorem Step.OccursIn.ordinary {s : Step} {flow : List Step} (h : s.OccursIn flow)
    (hflow : FlowOrdinary flow) : s.Ordinary := by
  have hmem {t : Step} {flow : List Step} (ht : t ∈ flow) (hflow : FlowOrdinary flow) :
      t.Ordinary := by
    induction ht with
    | head => exact hflow.1
    | tail _ _ ih => exact ih hflow.2
  -- On the way down to the step every flow is a branch of an ordinary condition.
  induction h with
  | here hs => exact hmem hs hflow
  | @inside t inner flow ht hinner _ ih =>
    have ht := hmem ht hflow
    obtain ⟨action, name⟩ := t
    cases action with
    | condition text onTrue onFalse =>
      obtain ⟨hTrue, hFalse⟩ := ht
      refine ih ?_
      rcases List.mem_append.mp hinner with hinner | hinner
      · obtain rfl := Option.mem_toList.mp hinner
        exact hTrue
      · obtain rfl := Option.mem_toList.mp hinner
        exact hFalse
    | _ => exact absurd hinner List.not_mem_nil

namespace Builtin

open Job

/-- Fields are declared in any case, since a rendering always has a value. -/
theorem exists_run_declareFields (context : Context) (index : Nat) (values : Bindings)
    (fields : List DeclaredField) (c : Catalog) :
    ∃ bindings, ((declareFields context index values fields).run c).result = .ok bindings := by
  induction fields generalizing index values with
  | nil => exact ⟨values, rfl⟩
  | cons f rest ih =>
    rw [declareFields, result_run_ofRendering_bind]
    exact ih _ _

/-- There is no handler of a kind that is not built in. -/
theorem get?_registry_eq_none {kind : String} (h : kind ∉ Action.builtinKinds) :
    Dictionary.get? registry.handlers kind = none := by
  simp only [Action.builtinKinds, List.mem_cons, List.not_mem_nil, or_false, not_or] at h
  obtain ⟨hcondition, hcall, hcallApi, hdeclare, hinitApi⟩ := h
  rw [get?_registry, if_neg hinitApi, if_neg hcallApi, if_neg hdeclare, if_neg hcall,
    if_neg hcondition]

/-- What an ordinary step comes to when it is performed. -/
inductive Performed (r : Runner) (s : Step) (context : Context) (c : Catalog) :
    Except FlowError Value → Prop where
  /-- No handler is registered for the step. -/
  | unknown {kind : String} {payload : Dictionary Json} (haction : s.action = .custom kind payload)
    (hkind : kind ∉ Action.builtinKinds) : Performed r s context c (.error (.unknownAction kind))
  /-- The step has a value. -/
  | value (v : Value) : Performed r s context c (.ok v)
  /-- The branch that the condition takes fails. -/
  | branch {text : String} {onTrue onFalse : Option (List Step)} {e : FlowError}
    (haction : s.action = .condition text onTrue onFalse)
    (hbranch : ((r.execute (branch (context.render text).value.isTruthy onTrue onFalse)
      (context.enter 0)).run c).result = .error e) : Performed r s context c (.error e)

/-- A step of a built-in kind yields a value, however its texts are rendered, unless it is a
condition whose branch fails. -/
theorem performed_dispatch {r : Runner} (hr : r.registry = registry) {s : Step}
    (hs : s.Ordinary) (context : Context) (c : Catalog) :
    Performed r s context c ((r.dispatch s context).run c).result := by
  obtain ⟨handlers, defaultOutput⟩ := r
  obtain ⟨action, name⟩ := s
  subst hr
  cases action with
  | condition text onTrue onFalse =>
    rw [Runner.dispatch_condition rfl, result_run_ofRendering_bind, result_run_log_bind,
      result_run_map]
    -- The text only decides which branch is taken.
    cases hbranch : ((Runner.execute ⟨registry, defaultOutput⟩
        (Builtin.branch (context.render text).value.isTruthy onTrue onFalse)
        (context.enter 0)).run c).result with
    | ok o => exact .value o.result
    | error e => exact .branch rfl hbranch
  -- The others render their texts, and a rendering always has a value.
  | call component method args =>
    rw [@Runner.dispatch_of_get? _ _ call rfl]
    simp only [call, result_run_log_bind, run_ofRendering]
    exact .value _
  | callApi method args =>
    rw [@Runner.dispatch_of_get? _ _ callApi rfl]
    have hcatalog : (catalog.run c).result = .ok c := rfl
    simp only [callApi, result_run_log_bind, result_run_bind_of_ok hcatalog, run_ofRendering]
    exact .value _
  | declare declaration =>
    rw [@Runner.dispatch_of_get? _ _ declare rfl]
    cases declaration with
    | value component text =>
      simp only [declare, run_ofRendering]
      exact .value _
    | fields fields =>
      obtain ⟨bindings, h⟩ := exists_run_declareFields context 0 [] fields c
      simp only [declare, result_run_map, h]
      exact .value _
  | initApi config =>
    rw [@Runner.dispatch_of_get? _ _ initApi rfl]
    simp only [initApi, run, Report.afterEvents, run_ofRendering]
    exact .value _
  | custom kind payload =>
    rw [Runner.dispatch_of_get?_eq_none (get?_registry_eq_none hs.1)]
    exact .unknown rfl hs.1

end Builtin

namespace Runner

variable {r : Runner}

/-! ## Failures of runs -/

/-- The two reasons for which a run of the built-in handlers may fail. -/
inductive Failure (r : Runner) (flow : List Step) : FlowError → Prop where
  /-- A custom step, at some depth of the flow, has no handler. -/
  | unknown {s : Step} {kind : String} {payload : Dictionary Json} (hs : s.OccursIn flow)
    (haction : s.action = .custom kind payload) (hkind : kind ∉ Action.builtinKinds) :
    Failure r flow (.unknownAction kind)
  /-- A promise that a step, at some depth of the flow, has yielded is rejected. -/
  | rejected {s : Step} {context : Context} {c : Catalog} {yielded : Value} {task : Option Site}
    {message : String} (hs : s.OccursIn flow)
    (hyielded : ((r.dispatch s context).run c).result = .ok yielded)
    (hleads : yielded.LeadsTo (.rejected task message)) : Failure r flow (.apiRejected message)

/-- What a branch fails for, its flow fails for. -/
theorem Failure.of_branch {flow : List Step} {text : String} {onTrue onFalse : Option (List Step)}
    {name : Option String} {taken : Bool} {e : FlowError}
    (h : r.Failure (Builtin.branch taken onTrue onFalse) e)
    (hcondition : ⟨.condition text onTrue onFalse, name⟩ ∈ flow) : r.Failure flow e := by
  cases h with
  | unknown hs haction hkind => exact .unknown (hs.of_branch hcondition) haction hkind
  | rejected hs hyielded hleads => exact .rejected (hs.of_branch hcondition) hyielded hleads

/-- A run of an ordinary flow fails for one of the two reasons. -/
theorem failure_of_execute (hr : r.registry = Builtin.registry) {flow : List Step}
    (hflow : ∀ s : Step, s.OccursIn flow → s.Ordinary) {context : Context} {c : Catalog}
    {e : FlowError} (h : ((r.execute flow context).run c).result = .error e) :
    r.Failure flow e := by
  -- A branch weighs less than the flow that its condition is in.
  induction hn : flowWeight flow using Nat.strongRecOn generalizing flow context c with
  | ind n ih =>
    subst hn
    obtain ⟨s, hs, hfailure⟩ := exists_stepFailure h
    cases hfailure with
    | promise hyielded hleads => exact .rejected (.here hs) hyielded hleads
    | @handler inner c' _ hdispatch =>
      have hperformed := Builtin.performed_dispatch hr (hflow s (.here hs)) inner c'
      rw [hdispatch] at hperformed
      cases hperformed with
      | unknown haction hkind => exact .unknown (.here hs) haction hkind
      | @branch text onTrue onFalse _ haction hbranch =>
        obtain ⟨action, name⟩ := s
        subst haction
        have hfailure := ih _ (Step.flowWeight_branch_lt_of_mem hs _)
          (fun t ht => hflow t (ht.of_branch hs)) hbranch rfl
        exact hfailure.of_branch hs

/-- A run of the built-in handlers on a flow that was read from data succeeds, or fails since a
custom step at some depth is unknown or since a promise is rejected, and never for another reason.
No template makes it fail: at every depth a step of a built-in kind has a value in every context,
but for a condition whose branch fails, and a text whose rendering reports a problem stands for the
empty text, which is no promise. -/
theorem execute_result_cases (defaultOutput : String) {data : Json} {flow : List Step}
    (hdata : data.WellFormed) (hflow : flowOfJson data = .ok flow) (context : Context)
    (c : Catalog) :
    let r : Runner := ⟨Builtin.registry, defaultOutput⟩
    let result := ((r.execute flow context).run c).result
    ((∃ o, result = .ok o) ∨ ∃ e, result = .error e ∧ r.Failure flow e) ∧
      ((∀ kind, result ≠ .error (.invalidStep kind)) ∧
        ∀ kind message, result ≠ .error (.handler kind message)) ∧
      (∀ s : Step, s.OccursIn flow → s.kind ∈ Action.builtinKinds → ∀ context' c',
        (∃ v, ((r.dispatch s context').run c').result = .ok v) ∨
          ∃ text onTrue onFalse e, s.action = .condition text onTrue onFalse ∧
            ((r.execute (Builtin.branch (context'.render text).value.isTruthy onTrue onFalse)
              (context'.enter 0)).run c').result = .error e ∧
            ((r.dispatch s context').run c').result = .error e) ∧
      ∀ (context' : Context) text locals, (context'.render text locals).events ≠ [] →
        (context'.render text locals).value = .str "" := by
  intro r result
  have hordinary : ∀ s : Step, s.OccursIn flow → s.Ordinary := fun s hs =>
    hs.ordinary ((ordinary_of_wellFormed hdata).2 flow hflow)
  have hfailure : ∀ e, result = .error e → r.Failure flow e := fun e he =>
    failure_of_execute rfl hordinary he
  refine ⟨?_, ⟨?_, ?_⟩, ?_, ?_⟩
  · cases hresult : result with
    | ok o => exact .inl ⟨o, rfl⟩
    | error e => exact .inr ⟨e, rfl, hfailure e hresult⟩
  -- Neither of the two errors is among the reasons for a failure.
  · intro kind he
    exact nomatch hfailure _ he
  · intro kind message he
    exact nomatch hfailure _ he
  · intro s hs hkind context' c'
    have hperformed := Builtin.performed_dispatch (r := r) rfl (hordinary s hs) context' c'
    cases hdispatch : ((r.dispatch s context').run c').result with
    | ok v => exact .inl ⟨v, rfl⟩
    | error e =>
      rw [hdispatch] at hperformed
      cases hperformed with
      | unknown haction hcustom =>
        rw [Step.kind, haction] at hkind
        exact absurd hkind hcustom
      | branch haction hbranch => exact .inr ⟨_, _, _, e, haction, hbranch, rfl⟩
  · intro context' text locals hevents
    obtain ⟨verdict, hfalls⟩ := Template.exists_falls context'.host (context'.scope locals)
      context'.outputs.site text
    exact hfalls.value_of_events_ne_nil hevents

/-- A flow whose only step is a condition on a template that can not be read; the branch that is
taken then has a custom step. -/
def loggingFlow : List Step := [⟨.condition "\x7b\x7b (\x7d\x7d" none (some [logStep]), none⟩]

/-- The data is as a reader would give it. -/
theorem wellFormed_loggingFlow : (Json.arr (flowItems loggingFlow)).WellFormed := by
  have hlog : logStep.toJson.WellFormed := by
    refine .ofMembers ?_
    simp only [Action.members, optionalMember, List.cons_append, List.nil_append,
      List.forall_mem_cons]
    exact ⟨.num _, .str _, fun _ h => absurd h List.not_mem_nil⟩
  have hbranch : (Json.arr (flowItems [logStep])).WellFormed := by
    refine .arr ?_
    rw [flowItems, flowItems, List.forall_mem_singleton]
    exact hlog
  refine .arr ?_
  rw [loggingFlow, flowItems, flowItems, List.forall_mem_singleton]
  refine .ofMembers ?_
  simp only [Action.members, branchMember, optionalMember, List.cons_append, List.nil_append,
    List.forall_mem_cons]
  exact ⟨.str _, hbranch, .str _, fun _ h => absurd h List.not_mem_nil⟩

/-- The data is read as the flow. -/
theorem flowOfJson_loggingFlow : flowOfJson (.arr (flowItems loggingFlow)) = .ok loggingFlow := by
  have hlog : logStep.Ordinary := ⟨by decide, by decide, by decide, by decide⟩
  rw [flowOfJson_arr]
  exact mapM_flowItems loggingFlow ⟨⟨trivial, hlog, trivial⟩, trivial⟩

/-- No handler is registered for the kind of the step. -/
theorem result_loggingFlow :
    ((execute ⟨Builtin.registry, "temp"⟩ loggingFlow {}).run {}).result =
      .error (.unknownAction "log") := by
  let r : Runner := ⟨Builtin.registry, "temp"⟩
  have hcondition : Dictionary.get? r.registry.handlers Action.conditionKind =
      some Builtin.condition := rfl
  have hlog : Dictionary.get? r.registry.handlers logStep.kind = none := rfl
  have htaken : (Context.render {} "\x7b\x7b (\x7d\x7d").value.isTruthy = false := by decide +kernel
  have hbranch (context : Context) (c : Catalog) :
      ((r.execute [logStep] context).run c).result = .error (.unknownAction "log") := by
    rw [(agrees_execute _ _).result, executeFrom_cons, perform, dispatch_of_get?_eq_none hlog]
    rfl
  have hdispatch : ((r.dispatch ⟨.condition "\x7b\x7b (\x7d\x7d" none (some [logStep]), none⟩
      {}).run {}).result = .error (.unknownAction "log") := by
    rw [dispatch_condition hcondition, Job.result_run_ofRendering_bind, Job.result_run_log_bind,
      htaken, Job.result_run_map, Builtin.branch, if_neg Bool.false_ne_true, Option.getD_some,
      hbranch]
    rfl
  rw [(agrees_execute _ _).result, loggingFlow, run_executeFrom_cons, perform, Job.run_bind,
    Job.Report.andThen_of_error hdispatch]
  rfl

/-- In `loggingFlow` the condition goes on although its template can not be read, and the custom
step ends the run. -/
theorem execute_result_cases_log :
    ((Json.arr (flowItems loggingFlow)).WellFormed ∧
      flowOfJson (.arr (flowItems loggingFlow)) = .ok loggingFlow) ∧
    Failure ⟨Builtin.registry, "temp"⟩ loggingFlow (.unknownAction "log") := by
  refine ⟨⟨wellFormed_loggingFlow, flowOfJson_loggingFlow⟩, ?_⟩
  obtain ⟨hends, -⟩ :=
    execute_result_cases "temp" wellFormed_loggingFlow flowOfJson_loggingFlow {} {}
  rcases hends with ⟨o, ho⟩ | ⟨e, he, hfailure⟩
  · exact nomatch result_loggingFlow.symm.trans ho
  · obtain rfl := Except.error.inj (result_loggingFlow.symm.trans he)
    exact hfailure

end Runner

end TemplateFlow
