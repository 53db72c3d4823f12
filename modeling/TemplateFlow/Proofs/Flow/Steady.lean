import TemplateFlow.Proofs.Flow.Builtin
import TemplateFlow.Proofs.Flow.Sequence

/-!
# Runs that leave the catalog alone

Of the built-in handlers only that of `initApi` changes the catalog. So a run of the built-in
handlers whose flow has no such step, at any depth, leaves the catalog as it is, whatever it finds
in the catalog when it looks (`Runner.steady_execute`).

A job of this kind (`Job.Steady`) can be stopped behind any of its steps: the catalog is the same
then, and what is left of the job comes to the same result (`Job.Steady.result_run_step`).

## Main definitions

* `Job.Steady`: a job that leaves the catalog alone.
* `Step.OccursIn`: a step of a flow or of a flow inside one of its steps.
* `KeepsSettings`: flows without a step that changes the settings of the catalog.
-/

namespace TemplateFlow

/-! ## Jobs -/

namespace Job

variable {α β : Type}

/-- The job neither registers an API nor gives settings, whatever is in the catalog. -/
inductive Steady : Job α → Prop where
  | done (result : Except FlowError α) : Steady (.done result)
  | report (event : Event) {next : Job α} (h : Steady next) : Steady (.report event next)
  | invoke (calls : List Invocation) {next : Job α} (h : Steady next) : Steady (.invoke calls next)
  | look {next : Catalog → Job α} (h : ∀ c, Steady (next c)) : Steady (.look next)
  | await (task : Option Site) {next : Job α} (h : Steady next) : Steady (.await task next)

namespace Steady

variable {job : Job α}

/-- One step leaves the catalog. -/
theorem fst_step (h : job.Steady) (c : Catalog) : (job.step c).1 = c := by
  cases h <;> rfl

/-- What is left of a steady job is steady. -/
theorem snd_step (h : job.Steady) (c : Catalog) : (job.step c).2.Steady := by
  cases h with
  | done result => exact .done result
  | report event h => exact h
  | invoke calls h => exact h
  | look h => exact h c
  | await task h => exact h

/-- What is left of the job comes to the result of the job. -/
theorem result_run_step (h : job.Steady) (c : Catalog) :
    ((job.step c).2.run c).result = (job.run c).result := by
  cases h <;> rfl

/-- A value by itself leaves the catalog. -/
protected theorem pure (a : α) : (pure a : Job α).Steady := .done _

/-- A failure leaves the catalog. -/
protected theorem fail (e : FlowError) : (fail e : Job α).Steady := .done _

/-- An event leaves the catalog. -/
protected theorem log (event : Event) : (log event).Steady := .report event (.done _)

/-- Looking at the catalog leaves it. -/
protected theorem catalog : catalog.Steady := .look fun _ => .done _

/-- Jobs that leave the catalog can be put one behind the other. -/
protected theorem bind {f : α → Job β} (h : job.Steady) (hf : ∀ a, (f a).Steady) :
    (job >>= f).Steady := by
  change (job.bind f).Steady
  induction h with
  | done result =>
    -- The second job begins here, unless the first one has failed.
    cases result with
    | ok a => exact hf a
    | error e => exact .done _
  | report event h ih => exact .report event ih
  | invoke calls h ih => exact .invoke calls ih
  | look h ih => exact .look ih
  | await task h ih => exact .await task ih

/-- Changing the result changes nothing else. -/
protected theorem map (f : α → β) (h : job.Steady) : (f <$> job).Steady := by
  rw [map_eq_pure_bind]
  exact h.bind fun a => .pure _

/-- A rendering calls functions and reports events, which leaves the catalog. -/
protected theorem ofRendering (r : Rendering) : (ofRendering r).Steady := by
  refine .invoke r.calls ?_
  induction r.events with
  | nil => exact .pure r.value
  | cons event events ih => exact .report event ih

/-- Waiting for a promise leaves the catalog, however many promises are in one another. -/
protected theorem settle (v : Value) : (settle v).Steady := by
  induction v using settle.induct with
  | case1 task v ih => exact .await task ih
  | case2 task message => exact .await task (.fail _)
  | case3 v hresolved hrejected => rw [settle.eq_3 v hresolved hrejected]; exact .pure v

end Steady

end Job

/-! ## Steps inside flows -/

/-- A flow weighs more than each of its steps. -/
theorem weight_lt_flowWeight {s : Step} {flow : List Step} (h : s ∈ flow) :
    s.weight < flowWeight flow := by
  induction h with
  | head rest =>
    rw [flowWeight]
    omega
  | tail t h ih =>
    rw [flowWeight]
    omega

namespace Step

/-- The flows inside a step. -/
def branches (s : Step) : List (List Step) :=
  match s.action with
  | .condition _ onTrue onFalse => onTrue.toList ++ onFalse.toList
  | _ => []

/-- The step is one of a flow, or of a flow inside a step of it, at any depth. -/
inductive OccursIn (s : Step) : List Step → Prop where
  | here {flow : List Step} (h : s ∈ flow) : OccursIn s flow
  | inside {t : Step} {inner flow : List Step} (ht : t ∈ flow) (hinner : inner ∈ t.branches)
    (h : OccursIn s inner) : OccursIn s flow

/-- No step occurs in the empty flow. -/
theorem not_occursIn_nil (s : Step) : ¬ s.OccursIn [] := by
  intro h
  cases h with
  | here h => cases h
  | inside ht => cases ht

/-- What occurs in the branch that a condition takes occurs in the flow of the condition. -/
theorem OccursIn.of_branch {s : Step} {flow : List Step} {text : String}
    {onTrue onFalse : Option (List Step)} {name : Option String} {taken : Bool}
    (h : s.OccursIn (Builtin.branch taken onTrue onFalse))
    (hcondition : ⟨.condition text onTrue onFalse, name⟩ ∈ flow) : s.OccursIn flow := by
  rw [Builtin.branch] at h
  cases hinner : if taken then onTrue else onFalse with
  | none =>
    -- An absent branch is the empty flow, which is not among the flows inside the step.
    rw [hinner] at h
    exact absurd h (not_occursIn_nil s)
  | some inner =>
    have hmem : inner ∈ (⟨.condition text onTrue onFalse, name⟩ : Step).branches := by
      refine List.mem_append.mpr ?_
      cases taken with
      | true => exact .inl (Option.mem_toList.mpr hinner)
      | false => exact .inr (Option.mem_toList.mpr hinner)
    rw [hinner] at h
    exact .inside hcondition hmem h

/-- The branch that a condition takes weighs less than the flow of the condition. -/
theorem flowWeight_branch_lt_of_mem {flow : List Step} {text : String}
    {onTrue onFalse : Option (List Step)} {name : Option String}
    (h : ⟨.condition text onTrue onFalse, name⟩ ∈ flow) (taken : Bool) :
    flowWeight (Builtin.branch taken onTrue onFalse) < flowWeight flow :=
  calc flowWeight (Builtin.branch taken onTrue onFalse)
      < (Action.condition text onTrue onFalse).weight :=
        Builtin.flowWeight_branch_lt taken text onTrue onFalse
    _ < flowWeight flow := by
        have := weight_lt_flowWeight h
        rwa [Step.weight_eq] at this

/-- The step gives settings to the catalog. -/
def GivesSettings (s : Step) : Prop := ∃ config, s.action = .initApi config

end Step

/-- No step of the flow, at any depth, gives settings to the catalog. -/
def KeepsSettings (flow : List Step) : Prop :=
  ∀ s : Step, s.OccursIn flow → ¬ s.GivesSettings

namespace KeepsSettings

variable {flow : List Step}

/-- In particular the steps of the flow itself give no settings. -/
theorem not_givesSettings (h : KeepsSettings flow) {s : Step} (hs : s ∈ flow) :
    ¬ s.GivesSettings :=
  h s (.here hs)

/-- The empty flow gives no settings. -/
theorem nil : KeepsSettings [] := fun s h => absurd h s.not_occursIn_nil

/-- A step may be put in front if neither it nor a flow inside of it gives settings. -/
theorem cons {s : Step} (hs : ¬ s.GivesSettings)
    (hbranches : ∀ inner ∈ s.branches, KeepsSettings inner) (h : KeepsSettings flow) :
    KeepsSettings (s :: flow) := by
  intro t hoccurs
  cases hoccurs with
  | here ht =>
    rcases List.mem_cons.mp ht with rfl | ht
    · exact hs
    · exact h t (.here ht)
  | inside hu hinner ht =>
    rcases List.mem_cons.mp hu with rfl | hu
    · exact hbranches _ hinner t ht
    · exact h t (.inside hu hinner ht)

/-- The branches of a condition are flows of the same kind, an absent one too. -/
theorem branch (h : KeepsSettings flow) {text : String} {onTrue onFalse : Option (List Step)}
    {name : Option String} (hs : ⟨.condition text onTrue onFalse, name⟩ ∈ flow) (taken : Bool) :
    KeepsSettings (Builtin.branch taken onTrue onFalse) :=
  fun s hoccurs => h s (hoccurs.of_branch hs)

end KeepsSettings

/-! ## The built-in handlers -/

namespace Builtin

open Job (Steady)

/-- Declaring fields renders them, one by one. -/
theorem steady_declareFields (context : Context) (index : Nat) (values : Bindings)
    (fields : List DeclaredField) : (declareFields context index values fields).Steady := by
  induction fields generalizing index values with
  | nil => exact .pure values
  | cons f rest ih => exact (Steady.ofRendering _).bind fun value => ih _ _

/-- Every handler of the registry refuses a step that carries data, whatever its kind. -/
theorem refuses_custom {kind : String} {handler : Handler}
    (h : Dictionary.get? registry.handlers kind = some handler) (payload : Dictionary Json)
    (name : Option String) (context : Context)
    (perform : Performer (Step.weight ⟨.custom kind payload, name⟩)) :
    handler ⟨.custom kind payload, name⟩ context perform =
      refuse ⟨.custom kind payload, name⟩ := by
  rw [get?_registry] at h
  repeat' split at h
  all_goals cases h
  all_goals rfl

end Builtin

namespace Runner

open Job (Steady)

variable {r : Runner}

/-- A step leaves the catalog unless it gives settings, or performs a branch that does not leave
it. -/
theorem steady_dispatch (hr : r.registry = Builtin.registry) {s : Step}
    (hs : ¬ s.GivesSettings) (context : Context)
    (hbranch : ∀ text onTrue onFalse, s.action = .condition text onTrue onFalse →
      ∀ taken innerContext,
        (r.execute (Builtin.branch taken onTrue onFalse) innerContext).Steady) :
    (r.dispatch s context).Steady := by
  obtain ⟨registry, defaultOutput⟩ := r
  obtain ⟨action, name⟩ := s
  subst hr
  cases action with
  | condition text onTrue onFalse =>
    rw [dispatch_condition rfl]
    exact (Steady.ofRendering _).bind fun v => (Steady.log _).bind fun _ =>
      (hbranch text onTrue onFalse rfl _ _).map _
  | call component method args =>
    rw [@dispatch_of_get? _ _ Builtin.call rfl]
    exact (Steady.log _).bind fun _ => .ofRendering _
  | callApi method args =>
    rw [@dispatch_of_get? _ _ Builtin.callApi rfl]
    exact (Steady.log _).bind fun _ => Steady.catalog.bind fun _ => .ofRendering _
  | declare declaration =>
    rw [@dispatch_of_get? _ _ Builtin.declare rfl]
    cases declaration with
    | value component text => exact .ofRendering _
    | fields fields => exact (Builtin.steady_declareFields _ _ _ _).map _
  | initApi config => exact absurd ⟨config, rfl⟩ hs
  | custom kind payload =>
    cases h : Dictionary.get? Builtin.registry.handlers kind with
    | none =>
      rw [dispatch_of_get?_eq_none h]
      exact .fail _
    | some handler =>
      -- A step of a built-in kind that carries data is not what the handler of the kind expects.
      rw [dispatch_of_get? h, Builtin.refuses_custom h]
      exact .fail _

/-- A flow leaves the catalog if each of its steps does, in every context. -/
theorem steady_executeFrom {flow : List Step}
    (h : ∀ s ∈ flow, ∀ context, (r.dispatch s context).Steady) (index : Nat) (context : Context)
    (last : Value) : (r.executeFrom index flow context last).Steady := by
  induction flow generalizing index context last with
  | nil =>
    rw [executeFrom_nil]
    exact .pure _
  | cons s rest ih =>
    obtain ⟨hs, hrest⟩ := List.forall_mem_cons.mp h
    rw [executeFrom_cons, perform]
    exact (Steady.log _).bind fun _ =>
      ((hs context).bind fun yielded => .settle yielded).bind fun value => ih hrest _ _ _

/-- A run of the built-in handlers leaves the catalog unless a step, at any depth, gives settings
to it. -/
theorem steady_execute (hr : r.registry = Builtin.registry) {flow : List Step}
    (h : KeepsSettings flow) (context : Context) : (r.execute flow context).Steady := by
  -- A branch weighs less than the flow that its condition is in.
  induction hn : flowWeight flow using Nat.strongRecOn generalizing flow context with
  | ind n ih =>
    subst hn
    have hdispatch : ∀ s ∈ flow, ∀ inner, (r.dispatch s inner).Steady := by
      intro s hs inner
      refine steady_dispatch hr (h.not_givesSettings hs) inner ?_
      intro text onTrue onFalse haction taken branchContext
      obtain ⟨action, name⟩ := s
      subst haction
      exact ih _ (Step.flowWeight_branch_lt_of_mem hs taken) (h.branch hs taken) branchContext rfl
    rw [execute_eq]
    exact (Steady.log _).bind fun _ =>
      (steady_executeFrom hdispatch 0 context .null).bind fun _ =>
        (Steady.log _).bind fun _ => .pure _

end Runner

end TemplateFlow
