import TemplateFlow.Flow.Job

/-!
# Laws of jobs

Jobs form a lawful monad, and a sequence of jobs is performed part by part (`run_bind`): the second
part begins with the catalog that the first one leaves, unless the first one fails. What a part
reports and calls comes before what the next part does.

A value that is waited for may be a promise that resolves to a promise, and so on. The values on
this way are finitely many, and the last of them decides what the wait yields (`run_settle_eq_ok`,
`run_settle_of_leadsTo_rejected`).

## Main definitions

* `Job.Report.andThen`: the report of a second part, put behind that of a first.
* `Job.Report.Agrees`: two reports differ in their events at most.
* `Value.LeadsTo`: a value is reached from another through promises that resolve.

## Main results

* `Job.run_bind`: the report of a sequence.
* `Job.run_settle_eq_ok`: a wait yields the value at the end of the promises, which is no promise.
-/

namespace TemplateFlow

namespace Job

variable {α β γ : Type} {c : Catalog}

/-! ## The laws of a monad -/

/-- Nothing is added by a job that only hands on the result. -/
theorem bind_pure_eq (job : Job α) : job.bind (fun a => .done (.ok a)) = job := by
  induction job with
  | done result => cases result <;> rfl
  | report event next ih => exact congrArg (Job.report event) ih
  | invoke calls next ih => exact congrArg (Job.invoke calls) ih
  | look next ih => exact congrArg Job.look (funext ih)
  | register entry next ih => exact congrArg (Job.register entry) ih
  | configure config next ih => exact congrArg (Job.configure config) ih
  | await task next ih => exact congrArg (Job.await task) ih

/-- It does not matter how three jobs are put in brackets. -/
theorem bind_bind_eq (job : Job α) (f : α → Job β) (g : β → Job γ) :
    (job.bind f).bind g = job.bind fun a => (f a).bind g := by
  induction job with
  | done result => cases result <;> rfl
  | report event next ih => exact congrArg (Job.report event) ih
  | invoke calls next ih => exact congrArg (Job.invoke calls) ih
  | look next ih => exact congrArg Job.look (funext ih)
  | register entry next ih => exact congrArg (Job.register entry) ih
  | configure config next ih => exact congrArg (Job.configure config) ih
  | await task next ih => exact congrArg (Job.await task) ih

instance : LawfulMonad Job :=
  LawfulMonad.mk' Job bind_pure_eq (fun _ _ => rfl) bind_bind_eq

/-! ## Reports -/

namespace Report

/-- The report of what is done after a first part, which begins with the value and the catalog that
the first part leaves; nothing is done after a failure. -/
def andThen (first : Report α) (next : α → Catalog → Report β) : Report β :=
  match first.result with
  | .ok a => ((next a first.catalog).afterEvents first.events).afterCalls first.calls
  | .error e =>
    { result := .error e, catalog := first.catalog, calls := first.calls, events := first.events }

variable {first : Report α} {next : α → Catalog → Report β}

/-- Behind a report of success the next one begins in the catalog that it leaves. -/
theorem andThen_of_ok {a : α} (h : first.result = .ok a) :
    first.andThen next =
      ((next a first.catalog).afterEvents first.events).afterCalls first.calls := by
  rw [andThen, h]

/-- Behind a report of failure there is nothing. -/
theorem andThen_of_error {e : FlowError} (h : first.result = .error e) :
    first.andThen next =
      { result := .error e, catalog := first.catalog, calls := first.calls,
        events := first.events } := by
  rw [andThen, h]

/-- Events of the first part come first. -/
theorem andThen_afterEvents (events : List Event) :
    (first.afterEvents events).andThen next = (first.andThen next).afterEvents events := by
  obtain ⟨result, catalog, calls, before⟩ := first
  cases result with
  | ok a => simp only [andThen, afterCalls, afterEvents, List.append_assoc]
  | error e => rfl

/-- Calls of the first part come first. -/
theorem andThen_afterCalls (calls : List Invocation) :
    (first.afterCalls calls).andThen next = (first.andThen next).afterCalls calls := by
  obtain ⟨result, catalog, before, events⟩ := first
  cases result with
  | ok a => simp only [andThen, afterCalls, afterEvents, List.append_assoc]
  | error e => rfl

/-- Two reports have the same result, the same catalog and the same calls. -/
structure Agrees (r r' : Report α) : Prop where
  result : r.result = r'.result
  catalog : r.catalog = r'.catalog
  calls : r.calls = r'.calls

theorem Agrees.refl (r : Report α) : r.Agrees r := ⟨rfl, rfl, rfl⟩

/-- Parts that agree make wholes that agree. -/
theorem Agrees.andThen {first' : Report α} {next' : α → Catalog → Report β}
    (h : first.Agrees first') (hnext : ∀ a c, (next a c).Agrees (next' a c)) :
    (first.andThen next).Agrees (first'.andThen next') := by
  cases hr : first.result with
  | ok a =>
    obtain ⟨hresult, hcatalog, hcalls⟩ := hnext a first.catalog
    rw [andThen_of_ok hr, andThen_of_ok (h.result ▸ hr), ← h.catalog]
    refine ⟨hresult, hcatalog, ?_⟩
    simp only [afterCalls, afterEvents, h.calls, hcalls]
  | error e =>
    rw [andThen_of_error hr, andThen_of_error (h.result ▸ hr)]
    exact ⟨rfl, h.catalog, h.calls⟩

end Report

/-! ## Performance of sequences -/

/-- The parts of a sequence are performed one after the other. -/
theorem run_bind (job : Job α) (f : α → Job β) :
    (job >>= f).run c = (job.run c).andThen fun a c' => (f a).run c' := by
  change (job.bind f).run c = _
  induction job generalizing c with
  | done result => cases result <;> rfl
  | report event next ih => rw [Job.bind, run, run, ih, Report.andThen_afterEvents]
  | invoke calls next ih => rw [Job.bind, run, run, ih, Report.andThen_afterCalls]
  | look next ih => exact ih c
  | register entry next ih => rw [Job.bind, run, run, ih, Report.andThen_afterEvents]
  | configure config next ih =>
    simp only [Job.bind, run]
    rw [ih, Report.andThen_afterEvents]
  | await task next ih => exact ih

/-- A report that is made first comes first. -/
theorem run_log_bind (event : Event) (f : Unit → Job α) :
    (log event >>= f).run c = ((f ()).run c).afterEvents [event] := rfl

/-! ## Results of jobs -/

/-- A rendering always has a value. -/
theorem run_ofRendering (r : Rendering) :
    (ofRendering r).run c =
      { result := .ok r.value, catalog := c, calls := r.calls, events := r.events } := by
  have hreports (events : List Event) :
      (events.foldr .report (pure r.value) : Job Value).run c =
        { result := .ok r.value, catalog := c, events := events } := by
    induction events with
    | nil => rfl
    | cons event events ih =>
      rw [List.foldr_cons, run, ih]
      rfl
  rw [ofRendering, run, hreports, Report.afterCalls, List.append_nil]

/-- What follows a job without failure begins with its value. -/
theorem result_run_bind_of_ok {job : Job α} {f : α → Job β} {a : α}
    (h : (job.run c).result = .ok a) :
    ((job >>= f).run c).result = ((f a).run (job.run c).catalog).result := by
  rw [run_bind, Report.andThen_of_ok h]
  rfl

/-- A changed result is the change of the result. -/
theorem result_run_map (f : α → β) (job : Job α) :
    ((f <$> job).run c).result = ((job.run c).result).map f := by
  rw [map_eq_pure_bind, run_bind]
  cases h : (job.run c).result with
  | ok a =>
    rw [Report.andThen_of_ok h]
    rfl
  | error e =>
    rw [Report.andThen_of_error h]
    rfl

/-- A rendering before a job neither fails it nor changes its catalog. -/
theorem result_run_ofRendering_bind (r : Rendering) (f : Value → Job α) :
    ((ofRendering r >>= f).run c).result = ((f r.value).run c).result := by
  have hvalue : ((ofRendering r).run c).result = .ok r.value := by rw [run_ofRendering]
  rw [result_run_bind_of_ok hvalue, run_ofRendering]

theorem result_run_log_bind (event : Event) (f : Unit → Job α) :
    ((log event >>= f).run c).result = ((f ()).run c).result := rfl

end Job

/-! ## Promises -/

namespace Value

/-- Whether the value is a promise. -/
def isPromise : Value → Bool
  | .resolved _ _ | .rejected _ _ => true
  | _ => false

/-- The second value is reached from the first through promises that resolve, any number of them. -/
inductive LeadsTo : Value → Value → Prop where
  | refl (v : Value) : LeadsTo v v
  | resolved (task : Option Site) {v w : Value} (h : LeadsTo v w) : LeadsTo (.resolved task v) w

end Value

namespace Job

variable {c : Catalog} {v w : Value}

/-- A value that is no promise settles to itself. -/
theorem settle_eq_pure (h : v.isPromise = false) : settle v = pure v := by
  cases v with
  | resolved => cases h
  | rejected => cases h
  | _ => rfl

/-- Promises on the way to a value leave no trace in the report. -/
theorem run_settle_of_leadsTo (h : v.LeadsTo w) : (settle v).run c = (settle w).run c := by
  induction h with
  | refl => rfl
  | resolved task h ih => exact ih

/-- A promise that is rejected, at the end of any number of promises, ends the wait with its
message. -/
theorem run_settle_of_leadsTo_rejected {task : Option Site} {message : String}
    (h : v.LeadsTo (.rejected task message)) :
    (settle v).run c = { result := .error (.apiRejected message), catalog := c } :=
  run_settle_of_leadsTo h

/-- The promises on the way from a value are finitely many. -/
theorem exists_leadsTo (v : Value) :
    ∃ w, v.LeadsTo w ∧ (w.isPromise = false ∨ ∃ task message, w = .rejected task message) := by
  induction v using settle.induct with
  | case1 task v ih =>
    obtain ⟨w, hw, hend⟩ := ih
    exact ⟨w, .resolved task hw, hend⟩
  | case2 task message => exact ⟨_, .refl _, .inr ⟨task, message, rfl⟩⟩
  | case3 v hresolved hrejected =>
    cases v with
    | resolved task v => exact absurd rfl (hresolved task v)
    | rejected task message => exact absurd rfl (hrejected task message)
    | _ => exact ⟨_, .refl _, .inl rfl⟩

/-- A wait neither makes calls nor changes the catalog, and what it yields is the value that the
promises lead to, which is no promise. -/
theorem run_settle_eq_ok (h : ((settle v).run c).result = .ok w) :
    (settle v).run c = { result := .ok w, catalog := c } ∧ v.LeadsTo w ∧ w.isPromise = false := by
  obtain ⟨u, hu, hend⟩ := exists_leadsTo v
  rw [run_settle_of_leadsTo hu] at h ⊢
  rcases hend with hplain | ⟨task, message, rfl⟩
  · rw [settle_eq_pure hplain] at h ⊢
    cases h
    exact ⟨rfl, hu, hplain⟩
  · cases h

/-- A wait fails with a promise that is rejected only. -/
theorem exists_rejected_of_settle {v : Value} {e : FlowError}
    (h : ((settle v).run c).result = .error e) :
    ∃ task message, v.LeadsTo (.rejected task message) ∧ e = .apiRejected message := by
  obtain ⟨w, hw, hend⟩ := exists_leadsTo v
  rw [run_settle_of_leadsTo hw] at h
  rcases hend with hplain | ⟨task, message, rfl⟩
  · rw [settle_eq_pure hplain] at h
    cases h
  · exact ⟨task, message, hw, (Except.error.inj h).symm⟩

end Job

end TemplateFlow
