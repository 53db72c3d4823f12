import TemplateFlow.Flow.Runner

/-!
# Taking turns

Runs that share a catalog take turns. A run that has its turn goes on until it ends or waits for a
task that has not ended (`Job.goOn`). Time passes while all of them wait: a task that is started at
some time ends at the next, or as many times later as the host says, and a promise without a task
is not waited for. The run whose wait is over first has the next turn, and of several such runs the
one that comes first.

Main definitions: `Group`, the runs with their catalog, and `Group.finish`, which performs all of
them to their ends. It ends because every turn leaves a later part of one of the jobs
(`Group.later_turn`), and jobs are finite (`Job.later_wf`).
-/

namespace TemplateFlow

/-- When the tasks of a run end, by the places where they were started. -/
abbrev Ends := List (Site × Nat)

namespace Ends

/-- Adds the tasks that calls start at a time. -/
def start (ends : Ends) (now : Nat) : List Invocation → Ends
  | [] => ends
  | .api task turns _ _ :: calls => start ((task, now + turns + 1) :: ends) now calls
  | _ :: calls => start ends now calls

/-- When the wait for a promise is over. -/
def waitEnd (ends : Ends) (task : Option Site) : Nat :=
  (task.bind fun site => ends.lookup site).getD 0

end Ends

namespace Job

variable {α : Type}

/-! ## One turn -/

/-- Where a job stands that has gone on: with the catalog that it leaves, and its tasks. -/
structure Standing (α : Type) where
  catalog : Catalog
  ends : Ends
  job : Job α

/-- Performs a job at a time until it ends or waits. -/
def goOn (now : Nat) (c : Catalog) (ends : Ends) : Job α → Standing α
  | .done result => ⟨c, ends, .done result⟩
  | .report _ next => goOn now c ends next
  | .invoke calls next => goOn now c (ends.start now calls) next
  | .look next => goOn now c ends (next c)
  | .register entry next => goOn now (c.register entry) ends next
  | .configure config next => goOn now (c.configure config) ends next
  | .await task next =>
    -- A promise that has settled is not waited for.
    if now < ends.waitEnd task then ⟨c, ends, .await task next⟩ else goOn now c ends next

/-- When a job can go on, unless it has ended. -/
def due? (ends : Ends) : Job α → Option Nat
  | .done _ => none
  | .await task _ => some (ends.waitEnd task)
  | _ => some 0

/-! ## Later parts of jobs -/

/-- The first is what a step of the second leaves. -/
inductive Rest : Job α → Job α → Prop where
  | report (event : Event) (next : Job α) : Rest next (.report event next)
  | invoke (calls : List Invocation) (next : Job α) : Rest next (.invoke calls next)
  | look (next : Catalog → Job α) (c : Catalog) : Rest (next c) (.look next)
  | register (entry : ApiEntry) (next : Job α) : Rest next (.register entry next)
  | configure (config : ApiConfig) (next : Job α) : Rest next (.configure config next)
  | await (task : Option Site) (next : Job α) : Rest next (.await task next)

/-- The first is what one or more steps of the second leave. -/
abbrev Later : Job α → Job α → Prop := Relation.TransGen Rest

theorem rest_wf : WellFounded (Rest (α := α)) := by
  refine ⟨fun job => ?_⟩
  induction job with
  | done => exact ⟨_, fun _ h => nomatch h⟩
  | report _ _ ih => exact ⟨_, fun _ h => by cases h; exact ih⟩
  | invoke _ _ ih => exact ⟨_, fun _ h => by cases h; exact ih⟩
  | look _ ih => exact ⟨_, fun _ h => by cases h; exact ih _⟩
  | register _ _ ih => exact ⟨_, fun _ h => by cases h; exact ih⟩
  | configure _ _ ih => exact ⟨_, fun _ h => by cases h; exact ih⟩
  | await _ _ ih => exact ⟨_, fun _ h => by cases h; exact ih⟩

/-- No job has ever later parts. -/
theorem later_wf : WellFounded (Later (α := α)) := rest_wf.transGen

/-- A part of a job is later than the job, and so is what is later than the part. -/
theorem later_of_rest {a b c : Job α} (hb : Rest b c) (ha : a = b ∨ Later a b) : Later a c := by
  rcases ha with rfl | ha
  · exact .single hb
  · exact .tail ha hb

/-- A job that goes on stays where it is or is left at a later part. -/
theorem goOn_eq_or_later (now : Nat) (c : Catalog) (ends : Ends) (job : Job α) :
    (goOn now c ends job).job = job ∨ Later (goOn now c ends job).job job := by
  induction job generalizing c ends with
  | done => exact .inl rfl
  | report event next ih => exact .inr (later_of_rest (.report event next) (ih c ends))
  | invoke calls next ih => exact .inr (later_of_rest (.invoke calls next) (ih c _))
  | look next ih => exact .inr (later_of_rest (.look next c) (ih c c ends))
  | register entry next ih => exact .inr (later_of_rest (.register entry next) (ih _ ends))
  | configure config next ih => exact .inr (later_of_rest (.configure config next) (ih _ ends))
  | await task next ih =>
    simp only [goOn]
    split
    · exact .inl rfl
    · exact .inr (later_of_rest (.await task next) (ih c ends))

/-- A job that is due is left at a later part. -/
theorem later_goOn {now : Nat} {c : Catalog} {ends : Ends} {job : Job α}
    (h : job.due? ends = some now) : Later (goOn now c ends job).job job := by
  cases job with
  | done => simp [due?] at h
  | report event next => exact later_of_rest (.report event next) (goOn_eq_or_later now c ends next)
  | invoke calls next => exact later_of_rest (.invoke calls next) (goOn_eq_or_later now c _ next)
  | look next => exact later_of_rest (.look next c) (goOn_eq_or_later now c ends (next c))
  | register entry next =>
    exact later_of_rest (.register entry next) (goOn_eq_or_later now _ ends next)
  | configure config next =>
    exact later_of_rest (.configure config next) (goOn_eq_or_later now _ ends next)
  | await task next =>
    -- The time is that of the end of the wait, so the job goes on.
    simp only [due?, Option.some.injEq] at h
    simp only [goOn, h, Nat.lt_irrefl, if_false]
    exact later_of_rest (.await task next) (goOn_eq_or_later now c ends next)

/-! ## Later parts of lists of jobs -/

/-- The first list has a later part of one job of the second, and otherwise the same jobs. -/
inductive OneLater : List (Job α) → List (Job α) → Prop where
  | head {a b : Job α} (rest : List (Job α)) (h : Later a b) : OneLater (a :: rest) (b :: rest)
  | tail (a : Job α) {rest rest' : List (Job α)} (h : OneLater rest rest') :
    OneLater (a :: rest) (a :: rest')

theorem oneLater_wf : WellFounded (OneLater (α := α)) := by
  refine ⟨fun jobs => ?_⟩
  induction jobs with
  | nil => exact ⟨_, fun _ h => nomatch h⟩
  | cons job rest ih =>
    -- By induction on the later parts of the first job and, for each of them, on the other jobs.
    induction later_wf.apply job generalizing rest with
    | intro job _ ihJob =>
      induction ih with
      | intro rest hRest ihRest =>
        refine ⟨_, fun _ h => ?_⟩
        cases h with
        | head _ h => exact ihJob _ h rest ⟨rest, hRest⟩
        | tail _ h => exact ihRest _ h

end Job

/-! ## Groups -/

/-- A run that takes turns with others, and its tasks. -/
structure TimedRun where
  job : Job Outcome
  ends : Ends := []

namespace TimedRun

/-- When the run can go on, unless it has ended. -/
def due? (r : TimedRun) : Option Nat := r.job.due? r.ends

/-- Gives the run its turn at a time. -/
def turn (now : Nat) (c : Catalog) (r : TimedRun) : Catalog × TimedRun :=
  let standing := r.job.goOn now c r.ends
  (standing.catalog, { job := standing.job, ends := standing.ends })

end TimedRun

/-- Runs that take turns, and the catalog that they share. -/
structure Group where
  catalog : Catalog
  runs : List TimedRun

namespace Group

/-- The runs of flows that begin at the same time in one context. -/
def start (runner : Runner) (catalog : Catalog) (context : Context) (flows : List (List Step)) :
    Group where
  catalog := catalog
  runs := flows.map fun flow => { job := runner.execute flow context }

/-- The time of the next turn, if there is a run that has not ended. -/
def nextTime? (g : Group) : Option Nat := (g.runs.filterMap TimedRun.due?).min?

/-- Gives its turn to the first run that is due at a time. -/
def turnOf (now : Nat) (c : Catalog) : List TimedRun → Catalog × List TimedRun
  | [] => (c, [])
  | r :: rest =>
    if r.due? = some now then
      let (c', r') := r.turn now c
      (c', r' :: rest)
    else
      let (c', rest') := turnOf now c rest
      (c', r :: rest')

/-- Gives its turn to the first run that is due at a time. -/
def turn (now : Nat) (g : Group) : Group :=
  let (catalog, runs) := turnOf now g.catalog g.runs
  { catalog, runs }

instance : WellFoundedRelation Group where
  rel := InvImage Job.OneLater fun g => g.runs.map (·.job)
  wf := InvImage.wf _ Job.oneLater_wf

/-- Each turn takes the job of some run further. -/
theorem oneLater_turnOf {now : Nat} {c : Catalog} {runs : List TimedRun}
    (h : now ∈ runs.filterMap TimedRun.due?) :
    Job.OneLater ((turnOf now c runs).2.map (·.job)) (runs.map (·.job)) := by
  induction runs with
  | nil => simp at h
  | cons r rest ih =>
    simp only [turnOf]
    split
    · next hr => exact .head _ (Job.later_goOn hr)
    · next hr =>
      refine .tail _ (ih ?_)
      simp only [List.mem_filterMap, List.mem_cons] at h ⊢
      obtain ⟨r', rfl | hmem, hr'⟩ := h
      · exact absurd hr' hr
      · exact ⟨r', hmem, hr'⟩

/-- A turn at the next time leaves a later part of one of the jobs. -/
theorem later_turn {g : Group} {now : Nat} (h : g.nextTime? = some now) :
    WellFoundedRelation.rel (g.turn now) g :=
  oneLater_turnOf (List.min?_mem h)

/-- Performs all runs to their ends: the catalog that they leave, and their results in order. -/
def finish (g : Group) : Catalog × List (Except FlowError Outcome) :=
  match _h : g.nextTime? with
  | some now => (g.turn now).finish
  | none => (g.catalog, g.runs.filterMap fun r => r.job.result?)
termination_by g
decreasing_by exact later_turn (by assumption)

end Group

end TemplateFlow
