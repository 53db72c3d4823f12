import TemplateFlow.Proofs.Flow.Isolation
import TemplateFlow.Session

/-!
# Taking turns is a schedule

Runs that take turns by the time at which their waits are over go on in one of the ways in which
concurrent runs can go on at all: a turn is a row of moves of one run, each step after the promise
for which the run may wait has become ready (`Pool.leads_goOn`). So there is a schedule that
leads where the turns lead (`Group.exists_follow_finish`), and what holds of every schedule holds of
the runs of a session: if no flow gives settings to the catalog, each run has the result that it
has alone (`Session.runAll_eq`).

## Main definitions

* `Group.pool`: the runs of a group, without the times at which their tasks end.

## Main results

* `Group.exists_follow_finish`: the turns of a group are the moves of a schedule.
* `Session.runAll_eq`: flows that are run at the same time have the results that they have alone.
-/

namespace TemplateFlow

namespace Pool

variable {p : Pool} {i : Nat} {job job' : Job Outcome} {c : Catalog}

/-! ## Moves of one run -/

/-- Some moves lead from a pool to one in which a run has gone on to a job and left a catalog, while
the other runs have stayed where they are. -/
def Leads (p : Pool) (i : Nat) (c : Catalog) (job : Job Outcome) : Prop :=
  ∃ schedule, p.follow schedule = { catalog := c, runs := p.runs.set i { job } }

/-- No move is needed to stay. -/
theorem leads_self (h : p.runs[i]? = some { job }) : p.Leads i p.catalog job := by
  obtain ⟨hi, hjob⟩ := List.getElem?_eq_some_iff.mp h
  refine ⟨[], ?_⟩
  rw [← hjob, List.set_getElem_self]
  rfl

/-- A step of a run is two moves, since the run may wait: first its promise becomes ready. -/
theorem Leads.of_step {before : Catalog} (hcatalog : p.catalog = before)
    (h : p.runs[i]? = some { job })
    (hrest : ∀ q : Pool, q.catalog = (job.step before).1 →
      q.runs[i]? = some { job := (job.step before).2 } → q.Leads i c job') :
    p.Leads i c job' := by
  subst hcatalog
  have hi : i < p.runs.length := (List.getElem?_eq_some_iff.mp h).1
  obtain ⟨schedule, hschedule⟩ := hrest
    { catalog := (job.step p.catalog).1
      runs := p.runs.set i { job := (job.step p.catalog).2 } } rfl (List.getElem?_set_self hi)
  refine ⟨[.complete i, .advance i] ++ schedule, ?_⟩
  rw [follow_append, follow_complete_advance h, hschedule, List.set_set]

/-- Going on until it ends or waits, a run performs a row of moves. -/
theorem leads_goOn (hcatalog : p.catalog = c) (h : p.runs[i]? = some { job }) (now : Nat)
    (ends : Ends) :
    p.Leads i (job.goOn now c ends).catalog (job.goOn now c ends).job := by
  -- By induction on the job, of which each step leaves a part that goes on from there.
  induction job generalizing p c ends with
  | done result =>
    subst hcatalog
    exact leads_self h
  | report event next ih =>
    exact .of_step hcatalog h fun q hcatalog hnext => ih hcatalog hnext ends
  | invoke calls next ih =>
    exact .of_step hcatalog h fun q hcatalog hnext => ih hcatalog hnext (ends.start now calls)
  | look next ih =>
    exact .of_step hcatalog h fun q hcatalog hnext => ih c hcatalog hnext ends
  | register entry next ih =>
    exact .of_step hcatalog h fun q hcatalog hnext => ih hcatalog hnext ends
  | configure config next ih =>
    exact .of_step hcatalog h fun q hcatalog hnext => ih hcatalog hnext ends
  | await task next ih =>
    rw [Job.goOn]
    split
    · subst hcatalog
      exact leads_self h
    · exact .of_step hcatalog h fun q hcatalog hnext => ih hcatalog hnext ends

end Pool

namespace Group

/-! ## Turns -/

/-- The runs of a group as concurrent runs, without the times at which their tasks end. -/
def pool (g : Group) : Pool where
  catalog := g.catalog
  runs := g.runs.map fun r => { job := r.job }

/-- A turn is that of one run, or of none. -/
theorem turnOf_cases (now : Nat) (c : Catalog) (runs : List TimedRun) :
    turnOf now c runs = (c, runs) ∨ ∃ i r, runs[i]? = some r ∧
      turnOf now c runs = ((r.turn now c).1, runs.set i (r.turn now c).2) := by
  induction runs with
  | nil => exact .inl rfl
  | cons r rest ih =>
    rw [turnOf]
    split
    · exact .inr ⟨0, r, rfl, rfl⟩
    · rcases ih with hnone | ⟨i, r', hr', hturn⟩
      · exact .inl (by rw [hnone])
      · exact .inr ⟨i + 1, r', hr', by rw [hturn]; rfl⟩

/-- A turn is a row of moves. -/
theorem exists_follow_turn (g : Group) (now : Nat) :
    ∃ schedule, g.pool.follow schedule = (g.turn now).pool := by
  rcases turnOf_cases now g.catalog g.runs with hnone | ⟨i, r, hr, hturn⟩
  · exact ⟨[], by rw [turn, hnone]; rfl⟩
  · have hrun : g.pool.runs[i]? = some { job := r.job } := by
      rw [pool, List.getElem?_map, hr]
      rfl
    obtain ⟨schedule, hschedule⟩ := Pool.leads_goOn (p := g.pool) rfl hrun now r.ends
    refine ⟨schedule, ?_⟩
    rw [hschedule, turn, hturn]
    simp only [pool, List.map_set, TimedRun.turn]

/-- Where there is no next turn, all runs have ended. -/
theorem results_pool (g : Group) (h : g.nextTime? = none) :
    g.pool.results = (g.runs.filterMap fun r => r.job.result?).map some := by
  -- Without a time for its next turn a run has ended.
  have hended : ∀ r ∈ g.runs, ∃ result, r.job.result? = some result := by
    intro r hr
    rw [nextTime?, List.min?_eq_none_iff, List.filterMap_eq_nil_iff] at h
    have hdue := h r hr
    cases hjob : r.job with
    | done result => exact ⟨result, rfl⟩
    | _ =>
      rw [TimedRun.due?, hjob] at hdue
      cases hdue
  rw [Pool.results, pool, List.map_map]
  generalize g.runs = runs at hended
  induction runs with
  | nil => rfl
  | cons r rest ih =>
    obtain ⟨⟨result, hresult⟩, hrest⟩ := List.forall_mem_cons.mp hended
    rw [List.map_cons, ih hrest, List.filterMap_cons, hresult, List.map_cons,
      Function.comp_apply, hresult]

/-- The turns of a group are the moves of a schedule that leads to where the group ends. -/
theorem exists_follow_finish (g : Group) :
    ∃ schedule, (g.pool.follow schedule).catalog = g.finish.1 ∧
      (g.pool.follow schedule).results = g.finish.2.map some := by
  fun_induction finish g with
  | case1 g now _ ih =>
    obtain ⟨first, hfirst⟩ := g.exists_follow_turn now
    obtain ⟨second, hcatalog, hresults⟩ := ih
    refine ⟨first ++ second, ?_⟩
    rw [Pool.follow_append, hfirst]
    exact ⟨hcatalog, hresults⟩
  | case2 g hnone => exact ⟨[], rfl, g.results_pool hnone⟩

/-- The runs of flows begin as concurrent runs in one context. -/
theorem pool_start (runner : Runner) (catalog : Catalog) (context : Context)
    (flows : List (List Step)) :
    (start runner catalog context flows).pool =
      Pool.start runner catalog (flows.map fun flow => (flow, context)) := by
  simp only [pool, start, Pool.start, List.map_map]
  rfl

end Group

/-! ## Runs of a session -/

/-- Flows of the built-in handlers that give no settings to the catalog are run at the same time in
a session: each has the result that it has alone, and the session is what it was. -/
theorem Session.runAll_eq (s : Session) (hregistry : s.runner.registry = Builtin.registry)
    (flows : List (List Step)) (h : ∀ flow ∈ flows, KeepsSettings flow) :
    s.runAll flows = (s, flows.map fun flow => (s.run flow).2.result) := by
  have hsteady : (Pool.start s.runner s.catalog (flows.map fun flow => (flow, s.context))).Steady :=
    Pool.steady_start hregistry s.catalog fun f hf => by
      obtain ⟨flow, hflow, rfl⟩ := List.mem_map.mp hf
      exact h flow hflow
  obtain ⟨schedule, hcatalog, hresults⟩ :=
    (Group.start s.runner s.catalog s.context flows).exists_follow_finish
  rw [Group.pool_start] at hcatalog hresults
  obtain ⟨-, hleft, houtlook⟩ := hsteady.follow schedule
  rw [Pool.outlook_start, List.map_map] at houtlook
  have hended : ∀ r ∈ ((Pool.start s.runner s.catalog
      (flows.map fun flow => (flow, s.context))).follow schedule).runs, r.job.result? ≠ none := by
    intro r hr
    have hmem := List.mem_map_of_mem (f := fun r : ActiveRun => r.job.result?) hr
    rw [← Pool.results, hresults] at hmem
    obtain ⟨result, -, hresult⟩ := List.mem_map.mp hmem
    rw [← hresult]
    exact Option.some_ne_none result
  -- All have ended, each with what it was to come to from the start.
  rw [Pool.results_eq_outlook hended, houtlook] at hresults
  have hall := (List.map_inj_right fun _ _ => Option.some.inj).mp hresults
  have hrunAll : s.runAll flows =
      ({ s with catalog := (Group.start s.runner s.catalog s.context flows).finish.1 },
        (Group.start s.runner s.catalog s.context flows).finish.2) := rfl
  rw [hrunAll, ← hcatalog, ← hall, hleft]
  rfl

end TemplateFlow
