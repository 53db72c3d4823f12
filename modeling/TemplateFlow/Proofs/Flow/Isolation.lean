import Mathlib.Data.List.Basic
import TemplateFlow.Flow.Pool
import TemplateFlow.Flow.Turns
import TemplateFlow.Proofs.Flow.Steady

/-!
# Isolation of concurrent runs

Runs that share a catalog disturb each other through the catalog only. If none of them changes it,
every run comes to the result that it has alone, in whatever order the runs go on and the promises
they wait for become ready.

The invariant is the outlook of a pool: the results that its runs come to from where they stand, if
each goes on alone. A move replaces one run by what a step leaves of it, and that has the same
outlook (`Pool.Steady.move`). No run is held up for ever either: every pool can go on until
all of its runs have ended (`Pool.exists_follow_ended`), since a run that waits goes on when its
promise is ready, and jobs are finite.

## Main definitions

* `Pool.outlook`: the results that the runs of a pool come to.
* `Pool.Steady`: a pool of runs that leave the catalog alone.

## Main results

* `Pool.Steady.follow`: a schedule leaves the catalog and the outlook.
* `Pool.result_follow_eq_run`: the results of concurrent runs are those of the runs alone.
-/

namespace TemplateFlow

namespace Job

variable {α : Type} {job : Job α} {c : Catalog}

/-! ## Ends of jobs -/

/-- A job that has a result has ended. -/
theorem eq_done_of_result? {result : Except FlowError α} (h : job.result? = some result) :
    job = .done result := by
  cases job with
  | done => cases h; rfl
  | _ => cases h

/-- A job that has not ended goes on to a part of it. -/
theorem rest_step (h : job.result? = none) (c : Catalog) : Rest (job.step c).2 job := by
  cases job with
  | done => cases h
  | report event next => exact .report event next
  | invoke calls next => exact .invoke calls next
  | look next => exact .look next c
  | register entry next => exact .register entry next
  | configure config next => exact .configure config next
  | await task next => exact .await task next

/-- Replacing one job by a later one makes the jobs later as a whole. -/
theorem oneLater_set {jobs : List (Job α)} {i : Nat} {a b : Job α} (hb : jobs[i]? = some b)
    (h : Later a b) : OneLater (jobs.set i a) jobs := by
  induction jobs generalizing i with
  | nil => cases hb
  | cons first rest ih =>
    cases i with
    | zero => cases hb; exact .head rest h
    | succ i => exact .tail first (ih hb)

end Job

namespace ActiveRun

/-- A run goes on unless it waits for a promise that is not ready. -/
theorem advance_of_ready {r : ActiveRun} (h : r.job.isWaiting = true → r.ready = true)
    (c : Catalog) :
    r.advance c = ((r.job.step c).1, { job := (r.job.step c).2 }) := by
  have hgo : (r.job.isWaiting && !r.ready) = false := by
    cases hwaiting : r.job.isWaiting with
    | true => rw [h hwaiting]; rfl
    | false => rfl
  rw [advance, hgo]
  rfl

/-- A run that can not go on stays where it is. -/
theorem advance_eq_or (r : ActiveRun) (c : Catalog) :
    r.advance c = (c, r) ∨ r.advance c = ((r.job.step c).1, { job := (r.job.step c).2 }) := by
  rw [advance]
  split
  · exact .inl rfl
  · exact .inr rfl

/-- The promise of a run that becomes ready is no part of its job. -/
@[simp]
theorem job_complete (r : ActiveRun) : r.complete.job = r.job := by
  rw [complete]
  split <;> rfl

/-- A run whose promise has become ready can go on. -/
theorem ready_complete {r : ActiveRun} (h : r.complete.job.isWaiting = true) :
    r.complete.ready = true := by
  rw [job_complete] at h
  rw [complete, if_pos h]

/-- The result that the run comes to, if it goes on alone from where it stands. -/
def outlook (c : Catalog) (r : ActiveRun) : Except FlowError Outcome := (r.job.run c).result

/-- A run that has ended comes to its result. -/
theorem outlook_of_result? {r : ActiveRun} {result : Except FlowError Outcome}
    (h : r.job.result? = some result) (c : Catalog) : r.outlook c = result := by
  rw [outlook, Job.eq_done_of_result? h]
  rfl

end ActiveRun

namespace Pool

variable {p : Pool} {i : Nat} {r : ActiveRun}

/-! ## Moves -/

/-- To advance is a step of one run on the common catalog. -/
theorem move_advance (h : p.runs[i]? = some r) :
    p.move (.advance i) =
      { catalog := (r.advance p.catalog).1, runs := p.runs.set i (r.advance p.catalog).2 } := by
  simp only [move, h]

/-- A promise that becomes ready concerns one run only. -/
theorem move_complete (h : p.runs[i]? = some r) :
    p.move (.complete i) = { p with runs := p.runs.set i r.complete } := by
  rw [move, List.modify_eq_set_getElem?, h]
  rfl

/-- A move of a run that there is not changes nothing. -/
theorem move_of_length_le (h : p.runs.length ≤ i) :
    p.move (.advance i) = p ∧ p.move (.complete i) = p := by
  refine ⟨?_, ?_⟩
  · simp only [move, List.getElem?_eq_none h]
  · rw [move, List.modify_eq_self h]

/-- A run whose promise is made ready, if it waits for one, performs its next step. -/
theorem follow_complete_advance (h : p.runs[i]? = some r) :
    p.follow [.complete i, .advance i] =
      { catalog := (r.job.step p.catalog).1,
        runs := p.runs.set i { job := (r.job.step p.catalog).2 } } := by
  have hi : i < p.runs.length := (List.getElem?_eq_some_iff.mp h).1
  -- The first move leaves the run in its place, with its promise ready.
  have hready : (p.move (.complete i)).runs[i]? = some r.complete := by
    rw [move_complete h, List.getElem?_set_self hi]
  change (p.move (.complete i)).move (.advance i) = _
  rw [move_advance hready, move_complete h, ActiveRun.advance_of_ready ActiveRun.ready_complete,
    ActiveRun.job_complete, List.set_set]

/-- Two schedules are followed one after the other. -/
theorem follow_append (p : Pool) (first second : List Move) :
    p.follow (first ++ second) = (p.follow first).follow second :=
  List.foldl_append

/-! ## Progress -/

/-- From wherever the runs of a pool stand, all of them can go on to their ends. -/
theorem exists_follow_ended (p : Pool) :
    ∃ more, ∀ r ∈ (p.follow more).runs, r.job.result? ≠ none := by
  -- By induction on the jobs, of which one is replaced by a later part of it.
  induction hjobs : p.runs.map (·.job) using Job.oneLater_wf.induction generalizing p with
  | _ jobs ih =>
    subst hjobs
    cases hfind : p.runs.find? (·.job.result?.isNone) with
    | none =>
      refine ⟨[], fun r hr hnone => List.find?_eq_none.mp hfind r hr ?_⟩
      rw [hnone]
      rfl
    | some r =>
      have hnone : r.job.result? = none := by
        have := List.find?_some hfind
        exact Option.isNone_iff_eq_none.mp this
      obtain ⟨i, hi⟩ := List.mem_iff_getElem?.mp (List.mem_of_find?_eq_some hfind)
      have hlater : Job.OneLater ((p.follow [.complete i, .advance i]).runs.map (·.job))
          (p.runs.map (·.job)) := by
        rw [follow_complete_advance hi, List.map_set]
        refine Job.oneLater_set ?_ (.single (Job.rest_step hnone p.catalog))
        rw [List.getElem?_map, hi]
        rfl
      obtain ⟨more, hmore⟩ := ih _ hlater _ rfl
      refine ⟨[.complete i, .advance i] ++ more, ?_⟩
      rwa [follow_append]

/-! ## Outlook -/

/-- The results that the runs come to, if each goes on alone from where it stands. -/
def outlook (p : Pool) : List (Except FlowError Outcome) := p.runs.map (ActiveRun.outlook p.catalog)

/-- The result of a run that has ended is the one it was to come to. -/
theorem getElem?_outlook_of_results {result : Except FlowError Outcome}
    (h : p.results[i]? = some (some result)) : p.outlook[i]? = some result := by
  rw [results, List.getElem?_map, Option.map_eq_some_iff] at h
  obtain ⟨r, hr, hresult⟩ := h
  rw [outlook, List.getElem?_map, hr, Option.map_some, ActiveRun.outlook_of_result? hresult]

/-- When all runs have ended, their results are what they come to. -/
theorem results_eq_outlook (h : ∀ r ∈ p.runs, r.job.result? ≠ none) :
    p.results = p.outlook.map some := by
  rw [results, outlook, List.map_map]
  refine List.map_congr_left fun r hr => ?_
  obtain ⟨result, hresult⟩ := Option.ne_none_iff_exists'.mp (h r hr)
  rw [hresult, Function.comp_apply, ActiveRun.outlook_of_result? hresult]

/-- Every run leaves the catalog alone. -/
def Steady (p : Pool) : Prop := ∀ r ∈ p.runs, r.job.Steady

/-- A run may be replaced by one that comes to the same result. -/
theorem Steady.set (h : p.Steady) (hr : p.runs[i]? = some r) (s : ActiveRun)
    (hsteady : s.job.Steady) (houtlook : s.outlook p.catalog = r.outlook p.catalog) :
    ({ p with runs := p.runs.set i s } : Pool).Steady ∧
      ({ p with runs := p.runs.set i s } : Pool).outlook = p.outlook := by
  refine ⟨fun t ht => ?_, ?_⟩
  · rcases List.mem_or_eq_of_mem_set ht with ht | rfl
    · exact h t ht
    · exact hsteady
  · obtain ⟨hi, rfl⟩ := List.getElem?_eq_some_iff.mp hr
    rw [outlook, outlook, List.map_set, houtlook, ← List.map_set, List.set_getElem_self]

/-- A move leaves the catalog, and the results that the runs come to. -/
theorem Steady.move (h : p.Steady) (m : Move) :
    (p.move m).Steady ∧ (p.move m).catalog = p.catalog ∧ (p.move m).outlook = p.outlook := by
  cases m with
  | advance i =>
    cases hr : p.runs[i]? with
    | none =>
      -- There is no such run.
      rw [(move_of_length_le (List.getElem?_eq_none_iff.mp hr)).1]
      exact ⟨h, rfl, rfl⟩
    | some r =>
      have hsteady : r.job.Steady := h r (List.mem_of_getElem? hr)
      rw [move_advance hr]
      rcases r.advance_eq_or p.catalog with hwaits | hgoes
      · -- The run waits, and is put back as it was.
        rw [hwaits]
        obtain ⟨hs, ho⟩ := h.set hr r hsteady rfl
        exact ⟨hs, rfl, ho⟩
      · -- A step of a steady job leaves the catalog, so the other runs see no difference.
        rw [hgoes, hsteady.fst_step]
        obtain ⟨hs, ho⟩ := h.set hr { job := (r.job.step p.catalog).2 }
          (hsteady.snd_step _) (hsteady.result_run_step _)
        exact ⟨hs, rfl, ho⟩
  | complete i =>
    cases hr : p.runs[i]? with
    | none =>
      rw [(move_of_length_le (List.getElem?_eq_none_iff.mp hr)).2]
      exact ⟨h, rfl, rfl⟩
    | some r =>
      have hsteady : r.job.Steady := h r (List.mem_of_getElem? hr)
      rw [move_complete hr]
      -- A promise that becomes ready does not touch the job.
      have hjob : r.complete.job = r.job := r.job_complete
      have houtlook : r.complete.outlook p.catalog = r.outlook p.catalog := by
        rw [ActiveRun.outlook, hjob]
        rfl
      obtain ⟨hs, ho⟩ := h.set hr r.complete (by rwa [hjob]) houtlook
      exact ⟨hs, rfl, ho⟩

/-- The same of all moves of a schedule. -/
theorem Steady.follow (h : p.Steady) (schedule : List Move) :
    (p.follow schedule).Steady ∧ (p.follow schedule).catalog = p.catalog ∧
      (p.follow schedule).outlook = p.outlook := by
  induction schedule generalizing p with
  | nil => exact ⟨h, rfl, rfl⟩
  | cons m schedule ih =>
    obtain ⟨hsteady, hcatalog, houtlook⟩ := h.move m
    obtain ⟨hsteady', hcatalog', houtlook'⟩ := ih hsteady
    exact ⟨hsteady', hcatalog'.trans hcatalog, houtlook'.trans houtlook⟩

/-- Runs of the built-in handlers are steady if no flow among them gives settings. -/
theorem steady_start {runner : Runner} (hr : runner.registry = Builtin.registry) (c : Catalog)
    {flows : List (List Step × Context)} (h : ∀ f ∈ flows, KeepsSettings f.1) :
    (start runner c flows).Steady := by
  intro r hmem
  obtain ⟨f, hf, rfl⟩ := List.mem_map.mp hmem
  exact Runner.steady_execute hr (h f hf) f.2

/-- At the start each run comes to the result that it has alone. -/
theorem outlook_start (runner : Runner) (c : Catalog) (flows : List (List Step × Context)) :
    (start runner c flows).outlook = flows.map fun f => ((runner.execute f.1 f.2).run c).result :=
  List.map_map

end Pool

/-! ## Main result -/

/-- Runs of the built-in handlers go on at the same time, each in a context of its own or one that
it shares, and no step of them gives settings to the catalog. However they take turns, and whenever
the promises they wait for become ready: a run that has ended has the result that it has alone, and
the others can still go on until all have ended so. -/
theorem Pool.result_follow_eq_run (defaultOutput : String) (c : Catalog)
    (flows : List (List Step × Context)) (h : ∀ f ∈ flows, KeepsSettings f.1)
    (schedule : List Pool.Move) :
    let runner : Runner := { registry := Builtin.registry, defaultOutput }
    let pool := (Pool.start runner c flows).follow schedule
    (∀ (i : Nat) flow context result, flows[i]? = some (flow, context) →
      pool.results[i]? = some (some result) →
      result = ((runner.execute flow context).run c).result) ∧
    ∃ more, (pool.follow more).results =
      flows.map fun (flow, context) => some ((runner.execute flow context).run c).result := by
  intro runner pool
  have hstart : (Pool.start runner c flows).Steady := steady_start rfl c h
  -- What the runs come to is the same behind the schedule as at the start, where it is what each
  -- comes to alone.
  obtain ⟨hsteady, -, houtlook⟩ := hstart.follow schedule
  rw [outlook_start] at houtlook
  refine ⟨fun i flow context result hi hresult => ?_, ?_⟩
  · have halone := getElem?_outlook_of_results hresult
    rw [houtlook, List.getElem?_map, hi] at halone
    cases halone
    rfl
  · obtain ⟨more, hmore⟩ := exists_follow_ended pool
    obtain ⟨-, -, houtlook'⟩ := hsteady.follow more
    refine ⟨more, ?_⟩
    rw [results_eq_outlook hmore, houtlook', houtlook, List.map_map]
    rfl

/-- A declaration of a text under the common name. -/
def lone : Step := ⟨.declare (.value none "a"), none⟩

/-- A condition with a declaration in its branch. -/
def branching : Step :=
  ⟨.condition "yes" (some [⟨.declare (.value none "b"), none⟩]) none, some "n"⟩

/-- A schedule in which the first of two runs ends before the second one. -/
def crossing : List Pool.Move :=
  [.advance 1, .advance 0, .advance 1, .advance 0, .complete 0, .advance 0, .advance 1,
   .advance 0, .advance 0]

/-- The first run has ended behind the schedule, and the second one has not. -/
theorem Pool.results_crossing :
    ((start { registry := Builtin.registry } {} [([lone], {}), ([branching], {})]).follow
      crossing).results =
      [some (.ok ⟨.str "a", { values := [("temp", .str "a")], site := [.step 1] }⟩), none] := by
  simp only [start, List.map_cons, List.map_nil, Runner.execute_eq, Runner.executeFrom_cons,
    Runner.executeFrom_nil]
  rfl

/-- The condition gives no settings, and neither does its branch. -/
theorem keepsSettings_branching : KeepsSettings [branching] := by
  refine .cons (fun ⟨config, h⟩ => by cases h) (fun inner h => ?_) .nil
  rw [List.mem_singleton.mp h]
  exact .cons (fun ⟨config, h⟩ => by cases h) (fun inner h => by cases h) .nil

/-- A declaration is run beside a condition, and ends before it with the result that it has
alone. -/
theorem Pool.result_follow_eq_run_crossing :
    let runner : Runner := { registry := Builtin.registry }
    let flows := [([lone], ({} : Context)), ([branching], ({} : Context))]
    let ended : Outcome := ⟨.str "a", { values := [("temp", .str "a")], site := [.step 1] }⟩
    (∀ f ∈ flows, KeepsSettings f.1) ∧
      .ok ended = ((runner.execute [lone] {}).run {}).result ∧
      ∃ more, (((start runner {} flows).follow crossing).follow more).results =
        [some ((runner.execute [lone] {}).run {}).result,
         some ((runner.execute [branching] {}).run {}).result] := by
  intro runner flows ended
  have hkeeps : ∀ f ∈ flows, KeepsSettings f.1 := by
    refine List.forall_mem_cons.mpr ⟨?_, List.forall_mem_singleton.mpr keepsSettings_branching⟩
    exact .cons (fun ⟨config, h⟩ => by cases h) (fun inner h => by cases h) .nil
  obtain ⟨halone, hends⟩ := result_follow_eq_run "temp" {} flows hkeeps crossing
  exact ⟨hkeeps, halone 0 _ _ _ rfl (by rw [results_crossing]; rfl), hends⟩

end TemplateFlow
