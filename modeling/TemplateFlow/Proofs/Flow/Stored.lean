import Mathlib.Data.List.Induction
import TemplateFlow.Proofs.Dictionary
import TemplateFlow.Proofs.Flow.Builtin
import TemplateFlow.Proofs.Flow.Sequence

/-!
# What a run stores

A run that succeeds stores one value for every step of its flow, under the name of the step or the
common name. So its outputs are those it began with, and over them the values of the steps in order:
of the steps of one name the last one counts, and other names keep what they had. Steps inside a
condition are steps of another run. That run begins with a copy of the outputs and hands on its last
value only, so the names written there are among the other names.

Each step is performed in the context that the values of the steps before it make. A value that is
stored is no promise: it stands at the end of the promises that the step yielded, and a promise that
is rejected ends the run.

## Main definitions

* `Context.storeAll`: the context with the values of several steps.
* `Runner.Yields`: what a step yields, once it is waited for.
* `Runner.Stores`: the values of a run, step by step.

## Main results

* `Runner.exists_stores`: a run that succeeds has such values.
* `Runner.execute_stores`: what a run leaves, name by name, and how a rejected promise ends it.
-/

namespace TemplateFlow

namespace Context

/-- The context with values stored under names, one after the other. -/
def storeAll (context : Context) (entries : List (String × Value)) : Context :=
  entries.foldl (fun context e => context.store e.1 e.2) context

/-- The last entry is stored behind the others. -/
theorem storeAll_concat (context : Context) (entries : List (String × Value))
    (e : String × Value) :
    context.storeAll (entries ++ [e]) = (context.storeAll entries).store e.1 e.2 := by
  rw [storeAll, List.foldl_append]
  rfl

/-- Storing values changes nothing but the outputs. -/
theorem storeAll_eq (context : Context) (entries : List (String × Value)) :
    context.storeAll entries = { context with outputs := (context.storeAll entries).outputs } := by
  induction entries using List.reverseRecOn with
  | nil => rfl
  | append_singleton entries e ih =>
    rw [storeAll_concat, ih]
    rfl

/-- Entries are put over the values that are there. -/
theorem values_storeAll (context : Context) (entries : List (String × Value)) :
    (context.storeAll entries).outputs.values =
      Dictionary.overlay context.outputs.values entries := by
  induction entries generalizing context with
  | nil => rfl
  | cons e entries ih => exact ih (context.store e.1 e.2)

end Context

namespace Runner

variable {r : Runner} {c : Catalog}

/-! ## The value of a step -/

/-- A step yields a value that is no promise, after any number of promises. -/
def Yields (r : Runner) (step : Step) (context : Context) (c : Catalog) (v : Value) : Prop :=
  ∃ yielded, ((r.dispatch step context).run c).result = .ok yielded ∧ yielded.LeadsTo v ∧
    v.isPromise = false

/-- A step that is performed yields what its handler's value settles to. -/
theorem yields_of_perform {step : Step} {context : Context} {v : Value}
    (h : ((r.perform step context).run c).result = .ok v) : r.Yields step context c v := by
  rw [perform, Job.run_bind] at h
  cases hd : ((r.dispatch step context).run c).result with
  | ok yielded =>
    rw [Job.Report.andThen_of_ok hd] at h
    obtain ⟨-, hleads, hplain⟩ := Job.run_settle_eq_ok h
    exact ⟨yielded, hd, hleads, hplain⟩
  | error e =>
    rw [Job.Report.andThen_of_error hd] at h
    cases h

/-- A promise that is rejected fails the step, however many promises come before it. -/
theorem perform_of_leadsTo_rejected {step : Step} {context : Context} {yielded : Value}
    {task : Option Site} {message : String}
    (h : ((r.dispatch step context).run c).result = .ok yielded)
    (hleads : yielded.LeadsTo (.rejected task message)) :
    ((r.perform step context).run c).result = .error (.apiRejected message) := by
  rw [perform, Job.run_bind, Job.Report.andThen_of_ok h, Job.run_settle_of_leadsTo_rejected hleads]
  rfl

/-! ## The values of a run -/

/-- The entries that a run writes, given the values of its steps. -/
def written (r : Runner) (flow : List Step) (values : List Value) : List (String × Value) :=
  (flow.map r.outputName).zip values

/-- A run stores the values, one for every step, each of which is yielded in the context that the
values before it make and with the catalog that the steps before it leave. -/
structure Stores (r : Runner) (context : Context) (c : Catalog) (flow : List Step)
    (values : List Value) : Prop where
  length_eq : values.length = flow.length
  yields : ∀ i step v, flow[i]? = some step → values[i]? = some v →
    r.Yields step (context.storeAll (r.written (flow.take i) (values.take i)))
      ((r.execute (flow.take i) context).run c).catalog v

/-- A run that succeeds with one step more succeeded before, and stored the value of the step. -/
theorem exists_of_execute_concat {f : List Step} {step : Step} {context : Context} {o : Outcome}
    (h : ((r.execute (f ++ [step]) context).run c).result = .ok o) :
    ∃ before v, ((r.execute f context).run c).result = .ok before ∧
      ((r.perform step (context.after before)).run
        ((r.execute f context).run c).catalog).result = .ok v ∧
      o.outputs = before.outputs.store (r.outputName step) v := by
  -- A failure of the steps before, or of the last step, would be the result of the whole run.
  cases hfirst : ((r.execute f context).run c).result with
  | error e =>
    rw [(agrees_execute_append_of_error hfirst).result, hfirst] at h
    cases h
  | ok before =>
    have hwhole := (agrees_execute_append_of_ok hfirst [step]).result
    rw [h, run_executeFrom_cons] at hwhole
    cases hstep : ((r.perform step (context.after before)).run
        ((r.execute f context).run c).catalog).result with
    | error e =>
      rw [Job.Report.andThen_of_error hstep] at hwhole
      cases hwhole
    | ok v =>
      rw [Job.Report.andThen_of_ok hstep, executeFrom_nil] at hwhole
      cases hwhole
      exact ⟨before, v, rfl, hstep, rfl⟩

/-- The last step writes behind the others. -/
theorem written_concat {f : List Step} {values : List Value} (h : values.length = f.length)
    (step : Step) (v : Value) :
    r.written (f ++ [step]) (values ++ [v]) = r.written f values ++ [(r.outputName step, v)] := by
  rw [written, List.map_append, List.zip_append (by rw [List.length_map, h])]
  rfl

/-- One more value is stored than before. -/
theorem Stores.concat {context : Context} {f : List Step} {values : List Value}
    (h : r.Stores context c f values) {step : Step} {v : Value}
    (hstep : r.Yields step (context.storeAll (r.written f values))
      ((r.execute f context).run c).catalog v) :
    r.Stores context c (f ++ [step]) (values ++ [v]) := by
  refine ⟨by simp [h.length_eq], fun i step' v' hi hv => ?_⟩
  rcases Nat.lt_trichotomy i f.length with hlt | rfl | hgt
  · -- The steps before are as they were.
    have hlt' : i < values.length := by rwa [h.length_eq]
    rw [List.getElem?_append_left hlt] at hi
    rw [List.getElem?_append_left hlt'] at hv
    rw [List.take_append_of_le_length (Nat.le_of_lt hlt),
      List.take_append_of_le_length (Nat.le_of_lt hlt')]
    exact h.yields i step' v' hi hv
  · -- This is the last step.
    rw [List.getElem?_concat_length] at hi
    rw [← h.length_eq, List.getElem?_concat_length] at hv
    cases hi
    cases hv
    rw [List.take_left, ← h.length_eq, List.take_left]
    exact hstep
  · -- There is no step further behind.
    rw [List.getElem?_eq_none (by rw [List.length_append]; exact hgt)] at hi
    cases hi

/-- A run that succeeds stores the values of its steps over the outputs that it began with. -/
theorem exists_stores {flow : List Step} {context : Context} {o : Outcome}
    (h : ((r.execute flow context).run c).result = .ok o) :
    ∃ values, r.Stores context c flow values ∧
      o.outputs = (context.storeAll (r.written flow values)).outputs := by
  -- The last step reads the context that the steps before it have left, so the induction takes it
  -- off.
  induction flow using List.reverseRecOn generalizing o with
  | nil =>
    rw [(agrees_execute [] context).result, executeFrom_nil] at h
    cases h
    exact ⟨[], ⟨rfl, fun _ _ _ hi => nomatch hi⟩, rfl⟩
  | append_singleton f step ih =>
    obtain ⟨before, v, hbefore, hstep, ho⟩ := exists_of_execute_concat h
    obtain ⟨values, hvalues, houtputs⟩ := ih hbefore
    have hcontext : context.after before = context.storeAll (r.written f values) := by
      rw [Context.after, houtputs, ← Context.storeAll_eq]
    rw [hcontext] at hstep
    refine ⟨values ++ [v], hvalues.concat (yields_of_perform hstep), ?_⟩
    rw [written_concat hvalues.length_eq, Context.storeAll_concat, ho, houtputs]
    rfl

/-- Each step writes its value under its own name. -/
theorem getElem?_written {flow : List Step} {values : List Value} {i : Nat} {step : Step}
    {v : Value} (hstep : flow[i]? = some step) (hv : values[i]? = some v) :
    (r.written flow values)[i]? = some (r.outputName step, v) := by
  rw [written, List.getElem?_zip_eq_some, List.getElem?_map, hstep]
  exact ⟨rfl, hv⟩

/-- What is written has been written by a step. -/
theorem exists_of_getElem?_written {flow : List Step} {values : List Value} {i : Nat}
    {e : String × Value} (h : (r.written flow values)[i]? = some e) :
    ∃ step, flow[i]? = some step ∧ r.outputName step = e.1 := by
  rw [written, List.getElem?_zip_eq_some, List.getElem?_map, Option.map_eq_some_iff] at h
  exact h.1

/-- Of the steps of one name the last one counts. -/
theorem get?_written_of_last {flow : List Step} {values : List Value} {i : Nat} {step : Step}
    {v : Value} (hstep : flow[i]? = some step) (hv : values[i]? = some v)
    (hlast : ∀ (j : Nat) later, i < j → flow[j]? = some later →
      r.outputName later ≠ r.outputName step) :
    Dictionary.get? (Dictionary.ofList (r.written flow values)) (r.outputName step) = some v := by
  refine Dictionary.get?_ofList_of_last (getElem?_written hstep hv) fun j e hj he => ?_
  obtain ⟨later, hlater, hname⟩ := exists_of_getElem?_written he
  rw [← hname]
  exact hlast j later hj hlater

/-- Nothing is written under a name that no step has. -/
theorem get?_written_eq_none {flow : List Step} {values : List Value} {name : String}
    (hname : ∀ step ∈ flow, r.outputName step ≠ name) :
    Dictionary.get? (Dictionary.ofList (r.written flow values)) name = none := by
  refine Dictionary.get?_ofList_eq_none fun e he => ?_
  obtain ⟨i, hi⟩ := List.mem_iff_getElem?.mp he
  obtain ⟨step, hstep, hout⟩ := exists_of_getElem?_written hi
  rw [← hout]
  exact hname step (List.mem_of_getElem? hstep)

end Runner

/-! ## Main result -/

/-- A run that succeeds has a value for every step. A name that a step writes has the value of the
last step that writes it, and every other name has what it had, also if a step inside a condition
writes it. The value of a step is yielded in the context of the run with the values of the steps
before it, and is no promise. A step that yields a promise that is rejected in the end, after any
number of promises, ends the run with the message of the rejection. -/
theorem Runner.execute_stores (r : Runner) (context : Context) (c : Catalog) :
    (∀ flow o, ((r.execute flow context).run c).result = .ok o →
      ∃ values : List Value, values.length = flow.length ∧
        (∀ (i : Nat) step v, flow[i]? = some step → values[i]? = some v →
          (∀ (j : Nat) later, i < j → flow[j]? = some later →
            r.outputName later ≠ r.outputName step) →
          Dictionary.get? o.outputs.values (r.outputName step) = some v) ∧
        (∀ name, (∀ step ∈ flow, r.outputName step ≠ name) →
          Dictionary.get? o.outputs.values name = Dictionary.get? context.outputs.values name) ∧
        ∀ (i : Nat) step v, flow[i]? = some step → values[i]? = some v →
          r.Yields step (context.storeAll (r.written (flow.take i) (values.take i)))
            ((r.execute (flow.take i) context).run c).catalog v) ∧
    ∀ f step g o yielded task message, ((r.execute f context).run c).result = .ok o →
      ((r.dispatch step (context.after o)).run
        ((r.execute f context).run c).catalog).result = .ok yielded →
      yielded.LeadsTo (.rejected task message) →
      ((r.execute (f ++ step :: g) context).run c).result = .error (.apiRejected message) := by
  refine ⟨fun flow o h => ?_, fun f step g o yielded task message h hd hleads => ?_⟩
  · obtain ⟨values, hvalues, houtputs⟩ := exists_stores h
    -- What is found under a name was written by a step, or was there before the run.
    have hget (name : String) : Dictionary.get? o.outputs.values name =
        (Dictionary.get? (Dictionary.ofList (r.written flow values)) name).or
          (Dictionary.get? context.outputs.values name) := by
      rw [houtputs, Context.values_storeAll, Dictionary.get?_overlay]
    refine ⟨values, hvalues.length_eq, fun i step v hstep hv hlast => ?_, fun name hname => ?_,
      hvalues.yields⟩
    · rw [hget, get?_written_of_last hstep hv hlast]
      rfl
    · rw [hget, get?_written_eq_none hname]
      rfl
  · -- The steps before succeed, so the result is that of the rest, which begins with the rejected
    -- step.
    have hwhole := (agrees_execute_append_of_ok h (step :: g)).result
    rw [hwhole, run_executeFrom_cons,
      Job.Report.andThen_of_error (perform_of_leadsTo_rejected hd hleads)]
    rfl

/-- A runner with the built-in handlers, and one that yields a promise of a rejected promise. -/
def waitingRunner : Runner where
  registry := Builtin.registry.register "wait" fun _ _ _ =>
    pure (.resolved none (.rejected none "down"))

/-- A declaration of a text. -/
def declared (text : String) (name : Option String) : Step := ⟨.declare (.value none text), name⟩

/-- A condition whose branch declares a text. -/
def chosen (text : String) (name : Option String) : Step :=
  ⟨.condition "yes" (some [declared text name]) none, none⟩

/-- Two declarations of one name, and one of another name inside a condition between them. -/
def shadowingFlow : List Step := [declared "a" (some "n"), chosen "b" (some "inner"),
  declared "c" (some "n")]

/-- The condition in `shadowingFlow` runs its branch. -/
theorem perform_chosen (context : Context) :
    waitingRunner.perform (chosen "b" (some "inner")) context = .invoke [] (do
      Job.log (.conditionEvaluated "yes" true)
      let o ← waitingRunner.execute [declared "b" (some "inner")] (context.enter 0)
      Job.settle o.result) := by
  have hcondition : Dictionary.get? waitingRunner.registry.handlers Action.conditionKind =
      some Builtin.condition := rfl
  rw [Runner.perform, chosen, Runner.dispatch_condition hcondition]
  simp only [bind_assoc, map_eq_pure_bind, pure_bind]
  rfl

theorem result_shadowingFlow :
    ((waitingRunner.execute shadowingFlow {}).run {}).result =
      .ok ⟨.str "c", { values := [("n", .str "c"), ("temp", .str "b")], site := [.step 3] }⟩ := by
  simp only [shadowingFlow, Runner.execute_eq, Runner.executeFrom_cons, Runner.executeFrom_nil,
    perform_chosen]
  rfl

/-- The outputs of `shadowingFlow`: the later declaration, the condition under the common name, and
nothing of what is inside the condition; and a run that a rejected promise ends. -/
theorem Runner.execute_stores_shadowing :
    let wait := Step.custom "wait" []
    ∃ o, ((waitingRunner.execute shadowingFlow {}).run {}).result = .ok o ∧
      (∃ a b v, Dictionary.get? o.outputs.values "n" = some v ∧
        Dictionary.get? o.outputs.values "temp" = some b ∧
        Dictionary.get? o.outputs.values "inner" = none ∧
        waitingRunner.Yields (declared "c" (some "n"))
          ((({} : Context).store "n" a).store "temp" b)
          ((waitingRunner.execute (shadowingFlow.take 2) {}).run {}).catalog v) ∧
      ((waitingRunner.dispatch wait {}).run {}).result =
        .ok (.resolved none (.rejected none "down")) ∧
      ((waitingRunner.execute ([] ++ wait :: shadowingFlow) {}).run {}).result =
        .error (.apiRejected "down") := by
  intro wait
  obtain ⟨hstores, hrejected⟩ := execute_stores waitingRunner {} {}
  have hdispatch : ((waitingRunner.dispatch wait {}).run {}).result =
      .ok (.resolved none (.rejected none "down")) := by
    rw [dispatch_of_get? rfl]
    rfl
  refine ⟨_, result_shadowingFlow, ?_, hdispatch, ?_⟩
  · obtain ⟨values, hlength, hlast, hother, hyields⟩ := hstores _ _ result_shadowingFlow
    obtain ⟨a, b, v, rfl⟩ : ∃ a b v, values = [a, b, v] := by
      match values, hlength with
      | [a, b, v], _ => exact ⟨a, b, v, rfl⟩
    refine ⟨a, b, v, hlast 2 _ v rfl rfl ?_, hlast 1 _ b rfl rfl ?_, hother "inner" ?_,
      hyields 2 _ v rfl rfl⟩
    · intro j later hj hlater
      rw [List.getElem?_eq_none (by exact hj)] at hlater
      cases hlater
    · intro j later hj hlater
      have : j = 2 := by
        obtain ⟨hlt, -⟩ := List.getElem?_eq_some_iff.mp hlater
        have : shadowingFlow.length = 3 := rfl
        omega
      subst this
      cases hlater
      decide
    · decide
  · have hnil : (waitingRunner.execute [] {}).run {} =
        { result := .ok ⟨.null, {}⟩, catalog := {}, events := [.runStarted 0, .runFinished] } := by
      rw [execute_eq, executeFrom_nil]
      rfl
    exact hrejected [] wait shadowingFlow ⟨.null, {}⟩ _ none "down" (by rw [hnil])
      (by rw [hnil]; exact hdispatch) (.resolved none (.refl _))

end TemplateFlow
