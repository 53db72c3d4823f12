import Mathlib.Data.List.Induction
import TemplateFlow.Proofs.Dictionary
import TemplateFlow.Proofs.Flow.Job

/-!
# The history of a catalog

A catalog holds what is left of the operations that it has seen: the last API registered under each
key, the last settings given of each sort, and whether settings were ever given. So the object of
methods that is made from it can be described by the operations alone, without the catalog. A method
calls the API that was last registered under its key. It appends nothing to the arguments before the
first settings, and after them the last default parameters, or `undefined` as long as there were
none. The last base URL and the last default parameters are members of their own, which hide an API
of the same key.

The object is made once. Operations that come later change the catalog and not the object.

## Main definitions

* `Catalog.Operation`: what is done to a catalog; `Catalog.after`, what operations leave.
* `Catalog.latest?`: what the last operation says of which something can be read.
* `Catalog.Records`: the catalog holds what can be read of a history.
* `Catalog.bindBefore`: the object of methods, seen when further operations have been performed.

## Main results

* `Catalog.records_after`: the catalog that operations leave records them.
* `Catalog.bindBefore_after`: the members of the object and the listing of the catalog.
-/

namespace TemplateFlow

/-- Whether the value is a function. -/
def Value.isFunction : Value → Bool
  | .func _ _ => true
  | _ => false

namespace Catalog

/-! ## Operations -/

/-- What is done to a catalog. -/
inductive Operation where
  | register (entry : ApiEntry)
  | configure (config : ApiConfig)

namespace Operation

/-- The catalog after an operation. -/
def apply (c : Catalog) : Operation → Catalog
  | .register entry => c.register entry
  | .configure config => c.configure config

/-- The operation as a part of a job. -/
def perform : Operation → Job Unit
  | .register entry => .register entry (pure ())
  | .configure config => .configure config (pure ())

/-- The API that the operation registers under a key. -/
def entry? (key : String) : Operation → Option ApiEntry
  | .register entry => if entry.key = key then some entry else none
  | .configure _ => none

/-- The base URL that the operation gives. -/
def baseUrl? : Operation → Option String
  | .register _ => none
  | .configure config => config.baseUrl

/-- The default parameters that the operation gives. -/
def defaultParams? : Operation → Option Value
  | .register _ => none
  | .configure config => config.defaultParams.map fun params => Value.ofJson (.obj params)

/-- Whether the operation gives settings, be it none of them. -/
def givesSettings : Operation → Bool
  | .register _ => false
  | .configure _ => true

end Operation

/-- The catalog that operations leave of a catalog. -/
def applyAll (c : Catalog) (ops : List Operation) : Catalog := ops.foldl Operation.apply c

/-- The catalog that operations leave of the empty one. -/
def after (ops : List Operation) : Catalog := applyAll {} ops

/-- A history goes on from what its beginning has led to. -/
theorem after_append (ops later : List Operation) :
    after (ops ++ later) = applyAll (after ops) later :=
  List.foldl_append

/-- Operations as a job. -/
def performAll : List Operation → Job Unit
  | [] => pure ()
  | op :: ops => do
    op.perform
    performAll ops

/-- Operations in a job change the catalog as they do in a history. -/
theorem run_performAll (c : Catalog) (ops : List Operation) :
    ((performAll ops).run c).result = .ok () ∧
      ((performAll ops).run c).catalog = applyAll c ops := by
  induction ops generalizing c with
  | nil => exact ⟨rfl, rfl⟩
  | cons op ops ih =>
    have hop : (op.perform.run c).result = .ok () ∧ (op.perform.run c).catalog = op.apply c := by
      cases op <;> exact ⟨rfl, rfl⟩
    rw [performAll, Job.run_bind, Job.Report.andThen_of_ok hop.1, hop.2]
    exact ih (op.apply c)

/-! ## Readings of a history -/

section Latest

variable {α : Type} (f : Operation → Option α)

/-- What is read of the last operation of which anything can be read. -/
def latest? (ops : List Operation) : Option α := ops.reverse.findSome? f

/-- The last operation counts if it says anything. -/
theorem latest?_concat (ops : List Operation) (op : Operation) :
    latest? f (ops ++ [op]) = (f op).or (latest? f ops) := by
  rw [latest?, List.reverse_append, List.reverse_singleton, List.singleton_append,
    List.findSome?_cons]
  cases f op <;> rfl

variable {f}

theorem latest?_eq_some_iff {ops : List Operation} {a : α} :
    latest? f ops = some a ↔
      ∃ before op later, ops = before ++ op :: later ∧ f op = some a ∧ ∀ x ∈ later, f x = none := by
  rw [latest?, List.findSome?_eq_some_iff]
  refine ⟨fun ⟨later, op, before, heq, ha, hlater⟩ => ?_,
    fun ⟨before, op, later, heq, ha, hlater⟩ => ?_⟩
  · refine ⟨before.reverse, op, later.reverse, ?_, ha,
      fun x hx => hlater x (List.mem_reverse.mp hx)⟩
    rw [← List.reverse_reverse ops, heq]
    simp
  · refine ⟨later.reverse, op, before.reverse, ?_, ha,
      fun x hx => hlater x (List.mem_reverse.mp hx)⟩
    rw [heq]
    simp

end Latest

/-- What the methods append to their arguments. -/
def appended (ops : List Operation) : List Value :=
  if ops.any Operation.givesSettings then [(latest? Operation.defaultParams? ops).getD .undefined]
  else []

/-- The setting that was given last under the name of a member. -/
def setting? (ops : List Operation) (key : String) : Option Value :=
  if key = baseUrlKey then (latest? Operation.baseUrl? ops).map Value.str
  else if key = defaultParamsKey then latest? Operation.defaultParams? ops
  else none

/-! ## Records -/

/-- The catalog holds what can be read of a history. -/
structure Records (ops : List Operation) (c : Catalog) : Prop where
  sorted : c.entries.Sorted
  get?_entries : ∀ key, Dictionary.get? c.entries key = latest? (Operation.entry? key) ops
  baseUrl : c.baseUrl = latest? Operation.baseUrl? ops
  defaultParams : c.defaultParams = latest? Operation.defaultParams? ops
  initialized : c.initialized = ops.any Operation.givesSettings

/-- An operation is recorded. -/
theorem Records.apply {ops : List Operation} {c : Catalog} (h : Records ops c) (op : Operation) :
    Records (ops ++ [op]) (op.apply c) := by
  cases op with
  | register entry =>
    -- The entries change under the key of the API only, and the settings not at all.
    refine ⟨h.sorted.insert _ _, fun key => ?_, ?_, ?_, ?_⟩
    · simp only [Operation.apply, register, Dictionary.get?_insert, latest?_concat,
        Operation.entry?, h.get?_entries, eq_comm]
      split <;> rfl
    · rw [latest?_concat]
      exact h.baseUrl
    · rw [latest?_concat]
      exact h.defaultParams
    · rw [List.any_append, ← h.initialized]
      exact (Bool.or_false _).symm
  | configure config =>
    -- A setting that is left out keeps what was given before.
    refine ⟨h.sorted, fun key => ?_, ?_, ?_, ?_⟩
    · rw [latest?_concat]
      exact h.get?_entries key
    · rw [latest?_concat, ← h.baseUrl]
      exact Option.orElse_eq_or
    · rw [latest?_concat, ← h.defaultParams]
      exact Option.orElse_eq_or
    · rw [List.any_append]
      exact (Bool.or_true _).symm

/-- The catalog that operations leave records them. -/
theorem records_after (ops : List Operation) : Records ops (after ops) := by
  induction ops using List.reverseRecOn with
  | nil => exact ⟨.nil, fun _ => rfl, rfl, rfl, rfl⟩
  | append_singleton ops op ih =>
    rw [after_append]
    exact ih.apply op

/-! ## The object of methods -/

/-- The members of the object of methods. -/
def members (c : Catalog) (site : Site) : Bindings :=
  Dictionary.overlay (Dictionary.mapValues (c.method site) c.entries) c.settings

/-- Only two names are among the settings. -/
theorem get?_settings (c : Catalog) (key : String) :
    Dictionary.get? (Dictionary.ofList c.settings) key =
      if key = baseUrlKey then c.baseUrl.map Value.str
      else if key = defaultParamsKey then c.defaultParams
      else none := by
  have hne : defaultParamsKey ≠ baseUrlKey := by decide
  rw [settings, Dictionary.get?_ofList_append]
  -- The two names differ, so at most one of the two members is read.
  by_cases hurl : key = baseUrlKey
  · subst hurl
    cases c.baseUrl <;> cases c.defaultParams <;> simp [hne.symm]
  · cases c.baseUrl <;> cases c.defaultParams <;> simp [hurl]

variable {ops : List Operation} {c : Catalog}

/-- A member is a setting or else a method of the last API of its key. -/
theorem Records.get?_members (h : Records ops c) (site : Site) (key : String) :
    Dictionary.get? (c.members site) key =
      (setting? ops key).or ((latest? (Operation.entry? key) ops).map (c.method site)) := by
  rw [members, Dictionary.get?_overlay, Dictionary.get?_mapValues, get?_settings, h.get?_entries,
    h.baseUrl, h.defaultParams]
  rfl

/-- What is appended to the arguments of methods follows from the history. -/
theorem Records.trailing_eq (h : Records ops c) : c.trailing = appended ops := by
  rw [trailing, appended, h.initialized, h.defaultParams]

/-- What is recorded for a key is an entry with this key. -/
theorem key_eq_of_latest? {key : String} {entry : ApiEntry}
    (h : latest? (Operation.entry? key) ops = some entry) : entry.key = key := by
  obtain ⟨before, op, later, -, hop, -⟩ := latest?_eq_some_iff.mp h
  cases op with
  | register e =>
    rw [Operation.entry?, Option.ite_none_right_eq_some] at hop
    obtain ⟨hkey, he⟩ := hop
    cases he
    exact hkey
  | configure config => cases hop

/-- A method calls its API with what it appends to the arguments. -/
theorem call_method (c : Catalog) (site : Site) (entry : ApiEntry) (host : Host) (place : Site)
    (callee : String) (args : List Value) :
    (c.method site entry).call host place callee args =
      ⟨[.api place (host.turns entry.implementation) entry.key (args ++ c.trailing)],
        .ok (Callable.promise place
          (host.start entry.implementation place (args ++ c.trailing)))⟩ := rfl

/-- A setting is data, and no function. -/
theorem isFunction_of_setting? {key : String} {value : Value} (h : setting? ops key = some value) :
    value.isFunction = false := by
  rw [setting?] at h
  split at h
  · obtain ⟨url, -, rfl⟩ := Option.map_eq_some_iff.mp h
    rfl
  split at h
  · obtain ⟨before, op, later, -, hop, -⟩ := latest?_eq_some_iff.mp h
    cases op with
    | register entry => cases hop
    | configure config =>
      obtain ⟨params, -, rfl⟩ := Option.map_eq_some_iff.mp hop
      rfl
  · cases h

/-! ## The listing -/

/-- An entry stands under the key of its API. -/
theorem Records.key_eq (h : Records ops c) {key : String} {entry : ApiEntry}
    (hmem : (key, entry) ∈ c.entries) : entry.key = key := by
  have hget := h.sorted.get?_of_mem hmem
  rw [h.get?_entries] at hget
  exact key_eq_of_latest? hget

/-- The entries of the catalog are those that are recorded for their keys. -/
theorem Records.mem_toList (h : Records ops c) (entry : ApiEntry) :
    entry ∈ c.toList ↔ latest? (Operation.entry? entry.key) ops = some entry := by
  rw [← h.get?_entries, toList, List.mem_map]
  refine ⟨fun ⟨⟨key, e⟩, he, hentry⟩ => ?_, fun hget => ⟨_, Dictionary.mem_of_get? hget, rfl⟩⟩
  subst hentry
  rw [h.key_eq he]
  exact h.sorted.get?_of_mem he

/-- The listing is in the order of the keys, and has no key twice. -/
theorem Records.pairwise_toList (h : Records ops c) : c.toList.Pairwise (·.key < ·.key) := by
  rw [toList, List.pairwise_map]
  refine h.sorted.imp_of_mem fun ha hb hlt => ?_
  rw [h.key_eq ha, h.key_eq hb]
  exact hlt

/-! ## Operations that come later -/

/-- The object of methods, made now and seen when operations have been performed. -/
def bindBefore (site : Site) (later : List Operation) : Job Value := do
  let object := (← Job.catalog).binding site
  performAll later
  return object

/-- The object of methods is made before the later operations, which it does not see. -/
theorem run_bindBefore (c : Catalog) (site : Site) (later : List Operation) :
    ((bindBefore site later).run c).result = .ok (c.binding site) ∧
      ((bindBefore site later).run c).catalog = applyAll c later := by
  obtain ⟨hresult, hcatalog⟩ := run_performAll c later
  -- The object is made of the catalog as it is before the operations.
  have hlook : (bindBefore site later).run c =
      (performAll later >>= fun _ => pure (c.binding site)).run c := rfl
  rw [hlook, Job.run_bind, Job.Report.andThen_of_ok hresult]
  exact ⟨rfl, hcatalog⟩

end Catalog

/-! ## Main result -/

/-- The object of methods that operations lead to, and the listing of the catalog. The members of
the object that are no methods are the settings, each with the value given last. Under every other
key that an API was registered under there is a method, which calls the API registered last with the
arguments and what is appended to them; there are no other members. The listing has the last API of
every key, once and in the order of the keys. Operations that come later change the catalog, and the
object is what it was. -/
theorem Catalog.bindBefore_after (ops later : List Operation) (site : Site) :
    let report := (bindBefore site later).run (after ops)
    report.catalog = after (ops ++ later) ∧
    (∃ fields : Bindings, report.result = .ok (.obj fields) ∧
      (∀ key value, Dictionary.get? fields key = some value ∧ value.isFunction = false ↔
        setting? ops key = some value) ∧
      (∀ key entry, setting? ops key = none → latest? (Operation.entry? key) ops = some entry →
        ∃ method, Dictionary.get? fields key = some method ∧
          ∀ host place callee args, method.call host place callee args =
            ⟨[.api place (host.turns entry.implementation) key (args ++ appended ops)],
              .ok (Callable.promise place
                (host.start entry.implementation place (args ++ appended ops)))⟩) ∧
      ∀ key, setting? ops key = none → latest? (Operation.entry? key) ops = none →
        Dictionary.get? fields key = none) ∧
    (after ops).toList.Pairwise (·.key < ·.key) ∧
    ∀ entry, entry ∈ (after ops).toList ↔
      latest? (Operation.entry? entry.key) ops = some entry := by
  intro report
  have h : Records ops (after ops) := records_after ops
  obtain ⟨hresult, hcatalog⟩ := run_bindBefore (after ops) site later
  refine ⟨?_, ⟨(after ops).members site, hresult, ?_, ?_, ?_⟩, h.pairwise_toList, h.mem_toList⟩
  · rw [after_append]
    exact hcatalog
  · intro key value
    rw [h.get?_members]
    cases hsetting : setting? ops key with
    | some setting =>
      rw [Option.some_or]
      exact ⟨fun hvalue => hvalue.1, fun heq => ⟨heq, isFunction_of_setting? (hsetting.trans heq)⟩⟩
    | none =>
      -- What is left is a method, and that is a function.
      refine ⟨fun ⟨hvalue, hplain⟩ => ?_, fun heq => nomatch heq⟩
      rw [Option.none_or, Option.map_eq_some_iff] at hvalue
      obtain ⟨entry, -, rfl⟩ := hvalue
      cases hplain
  · intro key entry hsetting hentry
    refine ⟨(after ops).method site entry, ?_, fun host place callee args => ?_⟩
    · rw [h.get?_members, hsetting, hentry]
      rfl
    · rw [call_method, h.trailing_eq, key_eq_of_latest? hentry]
  · intro key hsetting hentry
    rw [h.get?_members, hsetting, hentry]
    rfl

/-- An API that appends the default parameters given before its object was made, although others
are given and another API takes its key before it is called. -/
theorem Catalog.bindBefore_after_tenant :
    let params (tenant : String) : ApiConfig := { defaultParams := some [("tenant", .str tenant)] }
    let api (name : String) : ApiEntry :=
      { key := "f", name, description := "", implementation := .str name }
    let report := (bindBefore [] [.configure (params "B"), .register (api "h")]).run
      (after [.register (api "g"), .configure (params "A")])
    ∃ fields method, report.result = .ok (.obj fields) ∧
      Dictionary.get? fields "f" = some method ∧
      Dictionary.get? fields "_defaultParams" = some (.obj [("tenant", .str "A")]) ∧
      method.call Host.none [] "f" [.null] =
        ⟨[.api [] 0 "f" [.null, .obj [("tenant", .str "A")]]],
          .ok (.resolved (some []) (.list [.null, .obj [("tenant", .str "A")]]))⟩ := by
  intro params api report
  obtain ⟨-, ⟨fields, hfields, hsettings, hmethods, -⟩, -⟩ :=
    bindBefore_after [.register (api "g"), .configure (params "A")]
      [.configure (params "B"), .register (api "h")] []
  obtain ⟨method, hmethod, hcall⟩ := hmethods "f" (api "g") rfl rfl
  exact ⟨fields, method, hfields, hmethod, ((hsettings "_defaultParams" _).mpr rfl).1,
    hcall Host.none [] "f" [.null]⟩

end TemplateFlow
