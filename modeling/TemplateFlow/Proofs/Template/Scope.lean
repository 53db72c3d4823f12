import TemplateFlow.Proofs.Expr.Coincidence
import TemplateFlow.Template

/-!
# What a template sees of its scope

A template is rendered against three layers of bindings, of which a later one hides the earlier
ones. It sees of them what the names in its expression come to, each in the last layer that binds
it, and nothing else: layers in which these names come to the same are not told apart
(`render_eq_of_lookup_eq`). So whatever a layer holds beside that can be left out (`Layers.seen`).

## Main definitions

* `Layers`: the base bindings, the outputs of steps and the local bindings of a template.
* `Layers.lookup`: what a name comes to.
* `Template.names`: the names that a template refers to.
-/

namespace TemplateFlow

namespace Template

/-! ## Layers -/

/-- The bindings that a scope is merged from, from the layer that is hidden first to the one that is
never hidden. -/
structure Layers where
  base : Bindings
  outputs : Bindings
  locals : Bindings
  outputs_sorted : outputs.Sorted
  locals_sorted : locals.Sorted

namespace Layers

/-- What a name comes to: its binding in the last layer that has one. -/
def lookup (l : Layers) (name : String) : Option Value :=
  (Dictionary.get? l.locals name).or
    ((Dictionary.get? l.outputs name).or (Dictionary.get? l.base name))

/-- The scope that the layers are merged into. -/
def scope (l : Layers) : Bindings := Template.scope l.base l.outputs l.locals

/-- The merged scope binds every name to what it comes to. -/
theorem get?_scope (l : Layers) (name : String) :
    Dictionary.get? l.scope name = l.lookup name := by
  rw [scope, Template.scope, Dictionary.get?_overlay, Dictionary.get?_overlay,
    l.locals_sorted.ofList_eq, l.outputs_sorted.ofList_eq]
  rfl

/-- The layers with nothing but the bindings that the given names come to. -/
def seen (l : Layers) (names : List String) : Layers where
  base := l.base.filter fun x => names.contains x.1 && !Dictionary.contains l.outputs x.1 &&
    !Dictionary.contains l.locals x.1
  outputs := l.outputs.filter fun x => names.contains x.1 && !Dictionary.contains l.locals x.1
  locals := l.locals.filter fun x => names.contains x.1
  outputs_sorted := l.outputs_sorted.filter _
  locals_sorted := l.locals_sorted.filter _

/-- The bindings that are left out are those that a name does not come to. -/
theorem lookup_seen (l : Layers) {names : List String} {name : String} (h : name ∈ names) :
    (l.seen names).lookup name = l.lookup name := by
  have hname : names.contains name = true := List.contains_iff_mem.mpr h
  have hlocals : Dictionary.get? (l.seen names).locals name = Dictionary.get? l.locals name := by
    rw [seen, Dictionary.get?_filter fun k => names.contains k, if_pos hname]
  rw [lookup, lookup, hlocals]
  -- A binding of an earlier layer is looked at only if the later ones have none.
  cases hl : Dictionary.get? l.locals name with
  | some v => rfl
  | none =>
    have hhidden : Dictionary.contains l.locals name = false := by rw [Dictionary.contains, hl]; rfl
    have houtputs :
        Dictionary.get? (l.seen names).outputs name = Dictionary.get? l.outputs name := by
      rw [seen, Dictionary.get?_filter fun k => names.contains k && !Dictionary.contains l.locals k,
        if_pos (by simp [h, hhidden])]
    rw [houtputs]
    cases ho : Dictionary.get? l.outputs name with
    | some v => rfl
    | none =>
      have hhidden' : Dictionary.contains l.outputs name = false := by
        rw [Dictionary.contains, ho]; rfl
      rw [seen, Dictionary.get?_filter fun k => names.contains k &&
        !Dictionary.contains l.outputs k && !Dictionary.contains l.locals k,
        if_pos (by simp [h, hhidden, hhidden'])]

end Layers

/-! ## Rendering -/

/-- The names that a template refers to; a text that is no template, or whose expression is none,
refers to no name. -/
def names (text : String) : List String :=
  match expression? text with
  | none => []
  | some source =>
    match Expr.parse source with
    | .ok e => e.names
    | .error _ => []

/-- A text has the same rendering in scopes that bind its names alike. -/
theorem render_congr {env env' : Bindings} {text : String} (h : AgreeOn (names text) env env')
    (host : Host) (site : Site) : render host env site text = render host env' site text := by
  rw [names] at h
  rw [render, render]
  cases hsource : expression? text with
  | none => rfl
  | some source =>
    cases he : Expr.parse source with
    | error err => simp only [he]
    | ok e =>
      simp only [hsource, he] at h
      simp only [he, Validation.validate_congr h, Expr.eval_congr e h]

/-- Layers in which every name of a text comes to the same give it the same value, with the same
calls and reports; and so does what is left of layers when every binding is taken away that none of
its names comes to. -/
theorem render_eq_of_lookup_eq (host : Host) (site : Site) (text : String) :
    (∀ l l' : Layers, (∀ name ∈ names text, l.lookup name = l'.lookup name) →
      render host l.scope site text = render host l'.scope site text) ∧
    ∀ l : Layers,
      render host (l.seen (names text)).scope site text = render host l.scope site text := by
  have hlookup (l l' : Layers) (h : ∀ name ∈ names text, l.lookup name = l'.lookup name) :
      render host l.scope site text = render host l'.scope site text := by
    refine render_congr (fun name hname => ?_) host site
    rw [l.get?_scope, l'.get?_scope, h name hname]
  exact ⟨hlookup, fun l => hlookup _ l fun name hname => l.lookup_seen hname⟩

/-- Layers in which `x` is an output that hides a binding of the base, beside a binding that is not
referred to. -/
def hidingLayers : Layers where
  base := [("f", .func (.host [] "f" .null) []), ("other", .str "o"), ("x", .str "base")]
  outputs := [("x", .str "output")]
  locals := []
  outputs_sorted := by decide
  locals_sorted := by decide

/-- Layers in which `x` is bound locally. -/
def localLayers : Layers where
  base := [("f", .func (.host [] "f" .null) [])]
  outputs := []
  locals := [("x", .str "output")]
  outputs_sorted := by decide
  locals_sorted := by decide

theorem render_eq_of_lookup_eq_call :
    (∀ name ∈ names "\x7b\x7b f(x) \x7d\x7d", hidingLayers.lookup name = localLayers.lookup name) ∧
    render .none hidingLayers.scope [] "\x7b\x7b f(x) \x7d\x7d" =
      render .none localLayers.scope [] "\x7b\x7b f(x) \x7d\x7d" := by
  have hnames : names "\x7b\x7b f(x) \x7d\x7d" = ["f", "x"] := by
    decide +kernel
  have h : ∀ name ∈ names "\x7b\x7b f(x) \x7d\x7d",
      hidingLayers.lookup name = localLayers.lookup name := by
    rw [hnames]
    simp only [List.forall_mem_cons]
    exact ⟨rfl, rfl, fun _ h => nomatch h⟩
  exact ⟨h, (render_eq_of_lookup_eq .none [] _).1 hidingLayers localLayers h⟩

end Template

end TemplateFlow
