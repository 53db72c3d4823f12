import TemplateFlow.Evaluation
import TemplateFlow.Proofs.Dictionary
import TemplateFlow.Proofs.Expr.Unknown

/-!
# What an expression depends on

An expression looks up nothing but the names of its identifiers. Scopes that have the same binding,
or none, for each of these are not told apart: validation has the same findings
(`validate_congr`), and evaluation makes the same calls and has the same result
(`eval_congr`), whichever parts of the expression it comes to.
-/

namespace TemplateFlow

/-- Two scopes have the same binding, or none, for every name of a list. -/
def AgreeOn (names : List String) (env env' : Bindings) : Prop :=
  ∀ name ∈ names, Dictionary.get? env name = Dictionary.get? env' name

/-- What agrees on some names agrees on fewer names. -/
theorem AgreeOn.mono {names names' : List String} {env env' : Bindings}
    (h : AgreeOn names env env') (hsub : names' ⊆ names) : AgreeOn names' env env' :=
  fun name hname => h name (hsub hname)

namespace Expr

/-- The names that an expression refers to: those of its identifier nodes. -/
def names (e : Expr) : List String :=
  (e.subexpressions.filterMap identifier?).map Prod.fst

/-- The names of a node are its own and those of its operands. -/
theorem names_eq_append (e : Expr) :
    e.names = (e.identifier?.toList).map Prod.fst ++ e.children.flatMap names := by
  have hnames : names = fun e => (identifiers e).map Prod.fst := by
    funext e
    rw [names, identifiers_eq_filterMap]
  rw [hnames, ← List.map_flatMap, ← List.map_append, ← identifiers_eq_append]

/-- The names in a child are names in the node. -/
theorem names_subset_of_mem_children {e c : Expr} (hc : c ∈ e.children) : c.names ⊆ e.names := by
  intro name hname
  rw [names_eq_append]
  exact List.mem_append_right _ (List.mem_flatMap.mpr ⟨c, hc, hname⟩)

/-! ## Evaluation -/

variable {host : Host} {env env' : Bindings}

/-- Two scopes are not told apart by an expression, wherever it is evaluated. -/
def Alike (host : Host) (env env' : Bindings) (e : Expr) : Prop :=
  ∀ site, evalChain host env site e = evalChain host env' site e

/-- The same for the items of a list or the arguments of a call. -/
theorem evalAll_congr {es : List Expr} (h : ∀ e ∈ es, Alike host env env' e) (site : Site)
    (index : Nat) : evalAll host env site index es = evalAll host env' site index es := by
  induction es generalizing index with
  | nil => rfl
  | cons e es ih =>
    obtain ⟨he, hes⟩ := List.forall_mem_cons.mp h
    simp only [evalAll, he _, ih hes]

/-- The same for the properties of an object. -/
theorem evalProperties_congr {ps : List (String × Span × Expr)}
    (h : ∀ e ∈ ps.map (·.2.2), Alike host env env' e) (site : Site) (index : Nat)
    (fields : Bindings) :
    evalProperties host env site index fields ps =
      evalProperties host env' site index fields ps := by
  induction ps generalizing index fields with
  | nil => rfl
  | cons p ps ih =>
    obtain ⟨k, s, e⟩ := p
    obtain ⟨he, hps⟩ := List.forall_mem_cons.mp h
    simp only [evalProperties, he _, ih hps]

/-- A node does not tell scopes apart that its operands do not and that bind its own name alike. -/
theorem alike_of_children {e : Expr} (hname : ∀ name s, e = .ident name s →
    Dictionary.get? env name = Dictionary.get? env' name)
    (h : ∀ c ∈ e.children, Alike host env env' c) : Alike host env env' e := by
  -- A name is looked up in an identifier only; every other node asks its children.
  intro site
  cases e
  all_goals simp only [children, List.forall_mem_cons] at h
  case literal v s => rfl
  case list es s => simp only [evalChain, evalAll_congr h]
  case object ps s => simp only [evalChain, evalProperties_congr h]
  case ident name s => simp only [evalChain, hname name s rfl]
  case member o p ps q s =>
    obtain ⟨ho, -⟩ := h
    simp only [evalChain, ho _]
  case index o i q s =>
    obtain ⟨ho, hi, -⟩ := h
    simp only [evalChain, ho _, hi _]
  case call f as q s =>
    obtain ⟨hf, has⟩ := h
    simp only [evalChain, hf _, evalAll_congr has]
  case unary op o s =>
    obtain ⟨ho, -⟩ := h
    simp only [evalChain, ho _]
  case binary op l r s =>
    obtain ⟨hl, hr, -⟩ := h
    simp only [evalChain, hl _, hr _]
  case logical op l r s =>
    obtain ⟨hl, hr, -⟩ := h
    simp only [evalChain, hl _, hr _]
  case ternary c t e s =>
    obtain ⟨hc, ht, he, -⟩ := h
    simp only [evalChain, hc _, ht _, he _]

/-- Scopes that bind the names of an expression alike are not told apart by it. -/
theorem alike_of_agreeOn (e : Expr) (h : AgreeOn e.names env env') : Alike host env env' e := by
  induction e using subexpressions.induct with
  | case1 e ih =>
    refine alike_of_children ?_ fun c hc =>
      ih ⟨c, hc⟩ (h.mono (names_subset_of_mem_children hc))
    rintro name s rfl
    exact h name (by rw [names_eq_append]; exact List.mem_cons_self)

/-- An expression makes the same calls and has the same result in scopes that bind its names
alike. -/
theorem eval_congr (e : Expr) (h : AgreeOn e.names env env') (site : Site) :
    e.eval host env site = e.eval host env' site := by
  rw [eval, eval, alike_of_agreeOn e h site]

end Expr

/-! ## Validation -/

namespace Validation

/-- A name is among the bound ones if it has a binding. -/
theorem contains_keys (env : Bindings) (name : String) :
    (Dictionary.keys env).contains name = (Dictionary.get? env name).isSome := by
  rw [Bool.eq_iff_iff, List.contains_iff_mem]
  refine ⟨Dictionary.isSome_get?_of_mem_keys, fun h => ?_⟩
  by_contra hname
  rw [Dictionary.get?_eq_none_of_not_mem_keys hname] at h
  cases h

/-- Scopes that bind the names of an expression alike have the same findings on it. -/
theorem validate_congr {env env' : Bindings} {e : Expr} (h : AgreeOn e.names env env') :
    validate (Dictionary.keys env) e = validate (Dictionary.keys env') e := by
  have hunbound : Rule.undefinedIdentifier.findings (Dictionary.keys env) e =
      Rule.undefinedIdentifier.findings (Dictionary.keys env') e := by
    simp only [Rule.findings]
    congr 1
    refine List.filter_congr fun x hx => ?_
    rw [Expr.identifiers_eq_filterMap] at hx
    rw [contains_keys, contains_keys, h x.1 (List.mem_map_of_mem hx)]
  -- The other rule does not look at the bound names.
  rw [validate, validate, Rule.all, List.flatMap_cons, List.flatMap_cons, hunbound]
  rfl

end Validation

end TemplateFlow
