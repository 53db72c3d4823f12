import Mathlib.Data.List.Forall2
import TemplateFlow.Proofs.Dictionary
import TemplateFlow.Proofs.Expr.Bare
import TemplateFlow.Template

/-!
# Constant expressions

An expression that refers to nothing and calls nothing has one value, the same with every host, in
every scope and in every place (`Expr.Constant`). Literals are constant, and so are the lists and
objects of constant expressions and the negations of constant numbers. A template of such an
expression is its value, and nothing is reported and nothing called (`Template.render_constant`).
-/

namespace TemplateFlow

namespace Eval

instance : LawfulMonad Eval :=
  LawfulMonad.mk' Eval
    (fun e => by
      obtain ⟨calls, result⟩ := e
      cases result
      · rfl
      · simp [Functor.map, Eval.bind, Eval.pure])
    (fun _ _ => rfl)
    (fun e f g => by
      obtain ⟨calls, result⟩ := e
      cases result with
      | error err => rfl
      | ok a =>
        rcases hf : f a with ⟨calls', result'⟩
        cases result' <;> simp [bind, Eval.bind, hf])

end Eval

namespace Expr

/-- The expression has this value wherever it is evaluated, and calls nothing for it. It refers to
no name, and no literal is called in it. -/
structure Constant (e : Expr) (v : Value) : Prop where
  evalChain : ∀ host env site, e.evalChain host env site = pure (some v)
  identifiers : e.identifiers = []
  literalCalls : e.literalCalls = []

/-- An expression is constant if it is without its spans. -/
theorem Constant.of_bare {e : Expr} {v : Value} (h : e.bare.Constant v) : e.Constant v where
  evalChain host env site := by rw [← evalChain_bare, h.evalChain]
  identifiers := List.map_eq_nil_iff.mp ((identifiers_bare e).symm.trans h.identifiers)
  literalCalls := List.map_eq_nil_iff.mp ((literalCalls_bare e).symm.trans h.literalCalls)

/-- A literal is constant. -/
theorem constant_literal (l : Literal) (s : Span) : Constant (.literal l s) l.toValue :=
  ⟨fun _ _ _ => rfl, rfl, rfl⟩

/-- The negation of a constant number. -/
theorem Constant.neg {e : Expr} {x : Number} (h : e.Constant (.num x)) (s : Span) :
    Constant (.unary .neg e s) (.num x.neg) where
  evalChain host env site := by rw [Expr.evalChain, h.evalChain]; rfl
  identifiers := h.identifiers
  literalCalls := h.literalCalls

/-! ## Lists -/

section Lists

variable {es : List Expr} {vs : List Value} (h : List.Forall₂ Constant es vs)

include h

/-- Constant items have their values one by one, and nothing happens. -/
theorem evalAll_constant (host : Host) (env : Bindings) (site : Site) (index : Nat) :
    evalAll host env site index es = pure vs := by
  induction h generalizing index with
  | nil => rfl
  | cons he _ ih => rw [evalAll, he.evalChain, pure_bind, ih, pure_bind]; rfl

/-- Constant items have no identifiers. -/
theorem identifiersAll_constant : identifiersAll es = [] := by
  induction h with
  | nil => rfl
  | cons he _ ih => rw [Expr.identifiersAll, he.identifiers, ih, List.append_nil]

/-- Constant items call no literals. -/
theorem literalCallsAll_constant : literalCallsAll es = [] := by
  induction h with
  | nil => rfl
  | cons he _ ih => rw [Expr.literalCallsAll, he.literalCalls, ih, List.append_nil]

/-- A list of constant expressions is constant. -/
theorem constant_list (s : Span) : Constant (.list es s) (.list vs) where
  evalChain host env site := by rw [Expr.evalChain, evalAll_constant h, map_pure]
  identifiers := identifiersAll_constant h
  literalCalls := literalCallsAll_constant h

end Lists

/-! ## Objects -/

/-- A property is constant if its value is. -/
def ConstantProperty (p : String × Span × Expr) (field : String × Value) : Prop :=
  p.1 = field.1 ∧ p.2.2.Constant field.2

section Objects

variable {ps : List (String × Span × Expr)} {fields : List (String × Value)}
  (h : List.Forall₂ ConstantProperty ps fields)

include h

/-- Constant properties are put into the fields one by one, and nothing happens. -/
theorem evalProperties_constant (host : Host) (env : Bindings) (site : Site) (index : Nat)
    (before : Bindings) :
    evalProperties host env site index before ps = pure (Dictionary.overlay before fields) := by
  induction h generalizing index before with
  | nil => rfl
  | @cons p field _ _ hp _ ih =>
    obtain ⟨k, s, e⟩ := p
    obtain ⟨hk, he⟩ := hp
    -- Evaluation puts one property after the other over what it has, and so does an overlay.
    rw [evalProperties, he.evalChain, pure_bind, ih]
    simp only at hk
    rw [hk]
    rfl

/-- Constant properties have no identifiers. -/
theorem identifiersProperties_constant : identifiersProperties ps = [] := by
  induction h with
  | nil => rfl
  | @cons p _ _ _ hp _ ih =>
    obtain ⟨k, s, e⟩ := p
    rw [Expr.identifiersProperties, hp.2.identifiers, ih, List.append_nil]

/-- Constant properties call no literals. -/
theorem literalCallsProperties_constant : literalCallsProperties ps = [] := by
  induction h with
  | nil => rfl
  | @cons p _ _ _ hp _ ih =>
    obtain ⟨k, s, e⟩ := p
    rw [Expr.literalCallsProperties, hp.2.literalCalls, ih, List.append_nil]

/-- An object of constant expressions is constant; of properties of one name the last counts. -/
theorem constant_object (s : Span) :
    Constant (.object ps s) (.obj (Dictionary.ofList fields)) where
  evalChain host env site := by rw [Expr.evalChain, evalProperties_constant h, map_pure]; rfl
  identifiers := identifiersProperties_constant h
  literalCalls := literalCallsProperties_constant h

end Objects

end Expr

/-! ## Templates -/

/-- A template of a constant expression has its value, whatever it is rendered in, and neither calls
nor reports anything. -/
theorem Template.render_constant {text source : String} {e : Expr} {v : Value}
    (hsource : expression? text = some source) (hparse : Expr.parse source = .ok e)
    (h : e.Constant v) (host : Host) (scope : Bindings) (site : Site) :
    render host scope site text = { value := v } := by
  have hfindings : Validation.validate (Dictionary.keys scope) e = [] := by
    simp [Validation.validate, Validation.Rule.all, Validation.Rule.findings, h.identifiers,
      h.literalCalls]
  have heval : e.eval host scope site = pure v := by
    rw [Expr.eval, h.evalChain, map_pure]
    rfl
  simp only [render, hsource, hparse, hfindings, heval]
  rfl

end TemplateFlow
