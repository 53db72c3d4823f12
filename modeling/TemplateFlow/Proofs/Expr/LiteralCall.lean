import TemplateFlow.Proofs.Expr.Constant
import TemplateFlow.Proofs.Expr.Findings
import TemplateFlow.Proofs.Expr.OptionalLink

/-!
# Calls of literals

Validation reports the calls of literals, of lists and of objects. None of these is a function, so
such a call fails, whatever is bound, whatever the arguments are, and whether or not they have
values (`fails_eval_call`). But an optional call of `null` or `undefined` is no call: the chain ends
before it, and the value is `undefined` (`eval_callsNothing`). Validation does not look at the kind
of the call and reports it all the same.

## Main definitions

* `callsNothing`: an optional call of `null` or `undefined`.

## Main results

* `eval_literalCall`: which of the reported calls fail, and what the others evaluate to.
-/

namespace TemplateFlow

open Eval

/-- What is done with every value of an evaluation fails if it fails for the values as changed. -/
theorem Eval.Fails.bind_map {α β γ : Type} (e : Eval α) (g : α → β) {f : β → Eval γ}
    (h : ∀ a, (f (g a)).Fails) : ((g <$> e) >>= f).Fails := by
  rw [bind_map_left]
  exact Fails.bind e h

/-- A value that is no function can not be called. -/
theorem Value.fails_call_of_ne_func {v : Value} (h : ∀ f trailing, v ≠ .func f trailing)
    (host : Host) (site : Site) (callee : String) (args : List Value) :
    (v.call host site callee args).Fails := by
  cases v with
  | func f trailing => exact absurd rfl (h f trailing)
  | _ => exact ⟨_, rfl⟩

namespace Expr

/-- An optional call of `null` or `undefined`. -/
def callsNothing : Expr → Bool
  | .call (.literal v _) _ optional _ => optional && v.toValue.isNullish
  | _ => false

section

variable {host : Host} {env : Bindings} {site : Site} {f : Expr} {as : List Expr} {q : Bool}
  {s : Span}

/-- A call that is tried on a value that is no function fails, after the arguments. -/
theorem fails_followLink_call {v : Value} (hv : ∀ f trailing, v ≠ .func f trailing)
    (hends : (q && v.isNullish) = false) :
    (followLink (some v) q fun target => do
      let args ← evalAll host env site 1 as
      target.call host site f.calleeText args).Fails := by
  rw [followLink, hends]
  refine Fails.map some (Fails.bind _ fun args => ?_)
  exact Value.fails_call_of_ne_func hv host site _ args

/-- A call of a literal fails unless it is optional and the literal is `null` or `undefined`. -/
theorem fails_eval_call (hf : f.isLiteral = true)
    (h : (call f as q s).callsNothing = false) :
    ((call f as q s).eval host env site).Fails := by
  rw [eval, evalChain]
  refine Fails.map settleChain ?_
  cases f with
  | literal v _ =>
    rw [evalChain, pure_bind]
    refine fails_followLink_call (fun g trailing hv => ?_) h
    cases v <;> cases hv
  | list es _ =>
    -- The items may fail before, but the list itself is no function and not `null`.
    rw [evalChain]
    exact Fails.bind_map _ _ fun vs =>
      fails_followLink_call (fun _ _ => Value.noConfusion) (Bool.and_false q)
  | object ps _ =>
    rw [evalChain]
    exact Fails.bind_map _ _ fun fields =>
      fails_followLink_call (fun _ _ => Value.noConfusion) (Bool.and_false q)
  | _ => cases hf

/-- An optional call of `null` or `undefined` is `undefined`, and its arguments are not looked
at. -/
theorem eval_callsNothing {e : Expr} (h : e.callsNothing = true) :
    e.eval host env site = ⟨[], .ok .undefined⟩ := by
  unfold callsNothing at h
  split at h
  · rw [eval, evalChain, evalChain, pure_bind, followLink, h]
    rfl
  · cases h

end

/-- The calls that validation reports are the nodes that call a literal. Evaluated by itself, with
any bindings, such a node fails, unless it is an optional call of `null` or `undefined`, which is
`undefined`. -/
theorem eval_literalCall (bound : List String) (e : Expr) :
    Validation.Rule.nonCallableCall.findings bound e =
        (e.subexpressions.filterMap literalCall?).map (fun span => ⟨.nonCallableCall, span, none⟩) ∧
      ∀ c ∈ e.subexpressions, ∀ span, c.literalCall? = some span → ∀ host env site,
        ((c.eval host env site).Fails ↔ c.callsNothing = false) ∧
          (c.callsNothing = true → c.eval host env site = ⟨[], .ok .undefined⟩) := by
  refine ⟨by rw [Validation.Rule.findings, literalCalls_eq_filterMap], ?_⟩
  intro c _ span hc host env site
  refine ⟨⟨fun hfails => ?_, fun h => ?_⟩, eval_callsNothing⟩
  · -- The evaluation of the exception is known, and it is no failure.
    rw [← Bool.not_eq_true]
    intro h
    rw [eval_callsNothing h] at hfails
    obtain ⟨err, herr⟩ := hfails
    cases herr
  · cases c with
    | call f as q s =>
      have hf : f.isLiteral = true := by
        rw [literalCall?] at hc
        by_contra hnot
        rw [if_neg hnot] at hc
        cases hc
      exact fails_eval_call hf h
    | _ => cases hc

/-- Of two reported calls the optional one of `null` has a value. -/
theorem eval_literalCall_null :
    let nothing : Expr := .call (.literal .null .none) [.ident "x" .none] true .none
    let one : Expr := .call (.literal (.num 1) .none) [] true .none
    let e : Expr := .list [nothing, one] .none
    (Validation.Rule.nonCallableCall.findings [] e).length = 2 ∧
      nothing.eval .none [] [] = ⟨[], .ok .undefined⟩ ∧ (one.eval .none [] []).Fails := by
  intro nothing one e
  obtain ⟨hfindings, hcalls⟩ := eval_literalCall [] e
  have hnodes : e.subexpressions = [e, nothing, .literal .null .none, .ident "x" .none, one,
      .literal (.num 1) .none] := by
    simp [e, nothing, one, subexpressions_eq, children]
  refine ⟨by rw [hfindings, hnodes]; rfl, ?_, ?_⟩
  · exact (hcalls nothing (by simp [hnodes]) .none rfl .none [] []).2 rfl
  · exact (hcalls one (by simp [hnodes]) .none rfl .none [] []).1.mpr rfl

end Expr

end TemplateFlow
