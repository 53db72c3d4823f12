import TemplateFlow.Proofs.Expr.Unknown

/-!
# The findings of validation

Validation lists the findings of one rule after those of the other: first the identifier nodes whose
name is not bound, then the nodes that call a literal, each kind in the order of the source text
(`validate_eq`).
-/

namespace TemplateFlow

namespace Expr

/-- The span of a node that calls a literal, a list or an object. -/
def literalCall? : Expr → Option Span
  | .call f _ _ span => if f.isLiteral then some span else none
  | _ => none

/-! ## The walk of validation -/

theorem literalCallsAll_eq_flatMap (es : List Expr) :
    literalCallsAll es = es.flatMap literalCalls := by
  induction es with
  | nil => rfl
  | cons e es ih => rw [literalCallsAll, ih, List.flatMap_cons]

theorem literalCallsProperties_eq_flatMap (ps : List (String × Span × Expr)) :
    literalCallsProperties ps = (ps.map (·.2.2)).flatMap literalCalls := by
  induction ps with
  | nil => rfl
  | cons p ps ih =>
    obtain ⟨k, s, e⟩ := p
    rw [literalCallsProperties, ih, List.map_cons, List.flatMap_cons]

/-- The walk goes into every operand of a node, in order. -/
theorem literalCalls_eq_append (e : Expr) :
    e.literalCalls = e.literalCall?.toList ++ e.children.flatMap literalCalls := by
  cases e with
  | list es s => exact literalCallsAll_eq_flatMap es
  | object ps s => exact literalCallsProperties_eq_flatMap ps
  | call f as q s =>
    -- A call is reported before the calls in its callee and in its arguments.
    rw [literalCalls, literalCallsAll_eq_flatMap, literalCall?, children, List.flatMap_cons,
      List.append_assoc]
    split <;> rfl
  | _ => simp [literalCalls, literalCall?, children]

/-- The calls that validation reports are the nodes that call a literal, from left to right. -/
theorem literalCalls_eq_filterMap (e : Expr) :
    e.literalCalls = e.subexpressions.filterMap literalCall? :=
  eq_filterMap_subexpressions literalCalls_eq_append e

end Expr

namespace Validation

/-- The nodes of an expression that call a literal, a list or an object, from left to right. -/
def literalCallNodes (e : Expr) : List Span := e.subexpressions.filterMap Expr.literalCall?

/-- All findings: unbound names, and then calls of literals. -/
theorem validate_eq (bound : List String) (e : Expr) :
    validate bound e =
      (unboundNodes bound e).map (fun x => ⟨.undefinedIdentifier, x.2, some x.1⟩) ++
        (literalCallNodes e).map (fun span => ⟨.nonCallableCall, span, none⟩) := by
  rw [validate, Rule.all, List.flatMap_cons, List.flatMap_cons, List.flatMap_nil, List.append_nil,
    Rule.findings, Rule.findings, unboundNodes, literalCallNodes, ← Expr.identifiers_eq_filterMap,
    ← Expr.literalCalls_eq_filterMap]
  simp

/-- Names are reported as unknown exactly if there are nodes whose name is not bound. -/
theorem unknownIdentifiers_eq_nil_iff (bound : List String) (e : Expr) :
    unknownIdentifiers (validate bound e) = [] ↔ unboundNodes bound e = [] := by
  rw [unknownIdentifiers_validate]
  -- The first of the names is always kept.
  cases unboundNodes bound e with
  | nil => simp [firstOccurrences]
  | cons x nodes => simp [firstOccurrences]

/-- There is one list only of the names that occur in another, each once and in the order of first
appearance. -/
theorem FirstAppearances.unique {names a b : List String} (ha : FirstAppearances names a)
    (hb : FirstAppearances names b) : a = b := by
  have hperm : a.Perm b := by
    rw [List.perm_ext_iff_of_nodup ha.nodup hb.nodup]
    exact fun name => (ha.mem_iff name).trans (hb.mem_iff name).symm
  -- Both are ordered by the places where the names first appear, which differ.
  refine hperm.eq_of_pairwise (fun x y _ _ hxy hyx => ?_) ha.ordered hb.ordered
  omega

end Validation

end TemplateFlow
