import Mathlib.Data.List.Basic
import TemplateFlow.Validation

/-!
# The unknown identifiers of an expression

Validation walks over an expression by a recursion of its own. Here the parts of an expression are
described without any walk in mind: `children` lists the operands of a node in the order of the
source text, and `subexpressions` a node, then everything below its first child, then everything
below the next. The identifiers that validation looks at are the identifier nodes of that list
(`identifiers_eq_filterMap`), so its findings on unbound names are those nodes whose name is not
bound (`filter_validate`).

The names of these findings are reported once each, in the order in which they first appear
(`unknownIdentifiers_validate`).
-/

namespace TemplateFlow

namespace Expr

/-! ## Parts -/

/-- The operands of a node, from left to right. The name of a property and the keys of an object are
no operands; the shorthand of a property has its identifier as value. -/
def children : Expr → List Expr
  | .literal _ _ => []
  | .list es _ => es
  | .object ps _ => ps.map (·.2.2)
  | .ident _ _ => []
  | .member o _ _ _ _ => [o]
  | .index o i _ _ => [o, i]
  | .call f as _ _ => f :: as
  | .unary _ e _ => [e]
  | .binary _ l r _ => [l, r]
  | .logical _ l r _ => [l, r]
  | .ternary c t e _ => [c, t, e]

/-- Children are smaller than their node. -/
theorem sizeOf_lt_of_mem_children {e c : Expr} (h : c ∈ e.children) : sizeOf c < sizeOf e := by
  -- A child stands in a list, in a property, or directly in its node.
  cases e with
  | literal v s | ident n s => cases h
  | list es s =>
    have := List.sizeOf_lt_of_mem (show c ∈ es from h)
    simp only [list.sizeOf_spec]
    omega
  | object ps s =>
    obtain ⟨⟨k, ks, v⟩, hmem, rfl⟩ := List.mem_map.mp h
    have := List.sizeOf_lt_of_mem hmem
    simp only [Prod.mk.sizeOf_spec] at this
    simp only [object.sizeOf_spec]
    omega
  | call f as q s =>
    simp only [call.sizeOf_spec]
    rcases List.mem_cons.mp h with rfl | h
    · omega
    · have := List.sizeOf_lt_of_mem h
      omega
  | member o p ps q s | unary op o s =>
    rw [List.mem_singleton.mp h]
    simp only [member.sizeOf_spec, unary.sizeOf_spec]
    omega
  | index o i q s | binary op o i s | logical op o i s =>
    simp only [children, List.mem_cons, List.not_mem_nil, or_false] at h
    simp only [index.sizeOf_spec, binary.sizeOf_spec, logical.sizeOf_spec]
    rcases h with rfl | rfl <;> omega
  | ternary a b d s =>
    simp only [children, List.mem_cons, List.not_mem_nil, or_false] at h
    simp only [ternary.sizeOf_spec]
    rcases h with rfl | rfl | rfl <;> omega

/-- All nodes of an expression, each before what is below it, and the operands of a node from left
to right. -/
def subexpressions (e : Expr) : List Expr :=
  e :: e.children.attach.flatMap fun c => subexpressions c.1
termination_by sizeOf e
decreasing_by exact sizeOf_lt_of_mem_children c.2

/-- The parts of an expression are itself and those of its children. -/
theorem subexpressions_eq (e : Expr) :
    e.subexpressions = e :: e.children.flatMap subexpressions := by
  rw [subexpressions, List.flatMap_subtype fun _ _ => rfl, List.unattach_attach]

/-- The name and the span of an identifier node. -/
def identifier? : Expr → Option (String × Span)
  | .ident name span => some (name, span)
  | _ => none

/-! ## The walk of validation -/

/-- The identifiers of items are those of each item. -/
theorem identifiersAll_eq_flatMap (es : List Expr) :
    identifiersAll es = es.flatMap identifiers := by
  induction es with
  | nil => rfl
  | cons e es ih => rw [identifiersAll, ih, List.flatMap_cons]

/-- The identifiers of properties are those of their values. -/
theorem identifiersProperties_eq_flatMap (ps : List (String × Span × Expr)) :
    identifiersProperties ps = (ps.map (·.2.2)).flatMap identifiers := by
  induction ps with
  | nil => rfl
  | cons p ps ih =>
    obtain ⟨k, s, e⟩ := p
    rw [identifiersProperties, ih, List.map_cons, List.flatMap_cons]

/-- The walk goes into every operand of a node, in order. -/
theorem identifiers_eq_append (e : Expr) :
    e.identifiers = e.identifier?.toList ++ e.children.flatMap identifiers := by
  cases e with
  | list es s => exact identifiersAll_eq_flatMap es
  | object ps s => exact identifiersProperties_eq_flatMap ps
  | call f as q s =>
    rw [identifiers, identifiersAll_eq_flatMap]
    rfl
  | _ => simp [identifiers, identifier?, children]

/-- A walk that takes a part of some nodes and goes into every operand, in order, lists these parts
from left to right. -/
theorem eq_filterMap_subexpressions {α : Type} {walk : Expr → List α} {part? : Expr → Option α}
    (hwalk : ∀ e, walk e = (part? e).toList ++ e.children.flatMap walk) (e : Expr) :
    walk e = e.subexpressions.filterMap part? := by
  induction e using subexpressions.induct with
  | case1 e ih =>
    -- Below a node both lists go through its operands in the same order.
    have hchildren : e.children.flatMap walk =
        (e.children.flatMap subexpressions).filterMap part? := by
      rw [List.filterMap_flatMap]
      exact List.flatMap_congr fun c hc => ih ⟨c, hc⟩
    rw [hwalk, hchildren, subexpressions_eq, List.filterMap_cons]
    cases part? e <;> rfl

/-- The identifiers that validation looks at are the identifier nodes, from left to right. -/
theorem identifiers_eq_filterMap (e : Expr) :
    e.identifiers = e.subexpressions.filterMap identifier? :=
  eq_filterMap_subexpressions identifiers_eq_append e

end Expr

namespace Validation

/-! ## Findings -/

/-- The identifier nodes of an expression whose name is not bound, from left to right. -/
def unboundNodes (bound : List String) (e : Expr) : List (String × Span) :=
  (e.subexpressions.filterMap Expr.identifier?).filter fun x => x.1 ∉ bound

/-- What validation finds of unbound names is those nodes. -/
theorem filter_validate (bound : List String) (e : Expr) :
    (validate bound e).filter (·.rule = .undefinedIdentifier) =
      (unboundNodes bound e).map fun x => ⟨.undefinedIdentifier, x.2, some x.1⟩ := by
  -- The other rule reports calls only, and this one nothing but names.
  have hcalls :
      (Rule.nonCallableCall.findings bound e).filter (·.rule = .undefinedIdentifier) = [] := by
    rw [Rule.findings, List.filter_eq_nil_iff]
    intro f hf
    obtain ⟨span, -, rfl⟩ := List.mem_map.mp hf
    simp
  have hidentifiers : (Rule.undefinedIdentifier.findings bound e).filter
      (·.rule = .undefinedIdentifier) = Rule.undefinedIdentifier.findings bound e := by
    rw [Rule.findings, List.filter_eq_self]
    intro f hf
    obtain ⟨x, -, rfl⟩ := List.mem_map.mp hf
    simp
  rw [validate, Rule.all, List.flatMap_cons, List.flatMap_cons, List.flatMap_nil, List.append_nil,
    List.filter_append, hcalls, hidentifiers, List.append_nil, Rule.findings, unboundNodes,
    ← Expr.identifiers_eq_filterMap]
  simp

/-- The names of the findings on unbound names. -/
theorem unknownIdentifiers_validate (bound : List String) (e : Expr) :
    unknownIdentifiers (validate bound e) =
      firstOccurrences ((unboundNodes bound e).map Prod.fst) := by
  have hrule : ∀ f : Finding,
      (f.rule == .undefinedIdentifier) = decide (f.rule = .undefinedIdentifier) := fun _ => rfl
  rw [unknownIdentifiers, List.filter_congr fun f _ => hrule f, filter_validate, List.filterMap_map]
  simp

/-! ## First appearances -/

/-- A list names what occurs in another one, each once, in the order in which it first appears
there. -/
structure FirstAppearances (names result : List String) : Prop where
  nodup : result.Nodup
  mem_iff : ∀ name, name ∈ result ↔ name ∈ names
  ordered : result.Pairwise fun a b => names.idxOf a < names.idxOf b

/-- No name is lost when repetitions are left out. -/
theorem mem_firstOccurrences (names : List String) (name : String) :
    name ∈ firstOccurrences names ↔ name ∈ names := by
  induction names with
  | nil => rfl
  | cons a names ih =>
    rw [firstOccurrences, List.mem_cons, List.mem_cons, List.mem_filter, ih, bne_iff_ne]
    by_cases h : name = a
    · simp [h]
    · simp [h]

/-- Each name is taken where it first appears. -/
theorem firstAppearances_firstOccurrences (names : List String) :
    FirstAppearances names (firstOccurrences names) := by
  induction names with
  | nil => exact ⟨.nil, fun _ => Iff.rfl, .nil⟩
  | cons a names ih =>
    refine ⟨?_, mem_firstOccurrences _, ?_⟩
    · rw [firstOccurrences, List.nodup_cons]
      exact ⟨by simp, ih.nodup.filter _⟩
    · -- The first name is before all others, and among these it only shifts the places by one.
      rw [firstOccurrences, List.pairwise_cons]
      refine ⟨fun b hb => ?_, ?_⟩
      · obtain ⟨-, hne⟩ := List.mem_filter.mp hb
        rw [bne_iff_ne] at hne
        rw [List.idxOf_cons_self, List.idxOf_cons_ne _ hne.symm]
        exact Nat.succ_pos _
      · refine (ih.ordered.filter _).imp_of_mem fun {b c} hb hc hlt => ?_
        have hb := (List.mem_filter.mp hb).2
        have hc := (List.mem_filter.mp hc).2
        rw [bne_iff_ne] at hb hc
        rw [List.idxOf_cons_ne _ hb.symm, List.idxOf_cons_ne _ hc.symm]
        exact Nat.succ_lt_succ hlt

end Validation

end TemplateFlow
