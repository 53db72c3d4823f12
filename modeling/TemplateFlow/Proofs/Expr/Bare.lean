import TemplateFlow.Evaluation
import TemplateFlow.Validation

/-!
# Spans do not matter

What an expression means does not depend on where it was read from. With all of its spans cleared
it makes the same calls and has the same result (`evalChain_bare`); a call of something that is no
function is named in the same way. Validation finds the same names and the same calls of literals,
without the places that it reports them at (`identifiers_bare`, `literalCalls_bare`).
-/

namespace TemplateFlow

namespace Expr

variable {host : Host} {env : Bindings}

/-! ## Evaluation -/

/-- The name under which a callee is reported does not come from its span. -/
@[simp]
theorem calleeText_bare (e : Expr) : e.bare.calleeText = e.calleeText := by
  match e with
  | .member o _ _ _ _ => rw [bare, calleeText, calleeText, calleeText_bare o]
  | .index o _ _ _ => rw [bare, calleeText, calleeText, calleeText_bare o]
  | .call f _ _ _ => rw [bare, calleeText, calleeText, calleeText_bare f]
  | .literal _ _ | .list _ _ | .object _ _ | .ident _ _ | .unary _ _ _ | .binary _ _ _ _
  | .logical _ _ _ _ | .ternary _ _ _ _ => rfl

mutual

/-- A chain has the same outcome with its spans cleared. -/
theorem evalChain_bare (e : Expr) (site : Site) :
    evalChain host env site e.bare = evalChain host env site e := by
  match e with
  | .literal _ _ => rfl
  | .list es _ => simp only [bare, evalChain, evalAll_bare es]
  | .object ps _ => simp only [bare, evalChain, evalProperties_bare ps]
  | .ident _ _ => rfl
  | .member o _ _ _ _ => simp only [bare, evalChain, evalChain_bare o]
  | .index o i _ _ => simp only [bare, evalChain, evalChain_bare o, evalChain_bare i]
  | .call f as _ _ =>
    -- The name of the callee is part of the outcome, if that is an error.
    simp only [bare, evalChain, evalChain_bare f, evalAll_bare as, calleeText_bare]
  | .unary _ e _ => simp only [bare, evalChain, evalChain_bare e]
  | .binary _ l r _ => simp only [bare, evalChain, evalChain_bare l, evalChain_bare r]
  | .logical _ l r _ => simp only [bare, evalChain, evalChain_bare l, evalChain_bare r]
  | .ternary c t e _ =>
    simp only [bare, evalChain, evalChain_bare c, evalChain_bare t, evalChain_bare e]

/-- Spans do not count for the arguments of a call either. -/
theorem evalAll_bare (es : List Expr) (site : Site) (index : Nat) :
    evalAll host env site index (bareAll es) = evalAll host env site index es := by
  match es with
  | [] => rfl
  | e :: es => simp only [bareAll, evalAll, evalChain_bare e, evalAll_bare es]

/-- Nor do they count for the properties of an object. -/
theorem evalProperties_bare (ps : List (String × Span × Expr)) (site : Site) (index : Nat)
    (fields : Bindings) :
    evalProperties host env site index fields (bareProperties ps) =
      evalProperties host env site index fields ps := by
  match ps with
  | [] => rfl
  | (_, _, e) :: ps =>
    simp only [bareProperties, evalProperties, evalChain_bare e, evalProperties_bare ps]

end

/-! ## Validation -/

/-- An identifier without the place where it stands. -/
def unplaced (x : String × Span) : String × Span := (x.1, .none)

mutual

/-- Without spans an expression has the same identifiers, in the same order, at no place. -/
theorem identifiers_bare (e : Expr) : e.bare.identifiers = e.identifiers.map unplaced := by
  match e with
  | .literal _ _ => rfl
  | .list es _ => simp only [bare, identifiers, identifiersAll_bare es]
  | .object ps _ => simp only [bare, identifiers, identifiersProperties_bare ps]
  -- The only node that is an identifier keeps its name.
  | .ident _ _ => rfl
  | .member o _ _ _ _ => simp only [bare, identifiers, identifiers_bare o]
  | .index o i _ _ =>
    simp only [bare, identifiers, List.map_append, identifiers_bare o, identifiers_bare i]
  | .call f as _ _ =>
    simp only [bare, identifiers, List.map_append, identifiers_bare f, identifiersAll_bare as]
  | .unary _ e _ => simp only [bare, identifiers, identifiers_bare e]
  | .binary _ l r _ =>
    simp only [bare, identifiers, List.map_append, identifiers_bare l, identifiers_bare r]
  | .logical _ l r _ =>
    simp only [bare, identifiers, List.map_append, identifiers_bare l, identifiers_bare r]
  | .ternary c t e _ =>
    simp only [bare, identifiers, List.map_append, identifiers_bare c, identifiers_bare t,
      identifiers_bare e]

/-- The same for the items of a list or the arguments of a call. -/
theorem identifiersAll_bare (es : List Expr) :
    identifiersAll (bareAll es) = (identifiersAll es).map unplaced := by
  match es with
  | [] => rfl
  | e :: es =>
    simp only [bareAll, identifiersAll, List.map_append, identifiers_bare e, identifiersAll_bare es]

/-- The same for the properties of an object. -/
theorem identifiersProperties_bare (ps : List (String × Span × Expr)) :
    identifiersProperties (bareProperties ps) = (identifiersProperties ps).map unplaced := by
  match ps with
  | [] => rfl
  | (_, _, e) :: ps =>
    simp only [bareProperties, identifiersProperties, List.map_append, identifiers_bare e,
      identifiersProperties_bare ps]

end

/-- Whether an expression is a literal does not depend on its span. -/
@[simp]
theorem isLiteral_bare (e : Expr) : e.bare.isLiteral = e.isLiteral := by
  cases e <;> rfl

mutual

/-- There are as many calls of literals, whose places are cleared. -/
theorem literalCalls_bare (e : Expr) :
    e.bare.literalCalls = e.literalCalls.map fun _ => .none := by
  match e with
  | .literal _ _ => rfl
  | .list es _ => simp only [bare, literalCalls, literalCallsAll_bare es]
  | .object ps _ => simp only [bare, literalCalls, literalCallsProperties_bare ps]
  | .ident _ _ => rfl
  | .member o _ _ _ _ => simp only [bare, literalCalls, literalCalls_bare o]
  | .index o i _ _ =>
    simp only [bare, literalCalls, List.map_append, literalCalls_bare o, literalCalls_bare i]
  | .call f as _ _ =>
    simp only [bare, literalCalls, List.map_append, literalCalls_bare f, literalCallsAll_bare as,
      isLiteral_bare]
    split <;> rfl
  | .unary _ e _ => simp only [bare, literalCalls, literalCalls_bare e]
  | .binary _ l r _ =>
    simp only [bare, literalCalls, List.map_append, literalCalls_bare l, literalCalls_bare r]
  | .logical _ l r _ =>
    simp only [bare, literalCalls, List.map_append, literalCalls_bare l, literalCalls_bare r]
  | .ternary c t e _ =>
    simp only [bare, literalCalls, List.map_append, literalCalls_bare c, literalCalls_bare t,
      literalCalls_bare e]

/-- The same for the items of a list or the arguments of a call. -/
theorem literalCallsAll_bare (es : List Expr) :
    literalCallsAll (bareAll es) = (literalCallsAll es).map fun _ => .none := by
  match es with
  | [] => rfl
  | e :: es =>
    simp only [bareAll, literalCallsAll, List.map_append, literalCalls_bare e,
      literalCallsAll_bare es]

/-- The same for the properties of an object. -/
theorem literalCallsProperties_bare (ps : List (String × Span × Expr)) :
    literalCallsProperties (bareProperties ps) =
      (literalCallsProperties ps).map fun _ => .none := by
  match ps with
  | [] => rfl
  | (_, _, e) :: ps =>
    simp only [bareProperties, literalCallsProperties, List.map_append, literalCalls_bare e,
      literalCallsProperties_bare ps]

end

end Expr

end TemplateFlow
