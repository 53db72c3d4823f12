import TemplateFlow.Proofs.Syntax.Written

/-!
# Levels of precedence

The rules of the grammar by level (`levelRule`). Every binary level has the same shape, whatever its
operators (`levelRule_eq`): an operand of the next tighter level, and then any number of operators
of the level, each with another such operand.
-/

namespace TemplateFlow

namespace Syntax

open Rule

/-- The operators of a level, as the grammar tries them. -/
def Precedence.operators : Precedence → List (String × Operator)
  | .nullish => [("??", .logical .nullish)]
  | .or => [("||", .logical .or)]
  | .and => [("&&", .logical .and)]
  | .equality =>
    [("===", .binary .strictEq), ("!==", .binary .strictNe), ("==", .binary .eq),
     ("!=", .binary .ne)]
  | .comparison =>
    [("<=", .binary .lte), (">=", .binary .gte), ("<", .binary .lt), (">", .binary .gt)]
  | .additive => [("+", .binary .add), ("-", .binary .sub)]
  | .multiplicative => [("*", .binary .mul), ("/", .binary .div), ("%", .binary .mod)]
  | _ => []

/-- The rule for the expressions of a level, given the rule for whole expressions. -/
def levelRule (expression : Rule Expr) : Precedence → Rule Expr
  | .ternary => ternary expression
  | .nullish => operation expression levels
  | .or => operation expression (levels.drop 1)
  | .and => operation expression (levels.drop 2)
  | .equality => operation expression (levels.drop 3)
  | .comparison => operation expression (levels.drop 4)
  | .additive => operation expression (levels.drop 5)
  | .multiplicative => operation expression (levels.drop 6)
  | .unary => unary expression
  | .chain => Prod.fst <$> chain expression
  | .primary => primary expression

/-- One more operation of a level: an operator and its right operand. -/
def operationStep (expression : Rule Expr) (p : Precedence) : Rule (Operator × Expr) := do
  let op ← operator p.operators
  let right ← levelRule expression p.next
  return (op, right)

/-- The shape of the levels that have operators. -/
theorem levelRule_eq (expression : Rule Expr) {p : Precedence} (hp : p.operators ≠ []) :
    levelRule expression p = (do
      let first ← levelRule expression p.next
      let rest ← many (operationStep expression p)
      return rest.foldl (fun left (op, right) => op.apply left right) first) := by
  cases p <;> first | exact absurd rfl hp | rfl

/-- What holds of the operand of all operations, and of a level with operators if it holds of the
next tighter one, holds of all levels with operators. -/
theorem Precedence.of_next {P : Precedence → Prop} (hunary : P .unary)
    (hnext : ∀ p : Precedence, p.operators ≠ [] → P p.next → P p) {p : Precedence}
    (hp : p.operators ≠ []) : P p := by
  -- From the tightest level on.
  have hmultiplicative : P .multiplicative := hnext _ (List.cons_ne_nil _ _) hunary
  have hadditive : P .additive := hnext _ (List.cons_ne_nil _ _) hmultiplicative
  have hcomparison : P .comparison := hnext _ (List.cons_ne_nil _ _) hadditive
  have hequality : P .equality := hnext _ (List.cons_ne_nil _ _) hcomparison
  have hand : P .and := hnext _ (List.cons_ne_nil _ _) hequality
  have hor : P .or := hnext _ (List.cons_ne_nil _ _) hand
  have hnullish : P .nullish := hnext _ (List.cons_ne_nil _ _) hor
  cases p with
  | nullish => exact hnullish
  | or => exact hor
  | and => exact hand
  | equality => exact hequality
  | comparison => exact hcomparison
  | additive => exact hadditive
  | multiplicative => exact hmultiplicative
  | _ => exact absurd rfl hp

/-- An operator that stands in the table of a level is of that level and is written as it stands
there. -/
theorem of_mem_operators {p : Precedence} {x : String × Operator} (h : x ∈ p.operators) :
    x.1 = x.2.spelling ∧ x.2.precedence = p := by
  cases p <;> simp only [Precedence.operators, List.mem_cons, List.not_mem_nil, or_false] at h
  case equality | comparison => rcases h with rfl | rfl | rfl | rfl <;> exact ⟨rfl, rfl⟩
  case multiplicative => rcases h with rfl | rfl | rfl <;> exact ⟨rfl, rfl⟩
  case additive => rcases h with rfl | rfl <;> exact ⟨rfl, rfl⟩
  all_goals subst h; exact ⟨rfl, rfl⟩

theorem bare_apply (op : Operator) (l r : Expr) : (op.apply l r).bare = op.node l.bare r.bare := by
  cases op <;> rfl

end Syntax

end TemplateFlow
