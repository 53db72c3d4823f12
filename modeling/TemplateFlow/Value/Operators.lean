import TemplateFlow.Expr
import TemplateFlow.Value.Text

/-!
# Operators on values

Every operator that evaluates its operands first is a total function on their values: an operand
of an unsuitable kind counts as a number, as text or as unequal, never as an error.
-/

namespace TemplateFlow

namespace Value

/-- Operands that make a sum a concatenation. -/
def isTextual : Value → Bool
  | .str _ | .list _ | .obj _ | .func _ _ | .resolved _ _ | .rejected _ _ => true
  | _ => false

/-- Concatenation if either operand is textual, otherwise the sum of numbers. -/
def add (a b : Value) : Value :=
  if a.isTextual || b.isTextual then .str (a.toText ++ b.toText)
  else .num (a.toNumber + b.toNumber)

/-- Order: two texts by code point, anything else as numbers, of which not-a-number is in no order
with any. -/
def compare (texts : String → String → Bool) (numbers : Number → Number → Bool) (a b : Value) :
    Bool :=
  match a, b with
  | .str s, .str t => texts s t
  | a, b => numbers a.toNumber b.toNumber

end Value

/-- Applies an operator to the values of its operands. -/
def BinaryOp.apply (op : BinaryOp) (a b : Value) : Value :=
  match op with
  | .add => a.add b
  | .sub => .num (a.toNumber - b.toNumber)
  | .mul => .num (a.toNumber * b.toNumber)
  | .div => .num (a.toNumber / b.toNumber)
  | .mod => .num (a.toNumber % b.toNumber)
  | .eq => .bool (a.looseEq b)
  | .ne => .bool !(a.looseEq b)
  | .strictEq => .bool (a.strictEq b)
  | .strictNe => .bool !(a.strictEq b)
  | .lt => .bool (Value.compare (fun s t => s < t) Number.lt a b)
  | .lte => .bool (Value.compare (fun s t => s ≤ t) Number.le a b)
  | .gt => .bool (Value.compare (fun s t => t < s) (fun x y => y.lt x) a b)
  | .gte => .bool (Value.compare (fun s t => t ≤ s) (fun x y => y.le x) a b)

/-- Applies an operator to the value of its operand. -/
def UnaryOp.apply (op : UnaryOp) (a : Value) : Value :=
  match op with
  | .not => .bool !a.isTruthy
  | .neg => .num (-a.toNumber)
  | .pos => .num a.toNumber

/-- Whether the left operand alone is the result. -/
def LogicalOp.decides (op : LogicalOp) (left : Value) : Bool :=
  match op with
  | .and => !left.isTruthy
  | .or => left.isTruthy
  | .nullish => !left.isNullish

end TemplateFlow
