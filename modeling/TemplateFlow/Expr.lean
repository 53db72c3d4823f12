import TemplateFlow.Number

/-!
# Expressions

The syntax trees of the expression language. Every node carries the span of source text it was
read from; a tree that was not read from text carries empty spans. Evaluation never looks at
spans, so `Expr.bare`, which clears them all, is the view in which trees are compared when only
their meaning matters.
-/

namespace TemplateFlow

/-! ## Source positions -/

/-- A place in source text: its byte offset in UTF-8, its line, and its column in characters, all
counted from zero. -/
structure Position where
  offset : Nat := 0
  line : Nat := 0
  column : Nat := 0
  deriving DecidableEq, Inhabited

namespace Position

/-- The place after one more character. A line feed ends a line. -/
def advance (p : Position) (c : Char) : Position :=
  if c = '\n' then ⟨p.offset + c.utf8Size, p.line + 1, 0⟩
  else ⟨p.offset + c.utf8Size, p.line, p.column + 1⟩

/-- The place after a text that starts at `p`. -/
def advanceBy (p : Position) (text : List Char) : Position :=
  text.foldl advance p

@[simp]
theorem advanceBy_nil (p : Position) : p.advanceBy [] = p := rfl

@[simp]
theorem advanceBy_cons (p : Position) (c : Char) (text : List Char) :
    p.advanceBy (c :: text) = (p.advance c).advanceBy text := rfl

theorem advanceBy_append (p : Position) (s t : List Char) :
    p.advanceBy (s ++ t) = (p.advanceBy s).advanceBy t := by
  simp [advanceBy, List.foldl_append]

/-- The later of two places. -/
def latest (p q : Position) : Position :=
  if p.offset < q.offset then q else p

end Position

/-- A stretch of source text, from its first character to just after its last one. -/
structure Span where
  first : Position := {}
  last : Position := {}
  deriving DecidableEq, Inhabited

namespace Span

/-- The span of a tree that was not read from text. -/
def none : Span := {}

/-- The least span that covers both. -/
def merge (a b : Span) : Span :=
  { first := if a.first.offset ≤ b.first.offset then a.first else b.first
    last := if b.last.offset ≤ a.last.offset then a.last else b.last }

end Span

/-! ## Operators -/

/-- Operators that evaluate their right operand only if the left one does not decide. -/
inductive LogicalOp where
  | and
  | or
  | nullish
  deriving DecidableEq, Inhabited

/-- Operators that evaluate both operands. -/
inductive BinaryOp where
  | add
  | sub
  | mul
  | div
  | mod
  | eq
  | ne
  | strictEq
  | strictNe
  | lt
  | lte
  | gt
  | gte
  deriving DecidableEq, Inhabited

/-- Operators before their operand. -/
inductive UnaryOp where
  | not
  | neg
  | pos
  deriving DecidableEq, Inhabited

/-! ## Trees -/

/-- A value that source text can spell as one token. -/
inductive Literal where
  | undefined
  | null
  | bool (value : Bool)
  | num (value : Number)
  | str (value : String)
  deriving DecidableEq, Inhabited

/-- An expression. The properties of an object are triples of a key, the span of the key and a
value; `optional` marks the links `?.`, which end their chain on `null` and `undefined`. -/
inductive Expr where
  | literal (value : Literal) (span : Span)
  | list (elements : List Expr) (span : Span)
  | object (properties : List (String × Span × Expr)) (span : Span)
  | ident (name : String) (span : Span)
  | member (object : Expr) (property : String) (propertySpan : Span) (optional : Bool)
      (span : Span)
  | index (object index : Expr) (optional : Bool) (span : Span)
  | call (callee : Expr) (args : List Expr) (optional : Bool) (span : Span)
  | unary (op : UnaryOp) (operand : Expr) (span : Span)
  | binary (op : BinaryOp) (left right : Expr) (span : Span)
  | logical (op : LogicalOp) (left right : Expr) (span : Span)
  | ternary (condition consequent alternate : Expr) (span : Span)
  deriving Inhabited

namespace Expr

/-- The span of the outermost node. -/
def span : Expr → Span
  | .literal _ s | .list _ s | .object _ s | .ident _ s | .member _ _ _ _ s | .index _ _ _ s
  | .call _ _ _ s | .unary _ _ s | .binary _ _ _ s | .logical _ _ _ s | .ternary _ _ _ s => s

mutual

/-- The tree with every span cleared. -/
def bare : Expr → Expr
  | .literal v _ => .literal v .none
  | .list es _ => .list (bareAll es) .none
  | .object ps _ => .object (bareProperties ps) .none
  | .ident n _ => .ident n .none
  | .member o p _ q _ => .member (bare o) p .none q .none
  | .index o i q _ => .index (bare o) (bare i) q .none
  | .call f as q _ => .call (bare f) (bareAll as) q .none
  | .unary op e _ => .unary op (bare e) .none
  | .binary op l r _ => .binary op (bare l) (bare r) .none
  | .logical op l r _ => .logical op (bare l) (bare r) .none
  | .ternary c t e _ => .ternary (bare c) (bare t) (bare e) .none

/-- Every tree of a list with its spans cleared. -/
def bareAll : List Expr → List Expr
  | [] => []
  | e :: es => bare e :: bareAll es

/-- The properties of an object with all spans cleared. -/
def bareProperties : List (String × Span × Expr) → List (String × Span × Expr)
  | [] => []
  | (k, _, e) :: ps => (k, .none, bare e) :: bareProperties ps

end

end Expr

end TemplateFlow
