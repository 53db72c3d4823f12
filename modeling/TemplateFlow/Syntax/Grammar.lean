import TemplateFlow.Syntax.Escape
import TemplateFlow.Syntax.Lexeme
import TemplateFlow.Syntax.Rule

/-!
# The grammar of expressions

One rule per level of precedence, from the ternary operator, which binds loosest, through the
binary levels (`Level`) to the links of a chain and the primary expressions. Each rule takes the
rule for a whole expression, which it uses inside brackets and branches, as an argument;
`expressionUpTo` closes the circle, bounded by the number of nested expressions, and `Expr.parse`
starts it with more than the text can hold.

Spans follow the source text. An operation covers what lies between the first and the last of its
operands, without the parentheses around them; a prefix operation and a ternary start at their own
first character and end where the reading of their last operand ended, which may be after blanks.
-/

namespace TemplateFlow

namespace Syntax

open Rule

/-! ## Tokens -/

/-- An identifier with its span. -/
def identifier : Rule (String × Span) :=
  named ((fun (text, span) => (String.ofList text, span)) <$> lexeme scanIdentifier?)

/-- A name, keyword or not, with its span. -/
def name : Rule (String × Span) :=
  named ((fun (text, span) => (String.ofList text, span)) <$> lexeme scanName?)

/-- A number with its span. -/
def number : Rule (Number × Span) :=
  named ((fun (text, span) => (numberOf text, span)) <$> lexeme scanNumber?)

/-- A string with its span. -/
def string : Rule (String × Span) :=
  named ((fun (text, span) => (String.ofList (unescape (contentOf text)), span)) <$>
    lexeme scanString?)

/-- A keyword that stands for a literal. -/
def keyword (word : String) (value : Literal) : Rule Expr :=
  named ((fun found => .literal value found.2) <$> lexeme (scanKeyword? word))

/-- A literal. -/
def literal : Rule Expr :=
  firstOf
    [(fun (n, span) => .literal (.num n) span) <$> number,
     (fun (s, span) => .literal (.str s) span) <$> string,
     keyword "true" (.bool true),
     keyword "false" (.bool false),
     keyword "null" .null,
     keyword "undefined" .undefined]

/-! ## Primary expressions -/

section

variable (expression : Rule Expr)

/-- An expression in parentheses, which leave no trace. -/
def parenthesized : Rule Expr := do
  let _ ← symbol "("
  let e ← expression
  let _ ← symbol ")"
  return e

/-- A list between brackets. -/
def list : Rule Expr := do
  let first ← position
  let _ ← symbol "["
  let elements ← optional (commaList expression)
  let last ← symbol "]"
  return .list (elements.getD []) ⟨first, last⟩

/-- The key of a property: a string, a number as its text, or a name. -/
def propertyKey : Rule (String × Span) :=
  named (firstOf [string, (fun (n, span) => (n.toText, span)) <$> number, name])

/-- A key with its value. -/
def keyedProperty : Rule (String × Span × Expr) :=
  named do
    let (key, span) ← propertyKey
    let _ ← symbol ":"
    let value ← expression
    return (key, span, value)

/-- An identifier as the key of its own value. -/
def shorthandProperty : Rule (String × Span × Expr) :=
  (fun (key, span) => (key, span, .ident key span)) <$> identifier

/-- A property of an object. -/
def property : Rule (String × Span × Expr) :=
  named (orElse (keyedProperty expression) shorthandProperty)

/-- An object between braces. -/
def object : Rule Expr := do
  let first ← position
  let _ ← symbol "\x7b"
  let properties ← optional (commaList (property expression))
  let last ← symbol "\x7d"
  return .object (properties.getD []) ⟨first, last⟩

/-- An expression that no operator can split. -/
def primary : Rule Expr :=
  named (firstOf
    [literal, object expression, list expression,
     (fun (name, span) => .ident name span) <$> identifier,
     parenthesized expression])

/-! ## Chains -/

/-- A link of a chain: what it adds to the expression before it, given the span of the whole. -/
structure Link where
  /-- The span of the link itself. -/
  span : Span
  /-- The expression that the link makes of the one before it. -/
  apply : Expr → Span → Expr

/-- The arguments of a call, between parentheses that are already open, and where they close. -/
def arguments : Rule (List Expr × Position) := do
  let args ← optional (commaList expression)
  let last ← symbol ")"
  return (args.getD [], last)

/-- The index of an access, between brackets that are already open, and where they close. -/
def bracketed : Rule (Expr × Position) := do
  let index ← expression
  let last ← symbol "]"
  return (index, last)

/-- A call link, after its opening symbols. -/
def callLink (opening : List String) (isOptional : Bool) : Rule Link := do
  let first ← position
  opening.forM fun s => do let _ ← symbol s
  let (args, last) ← arguments expression
  return ⟨⟨first, last⟩, fun callee span => .call callee args isOptional span⟩

/-- An index link, after its opening symbols. -/
def indexLink (opening : List String) (isOptional : Bool) : Rule Link := do
  let first ← position
  opening.forM fun s => do let _ ← symbol s
  let (index, last) ← bracketed expression
  return ⟨⟨first, last⟩, fun object span => .index object index isOptional span⟩

/-- A property link, after its opening symbol. -/
def memberLink (opening : String) (isOptional : Bool) : Rule Link := do
  let first ← position
  let _ ← symbol opening
  let (property, propertySpan) ← name
  return ⟨⟨first, propertySpan.last⟩,
    fun object span => .member object property propertySpan isOptional span⟩

/-- A link of a chain. -/
def link : Rule Link :=
  named (firstOf
    [callLink expression ["?.", "("] true,
     indexLink expression ["?.", "["] true,
     memberLink "?." true,
     callLink expression ["("] false,
     indexLink expression ["["] false,
     memberLink "." false])

/-- The expression that a chain of links makes of its base. -/
def applyLinks (base : Expr) (links : List Link) : Expr :=
  links.foldl (fun e l => l.apply e (e.span.merge l.span)) base

/-- A primary expression with its links, and where its reading ended: after its last link, or after
the blanks that follow it if it has none. -/
def chain : Rule (Expr × Position) := do
  let base ← primary expression
  let links ← many (link expression)
  let after ← position
  return (applyLinks base links, (links.getLast?.map (·.span.last)).getD after)

/-! ## Operators -/

/-- An operator before its operand, with the position of its first character. An exclamation mark
before an equals sign is none. -/
def prefixOperator : Rule (UnaryOp × Position) := do
  let first ← position
  let op ← firstOf
    [named do
      let _ ← symbol "!"
      guard fun text => text.head? != some '='
      return UnaryOp.not,
     named do
      let _ ← symbol "-"
      return UnaryOp.neg,
     named do
      let _ ← symbol "+"
      return UnaryOp.pos]
  return (op, first)

/-- A chain with the operators before it, of which the last applies first. -/
def unary : Rule Expr := do
  let operators ← many prefixOperator
  let (operand, last) ← chain expression
  return operators.foldr (fun (op, first) e => .unary op e ⟨first, last⟩) operand

/-- What an operator between two operands makes of them. -/
inductive Operator where
  | binary (op : BinaryOp)
  | logical (op : LogicalOp)
  deriving DecidableEq, Inhabited

/-- The operation of two operands; its span covers both. -/
def Operator.apply (op : Operator) (left right : Expr) : Expr :=
  let span := left.span.merge right.span
  match op with
  | .binary op => .binary op left right span
  | .logical op => .logical op left right span

/-- The binary levels of precedence, the loosest first, each with its operators in the order in
which they are tried. -/
def levels : List (List (String × Operator)) :=
  [[("??", .logical .nullish)],
   [("||", .logical .or)],
   [("&&", .logical .and)],
   [("===", .binary .strictEq), ("!==", .binary .strictNe), ("==", .binary .eq),
    ("!=", .binary .ne)],
   [("<=", .binary .lte), (">=", .binary .gte), ("<", .binary .lt), (">", .binary .gt)],
   [("+", .binary .add), ("-", .binary .sub)],
   [("*", .binary .mul), ("/", .binary .div), ("%", .binary .mod)]]

/-- An operator of a level. -/
def operator (operators : List (String × Operator)) : Rule Operator :=
  firstOf (operators.map fun (text, op) => named do
    let _ ← symbol text
    return op)

/-- The operands of a level with its operators between them, grouped from the left; the operands
are of the levels that bind tighter. -/
def operation : List (List (String × Operator)) → Rule Expr
  | [] => unary expression
  | operators :: tighter => do
    let first ← operation tighter
    let rest ← many do
      let op ← operator operators
      let right ← operation tighter
      return (op, right)
    return rest.foldl (fun left (op, right) => op.apply left right) first

/-- The question mark of a ternary. It does not belong to a longer symbol: another question mark,
or a point that starts no number. -/
def questionMark : Rule Unit := do
  let _ ← symbol "?"
  guard fun text =>
    match text with
    | '?' :: _ => false
    | '.' :: rest => ((rest.dropWhile isBlank).head?.map Char.isDigit).getD false
    | _ => true

/-- The two branches of a ternary. -/
def branches : Rule (Expr × Expr) := do
  questionMark
  let consequent ← expression
  let _ ← symbol ":"
  let alternate ← expression
  return (consequent, alternate)

/-- An operation, or a choice between two expressions on it. -/
def ternary : Rule Expr := do
  let first ← position
  let condition ← operation expression levels
  match ← optional (branches expression) with
  | none => return condition
  | some (consequent, alternate) =>
    let last ← position
    return .ternary condition consequent alternate ⟨first, last⟩

end

/-- An expression in which expressions are nested less than `depth` deep. -/
def expressionUpTo : Nat → Rule Expr
  | 0 => never
  | depth + 1 => ternary (expressionUpTo depth)

/-- The end of the text. -/
def endOfText : Rule Unit :=
  named (guard List.isEmpty)

/-- A whole text that is one expression. Every nested expression starts later in the text than the
one around it, so the length of the text bounds the nesting. -/
def program : Rule Expr := fun c =>
  (do
    let e ← expressionUpTo (c.rest.length + 1)
    endOfText
    return e : Rule Expr) c.skipBlanks

/-- A text is no expression: the furthest place that was reached, where something else was
expected. -/
structure SyntaxError where
  pos : Position
  deriving DecidableEq, Inhabited

/-- What is marked for a text that is no expression: the character at the furthest place, by its
line and column. Where it is in the text is left open. -/
def SyntaxError.span (e : SyntaxError) : Span where
  first := { e.pos with offset := 0 }
  last := { e.pos with offset := 0, column := e.pos.column + 1 }

/-- Reads a text as one expression. -/
def parse (text : List Char) : Except SyntaxError Expr :=
  let reply := program (.start text)
  match reply.found with
  | some (e, _) => .ok e
  | none => .error ⟨reply.reach⟩

end Syntax

/-- Reads an expression from its source text. -/
def Expr.parse (source : String) : Except Syntax.SyntaxError Expr :=
  Syntax.parse source.toList

end TemplateFlow
