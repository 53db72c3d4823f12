import TemplateFlow.Expr

/-!
# Validation

Checks on an expression before it is evaluated. Each rule (`Rule`) inspects the whole tree and
reports its findings (`Finding`) in the order of the source text, whether or not the part concerned
would ever be evaluated:

* `Rule.undefinedIdentifier` reports every identifier that is not among the bound names. Property
  names and object keys are no identifiers, the shorthand of a property is one.
* `Rule.nonCallableCall` reports every call whose callee is a literal.

Any finding stops the evaluation of the expression.
-/

namespace TemplateFlow

namespace Expr

/-! ## Parts of expressions -/

mutual

/-- The identifiers of an expression with their spans, from left to right. -/
def identifiers : Expr → List (String × Span)
  | .literal _ _ => []
  | .list es _ => identifiersAll es
  | .object ps _ => identifiersProperties ps
  | .ident name span => [(name, span)]
  | .member o _ _ _ _ => identifiers o
  | .index o i _ _ => identifiers o ++ identifiers i
  | .call f as _ _ => identifiers f ++ identifiersAll as
  | .unary _ e _ => identifiers e
  | .binary _ l r _ => identifiers l ++ identifiers r
  | .logical _ l r _ => identifiers l ++ identifiers r
  | .ternary c t e _ => identifiers c ++ identifiers t ++ identifiers e

/-- The identifiers of a list of expressions. -/
def identifiersAll : List Expr → List (String × Span)
  | [] => []
  | e :: es => identifiers e ++ identifiersAll es

/-- The identifiers of the values of an object. -/
def identifiersProperties : List (String × Span × Expr) → List (String × Span)
  | [] => []
  | (_, _, e) :: ps => identifiers e ++ identifiersProperties ps

end

/-- Whether an expression is a literal, a list or an object. -/
def isLiteral : Expr → Bool
  | .literal _ _ | .list _ _ | .object _ _ => true
  | _ => false

mutual

/-- The spans of the calls of literals, a call before the calls inside it. -/
def literalCalls : Expr → List Span
  | .literal _ _ => []
  | .list es _ => literalCallsAll es
  | .object ps _ => literalCallsProperties ps
  | .ident _ _ => []
  | .member o _ _ _ _ => literalCalls o
  | .index o i _ _ => literalCalls o ++ literalCalls i
  | .call f as _ span =>
    (if f.isLiteral then [span] else []) ++ literalCalls f ++ literalCallsAll as
  | .unary _ e _ => literalCalls e
  | .binary _ l r _ => literalCalls l ++ literalCalls r
  | .logical _ l r _ => literalCalls l ++ literalCalls r
  | .ternary c t e _ => literalCalls c ++ literalCalls t ++ literalCalls e

/-- The calls of literals in a list of expressions. -/
def literalCallsAll : List Expr → List Span
  | [] => []
  | e :: es => literalCalls e ++ literalCallsAll es

/-- The calls of literals in the values of an object. -/
def literalCallsProperties : List (String × Span × Expr) → List Span
  | [] => []
  | (_, _, e) :: ps => literalCalls e ++ literalCallsProperties ps

end

end Expr

namespace Validation

/-! ## Rules and findings -/

/-- A check on expressions. -/
inductive Rule where
  | undefinedIdentifier
  | nonCallableCall
  deriving DecidableEq, Inhabited

namespace Rule

/-- Every rule, in the order in which they are applied. -/
def all : List Rule := [.undefinedIdentifier, .nonCallableCall]

/-- The name under which findings cite the rule. -/
def id : Rule → String
  | .undefinedIdentifier => "undefined-identifier"
  | .nonCallableCall => "non-callable-call"

/-- What the rule asks for. -/
def description : Rule → String
  | .undefinedIdentifier => "Identifiers must be bound in the evaluation scope"
  | .nonCallableCall => "Literals cannot be called"

end Rule

/-- Something a rule found, where, and the identifier concerned if it is about one. -/
structure Finding where
  rule : Rule
  span : Span
  identifier : Option String := none
  deriving DecidableEq, Inhabited

namespace Finding

/-- What is wrong. -/
def message (f : Finding) : String :=
  match f.identifier with
  | some name => "Unknown identifier '" ++ name ++ "'"
  | none => "Literal value is not callable"

/-- The finding as one line, with its column counted from one. -/
def text (f : Finding) : String :=
  "error at col " ++ toString (f.span.first.column + 1) ++ ": " ++ f.message ++
    " [" ++ f.rule.id ++ "]"

end Finding

/-- The findings of one rule, given the bound names. -/
def Rule.findings (rule : Rule) (bound : List String) (e : Expr) : List Finding :=
  match rule with
  | .undefinedIdentifier =>
    (e.identifiers.filter fun (name, _) => !bound.contains name).map fun (name, span) =>
      ⟨rule, span, some name⟩
  | .nonCallableCall => e.literalCalls.map fun span => ⟨rule, span, none⟩

/-- The findings of all rules, given the bound names. -/
def validate (bound : List String) (e : Expr) : List Finding :=
  Rule.all.flatMap fun rule => rule.findings bound e

/-- The first occurrences in a list. -/
def firstOccurrences : List String → List String
  | [] => []
  | name :: rest => name :: (firstOccurrences rest).filter (· != name)

/-- The names that findings report as not bound, each once, in the order of first appearance. -/
def unknownIdentifiers (findings : List Finding) : List String :=
  firstOccurrences
    ((findings.filter fun f => f.rule == .undefinedIdentifier).filterMap (·.identifier))

end Validation

end TemplateFlow
