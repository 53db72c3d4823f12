import TemplateFlow.Evaluation
import TemplateFlow.Event
import TemplateFlow.Syntax.Grammar
import TemplateFlow.Validation

/-!
# Templates

A text that begins with two opening braces and ends with two closing ones is a template: it stands
for the value of the expression between them. Every other text stands for itself.

A template always has a value (`Template.render`). Before its expression is evaluated, the
expression has to parse, to refer to bound names only, and to break no other rule, in this order;
the first that fails is reported, no function is called, and the value is the empty text. An
evaluation that fails is reported as well and yields the empty text, but the calls before the
failure have been made.

Templates are also put together from texts: `Template.argument` spells a text as an argument,
`Template.callComponent` and `Template.callApi` spell calls.
-/

namespace TemplateFlow

namespace Template

/-! ## Recognition -/

/-- The characters between the braces of a template. -/
def inner? : List Char → Option (List Char)
  | '\x7b' :: '\x7b' :: rest =>
    match rest.reverse with
    | '\x7d' :: '\x7d' :: inner => some inner.reverse
    | _ => none
  | _ => none

/-- The expression of a template; none for a text that stands for itself. -/
def expression? (text : String) : Option String :=
  (inner? text.toList).map String.ofList

/-- Whether a text is a template. -/
def isTemplate (text : String) : Bool := (expression? text).isSome

/-! ## The component a template refers to -/

/-- What follows the opening of a call of a resolver whose argument is a quoted text. -/
def afterOpening? : List Char → Option (List Char)
  | '$' :: '(' :: '\'' :: rest => some rest
  | '$' :: 'v' :: 'a' :: 'l' :: '(' :: '\'' :: rest => some rest
  | _ => none

/-- What comes before the first quotation mark that a parenthesis follows, if it is on the line. -/
def beforeClosing? : List Char → Option (List Char)
  | [] => none
  | '\'' :: ')' :: _ => some []
  | c :: rest => if c = '\n' then none else (beforeClosing? rest).map (c :: ·)

/-- The argument of the first call of a resolver that is closed on its line. -/
def firstId? : List Char → Option (List Char)
  | [] => none
  | c :: rest =>
    match (afterOpening? (c :: rest)).bind beforeClosing? with
    | some id => some id
    | none => firstId? rest

/-- The component that a text refers to first, or the empty text. -/
def componentId (text : String) : String :=
  String.ofList ((firstId? text.toList).getD [])

/-! ## Synthesis -/

/-- The form of one character in a quoted argument. -/
def escapeQuoted (c : Char) : List Char :=
  if c = '\\' ∨ c = '\'' then ['\\', c] else [c]

/-- A text spelled as a quoted literal. -/
def quoted (text : String) : String :=
  "'" ++ String.ofList (text.toList.flatMap escapeQuoted) ++ "'"

/-- A text spelled as an argument: the expression of a template, or else a literal. -/
def argument (text : String) : String :=
  (expression? text).getD (quoted text)

/-- Texts spelled as the arguments of a call. -/
def arguments (texts : List String) : String :=
  Text.join ", " (texts.map argument)

/-- The template of an expression. -/
def ofExpression (expression : String) : String :=
  "\x7b\x7b " ++ expression ++ " \x7d\x7d"

/-- The template that calls a method of a component, if there is the component. -/
def callComponent (id method : String) (args : List String) : String :=
  ofExpression ("$('" ++ id ++ "')?." ++ method ++ "(" ++ arguments args ++ ")")

/-- The template that calls an API. -/
def callApi (method : String) (args : List String) : String :=
  ofExpression ("$api." ++ method ++ "(" ++ arguments args ++ ")")

end Template

/-! ## Values -/

/-- The value of a text, with the calls it took and what was reported. -/
structure Rendering where
  value : Value
  calls : List Invocation := []
  events : List Event := []

namespace Rendering

/-- No value: the empty text, and a report of the reason. -/
def absent (reason : Event) (calls : List Invocation) : Rendering where
  value := .str ""
  calls := calls
  events := [reason]

/-- The rendering of an evaluation; `expression` names it in a report. -/
def ofEval (expression : String) (e : Eval Value) : Rendering :=
  match e.result with
  | .ok v => { value := v, calls := e.calls }
  | .error err => absent (.evaluationFailed expression err.message) e.calls

end Rendering

namespace Template

/-- The bindings that a template is rendered against: of the same name the local one hides the
output, and the output the base one. -/
def scope (base outputs locals : Bindings) : Bindings :=
  Dictionary.overlay (Dictionary.overlay base outputs) locals

/-- Why an expression must not be evaluated, if there is a finding. -/
def objection? (expression : String) (findings : List Validation.Finding) : Option Event :=
  match Validation.unknownIdentifiers findings, findings with
  | [], [] => none
  | [], f :: _ => some (.templateRejected expression f.text)
  | names, _ => some (.unknownIdentifiers expression names)

/-- The value of a text in a scope, rendered in a place. -/
def render (host : Host) (scope : Bindings) (site : Site) (text : String) : Rendering :=
  match expression? text with
  | none => { value := .str text }
  | some expression =>
    match Expr.parse expression with
    | .error _ => .absent (.templateParseFailed expression) []
    | .ok e =>
      match objection? expression (Validation.validate (Dictionary.keys scope) e) with
      | some reason => .absent reason []
      | none => .ofEval expression (e.eval host scope site)

end Template

end TemplateFlow
