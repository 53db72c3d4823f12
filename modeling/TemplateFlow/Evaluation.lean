import TemplateFlow.Value.Access
import TemplateFlow.Value.Operators

/-!
# Evaluation

An expression is evaluated against bindings; there are no other names. Functions belong to a host
(`Host`), which answers every call. An evaluation yields a value or the first error, together with
the calls it made, in order (`Eval`): calls made before an error stay made.

An evaluation takes place somewhere (`Site`), and each part of the expression in a place of its own.
The host is told the place of a call, since functions that it returns may be made there.

The links of a chain are evaluated from its base outwards (`Expr.evalChain`). An optional link on
`null` or `undefined` ends the whole chain, whose value is then `undefined`, and nothing further
along the chain is evaluated. Arguments, indexes and operands are chains of their own.
-/

namespace TemplateFlow

/-! ## Hosts -/

/-- What the host answers. Functions and APIs go by their descriptions, which mean to the host
whatever it likes; calls are made in places. -/
structure Host where
  /-- The value that a function returns, or its failure. -/
  call : Json → Site → List Value → Except EvalError Value
  /-- The value that the promise of an API resolves to, or the message it is rejected with. -/
  start : Json → Site → List Value → Except String Value
  /-- How many turns the task of an API takes, beyond the first. -/
  turns : Json → Nat
  /-- The handle of a component. -/
  component : String → Option Value
  /-- The current value of a component. -/
  value : String → Value

namespace Host

/-- The host that knows no function and no component. -/
def none : Host where
  call _ _ args := .ok (.list args)
  start _ _ args := .ok (.list args)
  turns _ := 0
  component _ := .none
  value _ := .undefined

end Host

/-- A call that reaches the host. -/
inductive Invocation where
  | function (name : String) (args : List Value)
  /-- Starts a task in a place. -/
  | api (task : Site) (turns : Nat) (key : String) (args : List Value)
  | component (id : String)
  | value (id : String)
  deriving Inhabited

/-! ## Evaluations -/

/-- The outcome of an evaluation: the calls it made, and its result. -/
structure Eval (α : Type) where
  calls : List Invocation
  result : Except EvalError α

namespace Eval

variable {α β : Type}

/-- The evaluation that makes no call. -/
protected def pure (a : α) : Eval α := ⟨[], .ok a⟩

/-- One evaluation after another; an error ends both. -/
protected def bind (e : Eval α) (f : α → Eval β) : Eval β :=
  match e.result with
  | .error err => ⟨e.calls, .error err⟩
  | .ok a =>
    let next := f a
    ⟨e.calls ++ next.calls, next.result⟩

instance : Monad Eval where
  pure := Eval.pure
  bind := Eval.bind

/-- The evaluation that fails. -/
def fail (err : EvalError) : Eval α := ⟨[], .error err⟩

/-- A result that needs no call. -/
def ofExcept (result : Except EvalError α) : Eval α := ⟨[], result⟩

end Eval

/-! ## Calls -/

namespace Callable

/-- The component that the arguments of a resolver name: the text of the first one. -/
def componentId (resolver : String) (args : List Value) : Except EvalError String :=
  match args with
  | id :: _ => .ok id.toText
  | [] => .error (.raised resolver "expected a component id")

/-- The promise of the task that was started in a place. -/
def promise (task : Site) : Except String Value → Value
  | .ok v => .resolved (some task) v
  | .error message => .rejected (some task) message

/-- Calls a function in a place, with all of its arguments. -/
def invoke (host : Host) (site : Site) (callable : Callable) (args : List Value) : Eval Value :=
  match callable with
  | .host _ name description => ⟨[.function name args], host.call description site args⟩
  | .component _ =>
    match componentId componentName args with
    | .ok id => ⟨[.component id], .ok ((host.component id).getD .undefined)⟩
    | .error err => .fail err
  | .value _ =>
    match componentId valueName args with
    | .ok id => ⟨[.value id], .ok (host.value id)⟩
    | .error err => .fail err
  | .api _ key description =>
    ⟨[.api site (host.turns description) key args],
      .ok (promise site (host.start description site args))⟩

end Callable

namespace Value

/-- Calls a value, which is an error unless it is a function; `callee` names it in the error. -/
def call (host : Host) (site : Site) (target : Value) (callee : String) (args : List Value) :
    Eval Value :=
  match target with
  | .func callable trailing => callable.invoke host site (args ++ trailing)
  | _ => .fail (.notCallable callee)

end Value

/-! ## Expressions -/

namespace Literal

/-- The value that a literal spells. -/
def toValue : Literal → Value
  | .undefined => .undefined
  | .null => .null
  | .bool b => .bool b
  | .num n => .num n
  | .str s => .str s

end Literal

namespace Expr

/-- How an expression is named when it is called and is no function. -/
def calleeText : Expr → String
  | .ident name _ => name
  | .member o p _ _ _ => calleeText o ++ "." ++ p
  | .index o _ _ _ => calleeText o ++ "[...]"
  | .call f _ _ _ => calleeText f ++ "(...)"
  | _ => "expression"

/-- A link on the value of the chain before it, unless the chain has ended or ends here. -/
def followLink (base : Option Value) (optional : Bool) (next : Value → Eval Value) :
    Eval (Option Value) :=
  match base with
  | none => pure none
  | some value => if optional && value.isNullish then pure none else some <$> next value

/-- The value of a chain that may have ended early. -/
def settleChain (outcome : Option Value) : Value := outcome.getD .undefined

mutual

/-- The value of an expression, or `none` if the chain it belongs to ended at an optional link. -/
def evalChain (host : Host) (env : Bindings) (site : Site) : Expr → Eval (Option Value)
  | .literal v _ => pure (some v.toValue)
  | .list es _ => (fun vs => some (.list vs)) <$> evalAll host env site 0 es
  | .object ps _ => (fun fs => some (.obj fs)) <$> evalProperties host env site 0 [] ps
  | .ident name _ =>
    match Dictionary.get? env name with
    | some v => pure (some v)
    | none => .fail (.unbound name)
  | .member o p _ q _ => do
    followLink (← evalChain host env (.operand 0 :: site) o) q fun base =>
      .ofExcept (base.property p)
  | .index o i q _ => do
    followLink (← evalChain host env (.operand 0 :: site) o) q fun base => do
      let key := settleChain (← evalChain host env (.operand 1 :: site) i)
      .ofExcept (base.index key)
  | .call f as q _ => do
    followLink (← evalChain host env (.operand 0 :: site) f) q fun target => do
      let args ← evalAll host env site 1 as
      target.call host site f.calleeText args
  | .unary op e _ => do
    let v := settleChain (← evalChain host env (.operand 0 :: site) e)
    return some (op.apply v)
  | .binary op l r _ => do
    let a := settleChain (← evalChain host env (.operand 0 :: site) l)
    let b := settleChain (← evalChain host env (.operand 1 :: site) r)
    return some (op.apply a b)
  | .logical op l r _ => do
    let a := settleChain (← evalChain host env (.operand 0 :: site) l)
    if op.decides a then return some a
    else return some (settleChain (← evalChain host env (.operand 1 :: site) r))
  | .ternary c t e _ => do
    let v := settleChain (← evalChain host env (.operand 0 :: site) c)
    if v.isTruthy then return some (settleChain (← evalChain host env (.operand 1 :: site) t))
    else return some (settleChain (← evalChain host env (.operand 2 :: site) e))

/-- The values of a list of expressions, from left to right, in places numbered from `index` on. -/
def evalAll (host : Host) (env : Bindings) (site : Site) (index : Nat) :
    List Expr → Eval (List Value)
  | [] => pure []
  | e :: es => do
    let v := settleChain (← evalChain host env (.operand index :: site) e)
    let vs ← evalAll host env site (index + 1) es
    return v :: vs

/-- The fields of an object, from left to right, put over those that came before. -/
def evalProperties (host : Host) (env : Bindings) (site : Site) (index : Nat)
    (fields : Bindings) : List (String × Span × Expr) → Eval Bindings
  | [] => pure fields
  | (k, _, e) :: ps => do
    let v := settleChain (← evalChain host env (.operand index :: site) e)
    evalProperties host env site (index + 1) (Dictionary.insert fields k v) ps

end

/-- The value of an expression that is evaluated in a place. -/
def eval (host : Host) (env : Bindings) (site : Site) (e : Expr) : Eval Value :=
  settleChain <$> evalChain host env site e

end Expr

end TemplateFlow
