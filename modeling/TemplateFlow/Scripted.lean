import TemplateFlow.Evaluation
import TemplateFlow.Scripted.Notation

/-!
# Scripted hosts

A host whose functions, APIs and components are described by data: what each of them does with its
arguments is one of a few behaviours, which its description names. A value that a description holds
is read at every call, so a function that returns a function returns another one each time.
-/

namespace TemplateFlow

namespace Scripted

/-! ## Functions -/

/-- What a function does with its arguments. -/
inductive Behaviour where
  /-- Returns the list of its arguments. -/
  | args
  /-- Returns the value of a description. -/
  | const (value : Json)
  /-- Returns the argument in one place, or `undefined`. -/
  | arg (place : Nat)
  /-- Fails. -/
  | fail (message : String)
  /-- Returns a promise that resolves to the list of its arguments. -/
  | resolve
  /-- Returns a promise that is rejected. -/
  | reject (message : String)
  deriving Inhabited

namespace Behaviour

/-- What a function does according to its description. -/
def ofJson (description : Json) : Behaviour :=
  match textOf (description.get? "do") with
  | "const" => .const ((description.get? "value").getD .null)
  | "arg" => .arg (naturalOf (description.get? "index"))
  | "fail" => .fail (textOf (description.get? "message"))
  | "resolve" => .resolve
  | "reject" => .reject (textOf (description.get? "message"))
  | _ => .args

/-- The outcome of a call of a function of the given name. -/
def run (behaviour : Behaviour) (name : String) (site : Site) (args : List Value) :
    Except EvalError Value :=
  match behaviour with
  | .args => .ok (.list args)
  | .const value => .ok (read site value)
  | .arg place => .ok (args[place]?.getD .undefined)
  | .fail message => .error (.raised name message)
  | .resolve => .ok (.resolved none (.list args))
  | .reject message => .ok (.rejected none message)

end Behaviour

/-! ## APIs -/

/-- What an API does with its arguments. -/
inductive ApiBehaviour where
  /-- Resolves to the value of a description. -/
  | const (value : Json)
  /-- Is rejected. -/
  | reject (message : String)
  /-- Resolves to a promise that resolves to the value of a description. -/
  | nested (value : Json)
  /-- Resolves to the list of its arguments. -/
  | echo
  deriving Inhabited

namespace ApiBehaviour

/-- What an API does according to its description. -/
def ofJson (description : Json) : ApiBehaviour :=
  match textOf (description.get? "do") with
  | "const" => .const ((description.get? "result").getD .null)
  | "reject" => .reject (textOf (description.get? "message"))
  | "nested" => .nested ((description.get? "result").getD .null)
  | _ => .echo

/-- The outcome of a call. -/
def run (behaviour : ApiBehaviour) (site : Site) (args : List Value) : Except String Value :=
  match behaviour with
  | .const value => .ok (read site value)
  | .reject message => .error message
  | .nested value => .ok (.resolved none (read site value))
  | .echo => .ok (.list args)

end ApiBehaviour

/-! ## Hosts -/

/-- The components of a host: the handle of each, and the current value of each. -/
structure Script where
  components : Bindings := []
  values : Bindings := []
  deriving Inhabited

namespace Script

/-- The host with the given components. -/
def host (s : Script) : Host where
  call description site args :=
    (Behaviour.ofJson description).run (textOf (description.get? "name")) site args
  start description site args := (ApiBehaviour.ofJson description).run site args
  turns description := naturalOf (description.get? "yields")
  component id := Dictionary.get? s.components id
  value id := (Dictionary.get? s.values id).getD .undefined

end Script

end Scripted

end TemplateFlow
