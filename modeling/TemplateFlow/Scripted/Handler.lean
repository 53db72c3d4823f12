import TemplateFlow.Flow.Builtin
import TemplateFlow.Flow.Weight
import TemplateFlow.Scripted

/-!
# Scripted handlers

Handlers that are described by data (`HandlerScript`): the built-in ones under any kind, and some
that show what a handler is given. A handler that looks at the data of a step refuses a step whose
kind is built in, since such a step has none.
-/

namespace TemplateFlow

namespace Scripted

/-- What a handler does. -/
inductive HandlerScript where
  | condition
  | call
  | callApi
  | initApi
  /-- Yields the value of a description, which is read for every step. -/
  | const (value : Json)
  /-- Fails. -/
  | fail (message : String)
  /-- Yields the data of the step. -/
  | showPayload
  /-- Yields the names of the outputs. -/
  | showOutputs
  /-- Yields the object that templates call APIs through. -/
  | showApi
  /-- Renders the member `template` of the data, with the values in `extra` bound. -/
  | renderPayload
  /-- Performs the flow in the member `body` as often as `times` says. -/
  | repeatBody
  /-- Refuses every step. -/
  | refuse
  deriving Inhabited

/-- Renders the template in the data of a step, with the values described beside it bound. -/
def renderPayload (payload : Dictionary Json) (context : Context) : Job Value :=
  let text := match Dictionary.get? payload "template" with
    | some (.str s) => s
    | _ => ""
  let locals :=
    readBindings (.item 0 :: context.outputs.site) ((Dictionary.get? payload "extra").getD .null)
  Job.ofRendering (context.render text locals)

/-- How often the data of a step asks for its flow. -/
def timesOf (payload : Dictionary Json) : Nat :=
  match Dictionary.get? payload "times" with
  | some (.num (.int n)) => n.toNat
  | _ => 0

/-- Performs a flow several times, each in the same context but for the number of the run. -/
def performTimes {weight : Nat} (perform : Performer weight) (flow : List Step)
    (h : flowWeight flow < weight) (context : Context) (number : Nat) : Nat → Job (List Value)
  | 0 => return []
  | n + 1 => do
    let first ← perform flow h (context.enter number)
    let rest ← performTimes perform flow h context (number + 1) n
    return first.result :: rest

/-- A flow in the data of a step weighs less than the step. -/
theorem flowWeight_lt_of_body {payload : Dictionary Json} {kind : String} {flow : List Step}
    (h : flowOfJson ((Dictionary.get? payload "body").getD .null) = .ok flow) :
    flowWeight flow < (Action.custom kind payload).weight := by
  have hlt := flowWeight_lt_size h
  cases hb : Dictionary.get? payload "body" with
  | none =>
    rw [hb] at h
    simp [flowOfJson] at h
  | some body =>
    have := Json.size_lt_of_get? hb
    simp only [hb, Option.getD_some] at hlt
    simp only [Action.weight]
    simp only [Json.size] at this
    omega

/-- Performs the flow in the data of a step. -/
def performBody {weight : Nat} (kind : String) (payload : Dictionary Json) (context : Context)
    (perform : Performer weight) (hw : (Action.custom kind payload).weight ≤ weight) : Job Value :=
  match h : flowOfJson ((Dictionary.get? payload "body").getD .null) with
  | .ok flow =>
    Value.list <$>
      performTimes perform flow (Nat.lt_of_lt_of_le (flowWeight_lt_of_body h) hw) context 0
        (timesOf payload)
  | .error e => .fail (.handler kind e.message)

namespace HandlerScript

/-- The handler that a script describes. -/
def handler : HandlerScript → Handler
  | .condition => Builtin.condition
  | .call => Builtin.call
  | .callApi => Builtin.callApi
  | .initApi => Builtin.initApi
  | .const value => fun _ context _ => return read context.outputs.site value
  | .fail message => fun step _ _ => .fail (.handler step.kind message)
  | .showPayload => fun step _ _ =>
    match step.payload? with
    | some payload => return .ofJson (.obj payload)
    | none => Builtin.refuse step
  | .showOutputs => fun _ context _ =>
    return .list ((Dictionary.keys context.outputs.values).map .str)
  | .showApi => fun _ context _ => do
    return (← Job.catalog).binding context.outputs.site
  | .renderPayload => fun step context _ =>
    match step.payload? with
    | some payload => Scripted.renderPayload payload context
    | none => Builtin.refuse step
  | .repeatBody => fun step context perform =>
    match step, perform with
    | ⟨.custom kind payload, _⟩, perform =>
      performBody kind payload context perform (by simp [Step.weight])
    | step, _ => Builtin.refuse step
  | .refuse => fun step _ _ => Builtin.refuse step

end HandlerScript

end Scripted

end TemplateFlow
