import TemplateFlow.Flow.Step
import TemplateFlow.Json.Decode

/-!
# Steps as JSON data

A step is an object. Its member `action` is the kind, `outputVar` the name of the result, and the
other members belong to the action: they are its fields if the kind is built in, and otherwise they
are kept as they are.

`Step.toJson` writes a step and `Step.ofJson` reads one. Steps that have been read weigh no more
than their data (`flowWeight_lt_size`), so flows that are found in the data of a step can be
performed inside it.
-/

namespace TemplateFlow

/-- A member with an optional value, left out when there is none. -/
def optionalMember {α : Type} (name : String) (write : α → Json) :
    Option α → List (String × Json)
  | some value => [(name, write value)]
  | none => []

/-! ## Settings -/

namespace ApiConfig

/-- The settings as members of an object. -/
def members (c : ApiConfig) : List (String × Json) :=
  optionalMember "baseURL" Json.str c.baseUrl ++
    optionalMember "defaultParams" Json.obj c.defaultParams

/-- Writes settings. -/
def toJson (c : ApiConfig) : Json := .ofMembers c.members

/-- Reads settings. -/
def ofJson (data : Json) : Decoded ApiConfig := do
  let fields := (← Fields.of ["baseURL", "defaultParams"] "struct ApiConfig" data).alone
  let baseUrl? := fields.read? "baseURL" fun value _ => value.toOption Json.toText
  let defaultParams? := fields.read? "defaultParams" fun value _ => value.toOption Json.toMembers
  fields.check
    [("baseURL", Fields.failure? baseUrl?), ("defaultParams", Fields.failure? defaultParams?)]
  fields.finish ⟨← Fields.orElse none baseUrl?, ← Fields.orElse none defaultParams?⟩

end ApiConfig

/-! ## Declarations -/

/-- The names of the fields of a declared field. -/
def DeclaredField.names : List String := ["compId", "name", "value"]

/-- Writes a declared field. -/
def DeclaredField.toJson (f : DeclaredField) : Json :=
  .ofMembers
    (optionalMember "compId" Json.str f.component ++
      [("name", .str f.name), ("value", .str f.value)])

/-- Reads a declared field. -/
def DeclaredField.ofJson (data : Json) : Decoded DeclaredField := do
  let fields ← Fields.of names "struct DeclareField" data
  let component ← Fields.orElse none
    (fields.read? "compId" fun value _ => value.toOption Json.toText)
  let name ← fields.require "name" (fields.read? "name" fun value _ => value.toText)
  let value ← fields.require "value" (fields.read? "value" fun v _ => v.toText)
  fields.finish ⟨component, name, value⟩

namespace Declaration

/-- The declaration as members of an object. -/
def members : Declaration → List (String × Json)
  | .fields fs => [("fields", .arr (fs.map DeclaredField.toJson))]
  | .value component text =>
    optionalMember "compId" Json.str component ++ [("value", .str text)]

/-- Reads the declaration of several fields. -/
def fieldsOf? (data : Dictionary Json) : Option Declaration := do
  let found ← Dictionary.get? data "fields"
  match found.toList DeclaredField.ofJson with
  | .ok fs => some (.fields fs)
  | .error _ => none

/-- Reads the declaration of one value. -/
def valueOf? (data : Dictionary Json) : Option Declaration := do
  let found ← Dictionary.get? data "value"
  match found.toText, ((Dictionary.get? data "compId").getD .null).toOption Json.toText with
  | .ok text, .ok component => some (.value component text)
  | _, _ => none

/-- Reads a declaration: of several fields if it can be read so, else of one value. -/
def ofMembers (data : Dictionary Json) : Decoded Declaration :=
  match fieldsOf? data, valueOf? data with
  | some d, _ | none, some d => .ok d
  | none, none => .error (.noVariant "DeclareStep")

end Declaration

/-! ## Writing -/

mutual

/-- The fields of an action as members of an object. -/
def Action.members : Action → List (String × Json)
  | .condition condition onTrue onFalse =>
    ("condition", .str condition) :: branchMember "then" onTrue ++ branchMember "els" onFalse
  | .call component method args =>
    [("compId", .str component), ("methodName", .str method), ("args", .arr (args.map .str))]
  | .callApi method args => [("methodName", .str method), ("args", .arr (args.map .str))]
  | .declare declaration => declaration.members
  | .initApi config => config.members
  | .custom _ payload => payload

/-- The data form of a step. -/
def Step.toJson : Step → Json
  | ⟨action, outputVar⟩ =>
    .ofMembers
      (Action.members action ++ ("action", .str action.kind) ::
        optionalMember "outputVar" Json.str outputVar)

/-- The data forms of the steps of a flow. -/
def flowItems : List Step → List Json
  | [] => []
  | s :: rest => s.toJson :: flowItems rest

/-- The member of a branch. -/
def branchMember (name : String) : Option (List Step) → List (String × Json)
  | none => []
  | some flow => [(name, .arr (flowItems flow))]

end

/-! ## Reading -/

/-- The kind of the step with the given members. -/
def kindOfMembers (members : Dictionary Json) : Decoded String :=
  match Dictionary.get? members "action" with
  | some (.str kind) => .ok kind
  | some found => .error (.fieldNotText "action" found)
  | none => .error (.missingField "action")

/-- The name of the result of the step with the given members. -/
def outputVarOfMembers (members : Dictionary Json) : Decoded (Option String) :=
  match Dictionary.get? members "outputVar" with
  | none | some .null => .ok none
  | some (.str name) => .ok (some name)
  | some found => .error (.fieldNotText "outputVar" found)

/-- Reads the action of a call of a component. -/
def Action.callOfMembers (members : Dictionary Json) : Decoded Action := do
  let fields := Fields.ofMembers ["compId", "methodName", "args"] members
  let component? := fields.read? "compId" fun value _ => value.toText
  let method? := fields.read? "methodName" fun value _ => value.toText
  let args? := fields.read? "args" fun value _ => value.toList Json.toText
  fields.check
    [("compId", Fields.failure? component?), ("methodName", Fields.failure? method?),
     ("args", Fields.failure? args?)]
  return .call (← fields.require "compId" component?) (← fields.require "methodName" method?)
    (← Fields.orElse [] args?)

/-- Reads the action of a call of an API. -/
def Action.callApiOfMembers (members : Dictionary Json) : Decoded Action := do
  let fields := Fields.ofMembers ["methodName", "args"] members
  let method? := fields.read? "methodName" fun value _ => value.toText
  let args? := fields.read? "args" fun value _ => value.toList Json.toText
  fields.check [("methodName", Fields.failure? method?), ("args", Fields.failure? args?)]
  return .callApi (← fields.require "methodName" method?) (← Fields.orElse [] args?)

/-- Reads the action of a condition, whose flows are read by `decode`. -/
def Action.conditionOfMembers (members : Dictionary Json)
    (decode : (value : Json) → value.size < (Json.obj members).size →
      Decoded (Option (List Step))) : Decoded Action := do
  let fields := Fields.ofMembers ["condition", "then", "els"] members
  let condition? := fields.read? "condition" fun value _ => value.toText
  let onTrue? := fields.read? "then" decode
  let onFalse? := fields.read? "els" decode
  fields.check
    [("condition", Fields.failure? condition?), ("then", Fields.failure? onTrue?),
     ("els", Fields.failure? onFalse?)]
  return .condition (← fields.require "condition" condition?) (← Fields.orElse none onTrue?)
    (← Fields.orElse none onFalse?)

/-- Reads the action of a kind from the members of its step. -/
def Action.ofMembers (kind : String) (members : Dictionary Json)
    (decode : (value : Json) → value.size < (Json.obj members).size →
      Decoded (Option (List Step))) : Decoded Action :=
  if kind = conditionKind then conditionOfMembers members decode
  else if kind = callKind then callOfMembers members
  else if kind = callApiKind then callApiOfMembers members
  else if kind = declareKind then .declare <$> Declaration.ofMembers members
  else if kind = initApiKind then .initApi <$> ApiConfig.ofJson (.obj members)
  else .ok (.custom kind (Dictionary.erase (Dictionary.erase members "action") "outputVar"))

mutual

/-- Reads a step. -/
def Step.ofJson (data : Json) : Decoded Step :=
  match data with
  | .obj members => do
    let kind ← kindOfMembers members
    let outputVar ← outputVarOfMembers members
    let action ← Action.ofMembers kind members fun value _ => branchOfJson value
    return ⟨action, outputVar⟩
  | found => .error (.invalidType found "a map")
termination_by (data.size, 0)

/-- Reads a flow. -/
def flowOfJson (data : Json) : Decoded (List Step) :=
  match data with
  | .arr items => Json.mapItems items fun item _ => Step.ofJson item
  | found => .error (.invalidType found "a sequence")
termination_by (data.size, 0)

/-- Reads a branch, which there is none of when the data is null. -/
def branchOfJson (data : Json) : Decoded (Option (List Step)) :=
  match data with
  | .null => .ok none
  | found => some <$> flowOfJson found
termination_by (data.size, 1)

end

end TemplateFlow
