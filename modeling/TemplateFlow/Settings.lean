import TemplateFlow.Flow.Step
import TemplateFlow.Number.Decimal
import TemplateFlow.Text.Case
import TemplateFlow.Toml

/-!
# Settings

The settings of a runner and of the catalog of its APIs come in layers: what is built in, a
configuration file, variables of the environment, and what is asked for explicitly. A later layer
goes over an earlier one: tables are merged, anything else is replaced. The names of settings do
not depend on case.
-/

namespace TemplateFlow

/-- The settings that runs are made with. -/
structure Settings where
  /-- The name for the results of steps that have none. -/
  defaultOutput : String := "temp"
  baseUrl : Option String := none
  defaultParams : Option (Dictionary Json) := none
  deriving Inhabited

/-- Why there are no settings. -/
inductive SettingsError where
  /-- A configuration file is asked for that there is not. -/
  | notFound (path : String)
  /-- A layer cannot be read, or a setting is of the wrong type. -/
  | load
  /-- The name for results is blank. -/
  | blankOutput
  deriving DecidableEq, Inhabited

namespace SettingsError

/-- The text of the error. -/
def message : SettingsError → String
  | .notFound path => "config file not found: " ++ path
  | .load => "configuration cannot be read"
  | .blankOutput => "invalid configuration: runner.default_output_var must not be empty"

end SettingsError

namespace Settings

/-- The configuration file that is looked for when none is asked for. -/
def defaultFile : String := "actionflow.toml"

/-! ## Layers -/

/-- The members of data, none for data that is no object. -/
def membersOf : Json → Dictionary Json
  | .obj members => members
  | _ => []

mutual

/-- Puts data under a name: merged into the object there if it is an object, else in place of
whatever is there. -/
def put (base : Json) (name : String) : Json → Json
  | .obj incoming =>
    let here := (Dictionary.get? (membersOf base) (Text.lowerCase name)).getD (.obj [])
    .obj (Dictionary.insert (membersOf base) (Text.lowerCase name) (putAll here incoming))
  | value => .obj (Dictionary.insert (membersOf base) (Text.lowerCase name) value)

/-- Puts every member under its name. -/
def putAll (base : Json) : List (String × Json) → Json
  | [] => base
  | (name, value) :: rest => putAll (put base name value) rest

end

/-- A step on the path to a setting. -/
inductive PathStep where
  /-- The member of this name. -/
  | name (name : String)
  /-- The item at this index, counted from the end if it is below zero. -/
  | index (index : Int)
  deriving DecidableEq

/-- The items of data, none for data that is no array. -/
def itemsOf : Json → List Json
  | .arr items => items
  | _ => []

/-- The position of an index among the given number of items; one that lies before the first item
stands for the first. -/
def positionOf (index : Int) (count : Nat) : Nat :=
  if index < 0 then (count + index).toNat else index.toNat

/-- Puts data at the end of a path. Data on the way that is not what a step needs gives way to an
empty object or array, and an array that is too short is filled up with nulls. -/
def putAt (base : Json) (value : Json) : List PathStep → Json
  | [] => value
  | [.name name] => put base name value
  | .name name :: path =>
    let here := (Dictionary.get? (membersOf base) (Text.lowerCase name)).getD .null
    .obj (Dictionary.insert (membersOf base) (Text.lowerCase name) (putAt here value path))
  | .index index :: path =>
    let items := itemsOf base
    let position := positionOf index items.length
    let filled := items ++ List.replicate (position + 1 - items.length) .null
    .arr (filled.modify position fun here => putAt here value path)

/-- Whether a text is a name that can stand in a path. -/
def isPathName (name : String) : Bool :=
  !name.isEmpty && name.all fun c => c.isAlphanum || c == '_' || c == '-' || c == ' '

/-- An index with the bracket that closes it. Blanks may stand on both sides of the number, which
fits 64 bits. -/
def indexStep? (text : List Char) : Option PathStep := do
  let (inner, rest) := (Toml.skipSpace text).span fun c => c.isDigit || c == '-'
  if Toml.skipSpace rest ≠ [']'] then none
  let (negative, digits) := match inner with
    | '-' :: digits => (true, digits)
    | digits => (false, digits)
  if digits.isEmpty || !digits.all Char.isDigit then none
  let n := Number.signed negative (Number.ofDigits digits)
  if -(Int.pow 2 63) ≤ n ∧ n < Int.pow 2 63 then some (.index n) else none

/-- The steps of a part of a key: a name, and indices in brackets. -/
def stepsOfPart? (part : String) : Option (List PathStep) :=
  match part.splitOn "[" with
  | name :: indices =>
    if isPathName name then (indices.mapM (indexStep? ·.toList)).map (.name name :: ·) else none
  | [] => none

/-- The path that a key stands for, if it is one: parts with points between. -/
def pathOfKey? (key : String) : Option (List PathStep) :=
  ((key.splitOn ".").mapM stepsOfPart?).map List.flatten

/-- Puts data under a key, which is a path or else a name. -/
def putKey (base : Json) (key : String) (value : Json) : Json :=
  match pathOfKey? key with
  | some path => putAt base value path
  | none => put base key value

/-- The variables of the environment that are settings begin with this, in any case. -/
def variableMark : String := "actionflow__"

/-- The key that a variable sets: its name after the mark, with points for double underscores. -/
def variableKey? (name : String) : Option String :=
  let lower := Text.lowerCase name
  if lower.startsWith variableMark then
    some (Text.join "." ((lower.drop variableMark.length).toString.splitOn "__"))
  else none

/-- Where settings come from. -/
structure Sources where
  /-- The text of the configuration file, if there is one. It may have a byte order mark of its own
  in front of what is read. -/
  file : Option String := none
  /-- The variables of the environment. -/
  environment : List (String × String) := []
  /-- The name for results that is asked for explicitly. -/
  defaultOutput : Option String := none

/-- The path to the name for results. -/
def defaultOutputPath : List PathStep := [.name "runner", .name "default_output_var"]

/-- The layers of the sources put over each other. -/
def layered (s : Sources) : Option Json := do
  let builtin := putAt (.obj []) (.str "temp") defaultOutputPath
  let file ← match s.file with
    | some text => Toml.parse? (String.ofList (Text.withoutMark text.toList))
    | none => some []
  let withFile := file.foldl (fun base (key, value) => putKey base key value) builtin
  let withVariables := s.environment.foldl
    (fun base (name, text) =>
      match variableKey? name with
      | some key => putKey base key (.str text)
      | none => base)
    withFile
  return match s.defaultOutput with
    | some name => putAt withVariables (.str name) defaultOutputPath
    | none => withVariables

/-! ## Reading -/

/-- The text of a floating-point number given for a text. -/
def floatText : Number → String
  | .infinity false => "inf"
  | .infinity true => "-inf"
  | x => x.toSignedText

/-- A setting that is a text; any other scalar is written out. -/
def textOf? : Json → Option String
  | .str s => some s
  | .bool b => some (if b then "true" else "false")
  | .num (.int n) => some (toString n)
  | .num (.float x) => some (floatText x)
  | _ => none

mutual

/-- Data without numbers that are not finite, which become null. -/
def finite : Json → Json
  | .num (.float x) => .float x
  | .arr items => .arr (finiteItems items)
  | .obj members => .obj (finiteMembers members)
  | data => data

/-- The items of an array without numbers that are not finite. -/
def finiteItems : List Json → List Json
  | [] => []
  | item :: rest => finite item :: finiteItems rest

/-- The members of an object without numbers that are not finite. -/
def finiteMembers : List (String × Json) → List (String × Json)
  | [] => []
  | (name, value) :: rest => (name, finite value) :: finiteMembers rest

end

/-- The fields of a table by name, which may also be given as an array in the order of the names. -/
def fieldOf? (names : List String) (table : Json) (name : String) : Option (Option Json) :=
  match table with
  | .obj members => some (Dictionary.get? members name)
  | .arr items => some items[names.idxOf name]?
  | _ => none

/-- A field that may be left out. -/
def optionalField? {α : Type} (read : Json → Option α) : Option Json → Option (Option α)
  | some value => (read value).map some
  | none => some none

/-- What may be absent: null stands for nothing. -/
def nullable? {α : Type} (read : Json → Option α) : Json → Option (Option α)
  | .null => some none
  | value => (read value).map some

/-- A table of parameters. -/
def paramsOf? : Json → Option (Dictionary Json)
  | .obj members => some (finiteMembers members)
  | _ => none

/-- The names of the settings of the catalog. -/
def apiNames : List String := ["base_url", "default_params"]

/-- Reads settings. -/
def ofJson? (data : Json) : Option Settings := do
  let runner := (data.get? "runner").getD (.obj [])
  let api := (data.get? "api").getD (.obj [])
  let output ← fieldOf? ["default_output_var"] runner "default_output_var"
  let baseUrl ← fieldOf? apiNames api "base_url"
  let defaultParams ← fieldOf? apiNames api "default_params"
  return {
    defaultOutput := (← optionalField? textOf? output).getD "temp"
    baseUrl := (← optionalField? (nullable? textOf?) baseUrl).join
    defaultParams := (← optionalField? (nullable? paramsOf?) defaultParams).join }

/-- The settings of the given sources. -/
def load (s : Sources) : Except SettingsError Settings :=
  match (layered s).bind ofJson? with
  | none => .error .load
  | some settings =>
    if (Text.trim settings.defaultOutput).isEmpty then .error .blankOutput else .ok settings

/-- What the settings give to the catalog of APIs, if anything. -/
def apiConfig? (s : Settings) : Option ApiConfig :=
  if s.baseUrl.isNone ∧ s.defaultParams.isNone then none
  else some { baseUrl := s.baseUrl, defaultParams := s.defaultParams }

end Settings

end TemplateFlow
