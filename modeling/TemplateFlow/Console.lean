import TemplateFlow.Expr.Data
import TemplateFlow.Json.Record
import TemplateFlow.Scripted
import TemplateFlow.Session
import TemplateFlow.Settings
import TemplateFlow.Flow.Data

/-!
# The command line

Four commands: `eval` renders a template, `parse` shows the tree of an expression, `run` runs a flow
and `kinds` lists the kinds of steps. A list of arguments is read into a request
(`Console.Request.ofArguments?`), and a request is answered with lines of output (`Console.answer`).
Files are read through the surroundings (`Console.Surroundings`), which say what each path holds.
-/

namespace TemplateFlow

namespace Console

/-! ## Requests -/

/-- What is asked for. Options and the names of files are as they were given. -/
inductive Command where
  /-- Renders a template with the bindings in a file. -/
  | eval (template : String) (scope : Option String)
  /-- Shows the tree of a template or of a bare expression. -/
  | parse (template : String)
  /-- Runs the flow in a file. -/
  | run (flow : String) (components outputs defaultOutput : Option String)
  /-- Lists the kinds of steps. -/
  | kinds
  deriving DecidableEq, Inhabited

/-- A command, and the configuration file for it. -/
structure Request where
  config : Option String
  command : Command
  deriving DecidableEq, Inhabited

/-- An option with a value. -/
structure OptionSpec where
  long : String
  short : Option Char := none
  /-- Whether the value is the path of a file, which is never empty. -/
  isPath : Bool := true
  deriving DecidableEq

/-- The option for the configuration file, which may stand anywhere. -/
def configOption : OptionSpec := { long := "config" }

/-- The options of `eval`. -/
def evalOptions : List OptionSpec := [{ long := "scope", short := some 's' }]

/-- The options of `run`. -/
def runOptions : List OptionSpec :=
  [{ long := "components", short := some 'c' }, { long := "output-var", short := some 'o' },
   { long := "default-output-var", isPath := false }]

/-- What an argument is, given the options. -/
inductive Argument where
  | positional
  /-- An option whose value is the next argument. -/
  | pending (spec : OptionSpec)
  /-- An option with its value. -/
  | attached (spec : OptionSpec) (value : String)
  | unknown

/-- Splits a text at its first equals sign. -/
def splitEquals (text : List Char) : List Char × Option (List Char) :=
  match text.span (· ≠ '=') with
  | (name, []) => (name, none)
  | (name, _ :: value) => (name, some value)

/-- Tells what an argument is. A long option has its value after an equals sign or in the next
argument; a short one may also have it right behind. A lone dash is no option. -/
def classify (options : List OptionSpec) (argument : String) : Argument :=
  match argument.toList with
  | '-' :: '-' :: rest =>
    let (name, value) := splitEquals rest
    match options.find? (·.long = String.ofList name), value with
    | some spec, some value => .attached spec (String.ofList value)
    | some spec, none => .pending spec
    | none, _ => .unknown
  | '-' :: letter :: rest =>
    match options.find? (·.short = some letter), rest with
    | some spec, [] => .pending spec
    | some spec, '=' :: value => .attached spec (String.ofList value)
    | some spec, value => .attached spec (String.ofList value)
    | none, _ => .unknown
  | _ => .positional

/-- Whether an argument may be the value of the option before it. -/
def isValue (argument : String) : Bool :=
  match argument.toList with
  | '-' :: _ :: _ => false
  | _ => true

/-- The values of options by their long names. -/
abbrev Values := List (String × String)

/-- Notes the value of an option, which must not have one yet. -/
def note? (spec : OptionSpec) (value : String) (values : Values) : Option Values :=
  if (values.lookup spec.long).isSome ∨ (spec.isPath ∧ value.isEmpty) then none
  else some ((spec.long, value) :: values)

/-- Reads options up to the first argument that is none, which is handed on with the rest. -/
def readLeading? (options : List OptionSpec) (values : Values) :
    List String → Option (Values × List String)
  | [] => some (values, [])
  | argument :: rest =>
    match classify options argument with
    | .positional => some (values, argument :: rest)
    | .attached spec value => do readLeading? options (← note? spec value values) rest
    | .pending spec =>
      match rest with
      | [] => none
      | value :: after =>
        if isValue value then do readLeading? options (← note? spec value values) after else none
    | .unknown => none

/-- Reads options and other arguments in any order. After two dashes there are no more options. -/
def readMixed? (options : List OptionSpec) (values : Values) (positionals : List String) :
    List String → Option (Values × List String)
  | [] => some (values, positionals)
  | "--" :: rest => some (values, positionals ++ rest)
  | argument :: rest =>
    match classify options argument with
    | .positional => readMixed? options values (positionals ++ [argument]) rest
    | .attached spec value => do readMixed? options (← note? spec value values) positionals rest
    | .pending spec =>
      match rest with
      | [] => none
      | value :: after =>
        if isValue value then do
          readMixed? options (← note? spec value values) positionals after
        else none
    | .unknown => none

/-- The command of a name, its options and the other arguments. -/
def commandOf? (name : String) (values : Values) (positionals : List String) : Option Command :=
  match name, positionals with
  | "eval", [template] => some (.eval template (values.lookup "scope"))
  | "parse", [template] => some (.parse template)
  | "run", [flow] =>
    if flow.isEmpty then none
    else
      some (.run flow (values.lookup "components") (values.lookup "output-var")
        (values.lookup "default-output-var"))
  | "kinds", [] => some .kinds
  | _, _ => none

/-- The options of a command. -/
def optionsOf (name : String) : List OptionSpec :=
  match name with
  | "eval" => evalOptions
  | "run" => runOptions
  | _ => []

/-- Reads a list of arguments. A configuration file that is named after the command goes before
one that is named in front of it. -/
def Request.ofArguments? (arguments : List String) : Option Request := do
  let (leading, rest) ← readLeading? [configOption] [] arguments
  match rest with
  | [] => none
  | name :: rest =>
    let (values, positionals) ← readMixed? (configOption :: optionsOf name) [] [] rest
    let command ← commandOf? name values positionals
    return { config := values.lookup "config" <|> leading.lookup "config", command }

/-- The files that a request may have to read. -/
def Request.paths (r : Request) : List String :=
  match r.command with
  | .eval _ scope => scope.toList
  | .run flow components outputs _ =>
    [r.config.getD Settings.defaultFile, flow] ++ components.toList ++ outputs.toList
  | .parse _ | .kinds => []

/-! ## Answers -/

/-- What a request depends on beside its arguments. -/
structure Surroundings where
  /-- The text of the file at a path, if there is one. -/
  file : String → Option String
  /-- The variables of the environment. -/
  environment : List (String × String) := []
  /-- The name that the run is given. -/
  runId : String

/-- Why a request is not answered. -/
inductive Failure where
  | unreadable (path : String)
  /-- The file does not hold what was asked for. -/
  | malformed (path : String)
  | configuration (error : SettingsError)
  | syntaxError (position : Position)
  | flow (error : FlowError)

namespace Failure

/-- The text of the failure. Positions are counted from one. -/
def message : Failure → String
  | .unreadable path => "Failed to read " ++ path
  | .malformed path => "Failed to parse " ++ path
  | .configuration _ => "Failed to load configuration"
  | .syntaxError p => "at " ++ toString (p.line + 1) ++ ":" ++ toString (p.column + 1)
  | .flow error => error.message

end Failure

/-- The answer to a request: lines of output or a failure, and what was reported on the way. -/
structure Answer where
  result : Except Failure (List String)
  events : List Event := []

/-- The lines of indented data. -/
def dataLines (data : Json) : List String := (data.pretty 0).splitOn "\n"

/-- What data is read as, if there is data that can be read so. -/
def decode? {α : Type} (decode : Json → Decoded α) (data : Option Json) : Option α :=
  match data.map decode with
  | some (.ok a) => some a
  | _ => none

/-- What a file holds, read by `read?`. -/
def readFile {α : Type} (s : Surroundings) (read? : String → Option α) (path : String) :
    Except Failure α :=
  match s.file path with
  | none => .error (.unreadable path)
  | some text =>
    match read? text with
    | some a => .ok a
    | none => .error (.malformed path)

/-- What a file holds that may not be asked for. -/
def readFile? {α : Type} (s : Surroundings) (read? : String → Option α) (default : α) :
    Option String → Except Failure α
  | some path => readFile s read? path
  | none => .ok default

/-- Reads named values. -/
def bindingsOf (data : Json) : Decoded Bindings :=
  Value.ofJsonMembers <$> data.toMembers

/-- Reads named values from text. -/
def bindingsOfText? (text : String) : Option Bindings := decode? bindingsOf (Json.parse? text)

/-- The fields of a description of components. -/
def scriptNames : List String := ["values", "components"]

/-- Reads the components and their values that a host is to know. -/
def scriptOf (data : Json) : Decoded Scripted.Script := do
  let fields := (← Fields.of scriptNames "struct ComponentsFile" data).alone
  let values? := fields.read? "values" fun value _ => bindingsOf value
  let components? := fields.read? "components" fun value _ => bindingsOf value
  fields.check
    [("values", Fields.failure? values?), ("components", Fields.failure? components?)]
  let values ← Fields.orElse [] values?
  let components ← Fields.orElse [] components?
  fields.finish { values, components }

/-- Reads the components and their values from text. -/
def scriptOfText? (text : String) : Option Scripted.Script :=
  decode? scriptOf (Json.parseRecord? scriptNames text)

/-- Reads the steps of a flow from text. -/
def flowOfText? (text : String) : Option (List Step) := decode? flowOfJson (Json.parse? text)

/-- Renders a template and shows its value. -/
def answerEval (s : Surroundings) (template : String) (scope : Option String) : Answer :=
  match readFile? s bindingsOfText? [] scope with
  | .error failure => { result := .error failure }
  | .ok bindings =>
    let context : Context := { outputs.values := bindings }
    let r := context.render template
    { result := .ok (dataLines r.value.toJson), events := r.events }

/-- Shows the tree of an expression. -/
def answerParse (template : String) : Answer :=
  match Expr.parse ((Template.expression? template).getD template) with
  | .ok e => { result := .ok (dataLines e.toJson) }
  | .error e => { result := .error (.syntaxError e.pos) }

/-- The settings for a run. -/
def settingsFor (s : Surroundings) (config defaultOutput : Option String) :
    Except SettingsError Settings :=
  let sources (file : Option String) : Settings.Sources :=
    { file, environment := s.environment, defaultOutput }
  match config with
  | none => Settings.load (sources (s.file Settings.defaultFile))
  | some path =>
    match s.file path with
    | some text => Settings.load (sources (some text))
    | none => .error (.notFound path)

/-- The API that every run knows, which answers with its arguments. -/
def echo : ApiEntry := { key := "echo", name := "echo", description := "", implementation := .null }

/-- The session for a run with the given settings, and what it reports. -/
def sessionFor (settings : Settings) (context : Context) : Session × List Event :=
  let runner : Runner := { registry := Builtin.registry, defaultOutput := settings.defaultOutput }
  let (session, registered) := ({ runner, context } : Session).register echo
  match settings.apiConfig? with
  | some config =>
    let (session, configured) := session.configure config
    (session, registered ++ configured)
  | none => (session, registered)

/-- An outcome with the name of its run. -/
def outcomeData (runId : String) (o : Outcome) : Json :=
  .ofMembers
    [("runId", .str runId), ("result", o.result.toJson),
     ("outputVar", .obj (Value.toJsonFields o.outputs.values))]

/-- Runs a flow and shows its outcome. -/
def answerRun (s : Surroundings) (config : Option String) (flow : String)
    (components outputs defaultOutput : Option String) : Answer :=
  let prepared : Except Failure (Settings × List Step × Context) := do
    let settings ← (settingsFor s config defaultOutput).mapError Failure.configuration
    let steps ← readFile s flowOfText? flow
    let script ← readFile? s scriptOfText? {} components
    let initial ← readFile? s bindingsOfText? [] outputs
    return (settings, steps, { host := script.host, outputs.values := initial })
  match prepared with
  | .error failure => { result := .error failure }
  | .ok (settings, steps, context) =>
    let (session, events) := sessionFor settings context
    let report := (session.run steps).2
    { result :=
        match report.result with
        | .ok o => .ok (dataLines (outcomeData s.runId o))
        | .error e => .error (.flow e)
      events := events ++ report.events }

/-- Answers a request. -/
def answer (s : Surroundings) (request : Request) : Answer :=
  match request.command with
  | .eval template scope => answerEval s template scope
  | .parse template => answerParse template
  | .run flow components outputs defaultOutput =>
    answerRun s request.config flow components outputs defaultOutput
  | .kinds => { result := .ok Builtin.registry.kinds }

end Console

end TemplateFlow
