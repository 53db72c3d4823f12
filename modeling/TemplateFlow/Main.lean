import TemplateFlow.Console

/-!
# The program

Reads the arguments, the files they name and the environment, and writes the answer: its lines to
the standard output, reports and failures to the standard error.
-/

namespace TemplateFlow

namespace Program

/-- The variables of the environment that are looked at, those of the settings with names of their
own. A variable in another spelling, or one for a single default parameter, is a setting as well
(`Settings.variableKey?`), but can not be asked for without its name. No file of variables is
read. -/
def variableNames : List String :=
  ["ACTIONFLOW__RUNNER__DEFAULT_OUTPUT_VAR", "ACTIONFLOW__API__BASE_URL"]

/-- The text of a file, if it can be read. -/
def readText (path : String) : IO (Option String) := do
  try
    return some (← IO.FS.readFile path)
  catch _ =>
    return none

/-- The files of several paths that can be read. -/
def readTexts (paths : List String) : IO (List (String × String)) := do
  let texts ← paths.mapM fun path => return (← readText path).map fun text => (path, text)
  return texts.filterMap id

/-- The variables that are set. -/
def readVariables : IO (List (String × String)) := do
  let found ← variableNames.mapM fun name => return (← IO.getEnv name).map fun v => (name, v)
  return found.filterMap id

/-- A random name for a run: hexadecimal digits in groups, of which two digits are fixed. -/
def newRunId : IO String := do
  let group (width : Nat) : IO String := do
    return String.ofList (Text.paddedHex width (← IO.rand 0 (Nat.pow 16 width - 1)))
  let variant ← IO.rand 8 11
  return Text.join "-"
    [← group 8, ← group 4, "4" ++ (← group 3),
     String.ofList (Text.hex variant) ++ (← group 3), ← group 12]

/-- A report as one line. -/
def eventLine (e : Event) : String :=
  Text.join " " (e.level.name :: e.message :: e.fields.map fun (name, text) => name ++ "=" ++ text)

/-- Writes an answer and yields the exit code. -/
def deliver (answer : Console.Answer) : IO UInt32 := do
  for e in answer.events do
    IO.eprintln (eventLine e)
  match answer.result with
  | .ok lines =>
    for line in lines do
      IO.println line
    return 0
  | .error failure =>
    IO.eprintln ("Error: " ++ failure.message)
    return 1

end Program

end TemplateFlow

open TemplateFlow in
/-- Answers the request that the arguments make. -/
def main (arguments : List String) : IO UInt32 := do
  match Console.Request.ofArguments? arguments with
  | none =>
    IO.eprintln "usage: actionflow [--config FILE] (eval | parse | run | kinds) ..."
    return 2
  | some request =>
    let files ← Program.readTexts request.paths
    let surroundings : Console.Surroundings :=
      { file := fun path => files.lookup path
        environment := ← Program.readVariables
        runId := ← Program.newRunId }
    Program.deliver (Console.answer surroundings request)
