import TemplateFlow.Template

/-!
# Contexts

What the templates of a run are rendered in: a host, the global bindings it provides, and the
outputs of the steps before. To the globals a context adds the resolvers `$` and `$val`, which ask
the host for a component; they are made anew for every evaluation.

The outputs know where in the run they stand (`Outputs.site`), and every output that is stored
moves that place on. So functions that are made at different times differ, and are told apart if
they are ever stored and compared.
-/

namespace TemplateFlow

/-- The results of the steps so far by name, and the place in the run. -/
structure Outputs where
  values : Bindings := []
  site : Site := [.step 0]

namespace Outputs

/-- The place of the next step of the same run. -/
def nextSite : Site → Site
  | .step n :: outer => .step (n + 1) :: outer
  | site => .step 0 :: site

/-- Stores the result of a step and goes on to the next place. -/
def store (o : Outputs) (name : String) (value : Value) : Outputs where
  values := Dictionary.insert o.values name value
  site := nextSite o.site

/-- The same outputs at the start of a run inside this step; `number` tells several of them
apart. -/
def enter (o : Outputs) (number : Nat) : Outputs :=
  { o with site := .step 0 :: .inner number :: o.site }

/-- The same outputs for one of several texts of this step. -/
def part (o : Outputs) (index : Nat) : Outputs :=
  { o with site := .text index :: o.site }

end Outputs

/-- What templates are rendered in. -/
structure Context where
  host : Host := Host.none
  globals : Bindings := []
  outputs : Outputs := {}

namespace Context

/-- The context without host, bindings and outputs. -/
def empty : Context := {}

/-- The bindings of the context itself: the globals under the two resolvers. -/
def base (c : Context) : Bindings :=
  let resolvers :=
    [(Callable.componentName, Value.func (.component c.outputs.site) []),
     (Callable.valueName, Value.func (.value c.outputs.site) [])]
  Dictionary.overlay c.globals resolvers

/-- The bindings that a template sees, of which `locals` come first. -/
def scope (c : Context) (locals : Bindings) : Bindings :=
  Template.scope c.base c.outputs.values locals

/-- The value of a text in the context. -/
def render (c : Context) (text : String) (locals : Bindings := []) : Rendering :=
  Template.render c.host (c.scope locals) c.outputs.site text

/-- Stores the result of a step. -/
def store (c : Context) (name : String) (value : Value) : Context :=
  { c with outputs := c.outputs.store name value }

/-- The context of a run inside the current step. -/
def enter (c : Context) (number : Nat) : Context :=
  { c with outputs := c.outputs.enter number }

/-- The context of one of several texts of the current step. -/
def part (c : Context) (index : Nat) : Context :=
  { c with outputs := c.outputs.part index }

end Context

end TemplateFlow
