import TemplateFlow.Event
import TemplateFlow.Flow.Step
import TemplateFlow.Value.Data

/-!
# The catalog of APIs

APIs are registered under keys, and templates see them as the methods of one object
(`Catalog.binding`). Once the catalog is initialized, every method that is made from it appends the
default parameters to its arguments, or `undefined` as long as none were ever given. The settings
are further members of the object, and hide an API of the same key.

A method carries what it appends, so what is done to the catalog later does not change it.
-/

namespace TemplateFlow

/-- An API as it is registered. -/
structure ApiEntry where
  key : String
  name : String
  description : String
  /-- The description by which the host knows what the API does. -/
  implementation : Json
  deriving Inhabited

/-- The registered APIs by key, and the settings given so far. -/
structure Catalog where
  entries : Dictionary ApiEntry := []
  baseUrl : Option String := none
  defaultParams : Option Value := none
  initialized : Bool := false
  deriving Inhabited

namespace Catalog

/-- The name the object of methods is bound to. -/
def bindingName : String := "$api"

/-- The member with the base URL. -/
def baseUrlKey : String := "_baseURL"

/-- The member with the default parameters. -/
def defaultParamsKey : String := "_defaultParams"

/-- The catalog after an API is registered. -/
def register (c : Catalog) (entry : ApiEntry) : Catalog :=
  { c with entries := Dictionary.insert c.entries entry.key entry }

/-- What registering an API reports. -/
def registerEvents (c : Catalog) (entry : ApiEntry) : List Event :=
  if Dictionary.contains c.entries entry.key then [.apiReplaced entry.key] else []

/-- The catalog after settings are given. -/
def configure (c : Catalog) (config : ApiConfig) : Catalog :=
  { c with
    baseUrl := config.baseUrl <|> c.baseUrl
    defaultParams := (config.defaultParams.map fun ps => Value.ofJson (.obj ps)) <|> c.defaultParams
    initialized := true }

/-- What a catalog reports when settings were given. -/
def initializedEvent (c : Catalog) : Event :=
  .catalogInitialized c.baseUrl c.defaultParams.isSome

/-- What methods append to their arguments. -/
def trailing (c : Catalog) : List Value :=
  if c.initialized then [c.defaultParams.getD .undefined] else []

/-- The method of an entry, made in a place of a run. -/
def method (c : Catalog) (site : Site) (entry : ApiEntry) : Value :=
  .func (.api site entry.key entry.implementation) c.trailing

/-- The members for settings that were given. -/
def settings (c : Catalog) : Bindings :=
  let baseUrl := match c.baseUrl with
    | some url => [(baseUrlKey, Value.str url)]
    | none => []
  let defaultParams := match c.defaultParams with
    | some params => [(defaultParamsKey, params)]
    | none => []
  baseUrl ++ defaultParams

/-- The object that templates call APIs through, made in a place of a run. -/
def binding (c : Catalog) (site : Site) : Value :=
  .obj (Dictionary.overlay (Dictionary.mapValues (c.method site) c.entries) c.settings)

/-- The registered APIs in the order of their keys. -/
def toList (c : Catalog) : List ApiEntry := c.entries.map (·.2)

end Catalog

end TemplateFlow
