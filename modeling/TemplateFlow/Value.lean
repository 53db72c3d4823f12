import TemplateFlow.Json

/-!
# Values

What expressions evaluate to. Beside data there are functions, which are opaque to the language and
compared by identity, and promises, the outcomes of asynchronous calls.

A function value is named by what it calls (`Callable`); calling it never depends on anything else
but the arguments that it appends to every call. Every function is made somewhere, when the values
of a host are described, when templates are rendered, or when a call returns it. The place
(`Site`) belongs to the function, and functions are the same only if they were made in one place.

Main definitions: `Value`, the truth value `Value.isTruthy`, and the two equalities of the language,
`Value.strictEq` here and `Value.looseEq` with the conversions to numbers.
-/

namespace TemplateFlow

/-- One leg of the way to a place. -/
inductive Leg where
  /-- To a step of a run. -/
  | step (index : Nat)
  /-- To a run inside a step. -/
  | inner (number : Nat)
  /-- To one of the texts of a step. -/
  | text (index : Nat)
  /-- To a part of an expression. -/
  | operand (index : Nat)
  /-- To a part of a description. -/
  | item (index : Nat)
  deriving DecidableEq, Inhabited

/-- A place where functions are made and tasks are started, by the way to it, the last leg first.
Each part of an expression is evaluated at most once on the way through a step, so a place is
passed at most once in a run. -/
abbrev Site := List Leg

/-- What a function value calls. -/
inductive Callable where
  /-- A function of the host, with the description by which the host knows what it does. -/
  | host (site : Site) (name : String) (description : Json)
  /-- The resolver of component handles. -/
  | component (site : Site)
  /-- The resolver of component values. -/
  | value (site : Site)
  /-- An API of the catalog under its key, with the description by which the host knows it. -/
  | api (site : Site) (key : String) (description : Json)
  deriving Inhabited

namespace Callable

/-- The name that the resolver of component handles is bound to. -/
def componentName : String := "$"

/-- The name that the resolver of component values is bound to. -/
def valueName : String := "$val"

/-- The name a function is shown and reported under. -/
def name : Callable → String
  | .host _ name _ => name
  | .component _ => componentName
  | .value _ => valueName
  | .api _ key _ => key

/-- Whether two functions are the same: of one kind and one name, made in one place. A place makes
no two of them, so what they do need not be looked at. -/
def same : Callable → Callable → Bool
  | .host s name _, .host t other _ => s == t && name == other
  | .component s, .component t => s == t
  | .value s, .value t => s == t
  | .api s key _, .api t other _ => s == t && key == other
  | _, _ => false

end Callable

/-- A value of the expression language. The fields of an object are a dictionary. -/
inductive Value where
  | undefined
  | null
  | bool (value : Bool)
  | num (value : Number)
  | str (value : String)
  | list (items : List Value)
  | obj (fields : List (String × Value))
  /-- A function, with the arguments it appends to those of every call. -/
  | func (callable : Callable) (trailing : List Value)
  /-- A promise that resolves to a value, of the task that was started in a place, or of none. -/
  | resolved (task : Option Site) (value : Value)
  /-- A promise that is rejected with a message, of a task or of none. -/
  | rejected (task : Option Site) (message : String)
  deriving Inhabited

/-- Named values: what an expression may refer to. -/
abbrev Bindings := Dictionary Value

namespace Value

/-! ## Truth -/

/-- Whether a condition holds of the value. -/
def isTruthy : Value → Bool
  | .undefined | .null => false
  | .bool b => b
  | .num n => !n.isZero && !n.isNaN
  | .str s => !s.isEmpty
  | _ => true

/-- Whether the value is `null` or `undefined`. -/
def isNullish : Value → Bool
  | .undefined | .null => true
  | _ => false

/-! ## Strict equality -/

mutual

/-- Equality of values: primitives by value, lists and objects by their parts, functions by
identity. A promise equals nothing. -/
def strictEq : Value → Value → Bool
  | .undefined, .undefined => true
  | .null, .null => true
  | .bool a, .bool b => a == b
  | .num a, .num b => a.eq b
  | .str a, .str b => a == b
  | .list as, .list bs => strictEqAll as bs
  | .obj as, .obj bs => strictEqFields as bs
  | .func a _, .func b _ => a.same b
  | _, _ => false

/-- Lists of equal length with equal items. -/
def strictEqAll : List Value → List Value → Bool
  | [], [] => true
  | a :: as, b :: bs => strictEq a b && strictEqAll as bs
  | _, _ => false

/-- Fields of the same names with equal values. -/
def strictEqFields : List (String × Value) → List (String × Value) → Bool
  | [], [] => true
  | (k, a) :: as, (l, b) :: bs => k == l && strictEq a b && strictEqFields as bs
  | _, _ => false

end

end Value

end TemplateFlow
