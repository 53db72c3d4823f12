import TemplateFlow.Value.Text

/-!
# Access to the parts of values

A property is read by name. On a list and on a text the name `length` gives the length and a name
that is a natural gives the item or character in that place; the length of a text counts 16-bit
units, its places count characters. Only `null` and `undefined` have no properties at all.
-/

namespace TemplateFlow

/-- Why an expression has no value. -/
inductive EvalError where
  /-- A property of `null`, or of `undefined`. -/
  | nullishBase (property : String) (isNull : Bool)
  /-- A call of something that is no function. -/
  | notCallable (callee : String)
  /-- A failure that a function reports, or the use of a name that is not bound. -/
  | raised (name message : String)
  deriving DecidableEq, Inhabited

namespace EvalError

/-- The text of the error. -/
def message : EvalError → String
  | .nullishBase property isNull =>
    "cannot read property '" ++ property ++ "' of " ++ (if isNull then "null" else "undefined")
  | .notCallable callee => callee ++ " is not a function"
  | .raised name message => name ++ ": " ++ message

/-- The use of a name that is not bound. -/
def unbound (name : String) : EvalError := .raised name "is not defined"

end EvalError

namespace Value

/-- The place that a property name stands for: decimal digits, possibly after a plus sign, for a
natural that fits 64 bits. -/
def placeOf? (property : String) : Option Nat :=
  let digits := match property.toList with
    | '+' :: rest => rest
    | text => text
  if digits.isEmpty ∨ !digits.all Char.isDigit then none
  else (some (Number.ofDigits digits)).filter (· < Nat.pow 2 64)

/-- The property of a list. -/
def listProperty (items : List Value) (property : String) : Value :=
  if property = "length" then .num (Number.ofNat items.length)
  else ((placeOf? property).bind (items[·]?)).getD .undefined

/-- The property of a text. -/
def textProperty (s : String) (property : String) : Value :=
  if property = "length" then .num (Number.ofNat (Text.length16 s))
  else
    match (placeOf? property).bind (s.toList[·]?) with
    | some c => .str (String.singleton c)
    | none => .undefined

/-- Reads a property by name. -/
def property (base : Value) (name : String) : Except EvalError Value :=
  match base with
  | .undefined => .error (.nullishBase name false)
  | .null => .error (.nullishBase name true)
  | .obj fields => .ok ((Dictionary.get? fields name).getD .undefined)
  | .list items => .ok (listProperty items name)
  | .str s => .ok (textProperty s name)
  | _ => .ok .undefined

/-- Reads the property that the text of a key names. -/
def index (base key : Value) : Except EvalError Value :=
  base.property key.toText

end Value

end TemplateFlow
