import TemplateFlow.Number.Decimal
import TemplateFlow.Text.Quoted
import TemplateFlow.Value

/-!
# Values as text and as numbers

The text that a value contributes to a concatenation (`Value.toText`), the number that it
contributes to arithmetic (`Value.toNumber`), and the form in which diagnostics show it
(`Value.debug`). Loose equality, which compares some values as numbers, is defined here too.
-/

namespace TemplateFlow

namespace Value

/-! ## Text -/

mutual

/-- The text of a value. -/
def toText : Value → String
  | .undefined => "undefined"
  | .null => "null"
  | .bool true => "true"
  | .bool false => "false"
  | .num n => n.toText
  | .str s => s
  | .list items => Text.join "," (itemTexts items)
  | .obj _ => "[object Object]"
  | .func callable _ => "function " ++ callable.name ++ "() \x7b [native code] \x7d"
  | .resolved _ _ => "[object Promise]"
  | .rejected _ _ => "[object Promise]"

/-- The texts of the items of a list, in which `null` and `undefined` leave no text. -/
def itemTexts : List Value → List String
  | [] => []
  | item :: rest => (if item.isNullish then "" else toText item) :: itemTexts rest

end

/-! ## Numbers -/

/-- The number a text stands for in arithmetic: blank text for zero, text that is no number for
not-a-number. -/
def numberOfText (s : String) : Number :=
  let trimmed := Text.trim s
  if trimmed.isEmpty then Number.zero false else (Number.ofText? trimmed).getD .nan

/-- The number a value stands for in arithmetic. -/
def toNumber : Value → Number
  | .undefined => .nan
  | .null => Number.zero false
  | .bool true => Number.ofNat 1
  | .bool false => Number.zero false
  | .num n => n
  | .str s => numberOfText s
  | .list [] => Number.zero false
  | .list [item] => toNumber item
  | _ => .nan

/-! ## Loose equality -/

/-- Whether loose equality compares the two as numbers. -/
def comparedAsNumbers : Value → Value → Bool
  | .num _, .str _ => true
  | .str _, .num _ => true
  | .bool _, _ => true
  | _, .bool _ => true
  | _, _ => false

/-- Equality up to conversion: `null` and `undefined` are equal to each other and to nothing else; a
truth value is compared as a number, and so are a number and a text. -/
def looseEq (a b : Value) : Bool :=
  if a.isNullish || b.isNullish then a.isNullish && b.isNullish
  else if comparedAsNumbers a b then a.toNumber.eq b.toNumber
  else strictEq a b

/-! ## Diagnostics -/

/-- A number as diagnostics show it. -/
def debugNumber : Number → String
  | .infinity false => "inf"
  | .infinity true => "-inf"
  | n => n.toSignedText

mutual

/-- The form in which diagnostics show a value. -/
def debug : Value → String
  | .undefined => "Undefined"
  | .null => "Null"
  | .bool b => "Bool(" ++ (if b then "true" else "false") ++ ")"
  | .num n => "Num(" ++ debugNumber n ++ ")"
  | .str s => "Str(" ++ Text.debugQuote s ++ ")"
  | .list items => "List([" ++ Text.join ", " (debugItems items) ++ "])"
  | .obj fields => "Obj(\x7b" ++ Text.join ", " (debugFields fields) ++ "\x7d)"
  | .func callable _ => "Func(" ++ callable.name ++ ")"
  | .resolved _ _ => "Promise(..)"
  | .rejected _ _ => "Promise(..)"

/-- The items of a list as diagnostics show them. -/
def debugItems : List Value → List String
  | [] => []
  | item :: rest => debug item :: debugItems rest

/-- The fields of an object as diagnostics show them. -/
def debugFields : List (String × Value) → List String
  | [] => []
  | (name, value) :: rest => (Text.debugQuote name ++ ": " ++ debug value) :: debugFields rest

end

end Value

end TemplateFlow
