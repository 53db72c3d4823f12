import TemplateFlow.Json
import TemplateFlow.Number.Decimal
import TemplateFlow.Value

/-!
# Values and JSON data

Every piece of data is a value (`Value.ofJson`). In the other direction (`Value.toJson`) what is no
data becomes `null`: `undefined`, functions, promises and numbers that are not finite. An integral
number below `2 ^ 53` becomes an integer.
-/

namespace TemplateFlow

/-- The data form of a number. -/
def Number.toJson (x : Number) : Json :=
  match x.toSmallInt? with
  | some n => .int n
  | none => .float x

namespace Value

mutual

/-- The data form of a value. -/
def toJson : Value → Json
  | .bool b => .bool b
  | .num n => n.toJson
  | .str s => .str s
  | .list items => .arr (toJsonAll items)
  | .obj fields => .obj (toJsonFields fields)
  | .undefined | .null | .func _ _ | .resolved _ _ | .rejected _ _ => .null

/-- The data forms of a list of values. -/
def toJsonAll : List Value → List Json
  | [] => []
  | item :: rest => toJson item :: toJsonAll rest

/-- The data forms of the fields of an object. -/
def toJsonFields : List (String × Value) → List (String × Json)
  | [] => []
  | (name, value) :: rest => (name, toJson value) :: toJsonFields rest

end

mutual

/-- The value of a piece of data. -/
def ofJson : Json → Value
  | .null => .null
  | .bool b => .bool b
  | .num n => .num n.toNumber
  | .str s => .str s
  | .arr items => .list (ofJsonAll items)
  | .obj members => .obj (ofJsonMembers members)

/-- The values of a list of data. -/
def ofJsonAll : List Json → List Value
  | [] => []
  | item :: rest => ofJson item :: ofJsonAll rest

/-- The values of the members of an object. -/
def ofJsonMembers : List (String × Json) → List (String × Value)
  | [] => []
  | (name, value) :: rest => (name, ofJson value) :: ofJsonMembers rest

end

end Value

end TemplateFlow
