import TemplateFlow.Dictionary
import TemplateFlow.Number

/-!
# JSON data

The data that flows, configuration and stored trees are written in. A number is either an integer
that fits 64 bits, signed or unsigned, or a floating-point number; the two are told apart because
they are printed and accepted differently. The members of an object are a dictionary.
-/

namespace TemplateFlow

/-- A number of JSON data. -/
inductive JsonNumber where
  | int (value : Int)
  | float (value : Number)
  deriving DecidableEq, Inhabited

namespace JsonNumber

/-- The number of the expression language nearest to it. -/
def toNumber : JsonNumber → Number
  | .int n => .ofInt n
  | .float x => x

end JsonNumber

/-- JSON data. -/
inductive Json where
  | null
  | bool (value : Bool)
  | num (value : JsonNumber)
  | str (value : String)
  | arr (items : List Json)
  | obj (members : List (String × Json))
  deriving Inhabited, BEq

namespace Json

/-- An integer as data. -/
def int (n : Int) : Json := .num (.int n)

/-- A natural as data. -/
def nat (n : Nat) : Json := .num (.int n)

/-- A floating-point number as data; there is none for the numbers that are not finite. -/
def float (x : Number) : Json :=
  if x.isFinite then .num (.float x) else .null

/-- An object of the given members, of which the last of a name is kept. -/
def ofMembers (members : List (String × Json)) : Json :=
  .obj (Dictionary.ofList members)

/-- The member of an object. -/
def get? (name : String) : Json → Option Json
  | .obj members => Dictionary.get? members name
  | _ => none

mutual

/-- The number of nodes, members counted with their names. It bounds every recursion over data. -/
def size : Json → Nat
  | .arr items => 1 + sizeItems items
  | .obj members => 1 + sizeMembers members
  | _ => 1

/-- The size of the items of an array. -/
def sizeItems : List Json → Nat
  | [] => 0
  | item :: rest => 1 + size item + sizeItems rest

/-- The size of the members of an object. -/
def sizeMembers : List (String × Json) → Nat
  | [] => 0
  | (_, value) :: rest => 1 + size value + sizeMembers rest

end

end Json

end TemplateFlow
