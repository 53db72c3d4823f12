import TemplateFlow.Number.Decimal
import TemplateFlow.Value

/-!
# Values in descriptions

Descriptions hold values as JSON data. What is no data is an object with one marked member: `$num`
for a number as text, `$undefined`, `$fn` for a function with its description, and `$promise` for
a promise with its outcome.

A value is read in a place, and its functions are made there, each in a place of its own. So
reading a description twice yields different functions unless the place is the same.
-/

namespace TemplateFlow

namespace Scripted

/-! ## Reading -/

/-- The text that a piece of data is, or the empty one. -/
def textOf : Option Json → String
  | some (.str s) => s
  | _ => ""

/-- The natural that a piece of data is, or zero. -/
def naturalOf : Option Json → Nat
  | some (.num (.int n)) => n.toNat
  | _ => 0

/-- The fields that a value has. -/
def fieldsOf : Option Value → Bindings
  | some (.obj fields) => fields
  | _ => []

/-- The promise with the outcome that the fields describe; a message is that of a rejection. -/
def promiseOf (fields : Bindings) : Value :=
  match Dictionary.get? fields "err" with
  | some (.str message) => .rejected none message
  | some _ => .rejected none ""
  | none => .resolved none ((Dictionary.get? fields "ok").getD .null)

/-- The value that an object stands for, given its members and what they are read as. -/
def interpret (site : Site) (members : List (String × Json)) (fields : Bindings) : Value :=
  let marked := Dictionary.get? members
  match marked "$num", marked "$undefined", marked "$fn", marked "$promise" with
  | some n, _, _, _ => .num ((Number.ofText? (textOf (some n))).getD .nan)
  | none, some _, _, _ => .undefined
  | none, none, some f, _ => .func (.host site (textOf (f.get? "name")) f) []
  | none, none, none, some _ => promiseOf (fieldsOf (Dictionary.get? fields "$promise"))
  | none, none, none, none => .obj fields

mutual

/-- Reads a value in a place. -/
def read (site : Site) : Json → Value
  | .null => .null
  | .bool b => .bool b
  | .num n => .num n.toNumber
  | .str s => .str s
  | .arr items => .list (readItems site 0 items)
  | .obj members => interpret site members (readMembers site 0 members)

/-- Reads a list of values, in places numbered from `index` on. -/
def readItems (site : Site) (index : Nat) : List Json → List Value
  | [] => []
  | item :: rest => read (.item index :: site) item :: readItems site (index + 1) rest

/-- Reads the fields of an object, in places numbered from `index` on. -/
def readMembers (site : Site) (index : Nat) : List (String × Json) → Bindings
  | [] => []
  | (name, value) :: rest =>
    (name, read (.item index :: site) value) :: readMembers site (index + 1) rest

end

/-- Reads named values in a place; what is no object has none. -/
def readBindings (site : Site) : Json → Bindings
  | .obj members => readMembers site 0 members
  | _ => []

/-! ## Writing -/

/-- A marked member. -/
def marked (mark : String) (content : Json) : Json := .ofMembers [(mark, content)]

/-- Writes a number. -/
def writeNumber (n : Number) : Json := marked "$num" (.str n.toSignedText)

mutual

/-- Writes a value; of a function only its name, of a promise only that it is one. -/
def write : Value → Json
  | .undefined => marked "$undefined" (.bool true)
  | .null => .null
  | .bool b => .bool b
  | .num n => writeNumber n
  | .str s => .str s
  | .list items => .arr (writeItems items)
  | .obj fields => .obj (writeFields fields)
  | .func callable _ => marked "$fn" (.str callable.name)
  | .resolved _ _ | .rejected _ _ => marked "$promise" (.bool true)

/-- Writes a list of values. -/
def writeItems : List Value → List Json
  | [] => []
  | item :: rest => write item :: writeItems rest

/-- Writes the fields of an object. -/
def writeFields : List (String × Value) → List (String × Json)
  | [] => []
  | (name, value) :: rest => (name, write value) :: writeFields rest

end

end Scripted

end TemplateFlow
