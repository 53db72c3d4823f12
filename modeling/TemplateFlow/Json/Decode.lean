import TemplateFlow.Json.Writer
import TemplateFlow.Text.Quoted

/-!
# Reading domain values from JSON data

A reader of domain values reports the first thing that is wrong (`DecodeError`). The fields of a
record come either as the members of an object or as the items of an array in the order of their
declaration. Members are looked at in the order of their names; a field that is missing is reported
only after every member that is present has been read, and unknown members are passed over.

A field is handed to its reader with the proof that it is smaller than the record, so that a reader
of trees recurses on the size of the data and needs no bound of its own.
-/

namespace TemplateFlow

/-- Why JSON data is no value of the domain. `expected` names what was asked for. -/
inductive DecodeError where
  | missingField (name : String)
  | invalidType (found : Json) (expected : String)
  | invalidValue (found : Json) (expected : String)
  | invalidLength (length : Nat) (expected : String)
  | unknownVariant (name : String) (known : List String)
  | noVariant (type : String)
  | fieldNotText (field : String) (found : Json)

/-- The result of reading a domain value. -/
abbrev Decoded (α : Type) := Except DecodeError α

namespace DecodeError

/-- How a piece of data is named in a message: its kind, and its value where that is short. -/
def describe : Json → String
  | .null => "null"
  | .bool b => "boolean `" ++ (if b then "true" else "false") ++ "`"
  | .num (.int n) => "integer `" ++ toString n ++ "`"
  | .num (.float x) => "floating point `" ++ x.toJsonText ++ "`"
  | .str s => "string " ++ Text.debugQuote s
  | .arr _ => "sequence"
  | .obj _ => "map"

/-- The names a message offers in place of an unknown one. -/
def describeKnown : List String → String
  | [] => "there are no variants"
  | [a] => "expected `" ++ a ++ "`"
  | [a, b] => "expected `" ++ a ++ "` or `" ++ b ++ "`"
  | names => "expected one of " ++ Text.join ", " (names.map fun n => "`" ++ n ++ "`")

/-- The text of the error. -/
def message : DecodeError → String
  | .missingField name => "missing field `" ++ name ++ "`"
  | .invalidType found expected => "invalid type: " ++ describe found ++ ", expected " ++ expected
  | .invalidValue found expected => "invalid value: " ++ describe found ++ ", expected " ++ expected
  | .invalidLength n expected => "invalid length " ++ toString n ++ ", expected " ++ expected
  | .unknownVariant name known => "unknown variant `" ++ name ++ "`, " ++ describeKnown known
  | .noVariant type => "data did not match any variant of untagged enum " ++ type
  | .fieldNotText field found =>
    "step `" ++ field ++ "` must be a string, got " ++ found.compress

end DecodeError

namespace Json

/-! ## Scalars -/

/-- A text. -/
def toText : Json → Decoded String
  | .str s => .ok s
  | found => .error (.invalidType found "a string")

/-- A truth value. -/
def toBool : Json → Decoded Bool
  | .bool b => .ok b
  | found => .error (.invalidType found "a boolean")

/-- A number; an integer is rounded to the nearest one. -/
def toNumber : Json → Decoded Number
  | .num n => .ok n.toNumber
  | found => .error (.invalidType found "f64")

/-- A natural that fits 64 bits. -/
def toNat64 : Json → Decoded Nat
  | .num (.int n) => if 0 ≤ n then .ok n.toNat else .error (.invalidValue (.num (.int n)) "usize")
  | found => .error (.invalidType found "usize")

/-- An optional value, absent when it is null. -/
def toOption {α : Type} (decode : Json → Decoded α) : Json → Decoded (Option α)
  | .null => .ok none
  | found => (decode found).map some

/-! ## Parts, with the proof that they are smaller -/

/-- A member is smaller than the object. -/
theorem size_lt_of_get? {members : List (String × Json)} {name : String} {value : Json}
    (h : Dictionary.get? members name = some value) : value.size < (Json.obj members).size := by
  simp only [size]
  induction members with
  | nil => simp at h
  | cons e rest ih =>
    obtain ⟨k, v⟩ := e
    rw [Dictionary.get?_cons] at h
    simp only [sizeMembers]
    split at h
    · cases h
      omega
    · have := ih h
      omega

/-- An item is smaller than the array. -/
theorem size_lt_of_mem {items : List Json} {item : Json} (h : item ∈ items) :
    item.size < (Json.arr items).size := by
  simp only [size]
  induction items with
  | nil => cases h
  | cons first rest ih =>
    simp only [sizeItems]
    rcases List.mem_cons.1 h with rfl | h
    · omega
    · have := ih h
      omega

/-- Reads every item in order, handing on that each is smaller than the array. -/
def mapItems {α : Type} (items : List Json)
    (decode : (item : Json) → item.size < (Json.arr items).size → Decoded α) :
    Decoded (List α) :=
  items.attach.mapM fun ⟨item, h⟩ => decode item (size_lt_of_mem h)

/-- A list of values, each read with the proof that it is smaller than the whole. -/
def toListWith {α : Type} (whole : Json)
    (decode : (item : Json) → item.size < whole.size → Decoded α) : Decoded (List α) :=
  match whole, decode with
  | .arr items, decode => mapItems items decode
  | found, _ => .error (.invalidType found "a sequence")

/-- A list of values. -/
def toList {α : Type} (decode : Json → Decoded α) : Json → Decoded (List α)
  | .arr items => items.mapM decode
  | found => .error (.invalidType found "a sequence")

/-- The members of an object. -/
def toMembers : Json → Decoded (Dictionary Json)
  | .obj members => .ok members
  | found => .error (.invalidType found "a map")

end Json

/-! ## Records -/

/-- The fields of a record by name, each smaller than `bound`, in whichever form they came. -/
structure Fields (bound : Nat) where
  /-- The field of a name. -/
  get? : String → Option { value : Json // value.size < bound }
  /-- The names in the order in which their fields are looked at. -/
  order : List String
  /-- What is wrong when a field is not there. -/
  missing : String → DecodeError
  /-- What is wrong when there is more than the declared fields. -/
  surplus : Option DecodeError

namespace Fields

variable {α : Type}

/-- A count of elements in words. -/
def elements (n : Nat) : String :=
  if n = 1 then "1 element" else toString n ++ " elements"

/-- The fields that are members of an object, looked at in the order of their names. -/
def ofMembers (declared : List String) (members : List (String × Json)) :
    Fields (Json.obj members).size where
  get? name :=
    match h : Dictionary.get? members name with
    | some value => some ⟨value, Json.size_lt_of_get? h⟩
    | none => none
  order := declared.mergeSort
  missing := .missingField
  surplus := none

/-- The fields that are items of an array, looked at in the order of declaration; `type` names the
record in a message about the length. -/
def ofItems (declared : List String) (type : String) (items : List Json) :
    Fields (Json.arr items).size where
  get? name :=
    match h : items[declared.idxOf name]? with
    | some value => some ⟨value, Json.size_lt_of_mem (List.mem_of_getElem? h)⟩
    | none => none
  order := declared
  missing name :=
    .invalidLength (declared.idxOf name) (type ++ " with " ++ elements declared.length)
  surplus :=
    if items.length ≤ declared.length then none
    else some (.invalidLength items.length (elements declared.length ++ " in sequence"))

/-- The same fields under a larger bound. -/
def weaken {m n : Nat} (h : m ≤ n) (fields : Fields m) : Fields n where
  get? name := (fields.get? name).map fun ⟨value, lt⟩ => ⟨value, Nat.lt_of_lt_of_le lt h⟩
  order := fields.order
  missing := fields.missing
  surplus := fields.surplus

/-- The fields of a record that is an object or an array. -/
def of (declared : List String) (type : String) : (record : Json) → Decoded (Fields record.size)
  | .obj members => .ok (ofMembers declared members)
  | .arr items => .ok (ofItems declared type items)
  | found => .error (.invalidType found type)

variable {bound : Nat}

/-- Reads a field if it is there. -/
def read? (fields : Fields bound) (name : String)
    (decode : (value : Json) → value.size < bound → Decoded α) : Option (Decoded α) :=
  (fields.get? name).map fun ⟨value, h⟩ => decode value h

/-- The failure of a field that has been read. -/
def failure? : Option (Decoded α) → Option DecodeError
  | some (.error e) => some e
  | _ => none

/-- Goes on only if no field that is there failed; of several failures the one that is looked at
first is reported. -/
def check (fields : Fields bound) (failures : List (String × Option DecodeError)) : Decoded Unit :=
  match fields.order.findSome? fun name => (failures.lookup name).join with
  | some e => .error e
  | none => .ok ()

/-- A field that must be there. -/
def require (fields : Fields bound) (name : String) : Option (Decoded α) → Decoded α
  | some read => read
  | none => .error (fields.missing name)

/-- A field with a value for when it is not there. -/
def orElse (default : α) : Option (Decoded α) → Decoded α
  | some read => read
  | none => .ok default

/-- The same fields for a record that stands alone: of more items than there are fields it is said
only that they are too many. -/
def alone (fields : Fields bound) : Fields bound :=
  { fields with
    surplus := match fields.surplus with
      | some (.invalidLength n _) => some (.invalidLength n "fewer elements in array")
      | other => other }

/-- Ends the reading of a record: nothing may be left over. -/
def finish (fields : Fields bound) (value : α) : Decoded α :=
  match fields.surplus with
  | some e => .error e
  | none => .ok value

end Fields

end TemplateFlow
