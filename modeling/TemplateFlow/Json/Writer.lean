import TemplateFlow.Json
import TemplateFlow.Number.Decimal
import TemplateFlow.Text

/-!
# Writing JSON text

Two forms: compact, without any blank, and indented by two spaces per level, in which an empty
array or object stays on its line. Members come in the order of their names. A string escapes the
quotation mark, the backslash and the controls below U+0020, and nothing else.
-/

namespace TemplateFlow

namespace Json

/-- The form of one character inside a string. -/
def escapeChar (c : Char) : List Char :=
  if c = '"' then ['\\', '"']
  else if c = '\\' then ['\\', '\\']
  else if c = '\x08' then ['\\', 'b']
  else if c = '\t' then ['\\', 't']
  else if c = '\n' then ['\\', 'n']
  else if c = '\x0c' then ['\\', 'f']
  else if c = '\r' then ['\\', 'r']
  else if c.toNat < 0x20 then '\\' :: 'u' :: Text.paddedHex 4 c.toNat
  else [c]

/-- A string between quotation marks. -/
def quote (s : String) : String :=
  String.ofList ('"' :: s.toList.flatMap escapeChar ++ ['"'])

/-- The text of a number: an integer without a point, a floating-point number with a point or an
exponent. -/
def numberText : JsonNumber → String
  | .int n => toString n
  | .float x => x.toJsonText

/-- The text of data that holds no other data. -/
def scalarText : Json → String
  | .null => "null"
  | .bool true => "true"
  | .bool false => "false"
  | .num n => numberText n
  | .str s => quote s
  | .arr _ => "[]"
  | .obj _ => "\x7b\x7d"

mutual

/-- The compact text. -/
def compress : Json → String
  | .arr items => "[" ++ compressItems items ++ "]"
  | .obj members => "\x7b" ++ compressMembers members ++ "\x7d"
  | scalar => scalarText scalar

/-- The compact texts of the items of an array, with commas between. -/
def compressItems : List Json → String
  | [] => ""
  | [item] => compress item
  | item :: rest => compress item ++ "," ++ compressItems rest

/-- The compact texts of the members of an object, with commas between. -/
def compressMembers : List (String × Json) → String
  | [] => ""
  | [(name, value)] => quote name ++ ":" ++ compress value
  | (name, value) :: rest => quote name ++ ":" ++ compress value ++ "," ++ compressMembers rest

end

/-- The start of a line at a level of nesting. -/
def newline (level : Nat) : String :=
  String.ofList ('\n' :: List.replicate (2 * level) ' ')

mutual

/-- The indented text, from a line that starts at the given level. -/
def pretty (level : Nat) : Json → String
  | .arr [] => "[]"
  | .arr items => "[" ++ prettyItems (level + 1) items ++ newline level ++ "]"
  | .obj [] => "\x7b\x7d"
  | .obj members => "\x7b" ++ prettyMembers (level + 1) members ++ newline level ++ "\x7d"
  | scalar => scalarText scalar

/-- The indented texts of the items of an array, each on lines of its own. -/
def prettyItems (level : Nat) : List Json → String
  | [] => ""
  | [item] => newline level ++ pretty level item
  | item :: rest => newline level ++ pretty level item ++ "," ++ prettyItems level rest

/-- The indented texts of the members of an object, each on lines of its own. -/
def prettyMembers (level : Nat) : List (String × Json) → String
  | [] => ""
  | [(name, value)] => newline level ++ quote name ++ ": " ++ pretty level value
  | (name, value) :: rest =>
    newline level ++ quote name ++ ": " ++ pretty level value ++ "," ++ prettyMembers level rest

end

end Json

end TemplateFlow
