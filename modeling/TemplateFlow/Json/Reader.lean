import TemplateFlow.Json
import TemplateFlow.Number.Decimal
import TemplateFlow.Text

/-!
# Reading JSON text

One JSON value with blanks around it (`Json.parse?`). A string may hold any character but the
controls, and an escaped surrogate only as half of a pair. A member that repeats a name replaces
the earlier one. Arrays and objects may nest to a depth of 127.

An integer that fits 64 bits is read as such. Any other number is read as at most 64 bits of
digits scaled by one power of ten, which must not exceed the largest number.
-/

namespace TemplateFlow

namespace Json

/-- The blanks of JSON text. -/
def isBlank (c : Char) : Bool :=
  c = ' ' ∨ c = '\t' ∨ c = '\n' ∨ c = '\r'

/-- The text from its first character that is no blank. -/
def skipBlanks (text : List Char) : List Char :=
  text.dropWhile isBlank

/-! ## Strings -/

/-- The character of one escape other than `\u`. -/
def simpleEscape? : Char → Option Char
  | '"' => some '"'
  | '\\' => some '\\'
  | '/' => some '/'
  | 'b' => some '\x08'
  | 'f' => some '\x0c'
  | 'n' => some '\n'
  | 'r' => some '\r'
  | 't' => some '\t'
  | _ => none

/-- The character that two surrogates encode. -/
def surrogatePair? (high low : Nat) : Option Char :=
  if 0xD800 ≤ high ∧ high < 0xDC00 ∧ 0xDC00 ≤ low ∧ low < 0xE000 then
    some (Char.ofNat (0x10000 + (high - 0xD800) * 0x400 + (low - 0xDC00)))
  else none

/-- The contents of a string up to its closing quotation mark, and what follows that. -/
def readString? : List Char → List Char → Option (String × List Char)
  | acc, '"' :: rest => some (String.ofList acc.reverse, rest)
  | acc, '\\' :: 'u' :: a :: b :: c :: d :: rest => do
    let code ← Text.ofHex? [a, b, c, d]
    match Text.charOf? code, rest with
    | some char, rest => readString? (char :: acc) rest
    | none, '\\' :: 'u' :: e :: f :: g :: h :: rest => do
      let char ← surrogatePair? code (← Text.ofHex? [e, f, g, h])
      readString? (char :: acc) rest
    | none, _ => none
  | acc, '\\' :: escape :: rest => do
    readString? ((← simpleEscape? escape) :: acc) rest
  | acc, c :: rest => if c.toNat < 0x20 ∨ c = '\\' then none else readString? (c :: acc) rest
  | _, [] => none
termination_by _ text => text.length

/-! ## Numbers -/

/-- The digits of a number that fit 64 bits, appended to a significand, and the digits left. -/
def takeSignificand (significand : Nat) : List Char → Nat × List Char
  | [] => (significand, [])
  | c :: rest =>
    let next := significand * 10 + (c.toNat - '0'.toNat)
    if next < Nat.pow 2 64 then takeSignificand next rest else (significand, c :: rest)

/-- The least power of ten that is divided by in one step. -/
def stepLimit : Nat := 308

/-- `significand / 10 ^ exponent`, dividing by at most `10 ^ 308` at a time; the steps are bounded
because two of them bring any significand to zero. -/
def scaleDown (significand : Number) (exponent : Nat) : Number :=
  if exponent ≤ stepLimit then significand / Number.ofNat (Nat.pow 10 exponent)
  else
    let once := significand / Number.ofNat (Nat.pow 10 stepLimit)
    if exponent ≤ 2 * stepLimit then once / Number.ofNat (Nat.pow 10 (exponent - stepLimit))
    else Number.zero false

/-- `significand * 10 ^ exponent`, unless it exceeds the largest number. -/
def scaled? (significand : Nat) (exponent : Int) : Option Number :=
  let x := Number.ofNat significand
  if exponent < 0 then some (scaleDown x (-exponent).toNat)
  else if significand = 0 then some x
  else if stepLimit < exponent.toNat then none
  else
    let y := x * Number.ofNat (Nat.pow 10 exponent.toNat)
    if y.isFinite then some y else none

/-- The optional exponent at the head of a text, and what follows it. -/
def readExponent? : List Char → Option (Option Int × List Char)
  | [] => some (none, [])
  | mark :: rest =>
    if mark = 'e' ∨ mark = 'E' then
      let (negative, rest) := Number.spanSign rest
      let (digits, rest) := Number.spanDigits rest
      if digits.isEmpty then none
      else some (some (Number.signed negative (Number.ofDigits digits)), rest)
    else some (none, mark :: rest)

/-- The optional fraction digits at the head of a text, and what follows them. -/
def readFraction? : List Char → Option (Option (List Char) × List Char)
  | '.' :: rest =>
    let (digits, rest) := Number.spanDigits rest
    if digits.isEmpty then none else some (some digits, rest)
  | text => some (none, text)

/-- The integer of a sign and a magnitude if 64 bits hold it; negative zero is no integer. -/
def smallInteger? (negative : Bool) (magnitude : Nat) : Option Int :=
  if negative then
    if 0 < magnitude ∧ magnitude ≤ Nat.pow 2 63 then some (-(magnitude : Int)) else none
  else if magnitude < Nat.pow 2 64 then some magnitude
  else none

/-- The floating-point number of the parts of a literal. -/
def floatOf? (negative : Bool) (whole fraction : List Char) (exponent : Int) : Option Number := do
  -- What does not fit is not rounded: before the point it counts as zeros, after it not at all.
  let (significand, dropped) := takeSignificand 0 whole
  let (significand', unread) := takeSignificand significand fraction
  let places := (fraction.length : Int) - unread.length
  let x ← scaled? significand' (exponent + dropped.length - places)
  return if negative then -x else x

/-- The parts that a number is written with. -/
structure NumberLiteral where
  negative : Bool
  /-- The digits before the point, of which zero is the first only if it is the only one. -/
  whole : List Char
  fraction? : Option (List Char)
  exponent? : Option Int

/-- The parts of the number at the head of a text, and what follows it. -/
def readLiteral? (text : List Char) : Option (NumberLiteral × List Char) := do
  let (negative, text) := match text with
    | '-' :: rest => (true, rest)
    | text => (false, text)
  let (whole, text) := Number.spanDigits text
  if whole.isEmpty ∨ (whole.head? = some '0' ∧ 1 < whole.length) then none
  else
    let (fraction?, text) ← readFraction? text
    let (exponent?, text) ← readExponent? text
    some ({ negative, whole, fraction?, exponent? }, text)

/-- The number that is written so, if it is not too large. -/
def NumberLiteral.value? (l : NumberLiteral) : Option JsonNumber :=
  let integer? :=
    if l.fraction?.isNone ∧ l.exponent?.isNone then
      smallInteger? l.negative (Number.ofDigits l.whole)
    else none
  match integer? with
  | some n => some (.int n)
  | none =>
    (floatOf? l.negative l.whole (l.fraction?.getD []) (l.exponent?.getD 0)).map .float

/-- A number at the head of a text, and what follows it. -/
def readNumber? (text : List Char) : Option (JsonNumber × List Char) := do
  let (literal, rest) ← readLiteral? text
  return (← literal.value?, rest)

/-! ## Values -/

/-- A keyword at the head of a text, and what follows it. -/
def readKeyword? (keyword : List Char) (value : Json) (text : List Char) :
    Option (Json × List Char) :=
  if keyword.isPrefixOf text then some (value, text.drop keyword.length) else none

mutual

/-- A value at the head of a text, blanks before it skipped, and what follows it. The fuel bounds
the nesting together with the number of items; `depth` is the nesting still allowed. -/
def readValue? : Nat → Nat → List Char → Option (Json × List Char)
  | 0, _, _ => none
  | fuel + 1, depth, text =>
    match skipBlanks text with
    | '"' :: rest => (readString? [] rest).map fun (s, rest) => (.str s, rest)
    | '[' :: rest =>
      if depth = 0 then none
      else
        match skipBlanks rest with
        | ']' :: rest => some (.arr [], rest)
        | rest => (readItems? fuel (depth - 1) rest).map fun (items, rest) => (.arr items, rest)
    | '\x7b' :: rest =>
      if depth = 0 then none
      else
        match skipBlanks rest with
        | '\x7d' :: rest => some (.obj [], rest)
        | rest =>
          (readMembers? fuel (depth - 1) [] rest).map fun (members, rest) => (.obj members, rest)
    | 'n' :: rest => readKeyword? ['n', 'u', 'l', 'l'] .null ('n' :: rest)
    | 't' :: rest => readKeyword? ['t', 'r', 'u', 'e'] (.bool true) ('t' :: rest)
    | 'f' :: rest => readKeyword? ['f', 'a', 'l', 's', 'e'] (.bool false) ('f' :: rest)
    | text => (readNumber? text).map fun (n, rest) => (.num n, rest)

/-- The items of an array from its first one to its closing bracket, and what follows that. -/
def readItems? : Nat → Nat → List Char → Option (List Json × List Char)
  | 0, _, _ => none
  | fuel + 1, depth, text => do
    let (item, rest) ← readValue? fuel depth text
    match skipBlanks rest with
    | ',' :: rest => (readItems? fuel depth rest).map fun (items, rest) => (item :: items, rest)
    | ']' :: rest => some ([item], rest)
    | _ => none

/-- The members of an object from its first one to its closing brace, put over those already
read, and what follows that. -/
def readMembers? : Nat → Nat → Dictionary Json → List Char →
    Option (Dictionary Json × List Char)
  | 0, _, _, _ => none
  | fuel + 1, depth, members, text =>
    match skipBlanks text with
    | '"' :: rest => do
      let (name, rest) ← readString? [] rest
      match skipBlanks rest with
      | ':' :: rest =>
        let (value, rest) ← readValue? fuel depth rest
        -- Of several members of one name the last one stays.
        let members := Dictionary.insert members name value
        match skipBlanks rest with
        | ',' :: rest => readMembers? fuel depth members rest
        | '\x7d' :: rest => some (members, rest)
        | _ => none
      | _ => none
    | _ => none

end

/-- How deep arrays and objects may nest. -/
def depthLimit : Nat := 127

/-- The value a text holds, if it is one JSON value. -/
def parse? (text : String) : Option Json :=
  let chars := text.toList
  -- Between two calls of one reader at least one character is read.
  match readValue? (2 * chars.length + 2) depthLimit chars with
  | some (value, rest) => if (skipBlanks rest).isEmpty then some value else none
  | none => none

end Json

end TemplateFlow
