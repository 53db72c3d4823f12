import TemplateFlow.Json
import TemplateFlow.Number.Decimal
import TemplateFlow.Text

/-!
# Configuration files

A configuration file is text in a part of TOML: tables under their headers, and in each of them keys
with a string, an integer, a floating-point number, a truth value or an array of these. A file is
read into data (`Toml.parse?`), a table into an object.

A key may be a path, and a header usually is one; the tables on the way come about by being named.
What may be put where depends on how a table came about (`Toml.Origin`): a key is given once only, a
header as well, a table that keys have made by their paths gets no header of its own, and a path of
keys does not lead into a table that has one.
-/

namespace TemplateFlow

namespace Toml

/-! ## Blanks -/

/-- The text without the blanks at the head of its line. -/
def skipSpace (text : List Char) : List Char :=
  text.dropWhile fun c => c = ' ' ∨ c = '\t'

/-- Whether a character must not stand in a string or a comment as it is. -/
def isControl (c : Char) : Bool :=
  (c.toNat < 0x20 ∧ c ≠ '\t') ∨ c.toNat = 0x7F

/-- The text after the comment at its head, if there is one. -/
def skipComment (text : List Char) : List Char :=
  match text with
  | '#' :: rest => rest.dropWhile fun c => !isControl c
  | _ => text

/-- The text without blanks, line ends and comments at its head. -/
def skipVoid (text : List Char) : List Char :=
  match text with
  -- A carriage return is skipped as part of a line end only.
  | '\r' :: '\n' :: rest => skipVoid rest
  | c :: rest =>
    if c = ' ' ∨ c = '\t' ∨ c = '\n' then skipVoid rest
    else if c = '#' then skipVoid (rest.dropWhile fun c => !isControl c)
    else text
  | [] => []
termination_by text.length
decreasing_by
  · simp only [List.length_cons]; omega
  · simp
  · exact Nat.lt_succ_of_le (List.dropWhile_sublist _).length_le

/-- What follows the end of a line, which only blanks and a comment may come before. -/
def afterLine? (text : List Char) : Option (List Char) :=
  match skipComment (skipSpace text) with
  | [] => some []
  | '\n' :: rest => some rest
  | '\r' :: '\n' :: rest => some rest
  | _ => none

/-! ## Strings and keys -/

/-- The character of an escape of one letter. -/
def escape? : Char → Option Char
  | 'b' => some '\x08'
  | 't' => some '\t'
  | 'n' => some '\n'
  | 'f' => some '\x0c'
  | 'r' => some '\r'
  | '"' => some '"'
  | '\\' => some '\\'
  | _ => none

/-- The contents of a string up to its closing quotation mark, and what follows that. -/
def readQuoted? : List Char → List Char → Option (String × List Char)
  | acc, '"' :: rest => some (String.ofList acc.reverse, rest)
  | acc, '\\' :: 'u' :: rest => do
    let c ← (Text.hexPrefix? 4 rest).bind Text.charOf?
    readQuoted? (c :: acc) (rest.drop 4)
  | acc, '\\' :: 'U' :: rest => do
    let c ← (Text.hexPrefix? 8 rest).bind Text.charOf?
    readQuoted? (c :: acc) (rest.drop 8)
  | acc, '\\' :: letter :: rest => do readQuoted? ((← escape? letter) :: acc) rest
  | acc, c :: rest => if isControl c ∨ c = '\\' then none else readQuoted? (c :: acc) rest
  | _, [] => none
termination_by _ text => text.length
decreasing_by all_goals simp_wf <;> omega

/-- The contents of a string without escapes up to its closing quotation mark, and what follows. -/
def readLiteral? : List Char → List Char → Option (String × List Char)
  | acc, '\'' :: rest => some (String.ofList acc.reverse, rest)
  | acc, c :: rest => if isControl c then none else readLiteral? (c :: acc) rest
  | _, [] => none

/-- Whether a character may stand in a key that is not quoted. -/
def isKeyChar (c : Char) : Bool := c.isAlphanum ∨ c = '_' ∨ c = '-'

/-- One key, and what follows it. -/
def readKey? : List Char → Option (String × List Char)
  | '"' :: rest => readQuoted? [] rest
  | '\'' :: rest => readLiteral? [] rest
  | text =>
    let (key, rest) := text.span isKeyChar
    if key.isEmpty then none else some (String.ofList key, rest)

/-- A path of keys with points between, of at most the given length, and what follows it. -/
def readPath? : Nat → List Char → Option (List String × List Char)
  | 0, _ => none
  | limit + 1, text => do
    let (key, rest) ← readKey? (skipSpace text)
    match skipSpace rest with
    | '.' :: rest =>
      let (path, rest) ← readPath? limit rest
      return (key :: path, rest)
    | rest => return ([key], rest)

/-! ## Numbers -/

/-- The digits of a run in which single underscores may stand between digits. -/
def digits? (isDigit : Char → Bool) : List Char → Option (List Char)
  | [] => none
  | [c] => if isDigit c then some [c] else none
  | c :: '_' :: rest => if isDigit c then (digits? isDigit rest).map (c :: ·) else none
  | c :: rest => if isDigit c then (digits? isDigit rest).map (c :: ·) else none

/-- The digits of a decimal integer, which begins with zero only if it is zero. -/
def wholeDigits? (text : List Char) : Option (List Char) :=
  (digits? Char.isDigit text).filter fun ds => ds.head? ≠ some '0' ∨ ds.length = 1

/-- The digits of an integer to the given base. -/
def natural? (base : Nat) (text : List Char) : Option Nat := do
  let ds ← digits? (fun c => ((Text.hexDigit? c).filter (· < base)).isSome) text
  return ds.foldl (fun n c => base * n + (Text.hexDigit? c).getD 0) 0

/-- An integer that fits 64 bits. -/
def integer? (text : List Char) : Option Int := do
  let (negative, rest) := Number.spanSign text
  -- A number to another base has no sign, so the whole text is looked at.
  let magnitude ← match text with
    | '0' :: 'x' :: ds => natural? 16 ds
    | '0' :: 'o' :: ds => natural? 8 ds
    | '0' :: 'b' :: ds => natural? 2 ds
    | _ => (wholeDigits? rest).map Number.ofDigits
  let n := Number.signed negative magnitude
  if -(Int.pow 2 63) ≤ n ∧ n < Int.pow 2 63 then some n else none

/-- The digits after the point of a number, if there is one, and what follows them. -/
def fraction? : List Char → Option (Option (List Char) × List Char)
  | '.' :: rest => do
    let (run, rest) := rest.span fun c => c.isDigit ∨ c = '_'
    return (some (← digits? Char.isDigit run), rest)
  | rest => some (none, rest)

/-- The exponent that ends a number, if there is one. -/
def exponent? : List Char → Option (Option (List Char))
  | [] => some none
  | mark :: rest => do
    if mark ≠ 'e' ∧ mark ≠ 'E' then none
    let (negative, rest) := Number.spanSign rest
    let ds ← digits? Char.isDigit rest
    return some ((if negative then ['-'] else []) ++ ds)

/-- A floating-point number, with a point or an exponent, or one that is not finite. Digits must not
name a number too large to be finite; below zero they may. -/
def float? (text : List Char) : Option Number := do
  let (negative, rest) := Number.spanSign text
  match String.ofList rest with
  | "inf" => return .infinity negative
  | "nan" => return .nan
  | _ =>
    let (run, rest) := rest.span fun c => c.isDigit ∨ c = '_'
    let whole ← wholeDigits? run
    let (fraction, rest) ← fraction? rest
    let exponent ← exponent? rest
    -- Digits alone are no floating-point number, even where they are too many for an integer.
    if fraction.isNone ∧ exponent.isNone then none
    let x ← Number.ofLiteral? negative
      (whole ++ '.' :: fraction.getD [] ++ (exponent.map ('e' :: ·)).getD [])
    if x = .infinity false then none else some x

/-! ## Values -/

/-- Whether a character ends a value that is not quoted. -/
def endsScalar (c : Char) : Bool :=
  c = ' ' ∨ c = '\t' ∨ c = '\n' ∨ c = '\r' ∨ c = ',' ∨ c = ']' ∨ c = '#'

/-- A truth value or a number. -/
def scalar? (text : List Char) : Option Json :=
  match String.ofList text with
  | "true" => some (.bool true)
  | "false" => some (.bool false)
  | _ =>
    match integer? text with
    | some n => some (.int n)
    | none => (float? text).map fun x => .num (.float x)

/-- A value that is no array, and what follows it. -/
def readScalar? : List Char → Option (Json × List Char)
  | '"' :: rest => (readQuoted? [] rest).map fun (s, rest) => (.str s, rest)
  | '\'' :: rest => (readLiteral? [] rest).map fun (s, rest) => (.str s, rest)
  | text => do
    let (token, rest) := text.span fun c => !endsScalar c
    return (← scalar? token, rest)

/-- The items of an array up to its closing bracket, at most the given number of them, and what
follows. A comma may follow the last item. -/
def readItems? : Nat → List Char → Option (List Json × List Char)
  | 0, _ => none
  | limit + 1, text =>
    match skipVoid text with
    | ']' :: rest => some ([], rest)
    | text => do
      let (item, rest) ← readScalar? text
      match skipVoid rest with
      | ',' :: rest =>
        let (items, rest) ← readItems? limit rest
        return (item :: items, rest)
      | ']' :: rest => return ([item], rest)
      | _ => none

/-- A value, and what follows it. -/
def readValue? : List Char → Option (Json × List Char)
  | '[' :: rest => (readItems? (rest.length + 1) rest).map fun (items, rest) => (.arr items, rest)
  | text => readScalar? text

/-! ## Tables -/

/-- How a table came about. -/
inductive Origin where
  /-- It has a header. -/
  | header
  /-- It is on the way to a table with a header. -/
  | outer
  /-- It is on the path of a key. -/
  | path
  deriving DecidableEq

/-- What stands under a key. -/
inductive Entry where
  | value (value : Json)
  | table (origin : Origin) (entries : List (String × Entry))

/-- What stands in a table. -/
abbrev Entries := Dictionary Entry

/-- The change of a table that is made inside a table in it, given the origin of the inner one. -/
abbrev Change := Origin → Entries → Option (Origin × Entries)

/-- Makes a change to the table at the end of a path. The tables on the way, which come about with
the given origin if there are none, must be allowed. -/
def changeAt (origin : Origin) (allowed : Origin → Bool) (change : Change) :
    List String → Change
  | [], o, table => change o table
  | key :: path, o, table => do
    -- There may be no table under the key yet, but no value either.
    let (here, inner) ← match Dictionary.get? table key with
      | none => some (origin, [])
      | some (.table here inner) => if allowed here then some (here, inner) else none
      | some (.value _) => none
    let (here, inner) ← changeAt origin allowed change path here inner
    return (o, Dictionary.insert table key (.table here inner))

/-- Puts a value under a key that there is none under yet. -/
def insertValue (key : String) (value : Json) : Change := fun origin table =>
  if Dictionary.contains table key then none
  else some (origin, Dictionary.insert table key (.value value))

/-- Puts a value at the end of a path in a table. A path of several keys ends in a table that such
paths have made. -/
def insertAt : List String → Json → Change
  | [], _, _, _ => none
  | [key], value, origin, table => insertValue key value origin table
  | keys, value, origin, table =>
    let change : Change := fun here inner =>
      if here = .path then insertValue (keys.getLastD "") value here inner else none
    changeAt .path (· ≠ .header) change keys.dropLast origin table

/-- Gives a table its header. -/
def openTable (key : String) : Change := fun origin table =>
  match Dictionary.get? table key with
  | none => some (origin, Dictionary.insert table key (.table .header []))
  -- A table on the way to another one may still get its header, once.
  | some (.table .outer inner) =>
    some (origin, Dictionary.insert table key (.table .header inner))
  | some _ => none

mutual

/-- What stands under a key as data. -/
def Entry.toJson : Entry → Json
  | .value value => value
  | .table _ entries => .obj (membersOf entries)

/-- The members that a table has as data. -/
def membersOf : List (String × Entry) → List (String × Json)
  | [] => []
  | (key, entry) :: rest => (key, entry.toJson) :: membersOf rest

end

/-! ## Files -/

/-- What has been read of a file. -/
structure Draft where
  table : Entries := []
  /-- The path of the table that keys are put into. -/
  current : List String := []

/-- Makes a change inside the table at the end of a path of headers. -/
def Draft.changeAt? (draft : Draft) (path : List String) (change : Change) : Option Draft := do
  let (_, table) ← changeAt .outer (fun _ => true) change path .header draft.table
  return { draft with table }

/-- Reads the rest of a file, in at most the given number of headers and keys. -/
def readRest? : Nat → Draft → List Char → Option Draft
  | 0, _, _ => none
  | limit + 1, draft, text =>
    match skipVoid text with
    | [] => some draft
    | '[' :: rest => do
      let (path, rest) ← readPath? (rest.length + 1) rest
      match rest with
      | ']' :: rest =>
        let draft ← draft.changeAt? path.dropLast (openTable (path.getLastD ""))
        readRest? limit { draft with current := path } (← afterLine? rest)
      | _ => none
    | text => do
      let (path, rest) ← readPath? (text.length + 1) text
      match rest with
      | '=' :: rest =>
        let (value, rest) ← readValue? (skipSpace rest)
        let draft ← draft.changeAt? draft.current (insertAt path value)
        readRest? limit draft (← afterLine? rest)
      | _ => none

/-- Reads a file. -/
def parse? (text : String) : Option (Dictionary Json) :=
  (readRest? (text.length + 1) {} (Text.withoutMark text.toList)).map fun draft =>
    membersOf draft.table

end Toml

end TemplateFlow
