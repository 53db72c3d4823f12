import TemplateFlow.Json.Reader

/-!
# Reading records

A record is an object of which some members only are wanted (`Json.parseRecord?`). A wanted member
must not be given twice. All other members are skipped: their text has to be a value by the grammar,
but since nothing is made of it, its numbers may be of any size, its escapes may name any surrogate,
and its arrays and objects may nest to any depth.
-/

namespace TemplateFlow

namespace Json

/-! ## Skipping -/

/-- What follows the closing quotation mark of a string. -/
def skipString? : List Char → Option (List Char)
  | '"' :: rest => some rest
  | '\\' :: 'u' :: a :: b :: c :: d :: rest =>
    if (Text.ofHex? [a, b, c, d]).isSome then skipString? rest else none
  | '\\' :: escape :: rest => if (simpleEscape? escape).isSome then skipString? rest else none
  | c :: rest => if c.toNat < 0x20 ∨ c = '\\' then none else skipString? rest
  | [] => none

/-- What follows a keyword at the head of a text. -/
def skipKeyword? (keyword text : List Char) : Option (List Char) :=
  if keyword.isPrefixOf text then some (text.drop keyword.length) else none

mutual

/-- What follows the value at the head of a text. The fuel bounds the nesting together with the
number of items. -/
def skipValue? : Nat → List Char → Option (List Char)
  | 0, _ => none
  | fuel + 1, text =>
    match skipBlanks text with
    | '"' :: rest => skipString? rest
    | '[' :: rest =>
      match skipBlanks rest with
      | ']' :: rest => some rest
      | rest => skipItems? fuel rest
    | '\x7b' :: rest =>
      match skipBlanks rest with
      | '\x7d' :: rest => some rest
      | rest => skipMembers? fuel rest
    | 'n' :: rest => skipKeyword? ['u', 'l', 'l'] rest
    | 't' :: rest => skipKeyword? ['r', 'u', 'e'] rest
    | 'f' :: rest => skipKeyword? ['a', 'l', 's', 'e'] rest
    | text => (readLiteral? text).map (·.2)

/-- What follows the closing bracket of an array, from its first item on. -/
def skipItems? : Nat → List Char → Option (List Char)
  | 0, _ => none
  | fuel + 1, text => do
    match skipBlanks (← skipValue? fuel text) with
    | ',' :: rest => skipItems? fuel rest
    | ']' :: rest => some rest
    | _ => none

/-- What follows the closing brace of an object, from its first member on. -/
def skipMembers? : Nat → List Char → Option (List Char)
  | 0, _ => none
  | fuel + 1, text =>
    match skipBlanks text with
    | '"' :: rest => do
      match skipBlanks (← skipString? rest) with
      | ':' :: rest =>
        match skipBlanks (← skipValue? fuel rest) with
        | ',' :: rest => skipMembers? fuel rest
        | '\x7d' :: rest => some rest
        | _ => none
      | _ => none
    | _ => none

end

/-! ## Records -/

/-- Puts the member that begins with the given text to the others if it is wanted. Gives what
follows its value, too. -/
def readWanted? (wanted : List String) (name : String) (members : Dictionary Json)
    (text : List Char) : Option (Dictionary Json × List Char) :=
  let fuel := 2 * text.length + 2
  if ¬ wanted.contains name then (skipValue? fuel text).map (members, ·)
  else if Dictionary.contains members name then none
  else
    (readValue? fuel (depthLimit - 1) text).map fun (value, rest) =>
      (Dictionary.insert members name value, rest)

/-- The wanted members of an object from its first one to its closing brace, at most the given
number of members, and what follows that. -/
def readRecord? (wanted : List String) : Nat → Dictionary Json → List Char →
    Option (Dictionary Json × List Char)
  | 0, _, _ => none
  | limit + 1, members, text =>
    match skipBlanks text with
    | '"' :: rest => do
      let (name, rest) ← readString? [] rest
      match skipBlanks rest with
      | ':' :: rest =>
        let (members, rest) ← readWanted? wanted name members rest
        match skipBlanks rest with
        | ',' :: rest => readRecord? wanted limit members rest
        | '\x7d' :: rest => some (members, rest)
        | _ => none
      | _ => none
    | _ => none

/-- The value a text holds; if it is an object, its wanted members only. -/
def parseRecord? (wanted : List String) (text : String) : Option Json :=
  match skipBlanks text.toList with
  | '\x7b' :: rest =>
    let read? := match skipBlanks rest with
      | '\x7d' :: rest => some ([], rest)
      | rest => readRecord? wanted rest.length [] rest
    match read? with
    | some (members, rest) => if (skipBlanks rest).isEmpty then some (.obj members) else none
    | none => none
  | _ => parse? text

end Json

end TemplateFlow
