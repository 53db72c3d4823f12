/-!
# Text

What the language asks of strings beyond the operations of `String`: classes of characters as ranges
of code points, which characters are blank, how a text is trimmed, and its length in 16-bit units.
-/

namespace TemplateFlow

namespace Text

/-- Whether a code point lies in one of the ranges. -/
def inRanges (ranges : List (Nat × Nat)) (code : Nat) : Bool :=
  ranges.any fun (low, high) => low ≤ code ∧ code ≤ high

/-- The characters with the Unicode property White_Space. -/
def isBlank (c : Char) : Bool :=
  let n := c.toNat
  (0x09 ≤ n ∧ n ≤ 0x0D) ∨ n = 0x20 ∨ n = 0x85 ∨ n = 0xA0 ∨ n = 0x1680 ∨
    (0x2000 ≤ n ∧ n ≤ 0x200A) ∨ n = 0x2028 ∨ n = 0x2029 ∨ n = 0x202F ∨ n = 0x205F ∨ n = 0x3000

/-- The text without the blanks at both ends. -/
def trim (s : String) : String :=
  String.ofList ((s.toList.dropWhile isBlank).reverse.dropWhile isBlank).reverse

/-- The text without the byte order mark that it may begin with. -/
def withoutMark (text : List Char) : List Char :=
  match text with
  | '\uFEFF' :: rest => rest
  | _ => text

/-- How many 16-bit units a character takes: two beyond the first 65536. -/
def units (c : Char) : Nat := if c.toNat < 0x10000 then 1 else 2

/-- The length of a text in 16-bit units. -/
def length16 (s : String) : Nat :=
  s.toList.foldr (fun c n => units c + n) 0

/-- The texts joined with a separator between neighbours. -/
def join (separator : String) (texts : List String) : String :=
  separator.intercalate texts

/-- The lower-case hexadecimal digits of a natural. -/
def hex (n : Nat) : List Char := Nat.toDigits 16 n

/-- As `hex`, with zeros in front up to a width. -/
def paddedHex (width n : Nat) : List Char :=
  let digits := hex n
  List.replicate (width - digits.length) '0' ++ digits

/-- The value of a hexadecimal digit. -/
def hexDigit? (c : Char) : Option Nat :=
  if '0' ≤ c ∧ c ≤ '9' then some (c.toNat - '0'.toNat)
  else if 'a' ≤ c ∧ c ≤ 'f' then some (c.toNat - 'a'.toNat + 10)
  else if 'A' ≤ c ∧ c ≤ 'F' then some (c.toNat - 'A'.toNat + 10)
  else none

/-- The natural that hexadecimal digits name, most significant first, if all of them are such. -/
def ofHex? (digits : List Char) : Option Nat :=
  digits.foldlM (fun n c => (hexDigit? c).map (16 * n + ·)) 0

/-- The natural that exactly `n` hexadecimal digits at the front of a text name. -/
def hexPrefix? (n : Nat) (text : List Char) : Option Nat :=
  if text.length < n then none else ofHex? (text.take n)

/-- The character of a code point, unless it is a surrogate or too large. -/
def charOf? (code : Nat) : Option Char :=
  if h : code.isValidChar then some (Char.ofNatAux code h) else none

end Text

end TemplateFlow
