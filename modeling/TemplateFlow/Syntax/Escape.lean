import TemplateFlow.Text

/-!
# Escapes in strings

What the text between the quotes of a string stands for (`Syntax.unescape`). A backslash and the
character after it stand for one character: a control for the letters `n t r b f v 0`, a code
point for `x` and `u`, and otherwise the character itself. Where the digits that `x` and `u` ask
for are missing or name no character, the letter stands for itself and nothing after it is taken.

A code point is written `\xHH`, `\uHHHH`, as two surrogates in a row, or `\u` and digits in braces.
-/

namespace TemplateFlow

namespace Syntax

/-- The character that stands in for a code point without one. -/
def replacement : Char := '\ufffd'

/-- The natural that the digits between braces name: at least one digit, possibly after a plus
sign, below `2 ^ 32`. -/
def bracedHex? (body : List Char) : Option Nat :=
  let digits := match body with
    | '+' :: rest => rest
    | body => body
  if digits.isEmpty then none else (Text.ofHex? digits).filter (· < Nat.pow 2 32)

/-- The second half of a surrogate pair at the front of a text: `\u` and four digits. -/
def lowSurrogate? : List Char → Option Nat
  | '\\' :: 'u' :: rest => (Text.hexPrefix? 4 rest).filter fun low => 0xDC00 ≤ low ∧ low < 0xE000
  | _ => none

/-- What follows `\x`: its character and how many characters it takes. -/
def byteEscape? (text : List Char) : Option (Char × Nat) :=
  (Text.hexPrefix? 2 text).map fun code => ((Text.charOf? code).getD replacement, 2)

/-- What follows `\u`: its character and how many characters it takes. -/
def unicodeEscape? : List Char → Option (Char × Nat)
  | '\x7b' :: rest =>
    let body := rest.takeWhile (· ≠ '\x7d')
    if body.length = rest.length then none
    else ((bracedHex? body).bind Text.charOf?).map fun c => (c, body.length + 2)
  | text => do
    let high ← Text.hexPrefix? 4 text
    let low? := if 0xD800 ≤ high ∧ high < 0xDC00 then lowSurrogate? (text.drop 4) else none
    match low? with
    | some low => return (Char.ofNat (0x10000 + (high - 0xD800) * 0x400 + (low - 0xDC00)), 10)
    | none => return ((Text.charOf? high).getD replacement, 4)

/-- The control that a letter after a backslash stands for. -/
def controlOf? : Char → Option Char
  | 'n' => some '\n'
  | 't' => some '\t'
  | 'r' => some '\r'
  | 'b' => some '\x08'
  | 'f' => some '\x0c'
  | 'v' => some '\x0b'
  | '0' => some '\x00'
  | _ => none

/-- What follows a backslash, given the character after it and the text after that: the character
it stands for, and how many further characters it takes. -/
def escaped (c : Char) (text : List Char) : Char × Nat :=
  if c = 'x' then (byteEscape? text).getD ('x', 0)
  else if c = 'u' then (unicodeEscape? text).getD ('u', 0)
  else ((controlOf? c).getD c, 0)

/-- The text that the contents of a string stand for. -/
def unescape : List Char → List Char
  | [] => []
  | ['\\'] => ['\\']
  | '\\' :: c :: rest =>
    let (char, taken) := escaped c rest
    char :: unescape (rest.drop taken)
  | c :: rest => c :: unescape rest
termination_by text => text.length
decreasing_by
  · simp only [List.length_drop, List.length_cons]
    omega
  · simp

end Syntax

end TemplateFlow
