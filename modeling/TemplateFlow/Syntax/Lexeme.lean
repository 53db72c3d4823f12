import TemplateFlow.Number.Decimal

/-!
# Lexemes

What counts as one word, number or string of the expression language, as functions that cut it off
the front of a text. Each takes the longest text of its kind, or nothing.
-/

namespace TemplateFlow

namespace Syntax

/-! ## Names -/

/-- The characters a name may start with. -/
def isNameStart (c : Char) : Bool :=
  c.isAlpha || c = '_' || c = '$'

/-- The characters of a name. -/
def isNamePart (c : Char) : Bool :=
  c.isAlphanum || c = '_' || c = '$'

/-- Words that are literals and therefore no identifiers. -/
def keywords : List String := ["true", "false", "null", "undefined"]

/-- A name at the front of a text, keyword or not. -/
def scanName? : List Char → Option (List Char)
  | [] => none
  | c :: rest => if isNameStart c then some (c :: rest.takeWhile isNamePart) else none

/-- An identifier at the front of a text: a name that is no keyword. -/
def scanIdentifier? (text : List Char) : Option (List Char) :=
  (scanName? text).filter fun name => !keywords.contains (String.ofList name)

/-- A keyword at the front of a text, not continued as a name. -/
def scanKeyword? (keyword : String) (text : List Char) : Option (List Char) :=
  (scanName? text).filter fun name => String.ofList name = keyword

/-! ## Numbers -/

/-- The digits at the front of a text. -/
def scanDigits (text : List Char) : List Char :=
  text.takeWhile Char.isDigit

/-- A point and at least one digit at the front of a text, or nothing. -/
def scanFraction : List Char → List Char
  | '.' :: rest => if (scanDigits rest).isEmpty then [] else '.' :: scanDigits rest
  | _ => []

/-- The sign at the front of a text, or nothing. -/
def scanSign : List Char → List Char
  | '+' :: _ => ['+']
  | '-' :: _ => ['-']
  | _ => []

/-- An exponent with at least one digit at the front of a text, or nothing. -/
def scanExponent : List Char → List Char
  | [] => []
  | mark :: rest =>
    if mark = 'e' ∨ mark = 'E' then
      let sign := scanSign rest
      let digits := scanDigits (rest.drop sign.length)
      if digits.isEmpty then [] else mark :: (sign ++ digits)
    else []

/-- A number at the front of a text: digits, a point with digits after it, or both, and possibly an
exponent. -/
def scanNumber? (text : List Char) : Option (List Char) :=
  let whole := scanDigits text
  let fraction := scanFraction (text.drop whole.length)
  let significand := whole ++ fraction
  if significand.isEmpty then none
  else some (significand ++ scanExponent (text.drop significand.length))

/-- The number that a lexeme of a number names. -/
def numberOf (lexeme : List Char) : Number :=
  (Number.ofLiteral? false lexeme).getD .nan

/-! ## Strings -/

/-- The text up to and with the closing quote: a backslash takes the next character along, whatever
it is, and any other character but the quote stands for itself. -/
def scanContent? (quote : Char) : List Char → Option (List Char)
  | [] => none
  | '\\' :: c :: rest => (scanContent? quote rest).map ('\\' :: c :: ·)
  | c :: rest =>
    if c = quote then some [c]
    else if c = '\\' then none
    else (scanContent? quote rest).map (c :: ·)

/-- A string in either kind of quotes at the front of a text. -/
def scanString? : List Char → Option (List Char)
  | [] => none
  | quote :: rest =>
    if quote = '\'' ∨ quote = '"' then (scanContent? quote rest).map (quote :: ·) else none

/-- The contents of a string lexeme, between its quotes. -/
def contentOf (lexeme : List Char) : List Char :=
  (lexeme.drop 1).dropLast

end Syntax

end TemplateFlow
