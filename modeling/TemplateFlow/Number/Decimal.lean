import TemplateFlow.Number

/-!
# Decimal text of numbers

Reading rounds a decimal literal of any length once (`Number.ofDecimal`). Writing takes the fewest
significant digits that read back to the same number and, of those, the nearest to it
(`Number.shortest`); the digits are found on the exact interval of ratios that round to the
number, not by repeated floating-point steps.

How the digits are laid out is a choice of the text being written: `Number.toText` is positional
throughout, `Number.toJsonText` changes to an exponent outside a window.
-/

namespace TemplateFlow

namespace Number

/-! ## Reading -/

/-- How many decimal digits a natural is written with. -/
def digitCount (n : Nat) : Nat := (Nat.toDigits 10 n).length

/-- The number nearest to `± digits * 10 ^ exponent`. A value too large for any number, or too
small, is settled from its count of digits alone. -/
def ofDecimal (negative : Bool) (digits : Nat) (exponent : Int) : Number :=
  if digits = 0 then zero negative
  else
    -- Numbers lie between `10 ^ -324` and `10 ^ 309`.
    let magnitude : Int := digitCount digits + exponent
    if 310 < magnitude then .infinity negative
    else if magnitude < -330 then zero negative
    else if 0 ≤ exponent then ofRatio negative (digits * Nat.pow 10 exponent.toNat) 1
    else ofRatio negative digits (Nat.pow 10 (-exponent).toNat)

/-- The natural that a run of decimal digits names. -/
def ofDigits (digits : List Char) : Nat :=
  digits.foldl (fun n c => 10 * n + (c.toNat - '0'.toNat)) 0

/-- The digits at the head of a text, and what follows them. -/
def spanDigits (text : List Char) : List Char × List Char :=
  text.span Char.isDigit

/-- A sign at the head of a text (`true` for minus), and what follows it. -/
def spanSign : List Char → Bool × List Char
  | '-' :: rest => (true, rest)
  | '+' :: rest => (false, rest)
  | text => (false, text)

/-- The exponent that ends a decimal literal: nothing, or a mark, an optional sign and digits. -/
def exponentOf? : List Char → Option Int
  | [] => some 0
  | mark :: rest =>
    if mark = 'e' ∨ mark = 'E' then
      let (negative, rest) := spanSign rest
      let (digits, rest) := spanDigits rest
      if digits.isEmpty ∨ !rest.isEmpty then none
      else some (signed negative (ofDigits digits))
    else none

/-- An unsigned decimal literal: digits with at most one point among or around them, at least one
digit, and an optional exponent. -/
def ofLiteral? (negative : Bool) (text : List Char) : Option Number :=
  let (whole, rest) := spanDigits text
  -- The digits on one side of the point may be missing.
  let (fraction, rest) :=
    match rest with
    | '.' :: rest => spanDigits rest
    | rest => ([], rest)
  if whole.isEmpty ∧ fraction.isEmpty then none
  else
    (exponentOf? rest).map fun exponent =>
      ofDecimal negative (ofDigits (whole ++ fraction)) (exponent - fraction.length)

/-- The number a text names: an optional sign, then a decimal literal or a name of infinity or of
not-a-number in any case. No blanks are allowed. -/
def ofText? (text : String) : Option Number :=
  let (negative, rest) := spanSign text.toList
  match String.ofList (rest.map Char.toLower) with
  | "inf" | "infinity" => some (.infinity negative)
  | "nan" => some .nan
  | _ => ofLiteral? negative rest

/-! ## Shortest digits -/

/-- A positive ratio lies in the half-open decade `[10 ^ k, 10 ^ (k + 1))` for this `k`. -/
def decade (num den : Nat) : Int :=
  -- The counts of digits leave this decade and the one below it.
  let k : Int := (digitCount num : Int) - digitCount den
  let (n, d) :=
    if 0 ≤ k then (num, den * Nat.pow 10 k.toNat) else (num * Nat.pow 10 (-k).toNat, den)
  if d ≤ n then k else k - 1

/-- Which of two neighbours stands for a value halfway between them. -/
inductive Tie where
  /-- The larger one. -/
  | up
  /-- The even one. -/
  | even
  deriving DecidableEq, Inhabited

/-- The chosen one of a natural and its successor. -/
def Tie.choose (tie : Tie) (below : Nat) : Nat :=
  match tie with
  | .up => below + 1
  | .even => if below % 2 = 0 then below else below + 1

/-- The ratios that round to one number: from `low / den` to `high / den`, the value being
`mid / den`. The ends belong to it when the mantissa is even. -/
structure RoundingInterval where
  low : Nat
  mid : Nat
  high : Nat
  den : Nat
  closed : Bool

namespace RoundingInterval

/-- The interval of the number `mantissa * 2 ^ exponent`. Below a power of two the numbers lie
twice as dense, so the lower end is half as far away. -/
def of (mantissa : Nat) (exponent : Int) : RoundingInterval :=
  let unit := if 0 ≤ exponent then Nat.pow 2 exponent.toNat else 1
  let den := if 0 ≤ exponent then 4 else 4 * Nat.pow 2 (-exponent).toNat
  let below := if mantissa = Nat.pow 2 52 ∧ -1074 < exponent then 1 else 2
  { low := (4 * mantissa - below) * unit
    mid := 4 * mantissa * unit
    high := (4 * mantissa + 2) * unit
    den
    closed := mantissa % 2 = 0 }

/-- Whether `num / (den * scale)` lies in the interval, for the interval's own `den`. -/
def contains (i : RoundingInterval) (num scale : Nat) : Bool :=
  if i.closed then i.low * scale ≤ num ∧ num ≤ i.high * scale
  else i.low * scale < num ∧ num < i.high * scale

/-- The multiple of `10 ^ place` nearest to the value among those in the interval, as its
coefficient. Only the value's two neighbours on that grid can be nearest. -/
def nearestAt? (i : RoundingInterval) (tie : Tie) (place : Int) : Option Nat :=
  let step := i.den * Nat.pow 10 place.toNat
  let scale := Nat.pow 10 (-place).toNat
  let below := i.mid * scale / step
  let above := below + 1
  let belowFits := i.contains (below * step) scale
  let aboveFits := i.contains (above * step) scale
  -- Twice the distance to the neighbour below, against the distance between the two.
  let nearer :=
    match compare (2 * (i.mid * scale % step)) step with
    | .lt => below
    | .gt => above
    | .eq => tie.choose below
  match belowFits, aboveFits with
  | true, true => some nearer
  | true, false => some below
  | false, true => some above
  | false, false => none

end RoundingInterval

/-- A coefficient without trailing zeros, each moved into the exponent; at most `fuel` of them. -/
def trimZeros : Nat → Nat → Int → Nat × Int
  | 0, digits, exponent => (digits, exponent)
  | fuel + 1, digits, exponent =>
    if digits ≠ 0 ∧ digits % 10 = 0 then trimZeros fuel (digits / 10) (exponent + 1)
    else (digits, exponent)

/-- The fewest digits `d` and the exponent `p` for which `d * 10 ^ p` reads back as
`mantissa * 2 ^ exponent`, nearest to it, with `tie` between two that are equally near. Seventeen
digits always read back. -/
def shortest (tie : Tie) (mantissa : Nat) (exponent : Int) : Nat × Int :=
  let interval := RoundingInterval.of mantissa exponent
  let top := decade interval.mid interval.den
  -- One more digit each time, so what is found first is shortest.
  let found? := (List.range 17).findSome? fun k =>
    let place := top - Int.ofNat k
    (interval.nearestAt? tie place).map fun digits => (digits, place)
  match found? with
  | some (digits, place) => trimZeros 20 digits place
  | none => (0, 0)

/-! ## Writing -/

/-- Digits written out in full, with a point only where a fraction follows it. -/
def positional (digits : Nat) (exponent : Int) : String :=
  let text := Nat.toDigits 10 digits
  let point : Int := text.length + exponent
  if 0 ≤ exponent then String.ofList (text ++ List.replicate exponent.toNat '0')
  else if 0 < point then
    String.ofList (text.take point.toNat ++ '.' :: text.drop point.toNat)
  else String.ofList ('0' :: '.' :: (List.replicate (-point).toNat '0' ++ text))

/-- One digit before the point, the rest after it, and an exponent. -/
def scientific (digits : Nat) (exponent : Int) : String :=
  let text := Nat.toDigits 10 digits
  let mark := exponent + text.length - 1
  let fraction := if text.length ≤ 1 then [] else '.' :: text.drop 1
  let sign := if mark < 0 then "-" else "+"
  String.ofList (text.take 1 ++ fraction) ++ "e" ++ sign ++ toString mark.natAbs

/-- The largest magnitude below which every integer is a number: `2 ^ 53`. -/
def integerLimit : Nat := Nat.pow 2 53

/-- The integer a number is equal to, when it is one of those below `2 ^ 53` in magnitude. -/
def toSmallInt? (x : Number) : Option Int :=
  x.toInt?.filter (·.natAbs < integerLimit)

/-- The text of a magnitude, positional at every size; of two texts that are equally near it is the
larger one. -/
def magnitudeText (mantissa : Nat) (exponent : Int) : String :=
  let (digits, place) := shortest .up mantissa exponent
  positional digits place

/-- The text of a number in the expression language: never an exponent, zero without its sign. -/
def toText (x : Number) : String :=
  match x with
  | .nan => "NaN"
  | .infinity false => "Infinity"
  | .infinity true => "-Infinity"
  | .finite s m e _ =>
    match x.toSmallInt? with
    | some n => toString n
    | none => (if s then "-" else "") ++ magnitudeText m e

/-- The text of a number where the sign of zero is to be seen. -/
def toSignedText (x : Number) : String :=
  if x = zero true then "-0" else x.toText

/-- The text of a number as data of JSON, which must be finite: a point or an exponent always
shows that it is no integer. Outside `1e-5 ≤ |x| < 1e16` the exponent is written. Of two texts that
are equally near it is the one with the even last digit. -/
def toJsonText (x : Number) : String :=
  match x with
  | .finite s m e _ =>
    let sign := if s then "-" else ""
    if m = 0 then sign ++ "0.0"
    else
      let (digits, place) := shortest .even m e
      let mark := place + digitCount digits - 1
      if -5 ≤ mark ∧ mark < 16 then
        sign ++ positional digits place ++ (if 0 ≤ place then ".0" else "")
      else sign ++ scientific digits place
  | _ => "null"

end Number

end TemplateFlow
