/-!
# Numbers

The numbers of the expression language are the 64-bit binary floating-point numbers: a sign, a
significand below `2 ^ 53` and a power of two, two infinities, and one not-a-number. This module
holds them as exact data, so that every operation is defined over integers and a statement about
a number is a statement about its significand and exponent.

An operation computes its exact result as a ratio of naturals and rounds once, to the nearest
number and on a tie to the one with an even significand (`Number.ofRatio`). Comparison reads both
operands as positions on one line of integers (`Number.position?`), on which the two zeros
coincide and not-a-number has no place.
-/

namespace TemplateFlow

/-- `mantissa * 2 ^ exponent` is written in the one form chosen for its value: the least exponent
for small mantissas, otherwise a mantissa of exactly 53 bits. -/
def Canonical (mantissa : Nat) (exponent : Int) : Prop :=
  mantissa < Nat.pow 2 53 ∧
    (exponent = -1074 ∨ (Nat.pow 2 52 ≤ mantissa ∧ -1074 ≤ exponent ∧ exponent ≤ 971))

instance (mantissa : Nat) (exponent : Int) : Decidable (Canonical mantissa exponent) :=
  inferInstanceAs (Decidable (_ ∧ _))

/-- There is a least exponent. -/
theorem Canonical.least {mantissa : Nat} {exponent : Int} (h : Canonical mantissa exponent) :
    -1074 ≤ exponent := by
  rcases h.2 with rfl | ⟨-, h, -⟩ <;> omega

/-- A number of the expression language. A finite number is `± mantissa * 2 ^ exponent`; zero
keeps its sign. -/
inductive Number where
  | nan
  | infinity (negative : Bool)
  | finite (negative : Bool) (mantissa : Nat) (exponent : Int)
      (canonical : Canonical mantissa exponent)
  deriving DecidableEq

namespace Number

/-! ## Constants and signs -/

/-- Zero of the given sign. -/
def zero (negative : Bool) : Number :=
  .finite negative 0 (-1074) ⟨by decide, .inl rfl⟩

instance : Inhabited Number := ⟨zero false⟩

/-- The number of the opposite sign; not-a-number has none and stays. -/
def neg : Number → Number
  | .nan => .nan
  | .infinity s => .infinity !s
  | .finite s m e h => .finite (!s) m e h

instance : Neg Number := ⟨neg⟩

/-- Zero of either sign. -/
def isZero : Number → Bool
  | .finite _ m _ _ => m == 0
  | _ => false

def isNaN : Number → Bool
  | .nan => true
  | _ => false

def isFinite : Number → Bool
  | .finite .. => true
  | _ => false

/-! ## Rounding -/

/-- The nearest natural to `num / den`, the even one of two that are equally near. -/
def roundHalfEven (num den : Nat) : Nat :=
  let q := num / den
  let twice := 2 * (num % den)
  if twice < den then q
  else if den < twice then q + 1
  else q + q % 2

/-- The number `± mantissa * 2 ^ exponent`, where a mantissa of `2 ^ 53` carries into the exponent
and a value beyond the largest finite number is infinite. -/
def ofScaled (negative : Bool) (mantissa : Nat) (exponent : Int) : Number :=
  let (m, e) :=
    if mantissa = Nat.pow 2 53 then (Nat.pow 2 52, exponent + 1) else (mantissa, exponent)
  if h : Canonical m e then .finite negative m e h else .infinity negative

/-- `num / (den * 2 ^ exponent)` as a ratio of naturals. -/
def scaledRatio (num den : Nat) (exponent : Int) : Nat × Nat :=
  if exponent < 0 then (num * Nat.pow 2 (-exponent).toNat, den)
  else (num, den * Nat.pow 2 exponent.toNat)

/-- The exponent at which `num / den` is rounded: the value has 53 bits above it, or the exponent
is the least there is. -/
def roundingExponent (num den : Nat) : Int :=
  let e := max ((num.log2 : Int) - den.log2 - 53) (-1074)
  let (n, d) := scaledRatio num den e
  if n / d < Nat.pow 2 53 then e else e + 1

/-- The number nearest to `± num / den`, with an even mantissa on a tie; the sign is kept on a
result of zero. -/
def ofRatio (negative : Bool) (num den : Nat) : Number :=
  if num = 0 then zero negative
  else
    let e := roundingExponent num den
    let (n, d) := scaledRatio num den e
    ofScaled negative (roundHalfEven n d) e

/-- The number nearest to `± mantissa * 2 ^ exponent`. -/
def ofDyadic (negative : Bool) (mantissa : Nat) (exponent : Int) : Number :=
  let (n, d) := scaledRatio mantissa 1 (-exponent)
  ofRatio negative n d

/-- The number nearest to an integer. -/
def ofInt (n : Int) : Number :=
  ofRatio (n < 0) n.natAbs 1

/-- The number nearest to a natural. -/
def ofNat (n : Nat) : Number :=
  ofRatio false n 1

instance (n : Nat) : OfNat Number n := ⟨ofNat n⟩

/-! ## Exact views -/

/-- The integer that a sign and a magnitude name. -/
def signed (negative : Bool) (magnitude : Nat) : Int :=
  if negative then -(magnitude : Int) else magnitude

/-- Where a number stands on the line of integers whose unit is `2 ^ -1074`; the infinities stand
beyond every finite number and not-a-number nowhere. -/
def position? : Number → Option Int
  | .nan => none
  | .infinity s => some (signed s (Nat.pow 2 2100))
  | .finite s m e _ => some (signed s (m * Nat.pow 2 (e + 1074).toNat))

/-- The integer a number is equal to, if it is integral. -/
def toInt? : Number → Option Int
  | .finite s m e _ =>
    if 0 ≤ e then some (signed s (m * Nat.pow 2 e.toNat))
    else if m % Nat.pow 2 (-e).toNat = 0 then some (signed s (m / Nat.pow 2 (-e).toNat))
    else none
  | _ => none

/-! ## Comparison -/

/-- Equality as the language decides it: the zeros are equal, not-a-number equals nothing. -/
def eq (x y : Number) : Bool :=
  match x.position?, y.position? with
  | some a, some b => a == b
  | _, _ => false

/-- Strict order; not-a-number is not comparable. -/
def lt (x y : Number) : Bool :=
  match x.position?, y.position? with
  | some a, some b => a < b
  | _, _ => false

/-- Order up to equality; not-a-number is not comparable. -/
def le (x y : Number) : Bool :=
  match x.position?, y.position? with
  | some a, some b => a ≤ b
  | _, _ => false

/-! ## Arithmetic -/

/-- A finite number scaled to an exponent not above its own, as a signed integer. -/
def scaledTo (negative : Bool) (mantissa : Nat) (exponent least : Int) : Int :=
  signed negative (mantissa * Nat.pow 2 (exponent - least).toNat)

/-- Sum, rounded once. A sum of opposite values is positive zero. -/
def add : Number → Number → Number
  | .nan, _ | _, .nan => .nan
  | .infinity s, .infinity t => if s = t then .infinity s else .nan
  | .infinity s, _ => .infinity s
  | _, .infinity t => .infinity t
  | .finite s m e _, .finite t n f _ =>
    let least := min e f
    let sum := scaledTo s m e least + scaledTo t n f least
    if sum = 0 then zero (s && t) else ofDyadic (sum < 0) sum.natAbs least

/-- Difference, rounded once. -/
def sub (x y : Number) : Number := add x (neg y)

/-- Product, rounded once. -/
def mul : Number → Number → Number
  | .nan, _ | _, .nan => .nan
  | .infinity s, .infinity t => .infinity (s != t)
  | .infinity s, .finite t n _ _ => if n = 0 then .nan else .infinity (s != t)
  | .finite s m _ _, .infinity t => if m = 0 then .nan else .infinity (s != t)
  | .finite s m e _, .finite t n f _ => ofDyadic (s != t) (m * n) (e + f)

/-- Quotient, rounded once. A finite nonzero number over zero is infinite. -/
def div : Number → Number → Number
  | .nan, _ | _, .nan => .nan
  | .infinity _, .infinity _ => .nan
  | .infinity s, .finite t _ _ _ => .infinity (s != t)
  | .finite s _ _ _, .infinity t => zero (s != t)
  | .finite s m e _, .finite t n f _ =>
    if n = 0 then if m = 0 then .nan else .infinity (s != t)
    else
      let (num, den) := scaledRatio m n (f - e)
      ofRatio (s != t) num den

/-- Remainder of the division truncated toward zero: exact, with the sign of the dividend. -/
def mod : Number → Number → Number
  | .nan, _ | _, .nan => .nan
  | .infinity _, _ => .nan
  | x, .infinity _ => x
  | .finite s m e _, .finite _ n f _ =>
    if n = 0 then .nan
    else
      let least := min e f
      ofDyadic s ((m * Nat.pow 2 (e - least).toNat) % (n * Nat.pow 2 (f - least).toNat)) least

instance : Add Number := ⟨add⟩
instance : Sub Number := ⟨sub⟩
instance : Mul Number := ⟨mul⟩
instance : Div Number := ⟨div⟩
instance : Mod Number := ⟨mod⟩

end Number

end TemplateFlow
