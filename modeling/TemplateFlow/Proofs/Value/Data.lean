import Mathlib.Data.List.Forall2
import TemplateFlow.Proofs.Json.Expression
import TemplateFlow.Proofs.Number.Nearest

/-!
# Data as values and back

Data that becomes a value and then data again keeps its structure, its strings and the names of its
members (`Json.Alike`). A number keeps its value if that is the value of a number of the language;
of the other integers, which data can hold and a value can not, the nearest number is left
(`JsonNumber.ComesBackAs`).

## Main results

* `alike_toJson_ofJson`: what data is after it has been a value.
* `not_alike_toJson_ofJson`: it need not be the same data, from `2 ^ 53 + 1` on.
-/

namespace TemplateFlow

namespace JsonNumber

/-- The numbers that data can hold are the integers of 64 bits, with a sign or without one, and the
finite floating-point numbers. -/
def InRange : JsonNumber → Prop
  | .int n => -2 ^ 63 ≤ n ∧ n < 2 ^ 64
  | .float x => x.isFinite = true

instance : DecidablePred InRange
  | .int _ => inferInstanceAs (Decidable (_ ∧ _))
  | .float _ => inferInstanceAs (Decidable (_ = true))

/-- The exact value. -/
def value? : JsonNumber → Option ℚ
  | .int n => some (n : ℚ)
  | .float x => x.value?

/-- `k` is what the number `n` may become where there are only numbers of the language: one of the
same value if the language has it, as it has the integers up to `2 ^ 53`, and else the nearest. -/
structure ComesBackAs (n k : JsonNumber) : Prop where
  exact : ∀ x : Number, x.value? = n.value? → k.value? = n.value?
  small : ∀ i, n = .int i → i.natAbs ≤ 2 ^ 53 → k.value? = n.value?
  nearest : ∃ x q v, n.value? = some q ∧ k.value? = some v ∧ Number.IsNearest x q v

/-- A number in range becomes the nearest number that there is. -/
theorem isNearest_toNumber {n : JsonNumber} (h : n.InRange) :
    ∃ q v, n.value? = some q ∧ n.toNumber.IsNearest q v := by
  cases n with
  | int n =>
    have hbound : |(n : ℚ)| < 2 ^ (1023 : ℤ) := by
      -- An integer of 64 bits is far below the place of the infinities.
      obtain ⟨hlow, hhigh⟩ := h
      have habs : |n| ≤ 2 ^ 64 := abs_le.mpr ⟨by omega, by omega⟩
      calc |(n : ℚ)| ≤ 2 ^ (64 : ℤ) := by exact_mod_cast habs
        _ < 2 ^ (1023 : ℤ) := zpow_lt_zpow_right₀ (by norm_num) (by decide)
    obtain ⟨v, hv⟩ := Number.isNearest_ofInt hbound
    exact ⟨n, v, rfl, hv⟩
  | float x =>
    cases x with
    | nan | infinity s => cases h
    | finite s m e hc => exact ⟨_, _, rfl, Number.isNearest_self rfl⟩

end JsonNumber

/-- The data form of a finite number has its value. -/
theorem Number.exists_toJson_eq {x : Number} {v : ℚ} (h : x.value? = some v) :
    ∃ k : JsonNumber, x.toJson = .num k ∧ k.value? = some v := by
  cases hsmall : x.toSmallInt? with
  | some n =>
    obtain ⟨hint, -⟩ := Option.filter_eq_some_iff.mp hsmall
    refine ⟨.int n, by rw [toJson, hsmall]; rfl, ?_⟩
    rw [← h, value?_of_toInt? hint]
    rfl
  | none =>
    cases x with
    | nan | infinity s => cases h
    | finite s m e hc => exact ⟨.float (finite s m e hc), by rw [toJson, hsmall]; rfl, h⟩

/-- A number in range comes back as a number of the data. -/
theorem JsonNumber.exists_comesBackAs {n : JsonNumber} (h : n.InRange) :
    ∃ k, n.toNumber.toJson = .num k ∧ n.ComesBackAs k := by
  obtain ⟨q, v, hq, hnear⟩ := isNearest_toNumber h
  obtain ⟨k, hk, hvalue⟩ := Number.exists_toJson_eq hnear.value
  have hexact : ∀ x : Number, x.value? = n.value? → k.value? = n.value? := by
    intro x hx
    rw [hvalue, hq, hnear.eq_of_value? (hx.trans hq)]
  refine ⟨k, hk, hexact, fun i hi hsmall => ?_, n.toNumber, q, v, hq, hvalue, hnear⟩
  obtain ⟨x, hx⟩ := Number.exists_value?_eq_intCast hsmall
  exact hexact x (by rw [hx, hi]; rfl)

namespace Json

/-- Data of one structure, with the same strings and the same names of members, and with numbers
that a relation holds between. -/
inductive Alike (R : JsonNumber → JsonNumber → Prop) : Json → Json → Prop where
  | null : Alike R .null .null
  | bool (b : Bool) : Alike R (.bool b) (.bool b)
  | num {n k : JsonNumber} (h : R n k) : Alike R (.num n) (.num k)
  | str (s : String) : Alike R (.str s) (.str s)
  | arr {items items' : List Json} (h : List.Forall₂ (Alike R) items items') :
      Alike R (.arr items) (.arr items')
  | obj {members members' : Dictionary Json} (hnames : members.keys = members'.keys)
      (h : List.Forall₂ (Alike R) (members.map (·.2)) (members'.map (·.2))) :
      Alike R (.obj members) (.obj members')

end Json

namespace Value

/-- Items go there and back one by one. -/
theorem toJsonAll_ofJsonAll (items : List Json) :
    toJsonAll (ofJsonAll items) = items.map fun item => (ofJson item).toJson := by
  induction items with
  | nil => rfl
  | cons item items ih => rw [ofJsonAll, toJsonAll, ih, List.map_cons]

/-- Members go there and back one by one, under their names. -/
theorem toJsonFields_ofJsonMembers (members : Dictionary Json) :
    toJsonFields (ofJsonMembers members) = members.mapValues fun data => (ofJson data).toJson := by
  induction members with
  | nil => rfl
  | cons m members ih =>
    rw [ofJsonMembers, toJsonFields, ih]
    rfl

/-- Data comes back as its numbers do. -/
theorem alike_of_numbers {R : JsonNumber → JsonNumber → Prop} :
    ∀ {data : Json}, (∀ n, data.Holds n → ∃ k, n.toNumber.toJson = .num k ∧ R n k) →
      Json.Alike R data (ofJson data).toJson
  | .null, _ => .null
  | .bool b, _ => .bool b
  | .num n, h => by
    obtain ⟨k, hk, hback⟩ := h n (.num n)
    rw [ofJson, toJson, hk]
    exact .num hback
  | .str s, _ => .str s
  | .arr items, h => by
    rw [ofJson, toJson, toJsonAll_ofJsonAll]
    refine .arr (List.forall₂_map_right_iff.mpr (List.forall₂_same.mpr fun item hitem => ?_))
    exact alike_of_numbers fun n hn => h n (.item hitem hn)
  | .obj members, h => by
    rw [ofJson, toJson, toJsonFields_ofJsonMembers]
    refine .obj ?_ ?_
    · -- The names stay what they are, and the values are converted one by one.
      rw [Dictionary.keys, Dictionary.keys, Dictionary.mapValues, List.map_map]
      rfl
    · rw [Dictionary.mapValues, List.map_map, List.forall₂_map_left_iff, List.forall₂_map_right_iff,
        List.forall₂_same]
      intro m hm
      have := Dictionary.sizeOf_snd_lt_of_mem hm
      exact alike_of_numbers fun n hn => h n (.member hm hn)

/-- Data that has been a value is what it was, up to the integers that are no numbers of the
language. -/
theorem alike_toJson_ofJson {data : Json} (h : ∀ n, data.Holds n → n.InRange) :
    Json.Alike JsonNumber.ComesBackAs data (ofJson data).toJson :=
  alike_of_numbers fun n hn => JsonNumber.exists_comesBackAs (h n hn)

/-- A member with integers above `2 ^ 53`, and one with the zero that has a sign. -/
def sampleNumbers : Json :=
  .obj [("large", .arr [.int 9007199254740993, .int 18446744073709551615, .int (-2 ^ 63)]),
    ("small", .arr [.num (.float (Number.zero true)), .int (-7), .null])]

theorem alike_toJson_ofJson_sampleNumbers :
    (∀ n, sampleNumbers.Holds n → n.InRange) ∧
      Json.Alike JsonNumber.ComesBackAs sampleNumbers (ofJson sampleNumbers).toJson := by
  have h : ∀ n, sampleNumbers.Holds n → n.InRange := by
    intro n hn
    simp only [sampleNumbers, Json.int, Json.holds_obj, List.mem_cons, List.not_mem_nil, or_false,
      exists_eq_or_imp, Json.holds_arr, Json.holds_num, ↓existsAndEq, true_and,
      Json.not_holds_null, and_false] at hn
    rcases hn with (rfl | rfl | rfl) | rfl | rfl <;> decide
  exact ⟨h, alike_toJson_ofJson h⟩

/-- The first integer that is no number of the language comes back as the one before it. -/
theorem not_alike_toJson_ofJson :
    (∀ n, (Json.int 9007199254740993).Holds n → n.InRange) ∧
      ¬ Json.Alike (fun n k => k.value? = n.value?) (.int 9007199254740993)
        (ofJson (.int 9007199254740993)).toJson := by
  constructor
  · intro n hn
    cases hn
    exact ⟨by decide, by decide⟩
  · have hc : Canonical (2 ^ 52) 1 := by decide
    -- The natural is halfway between two numbers, and the even one is below it.
    have hround : Number.ofInt 9007199254740993 = .finite false (2 ^ 52) 1 hc := by decide +revert
    have hvalue : (Number.ofInt 9007199254740993).value? = some 9007199254740992 := by
      rw [hround, Number.value?]
      norm_num
    intro h
    obtain ⟨k, hk, hkvalue⟩ := Number.exists_toJson_eq hvalue
    rw [show (ofJson (.int 9007199254740993)).toJson = .num k from hk] at h
    cases h with
    | num hsame =>
      rw [hkvalue, JsonNumber.value?, Option.some.injEq] at hsame
      norm_num at hsame

end Value

end TemplateFlow
