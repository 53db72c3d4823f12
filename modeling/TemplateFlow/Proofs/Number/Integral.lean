import TemplateFlow.Proofs.Number.Equality
import TemplateFlow.Proofs.Number.Nearest

/-!
# Integers as numbers

A number is integral exactly if its value is an integer (`toInt?_eq_some_iff`), and finite numbers
of one value are equal for the language (`eq_of_value?_eq`). The integers up to `2 ^ 53` are not
changed by rounding (`value?_ofInt`), so a small integral number is the one made of its integer
(`ofInt_eq_of_toSmallInt?`). From `2 ^ 53` on the numbers that are made of naturals stay there
(`ofNat_of_le`).
-/

namespace TemplateFlow

namespace Number

variable {x y : Number} {n : ℤ}

/-! ## Values and places -/

/-- The place of a finite number is its value in units of `2 ^ -1074`. -/
theorem exists_position?_eq {v : ℚ} (h : x.value? = some v) :
    ∃ place : ℤ, x.position? = some place ∧ (place : ℚ) = v * 2 ^ (1074 : ℤ) := by
  cases x with
  | nan | infinity s => cases h
  | finite s m e hc =>
    rw [value?, Option.some.injEq] at h
    have hleast := hc.least
    refine ⟨_, by rw [position?], ?_⟩
    -- Places are counted in units of the least number.
    have hunits : (2 : ℚ) ^ (e + 1074).toNat = 2 ^ e * 2 ^ (1074 : ℤ) := by
      rw [← two_zpow_of_nonneg (by omega), zpow_add₀ (by norm_num)]
    rw [← h, Nat.pow_eq, signed]
    generalize (2 : ℚ) ^ (1074 : ℤ) = unit at hunits ⊢
    generalize (e + 1074).toNat = k at hunits ⊢
    cases s with
    | false => simp [hunits, mul_assoc]
    | true => simp [hunits, mul_assoc]

/-- Numbers of one value are equal. -/
theorem eq_of_value?_eq {v : ℚ} (hx : x.value? = some v) (hy : y.value? = some v) :
    x.eq y = true := by
  obtain ⟨place, hplace, heq⟩ := exists_position?_eq hx
  obtain ⟨place', hplace', heq'⟩ := exists_position?_eq hy
  obtain rfl : place = place' := by exact_mod_cast heq.trans heq'.symm
  exact eq_iff_position?.mpr ⟨place, hplace, hplace'⟩

/-! ## Integral numbers -/

/-- An integer that is the value of a number has its magnitude and its sign. -/
theorem magnitude_eq {s : Bool} {m : ℕ} {e : ℤ} {hc : Canonical m e}
    (h : (finite s m e hc).value? = some (n : ℚ)) :
    (m : ℚ) * 2 ^ e = n.natAbs ∧ n = signed s n.natAbs := by
  rw [value?, Option.some.injEq] at h
  have hnonneg : (0 : ℚ) ≤ m * 2 ^ e := by positivity
  -- The sign of the number is that of the integer.
  have habs : (n.natAbs : ℚ) = |(n : ℚ)| := by rw [Nat.cast_natAbs, Int.cast_abs]
  cases s with
  | false =>
    have heq : (m : ℚ) * 2 ^ e = n := h
    have hn : 0 ≤ n := by exact_mod_cast heq ▸ hnonneg
    exact ⟨by rw [habs, ← heq, abs_of_nonneg hnonneg], (Int.natAbs_of_nonneg hn).symm⟩
  | true =>
    have heq : -((m : ℚ) * 2 ^ e) = n := h
    have hn : (n : ℚ) ≤ 0 := by linarith
    refine ⟨by rw [habs, ← heq, abs_neg, abs_of_nonneg hnonneg], ?_⟩
    exact Int.eq_neg_natAbs_of_nonpos (by exact_mod_cast hn)

/-- A number with an integral value is that integer. -/
theorem toInt?_of_value? (h : x.value? = some (n : ℚ)) : x.toInt? = some n := by
  cases x with
  | nan | infinity s => cases h
  | finite s m e hc =>
    obtain ⟨hm, hn⟩ := magnitude_eq h
    rw [toInt?]
    split
    · rename_i he
      rw [two_zpow_of_nonneg he] at hm
      rw [Nat.pow_eq, show m * 2 ^ e.toNat = n.natAbs by exact_mod_cast hm, ← hn]
    · -- The mantissa is a multiple of the power that the exponent divides by.
      rename_i he
      rw [two_zpow_of_nonpos (by omega), ← div_eq_mul_inv, div_eq_iff (by positivity)] at hm
      have hm' : m = n.natAbs * 2 ^ (-e).toNat := by exact_mod_cast hm
      rw [Nat.pow_eq, hm', if_pos (Nat.mul_mod_left _ _),
        Nat.mul_div_cancel _ (Nat.two_pow_pos _), ← hn]

/-- Integral are the numbers whose value is an integer. -/
theorem toInt?_eq_some_iff : x.toInt? = some n ↔ x.value? = some (n : ℚ) :=
  ⟨value?_of_toInt?, toInt?_of_value?⟩

/-! ## Integers that are not rounded -/

/-- An integer up to `2 ^ 53` is the value of the number made of it. -/
theorem value?_ofInt (h : n.natAbs ≤ 2 ^ 53) : (ofInt n).value? = some (n : ℚ) := by
  have hbound : |(n : ℚ)| < 2 ^ (1023 : ℤ) := by
    rw [← Int.cast_abs, Int.abs_eq_natAbs, Int.cast_natCast]
    calc (n.natAbs : ℚ) ≤ 2 ^ (53 : ℤ) := by exact_mod_cast h
      _ < 2 ^ (1023 : ℤ) := zpow_lt_zpow_right₀ (by norm_num) (by decide)
  obtain ⟨v, hv⟩ := isNearest_ofInt hbound
  obtain ⟨y, hy⟩ := exists_value?_eq_intCast h
  rw [hv.value, hv.eq_of_value? hy]

theorem ofInt_natCast (k : ℕ) : ofInt k = ofNat k := by
  rw [ofInt, ofNat, decide_eq_false (by omega), Int.natAbs_natCast]

/-- Naturals up to `2 ^ 53` are not rounded. -/
theorem value?_ofNat {k : ℕ} (h : k ≤ 2 ^ 53) : (ofNat k).value? = some (k : ℚ) := by
  rw [← ofInt_natCast, value?_ofInt (by rwa [Int.natAbs_natCast]), Int.cast_natCast]

/-- Small integers are the integral values below `2 ^ 53`. -/
theorem toSmallInt?_eq_some_iff :
    x.toSmallInt? = some n ↔ x.value? = some (n : ℚ) ∧ n.natAbs < 2 ^ 53 := by
  rw [toSmallInt?, Option.filter_eq_some_iff, toInt?_eq_some_iff, decide_eq_true_eq]
  rfl

/-- A small integral number is equal to the number made of its integer. -/
theorem ofInt_eq_of_toSmallInt? (h : x.toSmallInt? = some n) : (ofInt n).eq x = true := by
  obtain ⟨hvalue, hsmall⟩ := toSmallInt?_eq_some_iff.mp h
  exact eq_of_value?_eq (value?_ofInt hsmall.le) hvalue

/-! ## Naturals that may be rounded -/

/-- A mantissa with all of its bits above the point makes a number from `2 ^ 53` on, or infinity. -/
theorem ofScaled_of_le {r : ℕ} {e : ℤ} (hr : 2 ^ 52 ≤ r) (he : 0 < e) :
    ofScaled false r e = .infinity false ∨
      ∃ m f, ∃ hc : Canonical m f, ofScaled false r e = .finite false m f hc ∧
        (2 : ℚ) ^ 53 ≤ m * 2 ^ f := by
  obtain ⟨x, hx⟩ : ∃ x, x = if r = Nat.pow 2 53 then (Nat.pow 2 52, e + 1) else (r, e) := ⟨_, rfl⟩
  -- The carry to a new bit leaves the mantissa and the exponent as large as they were.
  have hlarge : 2 ^ 52 ≤ x.1 ∧ 0 < x.2 := by
    rw [hx]
    split
    · exact ⟨le_refl (2 ^ 52), by omega⟩
    · exact ⟨hr, he⟩
  rw [ofScaled, ← hx]
  by_cases hc : Canonical x.1 x.2
  · refine .inr ⟨x.1, x.2, hc, dif_pos hc, ?_⟩
    have hm : (2 : ℚ) ^ 52 ≤ (x.1 : ℚ) := by exact_mod_cast hlarge.1
    have hunit : (2 : ℚ) ^ (1 : ℤ) ≤ 2 ^ x.2 := zpow_le_zpow_right₀ (by norm_num) hlarge.2
    calc (2 : ℚ) ^ 53 = 2 ^ 52 * 2 ^ (1 : ℤ) := by norm_num
      _ ≤ (x.1 : ℚ) * 2 ^ x.2 := by gcongr
  · exact .inl (dif_neg hc)

/-- From `2 ^ 53` on a natural becomes a number that is no less than that, or infinity. -/
theorem ofNat_of_le {k : ℕ} (h : 2 ^ 53 ≤ k) :
    ofNat k = .infinity false ∨
      ∃ m e, ∃ hc : Canonical m e, ofNat k = .finite false m e hc ∧ (2 : ℚ) ^ 53 ≤ m * 2 ^ e := by
  have hk : 0 < k := lt_of_lt_of_le (by decide) h
  have hscale := atScale_roundingExponent hk Nat.one_pos
  set e := roundingExponent k 1
  obtain ⟨hd, hratio⟩ := scaledRatio_spec k Nat.one_pos e
  have hr := nearest_roundHalfEven (scaledRatio k 1 e).1 hd
  rw [hratio] at hr
  -- The natural has more than 53 bits, so some of them are below the unit that it is rounded to.
  have he : 0 < e := by
    have hlow : (2 : ℚ) ^ (53 : ℤ) ≤ k / (1 : ℕ) := by
      rw [Nat.cast_one, div_one]
      exact_mod_cast h
    have hbits := (zpow_lt_zpow_iff_right₀ (by norm_num)).mp (hlow.trans_lt hscale.upper)
    omega
  rw [ofNat, ofRatio_eq hk Nat.one_pos hscale hr]
  exact ofScaled_of_le ((hscale.mantissa_bounds hr).2.resolve_left (by omega)) he

end Number

end TemplateFlow
