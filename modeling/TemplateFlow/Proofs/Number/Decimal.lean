import TemplateFlow.Proofs.Number.Rounding

/-!
# Reading back decimal digits

Reading rounds the rational that digits and an exponent stand for (`ofDecimal_eq`); that very large
and very small ones are settled without it makes no difference. So what is read depends on that
rational alone (`ofDecimal_congr`).

Writing chooses digits that stand for a rational in the interval of the number (`shortest_spec`), so
they are read back as the number (`ofDecimal_shortest`). There is always a choice: seventeen digits
leave steps that are narrower than the interval (`exists_nearestAt?`).
-/

namespace TemplateFlow

namespace Number

/-! ## Counts of digits -/

theorem digitCount_pos (n : ℕ) : 0 < digitCount n := Nat.length_toDigits_pos

/-- A natural is below the power of ten of its number of digits. -/
theorem lt_pow_digitCount (n : ℕ) : n < 10 ^ digitCount n :=
  (Nat.length_toDigits_le_iff (by decide) (digitCount_pos n)).mp le_rfl

theorem pow_le_of_digitCount {n : ℕ} (hn : 0 < n) : 10 ^ (digitCount n - 1) ≤ n := by
  rcases Nat.eq_or_lt_of_le (digitCount_pos n) with h | h
  · rw [← h]
    exact hn
  · by_contra hlt
    have := (Nat.length_toDigits_le_iff (by decide) (by omega : 0 < digitCount n - 1)).mpr
      (not_le.mp hlt)
    rw [digitCount] at h this
    omega

/-- A decimal lies in the decade that its count of digits and its exponent tell. -/
theorem decimal_bounds {digits : ℕ} (hdigits : 0 < digits) (p : ℤ) :
    (10 : ℚ) ^ (digitCount digits + p - 1) ≤ digits * 10 ^ p ∧
      (digits : ℚ) * 10 ^ p < 10 ^ (digitCount digits + p) := by
  have hcount := digitCount_pos digits
  have hpow : (0 : ℚ) < 10 ^ p := by positivity
  have hlow : (10 : ℚ) ^ (digitCount digits - 1) ≤ digits := by
    exact_mod_cast pow_le_of_digitCount hdigits
  have hhigh : (digits : ℚ) < 10 ^ digitCount digits := by
    exact_mod_cast lt_pow_digitCount digits
  -- Moving the point by `p` places multiplies both bounds for the digits.
  constructor
  · calc (10 : ℚ) ^ (digitCount digits + p - 1) = 10 ^ (digitCount digits - 1) * 10 ^ p := by
          rw [← zpow_natCast, ← zpow_add₀ (by norm_num)]
          congr 1
          omega
      _ ≤ digits * 10 ^ p := by gcongr
  · calc (digits : ℚ) * 10 ^ p < 10 ^ digitCount digits * 10 ^ p := by gcongr
      _ = 10 ^ (digitCount digits + p) := by rw [← zpow_natCast, ← zpow_add₀ (by norm_num)]

/-! ## Reading -/

/-- Digits with a point among them are a ratio of naturals. -/
theorem exists_ratio (digits : ℕ) (p : ℤ) :
    ∃ num den : ℕ, 0 < den ∧ (num : ℚ) / den = digits * 10 ^ p := by
  obtain ⟨n, rfl | rfl⟩ := p.eq_nat_or_neg
  · exact ⟨digits * 10 ^ n, 1, by decide, by push_cast; simp⟩
  · refine ⟨digits, 10 ^ n, by positivity, ?_⟩
    push_cast
    rw [zpow_neg, zpow_natCast]
    rfl

theorem two_pow_le_ten_pow : (2 : ℚ) ^ (1024 : ℤ) ≤ 10 ^ (310 : ℤ) := by
  have h : 2 ^ 1024 ≤ 10 ^ 310 := by decide +kernel
  rw [zpow_ofNat, zpow_ofNat]
  exact_mod_cast h

theorem ten_pow_le_two_pow : (10 : ℚ) ^ (-331 : ℤ) ≤ 2 ^ (-1075 : ℤ) := by
  have h : 2 ^ 1075 ≤ 10 ^ 331 := by decide +kernel
  rw [zpow_neg, zpow_neg, zpow_ofNat, zpow_ofNat]
  exact inv_anti₀ (by positivity) (by exact_mod_cast h)

/-- Digits and an exponent are read as the rational that they stand for. -/
theorem ofDecimal_eq {digits num den : ℕ} {p : ℤ} (hden : 0 < den)
    (h : (num : ℚ) / den = digits * 10 ^ p) (negative : Bool) :
    ofDecimal negative digits p = ofRatio negative num den := by
  rcases Nat.eq_zero_or_pos digits with rfl | hdigits
  · rw [Nat.cast_zero, zero_mul] at h
    rw [num_eq_zero_of_div_eq_zero hden h]
    rfl
  have hpos : (0 : ℚ) < num / den := by
    rw [h]
    positivity
  have hnum : 0 < num := num_pos_of_div_pos hpos
  obtain ⟨hlow, hhigh⟩ := decimal_bounds hdigits p
  rw [ofDecimal, if_neg hdigits.ne']
  simp only
  split
  · -- Beyond all numbers.
    have hpow : (10 : ℚ) ^ (310 : ℤ) ≤ 10 ^ (digitCount digits + p - 1) :=
      zpow_le_zpow_right₀ (by norm_num) (by omega)
    have hge := two_pow_le_ten_pow.trans (hpow.trans hlow)
    rw [← h] at hge
    exact (ofRatio_eq_infinity hden hge negative).symm
  split
  · -- Less than half of the least number.
    have hpow : (10 : ℚ) ^ (digitCount digits + p) ≤ 10 ^ (-331 : ℤ) :=
      zpow_le_zpow_right₀ (by norm_num) (by omega)
    have hlt := hhigh.trans_le (hpow.trans ten_pow_le_two_pow)
    rw [← h] at hlt
    exact (ofRatio_eq_zero hnum hden hlt negative).symm
  split
  · rename_i hp
    -- The power of ten goes into the numerator.
    refine ofRatio_congr (by decide) hden ?_ negative
    rw [h, Nat.pow_eq]
    push_cast
    rw [div_one, ← zpow_natCast, Int.toNat_of_nonneg hp]
  · rename_i hp
    -- The power of ten goes into the denominator.
    refine ofRatio_congr (Nat.pow_pos (by decide)) hden ?_ negative
    rw [h, Nat.cast_pow, ← zpow_natCast, Int.toNat_of_nonneg (by omega), zpow_neg]
    push_cast
    rw [div_inv_eq_mul]

/-- What is read depends on the rational alone. -/
theorem ofDecimal_congr {digits digits' : ℕ} {p p' : ℤ}
    (h : (digits : ℚ) * 10 ^ p = digits' * 10 ^ p') (negative : Bool) :
    ofDecimal negative digits p = ofDecimal negative digits' p' := by
  obtain ⟨num, den, hden, hratio⟩ := exists_ratio digits p
  rw [ofDecimal_eq hden hratio, ofDecimal_eq hden (hratio.trans h)]

/-- Digits without an exponent are read as the natural that they are. -/
theorem ofDecimal_zero_right (negative : Bool) (n : ℕ) :
    ofDecimal negative n 0 = ofRatio negative n 1 :=
  ofDecimal_eq (by decide) (by simp) negative

/-! ## The interval of a number -/

namespace RoundingInterval

variable {m : ℕ} {e : ℤ}

/-- The ends and the middle of the interval, in units of the number. -/
theorem of_spec (hm : 0 < m) (e : ℤ) :
    0 < (of m e).den ∧ ((of m e).low : ℚ) / (of m e).den = (m - reach m e) * 2 ^ e ∧
      ((of m e).mid : ℚ) / (of m e).den = m * 2 ^ e ∧
      ((of m e).high : ℚ) / (of m e).den = (m + 1 / 2) * 2 ^ e := by
  -- The lower end is counted in quarters of a unit, as the number below a power of two is nearer.
  have hlow : ((4 * m - if m = Nat.pow 2 52 ∧ -1074 < e then 1 else 2 : ℕ) : ℚ) =
      4 * (m - reach m e) := by
    rw [reach]
    simp only [Nat.pow_eq]
    split
    · rw [Nat.cast_sub (by omega)]
      push_cast
      ring
    · rw [Nat.cast_sub (by omega)]
      push_cast
      ring
  simp only [of]
  by_cases he : 0 ≤ e
  · -- The unit is a natural, and the denominator is that of the quarters.
    obtain ⟨n, rfl⟩ := Int.eq_ofNat_of_zero_le he
    simp only [if_pos he, Nat.pow_eq, Int.toNat_natCast, zpow_natCast]
    refine ⟨by decide, ?_, ?_, ?_⟩
    · rw [Nat.cast_mul, hlow]
      push_cast
      ring
    · push_cast
      ring
    · push_cast
      ring
  · -- The unit goes into the denominator.
    obtain ⟨n, rfl⟩ : ∃ n : ℕ, e = -n := ⟨(-e).toNat, by omega⟩
    simp only [if_neg he, Nat.pow_eq, neg_neg, Int.toNat_natCast, Nat.mul_one, zpow_neg,
      zpow_natCast]
    refine ⟨by positivity, ?_, ?_, ?_⟩
    · rw [hlow]
      push_cast
      field_simp
    · push_cast
      field_simp
    · push_cast
      field_simp
      ring

/-- The interval holds the rationals that are rounded to the number. -/
theorem contains_iff (hm : 0 < m) {num scale : ℕ} (hscale : 0 < scale) {q : ℚ}
    (hq : (num : ℚ) / ((of m e).den * scale) = q) :
    (of m e).contains num scale = true ↔ RoundsTo q m e := by
  obtain ⟨hden, hlow, -, hhigh⟩ := of_spec hm e
  have hd : (0 : ℚ) < (of m e).den := by exact_mod_cast hden
  have hs : (0 : ℚ) < scale := by exact_mod_cast hscale
  have hunit : (0 : ℚ) < 2 ^ e := by positivity
  have hnum : (num : ℚ) = q * ((of m e).den * scale) := by
    rw [← hq, div_mul_cancel₀ _ (by positivity)]
  have hlow' : ((of m e).low : ℚ) = (m - reach m e) * 2 ^ e * (of m e).den := by
    rw [← hlow, div_mul_cancel₀ _ hd.ne']
  have hhigh' : ((of m e).high : ℚ) = (m + 1 / 2) * 2 ^ e * (of m e).den := by
    rw [← hhigh, div_mul_cancel₀ _ hd.ne']
  -- Each comparison is one of the mantissas, scaled up.
  have hlowle : (of m e).low * scale ≤ num ↔ m - reach m e ≤ q / 2 ^ e := by
    rw [← @Nat.cast_le ℚ, Nat.cast_mul, hnum, hlow', le_div_iff₀ hunit, mul_assoc,
      mul_le_mul_iff_of_pos_right (by positivity)]
  have hlowlt : (of m e).low * scale < num ↔ m - reach m e < q / 2 ^ e := by
    rw [← @Nat.cast_lt ℚ, Nat.cast_mul, hnum, hlow', lt_div_iff₀ hunit, mul_assoc,
      mul_lt_mul_iff_of_pos_right (by positivity)]
  have hhighle : num ≤ (of m e).high * scale ↔ q / 2 ^ e ≤ m + 1 / 2 := by
    rw [← @Nat.cast_le ℚ, Nat.cast_mul, hnum, hhigh', div_le_iff₀ hunit, mul_assoc _ _ (scale : ℚ),
      mul_le_mul_iff_of_pos_right (by positivity)]
  have hhighlt : num < (of m e).high * scale ↔ q / 2 ^ e < m + 1 / 2 := by
    rw [← @Nat.cast_lt ℚ, Nat.cast_mul, hnum, hhigh', div_lt_iff₀ hunit, mul_assoc _ _ (scale : ℚ),
      mul_lt_mul_iff_of_pos_right (by positivity)]
  rw [contains]
  split
  · rename_i hclosed
    have heven : m % 2 = 0 := of_decide_eq_true hclosed
    rw [decide_eq_true_eq, hlowle, hhighle]
    exact ⟨fun h => ⟨h.1, h.2, fun _ => heven⟩, fun h => ⟨h.lower, h.upper⟩⟩
  · rename_i hclosed
    have hodd : m % 2 ≠ 0 := fun h => hclosed (decide_eq_true h)
    rw [decide_eq_true_eq, hlowlt, hhighlt]
    constructor
    · exact fun h => ⟨h.1.le, h.2.le, fun hends => (hends.elim h.1.ne' h.2.ne).elim⟩
    · exact fun h => ⟨h.lower.lt_of_ne fun heq => hodd (h.even (.inl heq.symm)),
        h.upper.lt_of_ne fun heq => hodd (h.even (.inr heq))⟩

/-- A multiple of a power of ten as a ratio over the denominator of the interval. -/
theorem multiple_eq (hm : 0 < m) (d : ℕ) (place : ℤ) :
    ((d * ((of m e).den * Nat.pow 10 place.toNat) : ℕ) : ℚ) /
      ((of m e).den * (Nat.pow 10 (-place).toNat : ℕ)) = d * 10 ^ place := by
  have hd : ((of m e).den : ℚ) ≠ 0 := by exact_mod_cast (of_spec hm e).1.ne'
  obtain ⟨n, rfl | rfl⟩ := place.eq_nat_or_neg
  · simp only [Nat.pow_eq, Int.toNat_natCast, Int.toNat_neg_natCast, zpow_natCast]
    push_cast
    field_simp
  · simp only [Nat.pow_eq, neg_neg, Int.toNat_natCast, Int.toNat_neg_natCast, zpow_neg,
      zpow_natCast]
    push_cast
    field_simp

/-- A multiple of a power of ten fits if it is rounded to the number. -/
theorem contains_multiple_iff (hm : 0 < m) (place : ℤ) (d : ℕ) :
    (of m e).contains (d * ((of m e).den * Nat.pow 10 place.toNat))
      (Nat.pow 10 (-place).toNat) = true ↔ RoundsTo (d * 10 ^ place) m e :=
  contains_iff hm (Nat.pow_pos (by decide)) (multiple_eq hm d place)

/-- A multiple of a power of ten that is chosen for a number is rounded to it. -/
theorem roundsTo_of_nearestAt? (hm : 0 < m) {tie : Tie} {place : ℤ} {d : ℕ}
    (h : (of m e).nearestAt? tie place = some d) : RoundsTo (d * 10 ^ place) m e := by
  rw [nearestAt?] at h
  split at h
  · rename_i hbelow habove
    -- The nearer one of two that fit is one of them.
    rw [contains_multiple_iff hm] at hbelow habove
    cases h
    split
    · exact hbelow
    · exact habove
    · rw [Tie.choose.eq_def]
      split
      · exact habove
      · split
        · exact hbelow
        · exact habove
  · rename_i hbelow _
    cases h
    exact (contains_multiple_iff hm place _).mp hbelow
  · rename_i _ habove
    cases h
    exact (contains_multiple_iff hm place _).mp habove
  · cases h

/-- The number lies between the multiple that its whole part tells and the next one. -/
theorem neighbours (hm : 0 < m) {place : ℤ} {below : ℕ}
    (hbelow : (of m e).mid * Nat.pow 10 (-place).toNat /
      ((of m e).den * Nat.pow 10 place.toNat) = below) :
    (below : ℚ) * 10 ^ place ≤ m * 2 ^ e ∧ (m : ℚ) * 2 ^ e < (below + 1 : ℕ) * 10 ^ place := by
  obtain ⟨hden, -, hmid, -⟩ := of_spec hm e
  have hscale : 0 < Nat.pow 10 (-place).toNat := Nat.pow_pos (by decide)
  have hscale' : (0 : ℚ) < (Nat.pow 10 (-place).toNat : ℕ) := by exact_mod_cast hscale
  have hden' : (0 : ℚ) < (of m e).den := by exact_mod_cast hden
  have hcommon : (0 : ℚ) < (of m e).den * (Nat.pow 10 (-place).toNat : ℕ) := by positivity
  have hstep : 0 < (of m e).den * Nat.pow 10 place.toNat :=
    Nat.mul_pos hden (Nat.pow_pos (by decide))
  -- Over the common denominator these are the bounds of a whole part.
  have hvalue : (((of m e).mid * Nat.pow 10 (-place).toNat : ℕ) : ℚ) /
      ((of m e).den * (Nat.pow 10 (-place).toNat : ℕ)) = m * 2 ^ e := by
    rw [Nat.cast_mul, mul_div_mul_right _ _ hscale'.ne', hmid]
  constructor
  · rw [← multiple_eq (e := e) hm, ← hvalue, div_le_div_iff_of_pos_right hcommon]
    exact_mod_cast (Nat.le_div_iff_mul_le hstep).mp hbelow.ge
  · rw [← multiple_eq (e := e) hm, ← hvalue, div_lt_div_iff_of_pos_right hcommon]
    exact_mod_cast (Nat.div_lt_iff_lt_mul hstep).mp (by omega)

/-- Of two multiples around a number one is rounded to it, if the step between them is narrower than
the interval. -/
theorem roundsTo_or_roundsTo {place : ℤ} {below : ℕ}
    (h : (10 : ℚ) ^ place < (reach m e + 1 / 2) * 2 ^ e)
    (hle : (below : ℚ) * 10 ^ place ≤ m * 2 ^ e)
    (hlt : (m : ℚ) * 2 ^ e < (below + 1 : ℕ) * 10 ^ place) :
    RoundsTo (below * 10 ^ place) m e ∨ RoundsTo ((below + 1 : ℕ) * 10 ^ place) m e := by
  have hunit : (0 : ℚ) < 2 ^ e := by positivity
  have hreach := reach_pos m e
  rw [← div_le_iff₀ hunit] at hle
  rw [← lt_div_iff₀ hunit] at hlt
  -- If neither is, the step leads from beyond one end to beyond the other.
  by_contra hnone
  rw [not_or] at hnone
  have hlower : (below : ℚ) * 10 ^ place / 2 ^ e ≤ m - reach m e := by
    by_contra hgt
    rw [not_le] at hgt
    exact hnone.1 ⟨hgt.le, by linarith, fun hends => by rcases hends with h | h <;> linarith⟩
  have hupper : (m : ℚ) + 1 / 2 ≤ (below + 1 : ℕ) * 10 ^ place / 2 ^ e := by
    by_contra hgt
    rw [not_le] at hgt
    exact hnone.2 ⟨by linarith, hgt.le, fun hends => by rcases hends with h | h <;> linarith⟩
  rw [div_le_iff₀ hunit] at hlower
  rw [le_div_iff₀ hunit] at hupper
  push_cast at hupper
  linarith

/-- Where the steps between multiples are narrower than the interval there is one to choose. -/
theorem exists_nearestAt? (hm : 0 < m) (tie : Tie) {place : ℤ}
    (h : (10 : ℚ) ^ place < (reach m e + 1 / 2) * 2 ^ e) :
    ∃ d, (of m e).nearestAt? tie place = some d := by
  obtain ⟨below, hbelow⟩ : ∃ below, (of m e).mid * Nat.pow 10 (-place).toNat /
      ((of m e).den * Nat.pow 10 place.toNat) = below := ⟨_, rfl⟩
  obtain ⟨hle, hlt⟩ := neighbours hm hbelow
  -- One of the two neighbours is in the interval, as that is longer than the grid is wide.
  have hsome := roundsTo_or_roundsTo h hle hlt
  rw [← contains_multiple_iff hm, ← contains_multiple_iff hm] at hsome
  rw [nearestAt?]
  simp only [hbelow]
  split
  · exact ⟨_, rfl⟩
  · exact ⟨_, rfl⟩
  · exact ⟨_, rfl⟩
  · rename_i hb ha
    rw [hb, ha] at hsome
    exact absurd hsome (by decide)

end RoundingInterval

/-! ## Writing -/

/-- A ratio is not below its decade. -/
theorem pow_decade_le {num den : ℕ} (hnum : 0 < num) (hden : 0 < den) :
    (10 : ℚ) ^ decade num den ≤ num / den := by
  have hden' : (0 : ℚ) < den := by exact_mod_cast hden
  have hcounts : (10 : ℚ) ^ ((digitCount num : ℤ) - digitCount den - 1) ≤ num / den := by
    have h₁ := (decimal_bounds hnum 0).1
    have h₂ := (decimal_bounds hden 0).2
    rw [zpow_zero, mul_one] at h₁ h₂
    rw [le_div_iff₀ hden']
    calc (10 : ℚ) ^ ((digitCount num : ℤ) - digitCount den - 1) * den
        ≤ 10 ^ ((digitCount num : ℤ) - digitCount den - 1) * 10 ^ ((digitCount den : ℤ) + 0) := by
          gcongr
      _ = 10 ^ ((digitCount num : ℤ) + 0 - 1) := by
          rw [← zpow_add₀ (by norm_num)]
          congr 1
          ring
      _ ≤ num := h₁
  set k : ℤ := (digitCount num : ℤ) - digitCount den with hk
  -- The counts of digits leave two decades, of which a comparison of the two naturals chooses.
  obtain ⟨x, hx⟩ : ∃ x : ℕ × ℕ, x = if 0 ≤ k then (num, den * Nat.pow 10 k.toNat)
      else (num * Nat.pow 10 (-k).toNat, den) := ⟨_, rfl⟩
  have hdecade : decade num den = if x.2 ≤ x.1 then k else k - 1 := by
    rw [hx, hk]
    rfl
  rw [hdecade]
  split
  · rename_i h
    by_cases hsign : 0 ≤ k
    · obtain ⟨n, hn⟩ := Int.eq_ofNat_of_zero_le hsign
      rw [hx, if_pos hsign, hn] at h
      rw [le_div_iff₀ hden', hn, zpow_natCast, mul_comm]
      exact_mod_cast h
    · obtain ⟨n, hn⟩ : ∃ n : ℕ, k = -n := ⟨(-k).toNat, by omega⟩
      rw [hx, if_neg hsign, hn, neg_neg] at h
      rw [le_div_iff₀ hden', hn, zpow_neg, zpow_natCast, inv_mul_le_iff₀ (by positivity), mul_comm]
      exact_mod_cast h
  · exact hcounts

/-- Trailing zeros can be moved into the exponent. -/
theorem trimZeros_spec (fuel digits : ℕ) (p : ℤ) :
    ((trimZeros fuel digits p).1 : ℚ) * 10 ^ (trimZeros fuel digits p).2 = digits * 10 ^ p := by
  induction fuel generalizing digits p with
  | zero => rfl
  | succ fuel ih =>
    rw [trimZeros]
    split
    · -- One zero less, and one power of ten more.
      rename_i h
      have hdiv : (digits : ℚ) = (digits / 10 : ℕ) * 10 := by
        exact_mod_cast (Nat.div_mul_cancel (Nat.dvd_of_mod_eq_zero h.2)).symm
      rw [ih, zpow_add_one₀ (by norm_num), hdiv]
      ring
    · rfl

/-- A finite number is wider than a step of its seventeenth digit. -/
theorem pow_decade_lt {m : ℕ} {e : ℤ} (hm : 0 < m) (hcanonical : Canonical m e) :
    (10 : ℚ) ^ (decade (RoundingInterval.of m e).mid (RoundingInterval.of m e).den - 16) <
      (reach m e + 1 / 2) * 2 ^ e := by
  obtain ⟨hden, -, hmid, -⟩ := RoundingInterval.of_spec hm e
  have hunit : (0 : ℚ) < 2 ^ e := by positivity
  have hpos : (0 : ℚ) < (RoundingInterval.of m e).mid / (RoundingInterval.of m e).den := by
    rw [hmid]
    positivity
  have htop := pow_decade_le (num_pos_of_div_pos hpos) hden
  rw [hmid] at htop
  have hm53 : (m : ℚ) < 2 ^ 53 := by exact_mod_cast hcanonical.1
  -- Sixteen digits and a little more are as many as the mantissa has.
  have hwidth : (m : ℚ) < (reach m e + 1 / 2) * 10 ^ 16 := by
    rw [reach]
    split
    · rename_i h
      rw [h.1]
      norm_num
    · linarith
  rw [zpow_sub₀ (by norm_num), zpow_ofNat, div_lt_iff₀ (by positivity)]
  calc (10 : ℚ) ^ decade (RoundingInterval.of m e).mid (RoundingInterval.of m e).den
      ≤ m * 2 ^ e := htop
    _ < (reach m e + 1 / 2) * 10 ^ 16 * 2 ^ e := by gcongr
    _ = (reach m e + 1 / 2) * 2 ^ e * 10 ^ 16 := by ring

/-- The digits that a number is written with stand for a rational that is rounded to it. -/
theorem shortest_spec {m : ℕ} {e : ℤ} (hm : 0 < m) (hcanonical : Canonical m e) (tie : Tie) :
    RoundsTo ((shortest tie m e).1 * 10 ^ (shortest tie m e).2) m e := by
  rw [shortest]
  simp only
  set top := decade (RoundingInterval.of m e).mid (RoundingInterval.of m e).den
  -- If nothing was found before, the seventeenth digit gives a choice.
  obtain ⟨last, hlast⟩ := RoundingInterval.exists_nearestAt? hm tie (pow_decade_lt hm hcanonical)
  cases hfound : (List.range 17).findSome? fun k =>
      ((RoundingInterval.of m e).nearestAt? tie (top - Int.ofNat k)).map
        fun digits => (digits, top - Int.ofNat k) with
  | none =>
    have hnone := List.findSome?_eq_none_iff.mp hfound 16 (by decide)
    rw [Option.map_eq_none_iff] at hnone
    exact absurd (hlast.symm.trans hnone) (by simp)
  | some x =>
    obtain ⟨k, -, hk⟩ := List.exists_of_findSome?_eq_some hfound
    obtain ⟨digits, hdigits, rfl⟩ := Option.map_eq_some_iff.mp hk
    simp only
    rw [trimZeros_spec]
    exact RoundingInterval.roundsTo_of_nearestAt? hm hdigits

/-- The digits that a number is written with are read back as the number. -/
theorem ofDecimal_shortest {m : ℕ} {e : ℤ} (hm : 0 < m) (hcanonical : Canonical m e) (tie : Tie)
    (negative : Bool) :
    ofDecimal negative (shortest tie m e).1 (shortest tie m e).2 =
      finite negative m e hcanonical := by
  have hspec := shortest_spec hm hcanonical tie
  have hpos := hspec.pos hm
  obtain ⟨num, den, hden, hratio⟩ := exists_ratio (shortest tie m e).1 (shortest tie m e).2
  rw [← hratio] at hspec hpos
  rw [ofDecimal_eq hden hratio,
    ofRatio_of_roundsTo (num_pos_of_div_pos hpos) hden hcanonical hspec]

end Number

end TemplateFlow
