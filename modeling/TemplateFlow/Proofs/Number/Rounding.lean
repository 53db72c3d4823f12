import Mathlib.Algebra.Order.Field.Power
import Mathlib.Algebra.Order.Field.Rat
import Mathlib.Tactic.FieldSimp
import Mathlib.Tactic.Linarith
import Mathlib.Tactic.NormNum
import Mathlib.Tactic.Positivity
import Mathlib.Tactic.Ring
import TemplateFlow.Number.Decimal

/-!
# Rounding

What `Number.ofRatio` yields, stated of the rational that the ratio is. A rational has one exponent
at which it is rounded (`AtScale`), and at that exponent its mantissa is the nearest natural
(`Nearest`). So the result depends on the rational alone (`ofRatio_congr`).

From the side of the result: the rationals that become a number are those that are at most half a
unit away from it, or a quarter below a power of two, where the numbers lie twice as dense; the ends
belong to it if its mantissa is even (`RoundsTo`, `ofRatio_of_roundsTo`).

## Main results

* `ofRatio_of_roundsTo`: rationals close to a number are rounded to it.
* `ofRatio_eq_infinity`: rationals from `2 ^ 1024` on are rounded to infinity.
-/

namespace TemplateFlow

namespace Number

/-! ## The nearest natural -/

/-- A natural is nearest to a rational, and even if there is another one as near. -/
structure Nearest (x : ℚ) (r : ℕ) : Prop where
  lower : r - 1 / 2 ≤ x
  upper : x ≤ r + 1 / 2
  tie : x = r - 1 / 2 ∨ x = r + 1 / 2 → r % 2 = 0

/-- What it is to be the nearest natural of a ratio, without a division. -/
theorem nearest_div_iff {n d r : ℕ} (hd : 0 < d) :
    Nearest (n / d) r ↔ 2 * (r * d) ≤ 2 * n + d ∧ 2 * n ≤ 2 * (r * d) + d ∧
      (2 * n + d = 2 * (r * d) ∨ 2 * n = 2 * (r * d) + d → r % 2 = 0) := by
  have hd' : (0 : ℚ) < d := by exact_mod_cast hd
  -- Without the denominators every comparison is one of naturals.
  have hlower : (r : ℚ) - 1 / 2 ≤ n / d ↔ 2 * (r * d) ≤ 2 * n + d := by
    rw [le_div_iff₀ hd', ← @Nat.cast_le ℚ]
    push_cast
    constructor <;> intro h <;> linarith
  have hupper : (n : ℚ) / d ≤ r + 1 / 2 ↔ 2 * n ≤ 2 * (r * d) + d := by
    rw [div_le_iff₀ hd', ← @Nat.cast_le ℚ]
    push_cast
    constructor <;> intro h <;> linarith
  have hbelow : (n : ℚ) / d = r - 1 / 2 ↔ 2 * n + d = 2 * (r * d) := by
    rw [div_eq_iff hd'.ne', ← @Nat.cast_inj ℚ]
    push_cast
    constructor <;> intro h <;> linarith
  have habove : (n : ℚ) / d = r + 1 / 2 ↔ 2 * n = 2 * (r * d) + d := by
    rw [div_eq_iff hd'.ne', ← @Nat.cast_inj ℚ]
    push_cast
    constructor <;> intro h <;> linarith
  constructor
  · rintro ⟨h₁, h₂, h₃⟩
    exact ⟨hlower.mp h₁, hupper.mp h₂, fun h => h₃ (h.imp hbelow.mpr habove.mpr)⟩
  · rintro ⟨h₁, h₂, h₃⟩
    exact ⟨hlower.mpr h₁, hupper.mpr h₂, fun h => h₃ (h.imp hbelow.mp habove.mp)⟩

/-- Rounding half to even yields the nearest natural. -/
theorem nearest_roundHalfEven (n : ℕ) {d : ℕ} (hd : 0 < d) :
    Nearest (n / d) (roundHalfEven n d) := by
  rw [nearest_div_iff hd, roundHalfEven]
  have hdiv := Nat.div_add_mod n d
  have hmod := Nat.mod_lt n hd
  generalize n / d = q at *
  generalize n % d = t at *
  subst hdiv
  -- The remainder is less than half of the divisor, more, or just half of it.
  split
  · rw [Nat.mul_comm q d]
    omega
  · split
    · rw [Nat.add_mul, Nat.one_mul, Nat.mul_comm q d]
      omega
    · -- Halfway the quotient stays if it is even.
      rcases Nat.mod_two_eq_zero_or_one q with hq | hq <;> rw [hq]
      · rw [Nat.add_zero, Nat.mul_comm q d]
        omega
      · rw [Nat.add_mul, Nat.one_mul, Nat.mul_comm q d]
        omega

/-- There is one nearest natural. -/
theorem Nearest.unique {x : ℚ} {r r' : ℕ} (h : Nearest x r) (h' : Nearest x r') : r = r' := by
  obtain ⟨hl, hu, ht⟩ := h
  obtain ⟨hl', hu', ht'⟩ := h'
  have hle : r ≤ r' + 1 := by exact_mod_cast (by linarith : (r : ℚ) ≤ r' + 1)
  have hle' : r' ≤ r + 1 := by exact_mod_cast (by linarith : (r' : ℚ) ≤ r + 1)
  -- Two neighbours are both nearest only halfway between them, and then only one is even.
  rcases Nat.lt_trichotomy r r' with hlt | rfl | hlt
  · obtain rfl : r' = r + 1 := by omega
    push_cast at hl' ht'
    have := ht (.inr (by linarith))
    have := ht' (.inl (by linarith))
    omega
  · rfl
  · obtain rfl : r = r' + 1 := by omega
    push_cast at hl ht
    have := ht (.inl (by linarith))
    have := ht' (.inr (by linarith))
    omega

/-! ## The exponent of rounding -/

/-- A positive rational is rounded at an exponent: it has 53 bits above it, or the exponent is the
least one and it has fewer. -/
structure AtScale (q : ℚ) (e : ℤ) : Prop where
  least : -1074 ≤ e
  upper : q < 2 ^ (e + 53)
  lower : e = -1074 ∨ 2 ^ (e + 52) ≤ q

/-- A ratio has one exponent only. -/
theorem AtScale.unique {q : ℚ} {e e' : ℤ} (h : AtScale q e) (h' : AtScale q e') : e = e' := by
  -- Of two exponents the larger one is not the least, so the rational has all bits above it.
  have hle : ∀ {e e' : ℤ}, AtScale q e → AtScale q e' → e ≤ e' := by
    intro e e' h h'
    by_contra hlt
    rcases h.lower with hleast | hlower
    · have := h'.least
      omega
    · have hpow : (2 : ℚ) ^ (e' + 53) ≤ 2 ^ (e + 52) :=
        zpow_le_zpow_right₀ (by norm_num) (by omega)
      linarith [h'.upper]
  exact le_antisymm (hle h h') (hle h' h)

theorem two_zpow_of_nonneg {e : ℤ} (h : 0 ≤ e) : (2 : ℚ) ^ e = 2 ^ e.toNat := by
  rw [← zpow_natCast, Int.toNat_of_nonneg h]

theorem two_zpow_of_nonpos {e : ℤ} (h : e ≤ 0) : (2 : ℚ) ^ e = (2 ^ (-e).toNat)⁻¹ := by
  rw [← two_zpow_of_nonneg (by omega), zpow_neg, inv_inv]

/-- Scaling divides by a power of two, and leaves a denominator to divide by. -/
theorem scaledRatio_spec (num : ℕ) {den : ℕ} (hden : 0 < den) (e : ℤ) :
    0 < (scaledRatio num den e).2 ∧
      ((scaledRatio num den e).1 : ℚ) / (scaledRatio num den e).2 = num / den / 2 ^ e := by
  have hden' : (den : ℚ) ≠ 0 := by exact_mod_cast hden.ne'
  rw [scaledRatio]
  split
  · -- A negative exponent is scaled away in the numerator.
    rename_i h
    refine ⟨hden, ?_⟩
    simp only [Nat.pow_eq]
    rw [two_zpow_of_nonpos (by omega)]
    push_cast
    field_simp
  · rename_i h
    refine ⟨Nat.mul_pos hden (Nat.pow_pos (by decide)), ?_⟩
    simp only [Nat.pow_eq]
    rw [two_zpow_of_nonneg (by omega)]
    push_cast
    field_simp

/-- A ratio lies between two powers that are two apart. -/
theorem log2_bounds {num den : ℕ} (hnum : 0 < num) (hden : 0 < den) :
    (2 : ℚ) ^ ((num.log2 : ℤ) - den.log2 - 1) ≤ num / den ∧
      (num : ℚ) / den < 2 ^ ((num.log2 : ℤ) - den.log2 + 1) := by
  have hden' : (0 : ℚ) < den := by exact_mod_cast hden
  have hnumLow : (2 : ℚ) ^ num.log2 ≤ num := by exact_mod_cast Nat.log2_self_le hnum.ne'
  have hnumHigh : (num : ℚ) < 2 ^ (num.log2 + 1) := by exact_mod_cast Nat.lt_log2_self (n := num)
  have hdenLow : (2 : ℚ) ^ den.log2 ≤ den := by exact_mod_cast Nat.log2_self_le hden.ne'
  have hdenHigh : (den : ℚ) ≤ 2 ^ (den.log2 + 1) := by
    exact_mod_cast (Nat.lt_log2_self (n := den)).le
  -- Both the numerator and the denominator are between two powers of two.
  rw [le_div_iff₀ hden', div_lt_iff₀ hden']
  constructor
  · calc (2 : ℚ) ^ ((num.log2 : ℤ) - den.log2 - 1) * den
        ≤ 2 ^ ((num.log2 : ℤ) - den.log2 - 1) * 2 ^ (den.log2 + 1) := by gcongr
      _ = 2 ^ num.log2 := by
          rw [← zpow_natCast, ← zpow_natCast, ← zpow_add₀ (by norm_num)]
          congr 1
          push_cast
          ring
      _ ≤ num := hnumLow
  · calc (num : ℚ) < 2 ^ (num.log2 + 1) := hnumHigh
      _ = 2 ^ ((num.log2 : ℤ) - den.log2 + 1) * 2 ^ den.log2 := by
          rw [← zpow_natCast, ← zpow_natCast, ← zpow_add₀ (by norm_num)]
          congr 1
          push_cast
          ring
      _ ≤ 2 ^ ((num.log2 : ℤ) - den.log2 + 1) * den := by gcongr

/-- The whole part of a scaled ratio tells whether there are at most 53 bits above the exponent. -/
theorem scaledRatio_div_lt_iff (num : ℕ) {den : ℕ} (hden : 0 < den) (e : ℤ) :
    (scaledRatio num den e).1 / (scaledRatio num den e).2 < Nat.pow 2 53 ↔
      (num : ℚ) / den < 2 ^ (e + 53) := by
  obtain ⟨hd, hratio⟩ := scaledRatio_spec num hden e
  have hd' : (0 : ℚ) < (scaledRatio num den e).2 := by exact_mod_cast hd
  rw [Nat.div_lt_iff_lt_mul hd, Nat.pow_eq, ← @Nat.cast_lt ℚ, Nat.cast_mul, ← div_lt_iff₀ hd',
    hratio, div_lt_iff₀ (by positivity), zpow_add₀ (by norm_num)]
  norm_num [mul_comm]

/-- The counts of bits leave the exponent and the next one, and the whole part of the mantissa tells
which of the two it is. -/
theorem atScale_roundingExponent {num den : ℕ} (hnum : 0 < num) (hden : 0 < den) :
    AtScale (num / den) (roundingExponent num den) := by
  obtain ⟨hlow, hhigh⟩ := log2_bounds hnum hden
  set L : ℤ := (num.log2 : ℤ) - den.log2
  set e : ℤ := max (L - 53) (-1074)
  have hchoice : roundingExponent num den =
      if (scaledRatio num den e).1 / (scaledRatio num den e).2 < Nat.pow 2 53 then e
      else e + 1 := rfl
  rw [hchoice]
  split
  · rename_i h
    rw [scaledRatio_div_lt_iff num hden] at h
    refine ⟨le_max_right _ _, h, ?_⟩
    rcases max_choice (L - 53) (-1074) with he | he
    · refine .inr ?_
      rw [show e + 52 = L - 1 by omega]
      exact hlow
    · exact .inl he
  · rename_i h
    rw [scaledRatio_div_lt_iff num hden, not_lt] at h
    -- With more bits the exponent is not the least one.
    have hmax : L - 53 = e := by
      by_contra hne
      have hpow : (2 : ℚ) ^ (L + 1) ≤ 2 ^ (e + 53) :=
        zpow_le_zpow_right₀ (by norm_num) (by omega)
      linarith
    refine ⟨by omega, ?_, .inr ?_⟩
    · rw [show e + 1 + 53 = L + 1 by omega]
      exact hhigh
    · rw [show e + 1 + 52 = e + 53 by ring]
      exact h

/-! ## Ratios -/

/-- A ratio is rounded to the nearest mantissa at its exponent. -/
theorem ofRatio_eq {num den : ℕ} (hnum : 0 < num) (hden : 0 < den) {e : ℤ} {r : ℕ}
    (he : AtScale (num / den) e) (hr : Nearest (num / den / 2 ^ e) r) (negative : Bool) :
    ofRatio negative num den = ofScaled negative r e := by
  obtain rfl := (atScale_roundingExponent hnum hden).unique he
  obtain ⟨hd, hratio⟩ := scaledRatio_spec num hden (roundingExponent num den)
  rw [← hratio] at hr
  rw [ofRatio, if_neg hnum.ne']
  simp only
  rw [(nearest_roundHalfEven _ hd).unique hr]

theorem num_pos_of_div_pos {num den : ℕ} (h : (0 : ℚ) < num / den) : 0 < num := by
  by_contra hzero
  rw [Nat.eq_zero_of_not_pos hzero, Nat.cast_zero, zero_div] at h
  exact lt_irrefl _ h

theorem num_eq_zero_of_div_eq_zero {num den : ℕ} (hden : 0 < den) (h : (num : ℚ) / den = 0) :
    num = 0 := by
  have hden' : (den : ℚ) ≠ 0 := by exact_mod_cast hden.ne'
  simpa [hden'] using h

/-- A ratio is rounded as the rational that it is. -/
theorem ofRatio_congr {num den num' den' : ℕ} (hden : 0 < den) (hden' : 0 < den')
    (h : (num : ℚ) / den = num' / den') (negative : Bool) :
    ofRatio negative num den = ofRatio negative num' den' := by
  rcases Nat.eq_zero_or_pos num with rfl | hnum
  · rw [Nat.cast_zero, zero_div] at h
    rw [num_eq_zero_of_div_eq_zero hden' h.symm]
    rfl
  · have hpos' : (0 : ℚ) < num' / den' := by
      rw [← h]
      positivity
    have hnum' : 0 < num' := num_pos_of_div_pos hpos'
    -- The exponent and the mantissa are stated of the rational, which is common to both.
    have hscale := atScale_roundingExponent hnum hden
    obtain ⟨hpos, hratio⟩ := scaledRatio_spec num hden (roundingExponent num den)
    have hnear := nearest_roundHalfEven (scaledRatio num den (roundingExponent num den)).1 hpos
    rw [hratio] at hnear
    rw [ofRatio_eq hnum hden hscale hnear]
    rw [h] at hscale hnear
    rw [ofRatio_eq hnum' hden' hscale hnear]

/-- The sign of a number is not rounded. -/
theorem neg_ofScaled (negative : Bool) (r : ℕ) (e : ℤ) :
    neg (ofScaled negative r e) = ofScaled (!negative) r e := by
  rw [ofScaled, ofScaled]
  generalize (if r = Nat.pow 2 53 then (Nat.pow 2 52, e + 1) else (r, e)) = x
  by_cases h : Canonical x.1 x.2
  · simp only [dif_pos h, neg]
  · simp only [dif_neg h, neg]

/-- Rounding is the same on either side of zero. -/
theorem neg_ofRatio (negative : Bool) (num den : ℕ) :
    neg (ofRatio negative num den) = ofRatio (!negative) num den := by
  rw [ofRatio, ofRatio]
  split
  · rfl
  · exact neg_ofScaled _ _ _

/-! ## Numbers -/

/-- How far below a number a rational is rounded to it, in units of the number. -/
def reach (m : ℕ) (e : ℤ) : ℚ := if m = 2 ^ 52 ∧ -1074 < e then 1 / 4 else 1 / 2

/-- Some rationals below a number are rounded to it. -/
theorem reach_pos (m : ℕ) (e : ℤ) : 0 < reach m e := by
  rw [reach]
  split <;> norm_num

/-- What is rounded to a number from below is no more than half a unit away. -/
theorem reach_le (m : ℕ) (e : ℤ) : reach m e ≤ 1 / 2 := by
  rw [reach]
  split <;> norm_num

/-- The rationals that are rounded to the number `m * 2 ^ e`. -/
structure RoundsTo (q : ℚ) (m : ℕ) (e : ℤ) : Prop where
  lower : m - reach m e ≤ q / 2 ^ e
  upper : q / 2 ^ e ≤ m + 1 / 2
  even : q / 2 ^ e = m - reach m e ∨ q / 2 ^ e = m + 1 / 2 → m % 2 = 0

/-- Nothing that is rounded to a number other than zero is zero. -/
theorem RoundsTo.pos {q : ℚ} {m : ℕ} {e : ℤ} (hm : 0 < m) (h : RoundsTo q m e) : 0 < q := by
  have hm' : (1 : ℚ) ≤ m := by exact_mod_cast hm
  have hunit : (0 : ℚ) < 2 ^ e := by positivity
  have hpos : 0 < q / 2 ^ e := by linarith [h.lower, reach_le m e]
  exact (div_pos_iff_of_pos_right hunit).mp hpos

theorem lt_two_pow_add_iff (q : ℚ) (e : ℤ) (k : ℕ) : q < 2 ^ (e + k) ↔ q / 2 ^ e < 2 ^ k := by
  rw [div_lt_iff₀ (by positivity), zpow_add₀ (by norm_num), zpow_natCast, mul_comm]

theorem two_pow_add_le_iff (q : ℚ) (e : ℤ) (k : ℕ) : 2 ^ (e + k) ≤ q ↔ 2 ^ k ≤ q / 2 ^ e := by
  rw [le_div_iff₀ (by positivity), zpow_add₀ (by norm_num), zpow_natCast, mul_comm]

/-- With all bits, or at the least exponent, a rational that is rounded to a number has the mantissa
of the number for the nearest one. -/
theorem RoundsTo.nearest {q : ℚ} {m : ℕ} {e : ℤ} (h : RoundsTo q m e)
    (hbits : e = -1074 ∨ 2 ^ 52 ≤ q / 2 ^ e) : Nearest (q / 2 ^ e) m := by
  by_cases hreach : m = 2 ^ 52 ∧ -1074 < e
  · -- Then the rational is not below the number.
    have hge : (m : ℚ) ≤ q / 2 ^ e := by
      rw [hreach.1]
      rcases hbits with hleast | hbits
      · omega
      · exact_mod_cast hbits
    refine ⟨by linarith, h.upper, fun _ => ?_⟩
    rw [hreach.1]
    rfl
  · obtain ⟨hlower, hupper, heven⟩ := h
    rw [reach, if_neg hreach] at hlower heven
    exact ⟨hlower, hupper, heven⟩

/-- With fewer bits it lies just below a power of two, a quarter of a unit away at most. -/
theorem RoundsTo.below {q : ℚ} {m : ℕ} {e : ℤ} (h : RoundsTo q m e) (hcanonical : Canonical m e)
    (hleast : e ≠ -1074) (hlt : q / 2 ^ e < 2 ^ 52) :
    m = 2 ^ 52 ∧ (2 ^ 52 : ℚ) - 1 / 4 ≤ q / 2 ^ e := by
  obtain ⟨hge, he, -⟩ := hcanonical.2.resolve_left hleast
  have hm : m = 2 ^ 52 := by
    have hle : (m : ℚ) < 2 ^ 52 + 1 := by linarith [h.lower, reach_le m e]
    have hle' : m < 2 ^ 52 + 1 := by exact_mod_cast hle
    have hge' : 2 ^ 52 ≤ m := hge
    omega
  have hlower := h.lower
  rw [reach, if_pos ⟨hm, by omega⟩, hm] at hlower
  exact ⟨hm, by exact_mod_cast hlower⟩

/-- What is a number already is not rounded. -/
theorem ofScaled_of_canonical {m : ℕ} {e : ℤ} (h : Canonical m e) (negative : Bool) :
    ofScaled negative m e = finite negative m e h := by
  have hne : m ≠ Nat.pow 2 53 := h.1.ne
  rw [ofScaled, if_neg hne]
  exact dif_pos h

/-- A mantissa that is rounded up to 54 bits is that of the next power of two. -/
theorem ofScaled_carry {e : ℤ} (h : Canonical (2 ^ 52) e) (negative : Bool) :
    ofScaled negative (2 ^ 53) (e - 1) = finite negative (2 ^ 52) e h := by
  rw [ofScaled, if_pos (show 2 ^ 53 = Nat.pow 2 53 from rfl)]
  simp only [Int.sub_add_cancel]
  exact dif_pos h

/-- Rationals close to a number are rounded to it. -/
theorem ofRatio_of_roundsTo {num den m : ℕ} {e : ℤ} (hnum : 0 < num) (hden : 0 < den)
    (hcanonical : Canonical m e) (h : RoundsTo (num / den) m e) (negative : Bool) :
    ofRatio negative num den = finite negative m e hcanonical := by
  have hleast := hcanonical.least
  set q : ℚ := num / den
  by_cases hbits : e = -1074 ∨ 2 ^ 52 ≤ q / 2 ^ e
  · -- The rational is rounded at the exponent of the number.
    have hm : (m : ℚ) + 1 ≤ 2 ^ 53 := by exact_mod_cast (show m + 1 ≤ 2 ^ 53 from hcanonical.1)
    have hat : AtScale q e := by
      refine ⟨hleast, (lt_two_pow_add_iff q e 53).mpr ?_, hbits.imp id ?_⟩
      · linarith [h.upper]
      · exact (two_pow_add_le_iff q e 52).mpr
    rw [ofRatio_eq hnum hden hat (h.nearest hbits), ofScaled_of_canonical hcanonical]
  · -- The rational is rounded at the exponent below, up to the power of two.
    rw [not_or, not_le] at hbits
    obtain ⟨rfl, hlower⟩ := h.below hcanonical hbits.1 hbits.2
    have hhalf : (2 : ℚ) ^ (e - 1) = 2 ^ e / 2 := by rw [zpow_sub_one₀ (by norm_num)]; ring
    have hq : q / 2 ^ (e - 1) = 2 * (q / 2 ^ e) := by rw [hhalf]; field_simp
    have hat : AtScale q (e - 1) := by
      refine ⟨by omega, ?_, .inr ((two_pow_add_le_iff q (e - 1) 52).mpr ?_)⟩
      · rw [show e - 1 + 53 = e + (52 : ℕ) by push_cast; ring, lt_two_pow_add_iff]
        exact hbits.2
      · rw [hq]
        linarith
    have hnear : Nearest (q / 2 ^ (e - 1)) (2 ^ 53) := by
      rw [hq]
      push_cast
      exact ⟨by linarith, by linarith [hbits.2], fun _ => rfl⟩
    rw [ofRatio_eq hnum hden hat hnear, ofScaled_carry hcanonical]

/-- Rationals below half of the least number are rounded to zero. -/
theorem ofRatio_eq_zero {num den : ℕ} (hnum : 0 < num) (hden : 0 < den)
    (h : (num : ℚ) / den < 2 ^ (-1075 : ℤ)) (negative : Bool) :
    ofRatio negative num den = zero negative := by
  have hreach : reach 0 (-1074) = 1 / 2 := if_neg (by decide)
  have hhalf : (2 : ℚ) ^ (-1075 : ℤ) = 1 / 2 * 2 ^ (-1074 : ℤ) := by
    rw [show (-1075 : ℤ) = -1 + -1074 by norm_num, zpow_add₀ (by norm_num), zpow_neg_one,
      one_div]
  have hlt : (num : ℚ) / den / 2 ^ (-1074 : ℤ) < 1 / 2 := by
    rwa [div_lt_iff₀ (by positivity), ← hhalf]
  have hnonneg : (0 : ℚ) ≤ num / den / 2 ^ (-1074 : ℤ) := by positivity
  refine ofRatio_of_roundsTo hnum hden (m := 0) (e := -1074) ⟨by decide, .inl rfl⟩
    ⟨?_, ?_, fun _ => rfl⟩ negative
  · rw [hreach]
    exact le_trans (by norm_num) hnonneg
  · exact hlt.le.trans (by norm_num)

/-- From `2 ^ 1024` on a rational is rounded to infinity. -/
theorem ofRatio_eq_infinity {num den : ℕ} (hden : 0 < den) (h : (2 : ℚ) ^ (1024 : ℤ) ≤ num / den)
    (negative : Bool) : ofRatio negative num den = .infinity negative := by
  have hnum : 0 < num := num_pos_of_div_pos (lt_of_lt_of_le (by positivity) h)
  have hscale := atScale_roundingExponent hnum hden
  have he : 972 ≤ roundingExponent num den := by
    by_contra hlt
    have hpow : (2 : ℚ) ^ (roundingExponent num den + 53) ≤ 2 ^ (1024 : ℤ) :=
      zpow_le_zpow_right₀ (by norm_num) (by omega)
    linarith [hscale.upper]
  rw [ofRatio, if_neg hnum.ne']
  simp only
  rw [ofScaled]
  simp only
  -- No number has so large an exponent, with or without a carry.
  have hnot : ∀ m e', 972 ≤ e' → ¬ Canonical m e' := by
    rintro m e' he' ⟨-, h | ⟨-, -, h⟩⟩ <;> omega
  split
  · exact dif_neg (hnot _ _ (by omega))
  · exact dif_neg (hnot _ _ he)

end Number

end TemplateFlow
