import Mathlib.Algebra.Order.Ring.Abs
import TemplateFlow.Proofs.Number.Rounding

/-!
# The nearest number

A finite number has a rational value (`value?`). Rounding yields the number whose value is nearest
to the given ratio, among all numbers, and the one with an even mantissa if there are two
(`IsNearest`, `isNearest_ofRatio`). So what is the value of a number at all is not changed by
rounding (`IsNearest.eq_of_value?`); among the integers these are at least those up to `2 ^ 53`
(`exists_value?_eq_intCast`).
-/

namespace TemplateFlow

namespace Number

/-! ## Values -/

/-- The value of a finite number. -/
def value? : Number → Option ℚ
  | .finite s m e _ => some (if s then -(m * 2 ^ e) else m * 2 ^ e)
  | _ => none

theorem value?_neg {x : Number} {v : ℚ} (h : x.value? = some v) : (neg x).value? = some (-v) := by
  cases x with
  | nan | infinity s => cases h
  | finite s m e hc =>
    cases h
    cases s <;> simp [neg, value?]

theorem value?_zero (s : Bool) : (zero s).value? = some 0 := by
  cases s <;> simp [zero, value?]

/-- The value of a number whose magnitude is an integer. -/
theorem value?_finite_of_eq {s : Bool} {m k : ℕ} {e : ℤ} {hc : Canonical m e}
    (h : (m : ℚ) * 2 ^ e = k) : (finite s m e hc).value? = some ((signed s k : ℤ) : ℚ) := by
  rw [value?, h, signed]
  cases s <;> simp

/-- An integral number has the value of the integer that it is equal to. -/
theorem value?_of_toInt? {x : Number} {n : ℤ} (h : x.toInt? = some n) :
    x.value? = some (n : ℚ) := by
  cases x with
  | nan | infinity s => cases h
  | finite s m e hc =>
    rw [toInt?] at h
    split at h
    · rename_i he
      cases h
      refine value?_finite_of_eq ?_
      rw [two_zpow_of_nonneg he, Nat.pow_eq]
      push_cast
      rfl
    · rename_i he
      split at h
      · -- The mantissa is a multiple of the power that the exponent divides by.
        rename_i hmod
        cases h
        refine value?_finite_of_eq ?_
        obtain ⟨k, rfl⟩ := Nat.dvd_of_mod_eq_zero hmod
        rw [Nat.pow_eq, Nat.mul_div_cancel_left k (Nat.two_pow_pos _),
          two_zpow_of_nonpos (by omega)]
        push_cast
        field_simp
      · cases h

/-! ## The nearest natural -/

section

variable {x : ℚ} {r : ℕ}

theorem Nearest.abs_sub_le_half (h : Nearest x r) : |r - x| ≤ 1 / 2 :=
  abs_le.mpr ⟨by linarith [h.upper], by linarith [h.lower]⟩

/-- No integer is nearer than the nearest natural. -/
theorem Nearest.abs_sub_le (h : Nearest x r) (k : ℤ) : |r - x| ≤ |k - x| := by
  rcases lt_trichotomy k r with hk | rfl | hk
  · have hk' : (k : ℚ) + 1 ≤ r := by exact_mod_cast hk
    exact h.abs_sub_le_half.trans (le_abs.mpr (.inr (by linarith [h.lower])))
  · simp
  · have hk' : (r : ℚ) + 1 ≤ k := by exact_mod_cast hk
    exact h.abs_sub_le_half.trans (le_abs.mpr (.inl (by linarith [h.upper])))

/-- Another integer can be as near only halfway. -/
theorem Nearest.even_of_abs_sub_eq (h : Nearest x r) {k : ℤ} (hne : (k : ℚ) ≠ r)
    (heq : |k - x| = |r - x|) : r % 2 = 0 := by
  have hle : |k - x| ≤ 1 / 2 := heq.trans_le h.abs_sub_le_half
  obtain ⟨hlow, hhigh⟩ := abs_le.mp hle
  rcases lt_trichotomy k r with hk | hk | hk
  · have hk' : (k : ℚ) + 1 ≤ r := by exact_mod_cast hk
    exact h.tie (.inl (by linarith [h.lower]))
  · rw [hk] at hne
    exact absurd rfl hne
  · have hk' : (r : ℚ) + 1 ≤ k := by exact_mod_cast hk
    exact h.tie (.inr (by linarith [h.upper]))

end

/-! ## On the scale of a rational -/

/-- A number is integral at every exponent up to its own. -/
theorem exists_value?_eq_mul {s : Bool} {m : ℕ} {e f : ℤ} (hc : Canonical m f) (hle : e ≤ f) :
    ∃ k : ℤ, (finite s m f hc).value? = some ((k : ℚ) * 2 ^ e) := by
  refine ⟨signed s (m * 2 ^ (f - e).toNat), ?_⟩
  have hf : (2 : ℚ) ^ f = 2 ^ (f - e).toNat * 2 ^ e := by
    rw [← two_zpow_of_nonneg (by omega), ← zpow_add₀ (by norm_num), sub_add_cancel]
  rw [value?, hf, signed]
  cases s <;> simp <;> ring

/-- Above an exponent larger than its own a number has less than 53 bits. -/
theorem lt_of_value?_eq {s : Bool} {m : ℕ} {e f : ℤ} {hc : Canonical m f} (hlt : f < e) {w : ℚ}
    (hw : (finite s m f hc).value? = some w) : w < 2 ^ 52 * 2 ^ e := by
  rw [value?, Option.some.injEq] at hw
  have hm : (m : ℚ) < 2 ^ 53 := by exact_mod_cast hc.1
  have hf : (2 : ℚ) ^ f ≤ 2 ^ (e - 1) := zpow_le_zpow_right₀ (by norm_num) (by omega)
  have hhalf : (2 : ℚ) ^ (e - 1) = 2 ^ e / 2 := by rw [zpow_sub_one₀ (by norm_num)]; ring
  have hnonneg : (0 : ℚ) ≤ m * 2 ^ f := by positivity
  calc w ≤ m * 2 ^ f := by
        rw [← hw]
        split
        · linarith
        · exact le_refl _
    _ ≤ m * (2 ^ e / 2) := by rw [← hhalf]; gcongr
    _ < 2 ^ 53 * (2 ^ e / 2) := by gcongr
    _ = 2 ^ 52 * 2 ^ e := by ring

/-- On the scale of a rational a number is integral, unless it has fewer bits above the exponent
than the rational has. -/
theorem AtScale.integral_or_lt {q : ℚ} {e : ℤ} (h : AtScale q e) {y : Number} {z : ℚ}
    (hy : y.value? = some (z * 2 ^ e)) :
    (∃ k : ℤ, z = k) ∨ z < 2 ^ 52 ∧ 2 ^ 52 ≤ q / 2 ^ e := by
  have hunit : (0 : ℚ) < 2 ^ e := by positivity
  cases y with
  | nan | infinity s => cases hy
  | finite s m f hc =>
    by_cases hle : e ≤ f
    · obtain ⟨k, hk⟩ := exists_value?_eq_mul (s := s) hc hle
      exact .inl ⟨k, mul_right_cancel₀ hunit.ne' (Option.some.inj (hy.symm.trans hk))⟩
    · -- The exponent is then not the least one, so the rational has all of its bits above it.
      have hlow : (2 : ℚ) ^ (e + 52) ≤ q := by
        refine h.lower.resolve_left fun he => ?_
        have := hc.least
        omega
      refine .inr ⟨?_, (two_pow_add_le_iff q e 52).mp hlow⟩
      exact lt_of_mul_lt_mul_right (lt_of_value?_eq (not_le.mp hle) hy) hunit.le

/-- The mantissa of a rational has 53 bits, or is the first number with 54. -/
theorem AtScale.mantissa_bounds {q : ℚ} {e : ℤ} {r : ℕ} (h : AtScale q e)
    (hr : Nearest (q / 2 ^ e) r) : r ≤ 2 ^ 53 ∧ (e = -1074 ∨ 2 ^ 52 ≤ r) := by
  constructor
  · have hupper : q / 2 ^ e < 2 ^ 53 := (lt_two_pow_add_iff q e 53).mp h.upper
    have hlt : (r : ℚ) < 2 ^ 53 + 1 := by linarith [hr.lower]
    have hlt' : r < 2 ^ 53 + 1 := by exact_mod_cast hlt
    omega
  · refine h.lower.imp_right fun hlow => ?_
    have hlower : 2 ^ 52 ≤ q / 2 ^ e := (two_pow_add_le_iff q e 52).mp hlow
    have hlt : (2 : ℚ) ^ 52 < r + 1 := by linarith [hr.upper]
    have hlt' : 2 ^ 52 < r + 1 := by exact_mod_cast hlt
    omega

/-- No number is nearer to a rational than the nearest natural on its scale, and if another one is
as near that natural is even. -/
theorem AtScale.nearest {q : ℚ} {e : ℤ} {r : ℕ} (h : AtScale q e) (hr : Nearest (q / 2 ^ e) r)
    {y : Number} {w : ℚ} (hy : y.value? = some w) :
    |r * 2 ^ e - q| ≤ |w - q| ∧ (w ≠ r * 2 ^ e → |w - q| = |r * 2 ^ e - q| → r % 2 = 0) := by
  have hunit : (0 : ℚ) < 2 ^ e := by positivity
  obtain ⟨z, rfl⟩ : ∃ z, w = z * 2 ^ e := ⟨w / 2 ^ e, (div_mul_cancel₀ w hunit.ne').symm⟩
  -- Distances are compared in units of the scale.
  have hunits : ∀ z, |z * 2 ^ e - q| = |z - q / 2 ^ e| * 2 ^ e := by
    intro z
    rw [← abs_of_pos hunit, ← abs_mul, abs_of_pos hunit, sub_mul, div_mul_cancel₀ _ hunit.ne']
  rw [hunits, hunits, mul_le_mul_iff_left₀ hunit, mul_left_inj' hunit.ne', Ne,
    mul_left_inj' hunit.ne']
  rcases h.integral_or_lt hy with ⟨k, rfl⟩ | ⟨hlt, hq⟩
  · exact ⟨hr.abs_sub_le k, hr.even_of_abs_sub_eq⟩
  · -- The least natural with all bits is nearer than the number.
    have hless : |r - q / 2 ^ e| < |z - q / 2 ^ e| := by
      calc |(r : ℚ) - q / 2 ^ e| ≤ |((2 ^ 52 : ℤ) : ℚ) - q / 2 ^ e| := hr.abs_sub_le _
        _ = q / 2 ^ e - 2 ^ 52 := by
            rw [Int.cast_pow, Int.cast_ofNat, abs_of_nonpos (by linarith), neg_sub]
        _ < q / 2 ^ e - z := by linarith
        _ ≤ |z - q / 2 ^ e| := by rw [abs_sub_comm]; exact le_abs_self _
    exact ⟨hless.le, fun _ heq => absurd heq hless.ne'⟩

/-! ## Rounding to the nearest number -/

/-- The mantissa of a finite number is even. -/
def EvenMantissa : Number → Prop
  | .finite _ m _ _ => m % 2 = 0
  | _ => False

/-- The number `x`, of the value `v`, is nearest to a rational: the value of no number is nearer,
and if another one is as near the mantissa of `x` is even. -/
structure IsNearest (x : Number) (q v : ℚ) : Prop where
  value : x.value? = some v
  le : ∀ {y : Number} {w : ℚ}, y.value? = some w → |v - q| ≤ |w - q|
  even : ∀ {y : Number} {w : ℚ}, y.value? = some w → w ≠ v → |w - q| = |v - q| → x.EvenMantissa

/-- What is the value of a number is the value of the number nearest to it. -/
theorem IsNearest.eq_of_value? {x y : Number} {q v : ℚ} (h : x.IsNearest q v)
    (hy : y.value? = some q) : v = q := by
  have hle := h.le hy
  rw [sub_self, abs_zero, abs_nonpos_iff, sub_eq_zero] at hle
  exact hle

/-- A number is nearest to its own value. -/
theorem isNearest_self {x : Number} {v : ℚ} (h : x.value? = some v) : x.IsNearest v v := by
  refine ⟨h, fun _ => ?_, fun _ hne heq => ?_⟩
  · rw [sub_self, abs_zero]
    exact abs_nonneg _
  · rw [sub_self, abs_zero, abs_eq_zero, sub_eq_zero] at heq
    exact absurd heq hne

/-- Opposite to the nearest number is the number nearest to the opposite rational. -/
theorem IsNearest.neg {x : Number} {q v : ℚ} (h : x.IsNearest q v) :
    (neg x).IsNearest (-q) (-v) := by
  have hdist : ∀ w : ℚ, |w - -q| = |-w - q| := by
    intro w
    rw [← abs_neg]
    congr 1
    ring
  refine ⟨value?_neg h.value, fun {y w} hy => ?_, fun {y w} hy hne heq => ?_⟩
  · rw [hdist, hdist, neg_neg]
    exact h.le (value?_neg hy)
  · rw [hdist, hdist, neg_neg] at heq
    have heven := h.even (value?_neg hy) (fun hw => hne (neg_eq_iff_eq_neg.mp hw)) heq
    cases x with
    | nan | infinity s => exact heven
    | finite s m e hc => exact heven

/-- A mantissa of at most 54 bits, the last of which is then no bit at all, is that of a number. -/
theorem exists_ofScaled_eq {r : ℕ} {e : ℤ} (hr : r ≤ 2 ^ 53) (hleast : -1074 ≤ e)
    (hbits : e = -1074 ∨ 2 ^ 52 ≤ r) (he : e < 971) (s : Bool) :
    ∃ m f, ∃ hc : Canonical m f, ofScaled s r e = finite s m f hc ∧
      (m : ℚ) * 2 ^ f = r * 2 ^ e ∧ (r % 2 = 0 → m % 2 = 0) := by
  -- Rounding up may have carried into a further bit, which moves the exponent.
  by_cases hcarry : r = 2 ^ 53
  · subst hcarry
    have hc : Canonical (2 ^ 52) (e + 1) := ⟨by decide, .inr ⟨by decide, by omega, by omega⟩⟩
    have hscaled := ofScaled_carry hc s
    rw [add_sub_cancel_right] at hscaled
    refine ⟨_, _, hc, hscaled, ?_, fun _ => by decide⟩
    rw [zpow_add_one₀ (by norm_num)]
    push_cast
    ring
  · have hc : Canonical r e := by
      refine ⟨lt_of_le_of_ne hr hcarry, hbits.imp_right fun h => ⟨h, hleast, by omega⟩⟩
    exact ⟨r, e, hc, ofScaled_of_canonical hc s, rfl, id⟩

/-- Below the largest numbers a ratio is rounded to the number nearest to it. -/
theorem isNearest_ofRatio {num den : ℕ} (hnum : 0 < num) (hden : 0 < den)
    (hlt : (num : ℚ) / den < 2 ^ (1023 : ℤ)) :
    ∃ v, (ofRatio false num den).IsNearest (num / den) v := by
  have hscale := atScale_roundingExponent hnum hden
  set e := roundingExponent num den
  obtain ⟨hd, hratio⟩ := scaledRatio_spec num hden e
  have hr := nearest_roundHalfEven (scaledRatio num den e).1 hd
  rw [hratio] at hr
  -- Below `2 ^ 1023` even a carry does not reach the infinity.
  have he : e < 971 := by
    rcases hscale.lower with h | h
    · omega
    · have hbits := (zpow_lt_zpow_iff_right₀ (by norm_num)).mp (h.trans_lt hlt)
      omega
  obtain ⟨hr53, hbits⟩ := hscale.mantissa_bounds hr
  obtain ⟨m, f, hc, heq, hvalue, heven⟩ := exists_ofScaled_eq hr53 hscale.least hbits he false
  rw [ofRatio_eq hnum hden hscale hr, heq]
  refine ⟨_, ?_, fun hy => (hscale.nearest hr hy).1, fun hy hne h => ?_⟩
  · rw [← hvalue]
    rfl
  · exact heven ((hscale.nearest hr hy).2 hne h)

/-- An integer is rounded to the number nearest to it. -/
theorem isNearest_ofInt {n : ℤ} (h : |(n : ℚ)| < 2 ^ (1023 : ℤ)) :
    ∃ v, (ofInt n).IsNearest n v := by
  -- Above zero the integer is a ratio with the denominator one.
  have hpos : ∀ {k : ℕ}, 0 < k → (k : ℚ) < 2 ^ (1023 : ℤ) →
      ∃ v, (ofRatio false k 1).IsNearest k v := by
    intro k hk hlt
    have hone : (k : ℚ) / (1 : ℕ) = k := by rw [Nat.cast_one, div_one]
    rw [← hone] at hlt
    obtain ⟨v, hv⟩ := isNearest_ofRatio hk Nat.one_pos hlt
    rw [hone] at hv
    exact ⟨v, hv⟩
  obtain ⟨k, hk⟩ := Int.eq_nat_or_neg n
  rcases Nat.eq_zero_or_pos k with rfl | hkpos
  · obtain rfl : n = 0 := by omega
    rw [Int.cast_zero]
    exact ⟨0, isNearest_self (value?_zero false)⟩
  · rcases hk with rfl | rfl
    · rw [Int.cast_natCast, Nat.abs_cast] at h
      rw [ofInt, decide_eq_false (by omega), Int.natAbs_natCast, Int.cast_natCast]
      exact hpos hkpos h
    · -- Below zero the nearest number is the opposite one.
      rw [Int.cast_neg, Int.cast_natCast, abs_neg, Nat.abs_cast] at h
      obtain ⟨v, hv⟩ := hpos hkpos h
      have hneg : ofInt (-k) = neg (ofRatio false k 1) := by
        rw [neg_ofRatio, ofInt, decide_eq_true (by omega), Int.natAbs_neg, Int.natAbs_natCast,
          Bool.not_false]
      rw [hneg, Int.cast_neg, Int.cast_natCast]
      exact ⟨-v, hv.neg⟩

/-! ## Integers that are numbers -/

theorem exists_value?_eq_natCast {k : ℕ} (h : k ≤ 2 ^ 53) :
    ∃ x : Number, x.value? = some (k : ℚ) := by
  rcases Nat.eq_zero_or_pos k with rfl | hpos
  · exact ⟨zero false, by rw [value?_zero, Nat.cast_zero]⟩
  · rcases Nat.lt_or_eq_of_le h with hlt | rfl
    · -- With fewer bits the natural is shifted up until it has them all.
      have hlog : k.log2 < 53 := (Nat.log2_lt hpos.ne').mpr hlt
      obtain ⟨d, hd⟩ : ∃ d, k.log2 + d = 52 := ⟨52 - k.log2, by omega⟩
      have hlow : 2 ^ 52 ≤ k * 2 ^ d := by
        rw [← hd, pow_add]
        exact Nat.mul_le_mul_right _ (Nat.log2_self_le hpos.ne')
      have hhigh : k * 2 ^ d < 2 ^ 53 := by
        rw [show 53 = k.log2 + 1 + d by omega, pow_add]
        exact Nat.mul_lt_mul_of_pos_right Nat.lt_log2_self (Nat.two_pow_pos d)
      have hc : Canonical (k * 2 ^ d) (-d) := ⟨hhigh, .inr ⟨hlow, by omega, by omega⟩⟩
      refine ⟨finite false _ _ hc, ?_⟩
      have hvalue : ((k * 2 ^ d : ℕ) : ℚ) * 2 ^ (-d : ℤ) = k := by
        rw [zpow_neg, zpow_natCast]
        push_cast
        field_simp
      rw [value?_finite_of_eq hvalue]
      rfl
    · have hc : Canonical (2 ^ 52) 1 := by decide
      refine ⟨finite false _ _ hc, ?_⟩
      have hvalue : ((2 ^ 52 : ℕ) : ℚ) * 2 ^ (1 : ℤ) = (2 ^ 53 : ℕ) := by norm_num
      rw [value?_finite_of_eq hvalue]
      rfl

/-- Every integer up to `2 ^ 53` is the value of a number. -/
theorem exists_value?_eq_intCast {n : ℤ} (h : n.natAbs ≤ 2 ^ 53) :
    ∃ x : Number, x.value? = some (n : ℚ) := by
  obtain ⟨x, hx⟩ := exists_value?_eq_natCast h
  rcases Int.natAbs_eq n with hn | hn
  · rw [hn]
    exact ⟨x, by rw [hx, Int.cast_natCast]⟩
  · rw [hn]
    exact ⟨neg x, by rw [value?_neg hx, Int.cast_neg, Int.cast_natCast]⟩

end Number

end TemplateFlow
