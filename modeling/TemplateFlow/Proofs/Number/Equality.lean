import TemplateFlow.Value.Data

/-!
# Equality of numbers

Numbers are equal for the language if they stand in one place on the line of `Number.position?`.
Since a number is written in one form only, this is to be the same number, apart from the two zeros,
which stand in one place, and from not-a-number, which stands in none (`eq_iff`). So equal numbers
have the same text and the same data form, in which zero has no sign.
-/

namespace TemplateFlow

namespace Number

variable {x y : Number}

/-! ## Places -/

/-- Numbers are equal if they are in one place. -/
theorem eq_iff_position? :
    x.eq y = true ↔ ∃ place, x.position? = some place ∧ y.position? = some place := by
  rw [eq]
  cases x.position? with
  | none => simp
  | some a =>
    cases y.position? with
    | none => simp
    | some b => simp only [beq_iff_eq, Option.some.injEq, exists_eq_left']; exact eq_comm

/-- Every number but not-a-number is in a place. -/
theorem exists_position?_of_ne_nan (h : x ≠ .nan) : ∃ place, x.position? = some place := by
  cases x with
  | nan => exact absurd rfl h
  | infinity s => exact ⟨_, rfl⟩
  | finite s m e hc => exact ⟨_, rfl⟩

/-- Of two forms of one magnitude the one with the larger exponent has all of its bits, so the other
one would have too many. -/
theorem le_exponent_of_magnitude_eq {m n : Nat} {e f : Int} (hm : Canonical m e)
    (hn : Canonical n f)
    (h : m * Nat.pow 2 (e + 1074).toNat = n * Nat.pow 2 (f + 1074).toNat) : f ≤ e := by
  refine Int.not_lt.mp fun hlt => ?_
  have he := hm.least
  obtain ⟨k, hk⟩ : ∃ k, (f + 1074).toNat = (e + 1074).toNat + (k + 1) :=
    ⟨(f - e - 1).toNat, by omega⟩
  -- With the larger exponent the second mantissa has all of its bits, and the first one would have
  -- more.
  have hfull : Nat.pow 2 52 ≤ n := by
    rcases hn.2 with rfl | ⟨h, -, -⟩
    · omega
    · exact h
  have hm53 := hm.1
  simp only [Nat.pow_eq] at h hfull hm53
  rw [hk, Nat.pow_add, Nat.mul_comm (2 ^ (e + 1074).toNat), ← Nat.mul_assoc] at h
  have hmn : m = n * 2 ^ (k + 1) := Nat.eq_of_mul_eq_mul_right (Nat.two_pow_pos _) h
  have hmore : n * 2 ≤ n * 2 ^ (k + 1) := by
    refine Nat.mul_le_mul_left n ?_
    rw [Nat.pow_succ]
    have := Nat.two_pow_pos k
    omega
  omega

/-- A signed natural has one size, and one sign unless it is zero. -/
theorem signed_natCast_inj {s t : Bool} {k l : Nat} (h : signed s k = signed t l) :
    k = l ∧ (0 < k → s = t) := by
  rw [signed, signed] at h
  constructor
  · split at h <;> split at h <;> omega
  · intro hk
    cases s <;> cases t <;> simp at h ⊢ <;> omega

/-- Every magnitude has one form. -/
theorem eq_of_magnitude_eq {m n : Nat} {e f : Int} (hm : Canonical m e) (hn : Canonical n f)
    (h : m * Nat.pow 2 (e + 1074).toNat = n * Nat.pow 2 (f + 1074).toNat) : m = n ∧ e = f := by
  have hef : e = f := Int.le_antisymm (le_exponent_of_magnitude_eq hn hm h.symm)
    (le_exponent_of_magnitude_eq hm hn h)
  subst hef
  exact ⟨Nat.eq_of_mul_eq_mul_right (Nat.two_pow_pos _) h, rfl⟩

/-- The infinities stand further out than all finite numbers. -/
theorem exists_outermost : ∃ out : Nat, (∀ s, (infinity s).position? = some (signed s out)) ∧
    ∀ {m e}, Canonical m e → m * Nat.pow 2 (e + 1074).toNat < out := by
  refine ⟨_, fun s => by rw [position?], fun {m e} h => ?_⟩
  generalize hk : 2100 = k
  have he : 53 + (e + 1074).toNat ≤ k := by
    rcases h.2 with rfl | ⟨-, -, h⟩ <;> omega
  have hm : m < 2 ^ 53 := h.1
  simp only [Nat.pow_eq]
  calc m * 2 ^ (e + 1074).toNat
      < 2 ^ 53 * 2 ^ (e + 1074).toNat := Nat.mul_lt_mul_of_pos_right hm (Nat.two_pow_pos _)
    _ = 2 ^ (53 + (e + 1074).toNat) := (Nat.pow_add 2 53 _).symm
    _ ≤ 2 ^ k := Nat.pow_le_pow_right (by decide) he

/-! ## Numbers in one place -/

/-- There are two zeros, in one place. -/
theorem isZero_iff : x.isZero = true ↔ ∃ s, x = zero s := by
  constructor
  · intro h
    cases x with
    | nan | infinity s => cases h
    | finite s m e hc =>
      obtain rfl : m = 0 := by simpa [isZero] using h
      -- The mantissa of zero has none of the bits that another exponent asks for.
      obtain rfl : e = -1074 := hc.2.resolve_right fun h => absurd h.1 (by decide)
      exact ⟨s, rfl⟩
  · rintro ⟨s, rfl⟩
    rfl

/-- Numbers in one place are the same, unless they are the two zeros. -/
theorem eq_or_isZero_of_position?_eq {place : Int} (hx : x.position? = some place)
    (hy : y.position? = some place) : x = y ∨ x.isZero = true ∧ y.isZero = true := by
  -- All finite numbers are in front of the place of the infinities.
  obtain ⟨out, hout, hlt⟩ := exists_outermost
  cases x with
  | nan => cases hx
  | infinity s =>
    rw [hout] at hx
    cases y with
    | nan => cases hy
    | infinity t =>
      rw [hout] at hy
      have hzero : Canonical 0 (-1074) := by decide
      obtain ⟨-, hst⟩ := signed_natCast_inj (Option.some.inj (hx.trans hy.symm))
      rw [hst (Nat.zero_lt_of_lt (hlt hzero))]
      exact .inl rfl
    | finite t n f hn =>
      obtain ⟨heq, -⟩ := signed_natCast_inj (Option.some.inj (hy.trans hx.symm))
      exact absurd heq (Nat.ne_of_lt (hlt hn))
  | finite s m e hm =>
    cases y with
    | nan => cases hy
    | infinity t =>
      rw [hout] at hy
      obtain ⟨heq, -⟩ := signed_natCast_inj (Option.some.inj (hx.trans hy.symm))
      exact absurd heq (Nat.ne_of_lt (hlt hm))
    | finite t n f hn =>
      obtain ⟨heq, hst⟩ := signed_natCast_inj (Option.some.inj (hx.trans hy.symm))
      obtain ⟨rfl, rfl⟩ := eq_of_magnitude_eq hm hn heq
      rcases Nat.eq_zero_or_pos m with rfl | hpos
      · exact .inr ⟨rfl, rfl⟩
      · rw [hst (Nat.mul_pos hpos (Nat.two_pow_pos _))]
        exact .inl rfl

/-! ## Laws -/

/-- Equal are the numbers other than not-a-number to themselves, and the zeros to each other. -/
theorem eq_iff : x.eq y = true ↔ x = y ∧ x ≠ .nan ∨ x.isZero = true ∧ y.isZero = true := by
  rw [eq_iff_position?]
  constructor
  · rintro ⟨place, hx, hy⟩
    have hne : x ≠ .nan := by
      rintro rfl
      cases hx
    exact (eq_or_isZero_of_position?_eq hx hy).imp_left fun h => ⟨h, hne⟩
  · rintro (⟨rfl, hne⟩ | ⟨hx, hy⟩)
    · obtain ⟨place, h⟩ := exists_position?_of_ne_nan hne
      exact ⟨place, h, h⟩
    · obtain ⟨s, rfl⟩ := isZero_iff.mp hx
      obtain ⟨t, rfl⟩ := isZero_iff.mp hy
      exact ⟨0, by cases s <;> rfl, by cases t <;> rfl⟩

/-- Every number but not-a-number is equal to itself. -/
theorem eq_self_iff : x.eq x = true ↔ x ≠ .nan := by
  rw [eq_iff]
  constructor
  · rintro (⟨-, h⟩ | ⟨h, -⟩)
    · exact h
    · rintro rfl
      cases h
  · exact fun h => .inl ⟨rfl, h⟩

/-- The order of the two numbers does not matter. -/
protected theorem eq_comm (x y : Number) : x.eq y = y.eq x := by
  rw [Bool.eq_iff_iff, eq_iff_position?, eq_iff_position?]
  exact exists_congr fun _ => and_comm

/-- Numbers that are equal to a third one are in its place both. -/
protected theorem eq_trans {z : Number} (hxy : x.eq y = true) (hyz : y.eq z = true) :
    x.eq z = true := by
  rw [eq_iff_position?] at hxy hyz ⊢
  obtain ⟨place, hx, hy⟩ := hxy
  obtain ⟨place', hy', hz⟩ := hyz
  obtain rfl := Option.some.inj (hy.symm.trans hy')
  exact ⟨place, hx, hz⟩

/-! ## What equal numbers have in common -/

/-- What does not tell the zeros apart does not tell equal numbers apart. -/
theorem congr_of_eq {α : Type} {f : Number → α} {c : α} (hzero : ∀ x, x.isZero = true → f x = c)
    (h : x.eq y = true) : f x = f y := by
  rcases eq_iff.mp h with ⟨rfl, -⟩ | ⟨hx, hy⟩
  · rfl
  · rw [hzero x hx, hzero y hy]

/-- Both zeros are the integer zero. -/
theorem toInt?_of_isZero (h : x.isZero = true) : x.toInt? = some 0 := by
  cases x with
  | nan | infinity s => cases h
  | finite s m e hc =>
    obtain rfl : m = 0 := by simpa [isZero] using h
    simp [toInt?, signed]

theorem toSmallInt?_of_isZero (h : x.isZero = true) : x.toSmallInt? = some 0 := by
  rw [toSmallInt?, toInt?_of_isZero h]
  rfl

/-- Both zeros have the same text, without a sign. -/
theorem toText_of_isZero (h : x.isZero = true) : x.toText = "0" := by
  have hint := toSmallInt?_of_isZero h
  cases x with
  | nan | infinity s => cases h
  | finite s m e hc =>
    simp only [toText, hint]
    rfl

/-- Equal numbers have the same text. -/
theorem toText_congr (h : x.eq y = true) : x.toText = y.toText :=
  congr_of_eq (fun _ => toText_of_isZero) h

/-- Equal numbers have the same data form. -/
theorem toJson_congr (h : x.eq y = true) : x.toJson = y.toJson := by
  refine congr_of_eq (c := .int 0) (fun x hx => ?_) h
  rw [toJson, toSmallInt?_of_isZero hx]

/-- Equal numbers have the same truth value. -/
theorem truth_congr (h : x.eq y = true) : (!x.isZero && !x.isNaN) = (!y.isZero && !y.isNaN) :=
  congr_of_eq (f := fun z => !z.isZero && !z.isNaN) (c := false) (fun z hz => by simp [hz]) h

end Number

end TemplateFlow
