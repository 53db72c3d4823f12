import TemplateFlow.Json.Writer
import TemplateFlow.Proofs.Number.Decimal
import TemplateFlow.Proofs.Syntax.Written

/-!
# The numbers of JSON text as numerals

The text of a JSON number is a number of the expression language or, below zero, one after a minus
sign, and it names the same number (`numeral_numberText`). The digits before the point, those behind
it and the exponent are read together as one decimal (`numberOf_append`), so it does not matter how
they are laid out: positional, padded with zeros, or with an exponent.
-/

namespace TemplateFlow

namespace Syntax

/-! ## Digits -/

/-- A natural is written with digits, of which there is one at least. -/
theorem isDigits_toDigits (n : ℕ) : IsDigits (Nat.toDigits 10 n) :=
  ⟨Nat.toDigits_ne_nil, fun _ h => Nat.isDigit_of_mem_toDigits (by decide) (by decide) h⟩

/-- The digits of a natural are read as the natural. -/
theorem ofDigits_toDigits (n : ℕ) : Number.ofDigits (Nat.toDigits 10 n) = n :=
  Nat.ofDigitChars_ten_toDigits

/-- Zeros behind digits multiply by powers of ten. -/
theorem ofDigits_append_zeros (digits : List Char) (n : ℕ) :
    Number.ofDigits (digits ++ List.replicate n '0') = Number.ofDigits digits * 10 ^ n := by
  change Nat.ofDigitChars 10 _ 0 = Nat.ofDigitChars 10 _ 0 * _
  rw [Nat.ofDigitChars_append, Nat.ofDigitChars_replicate_zero, Nat.mul_comm]

theorem ofDigits_zeros_append (n : ℕ) (digits : List Char) :
    Number.ofDigits (List.replicate n '0' ++ digits) = Number.ofDigits digits := by
  change Nat.ofDigitChars 10 _ 0 = Nat.ofDigitChars 10 _ 0
  rw [Nat.ofDigitChars_append, Nat.ofDigitChars_replicate_zero, Nat.mul_zero]

/-- Digits are divided from what is no digit. -/
theorem spanDigits_append {digits rest : List Char} (h : ∀ d ∈ digits, d.isDigit = true)
    (hrest : StopsAt Char.isDigit rest) :
    Number.spanDigits (digits ++ rest) = (digits, rest) := by
  rw [Number.spanDigits, List.span_eq_takeWhile_dropWhile, takeWhile_append_of_stopsAt h hrest,
    List.dropWhile_append_of_pos h]
  cases rest with
  | nil => rfl
  | cons c rest =>
    have hc : c.isDigit = false := hrest c rfl
    rw [List.dropWhile_cons_of_neg (by simp [hc])]

/-! ## The parts of a number -/

/-- The point and the digits behind it; without digits there is no point. -/
def pointed (fraction : List Char) : List Char :=
  if fraction.isEmpty then [] else '.' :: fraction

theorem pointed_of_ne_nil {fraction : List Char} (h : fraction ≠ []) :
    pointed fraction = '.' :: fraction :=
  if_neg (by rwa [List.isEmpty_iff])

theorem stopsAt_exponent {x : List Char} (h : IsExponent x) :
    StopsAt Char.isDigit x ∧ ∀ rest, x ≠ '.' :: rest := by
  cases h with
  | none => exact ⟨nofun, nofun⟩
  | some hmark hsign hdigits =>
    simp only [List.mem_cons, List.not_mem_nil, or_false] at hmark
    rcases hmark with rfl | rfl
    · exact ⟨by rintro c ⟨⟩; rfl, nofun⟩
    · exact ⟨by rintro c ⟨⟩; rfl, nofun⟩

/-- A number is read as the decimal of all of its digits, whose exponent is less by the digits
behind the point. -/
theorem numberOf_append {whole fraction x : List Char} {k : ℤ} (hwhole : IsDigits whole)
    (hfraction : ∀ d ∈ fraction, d.isDigit = true) (hx : IsExponent x)
    (hk : Number.exponentOf? x = some k) :
    IsNumber (whole ++ (pointed fraction ++ x)) ∧
      numberOf (whole ++ (pointed fraction ++ x)) =
        Number.ofDecimal false (Number.ofDigits (whole ++ fraction)) (k - fraction.length) := by
  obtain ⟨hstop, hpoint⟩ := stopsAt_exponent hx
  have hwholeNe : whole.isEmpty = false := List.isEmpty_eq_false_iff.mpr hwhole.1
  cases fraction with
  | nil =>
    -- There is no point, and the exponent comes right after the digits.
    refine ⟨⟨whole, x, rfl, .whole hwhole, hx⟩, ?_⟩
    have hspan : Number.spanDigits (whole ++ (pointed [] ++ x)) = (whole, x) :=
      spanDigits_append hwhole.2 hstop
    rw [numberOf, Number.ofLiteral?, hspan]
    simp [hwholeNe, hk]
  | cons d fraction =>
    have hpointed : pointed (d :: fraction) = '.' :: d :: fraction := rfl
    refine ⟨⟨whole ++ '.' :: d :: fraction, x, ?_, .both hwhole ⟨by simp, hfraction⟩, hx⟩, ?_⟩
    · rw [hpointed, List.append_assoc]
    · have hspan : Number.spanDigits (whole ++ (pointed (d :: fraction) ++ x)) =
          (whole, '.' :: (d :: fraction ++ x)) :=
        spanDigits_append hwhole.2 (by rintro c ⟨⟩; rfl)
      have hspan' : Number.spanDigits (d :: (fraction ++ x)) = (d :: fraction, x) :=
        spanDigits_append hfraction hstop
      rw [numberOf, Number.ofLiteral?, hspan]
      simp [hspan', hwholeNe, hk]

/-- An exponent is read as the integer that it is written from. -/
theorem exponentOf?_toDigits (k : ℤ) :
    IsExponent ('e' :: ((if k < 0 then ['-'] else ['+']) ++ Nat.toDigits 10 k.natAbs)) ∧
      Number.exponentOf? ('e' :: ((if k < 0 then ['-'] else ['+']) ++ Nat.toDigits 10 k.natAbs)) =
        some k := by
  have hdigits := isDigits_toDigits k.natAbs
  -- Nothing is left behind the digits.
  have hspan : Number.spanDigits (Nat.toDigits 10 k.natAbs) = (Nat.toDigits 10 k.natAbs, []) := by
    have h : Number.spanDigits (Nat.toDigits 10 k.natAbs ++ []) = _ :=
      spanDigits_append hdigits.2 nofun
    rwa [List.append_nil] at h
  have hne : (Nat.toDigits 10 k.natAbs).isEmpty = false := List.isEmpty_eq_false_iff.mpr hdigits.1
  constructor
  · refine .some (by decide) ?_ hdigits
    split <;> simp
  · by_cases hk : k < 0
    · simp [Number.exponentOf?, hk, Number.spanSign, hspan, hne, Number.signed, ofDigits_toDigits,
        abs_of_neg hk]
    · simp [Number.exponentOf?, hk, Number.spanSign, hspan, hne, Number.signed, ofDigits_toDigits]
      omega

/-! ## Layouts -/

/-- A text that is a number and is read as the decimal `digits * 10 ^ p`. -/
def LaysOut (digits : ℕ) (p : ℤ) (text : List Char) : Prop :=
  IsNumber text ∧ numberOf text = Number.ofDecimal false digits p

/-- A text lays out a decimal if its digits, moved by the point and the exponent, stand for the same
rational. -/
theorem laysOut_append {digits : ℕ} {p k : ℤ} {whole fraction x : List Char}
    (hwhole : IsDigits whole) (hfraction : ∀ d ∈ fraction, d.isDigit = true) (hx : IsExponent x)
    (hk : Number.exponentOf? x = some k)
    (h : (Number.ofDigits (whole ++ fraction) : ℚ) * 10 ^ (k - fraction.length) = digits * 10 ^ p) :
    LaysOut digits p (whole ++ (pointed fraction ++ x)) := by
  obtain ⟨hnumber, hvalue⟩ := numberOf_append hwhole hfraction hx hk
  exact ⟨hnumber, hvalue.trans (Number.ofDecimal_congr h false)⟩

/-- Zeros fill the digits up to the point, behind which there is one more. -/
theorem laysOut_positional (digits n : ℕ) :
    LaysOut digits n ((Number.positional digits n).toList ++ ['.', '0']) := by
  have hdigits := isDigits_toDigits digits
  -- A zero behind the point is one more digit, with the point moved by one place.
  have htext : (Number.positional digits n).toList ++ ['.', '0'] =
      (Nat.toDigits 10 digits ++ List.replicate n '0') ++ (pointed ['0'] ++ []) := by
    simp [Number.positional, pointed]
  have hzero : ['0'] = List.replicate 1 '0' := rfl
  rw [htext]
  refine laysOut_append ⟨by simp, fun d hd => ?_⟩ (List.all_eq_true.mp rfl) .none rfl ?_
  · rcases List.mem_append.mp hd with hd | hd
    · exact hdigits.2 d hd
    · rw [List.eq_of_mem_replicate hd]
      rfl
  · rw [hzero, ofDigits_append_zeros, ofDigits_append_zeros, ofDigits_toDigits, zpow_natCast]
    simp only [List.length_replicate]
    push_cast
    norm_num
    ring

/-- The point is among the digits, or zeros fill the digits up to a point before them. -/
theorem laysOut_positional_of_neg (digits : ℕ) {n : ℕ} (hn : 0 < n) :
    LaysOut digits (-n) (Number.positional digits (-n)).toList := by
  have hdigits := isDigits_toDigits digits
  have hnot : ¬ (0 : ℤ) ≤ -n := by omega
  rw [Number.positional]
  simp only [if_neg hnot]
  split
  · -- Some digits stay in front of the point.
    rename_i hpoint
    obtain ⟨k, hk⟩ : ∃ k : ℕ, (Nat.toDigits 10 digits).length = k + n :=
      ⟨(Nat.toDigits 10 digits).length - n, by omega⟩
    have hplace : ((Nat.toDigits 10 digits).length + -(n : ℤ)).toNat = k := by omega
    have hdrop : ((Nat.toDigits 10 digits).drop k).length = n := by
      rw [List.length_drop]
      omega
    have hpointed : pointed ((Nat.toDigits 10 digits).drop k) =
        '.' :: (Nat.toDigits 10 digits).drop k :=
      pointed_of_ne_nil (List.ne_nil_of_length_pos (by omega))
    rw [hplace, String.toList_ofList, ← hpointed,
      ← List.append_nil (pointed ((Nat.toDigits 10 digits).drop k))]
    refine laysOut_append ⟨?_, fun d hd => hdigits.2 d (List.mem_of_mem_take hd)⟩
      (fun d hd => hdigits.2 d (List.mem_of_mem_drop hd)) .none rfl ?_
    · rw [← List.length_pos_iff, List.length_take]
      omega
    · rw [List.take_append_drop, ofDigits_toDigits, hdrop, zero_sub]
  · -- All digits are behind the point, after as many zeros as are missing.
    rename_i hpoint
    obtain ⟨k, hk⟩ : ∃ k : ℕ, n = k + (Nat.toDigits 10 digits).length :=
      ⟨n - (Nat.toDigits 10 digits).length, by omega⟩
    have hplace : (-((Nat.toDigits 10 digits).length + -(n : ℤ))).toNat = k := by omega
    have hpointed : pointed (List.replicate k '0' ++ Nat.toDigits 10 digits) =
        '.' :: (List.replicate k '0' ++ Nat.toDigits 10 digits) :=
      pointed_of_ne_nil (by simp)
    have hlead : '0' :: (List.replicate k '0' ++ Nat.toDigits 10 digits) =
        List.replicate (k + 1) '0' ++ Nat.toDigits 10 digits := rfl
    have htext : '0' :: '.' :: (List.replicate k '0' ++ Nat.toDigits 10 digits) =
        ['0'] ++ (pointed (List.replicate k '0' ++ Nat.toDigits 10 digits) ++ []) := by
      simp [hpointed]
    rw [hplace, String.toList_ofList, htext]
    refine laysOut_append ⟨by simp, List.all_eq_true.mp rfl⟩ (fun d hd => ?_) .none rfl ?_
    · rcases List.mem_append.mp hd with hd | hd
      · rw [List.eq_of_mem_replicate hd]
        rfl
      · exact hdigits.2 d hd
    · rw [List.singleton_append, hlead, ofDigits_zeros_append, ofDigits_toDigits,
        List.length_append, List.length_replicate, ← hk, zero_sub]

/-- The exponent makes up for the digits that are behind the point. -/
theorem laysOut_scientific (digits : ℕ) (p : ℤ) :
    LaysOut digits p (Number.scientific digits p).toList := by
  have hdigits := isDigits_toDigits digits
  have hlength : 0 < (Nat.toDigits 10 digits).length := Nat.length_toDigits_pos
  obtain ⟨mark, hmark⟩ : ∃ mark, mark = p + (Nat.toDigits 10 digits).length - 1 := ⟨_, rfl⟩
  obtain ⟨hexponent, hvalue⟩ := exponentOf?_toDigits mark
  -- Behind a single digit there is no point.
  have hpointed : pointed ((Nat.toDigits 10 digits).drop 1) =
      if (Nat.toDigits 10 digits).length ≤ 1 then []
      else '.' :: (Nat.toDigits 10 digits).drop 1 := by
    split
    · rw [List.drop_eq_nil_of_le ‹_›]
      rfl
    · refine pointed_of_ne_nil (List.ne_nil_of_length_pos ?_)
      rw [List.length_drop]
      omega
  have hsign : (if mark < 0 then "-" else "+").toList = if mark < 0 then ['-'] else ['+'] := by
    split <;> rfl
  have htext : (Number.scientific digits p).toList = (Nat.toDigits 10 digits).take 1 ++
      (pointed ((Nat.toDigits 10 digits).drop 1) ++
        'e' :: ((if mark < 0 then ['-'] else ['+']) ++ Nat.toDigits 10 mark.natAbs)) := by
    rw [hpointed, ← hsign, hmark]
    simp only [Number.scientific, String.toList_append, String.toList_ofList, List.append_assoc,
      Nat.toString_eq_repr, Nat.toList_repr]
    rfl
  rw [htext]
  refine laysOut_append ⟨?_, fun d hd => hdigits.2 d (List.mem_of_mem_take hd)⟩
    (fun d hd => hdigits.2 d (List.mem_of_mem_drop hd)) hexponent hvalue ?_
  · rw [← List.length_pos_iff, List.length_take]
    omega
  · rw [List.take_append_drop, ofDigits_toDigits, List.length_drop, Nat.cast_sub (by omega), hmark]
    congr 2
    push_cast
    ring

/-! ## Numerals -/

/-- A text that names a number: a number, possibly after a minus sign. -/
inductive Numeral : Number → List Char → Prop where
  | plain {x : Number} {w : List Char} : IsNumber w → numberOf w = x → Numeral x w
  | minus {x : Number} {w : List Char} : IsNumber w → (numberOf w).neg = x → Numeral x ('-' :: w)

/-- A magnitude with its sign before it. -/
theorem numeral_signed {negative : Bool} {x : Number} {w : List Char} (hw : IsNumber w)
    (hx : (if negative then (numberOf w).neg else numberOf w) = x) :
    Numeral x ((if negative then "-" else "").toList ++ w) := by
  cases negative with
  | false => exact .plain hw hx
  | true => exact .minus hw hx

/-- The digits of a natural are a number in the grammar, which is read as the natural rounded. -/
theorem numeral_natural (n : ℕ) :
    IsNumber (Nat.toDigits 10 n) ∧ numberOf (Nat.toDigits 10 n) = Number.ofRatio false n 1 := by
  have h := @numberOf_append _ [] _ _ (isDigits_toDigits n) nofun .none rfl
  simp only [pointed, List.isEmpty_nil, if_true, List.append_nil, ofDigits_toDigits] at h
  exact ⟨h.1, h.2.trans (Number.ofDecimal_zero_right false n)⟩

/-- The text of an integer names the number nearest to it. -/
theorem numeral_int (n : ℤ) : Numeral (Number.ofInt n) (toString n).toList := by
  rw [Int.toString_eq_repr, Int.repr_eq_if]
  obtain ⟨hnumber, hvalue⟩ := numeral_natural n.natAbs
  split
  · rename_i hn
    have habs : n.toNat = n.natAbs := by omega
    rw [Nat.toList_repr, habs]
    refine .plain hnumber ?_
    rw [hvalue, Number.ofInt, decide_eq_false (by omega : ¬ n < 0)]
  · rename_i hn
    have habs : (-n).toNat = n.natAbs := by omega
    rw [String.toList_append, Nat.toList_repr, habs]
    refine @numeral_signed true _ _ hnumber ?_
    rw [hvalue, if_pos rfl, Number.neg_ofRatio, Number.ofInt, decide_eq_true (by omega : n < 0),
      Bool.not_false]

/-- The text of a finite number names it. -/
theorem numeral_finite (negative : Bool) (m : ℕ) (e : ℤ) (hcanonical : Canonical m e) :
    Numeral (.finite negative m e hcanonical)
      (Number.toJsonText (.finite negative m e hcanonical)).toList := by
  rw [Number.toJsonText]
  simp only
  rcases Nat.eq_zero_or_pos m with rfl | hm
  · -- A zero keeps its sign.
    have he : e = -1074 := hcanonical.2.resolve_right fun h => absurd h.1 (by decide)
    subst he
    have hzero : LaysOut 0 0 "0.0".toList := laysOut_positional 0 0
    rw [if_pos rfl, String.toList_append]
    refine numeral_signed hzero.1 ?_
    rw [hzero.2]
    cases negative <;> rfl
  · rw [if_neg hm.ne']
    have hread := Number.ofDecimal_shortest hm hcanonical .even false
    generalize Number.shortest .even m e = found at hread ⊢
    obtain ⟨digits, p⟩ := found
    -- The sign stands before any of the three layouts.
    have hsigned : ∀ w, LaysOut digits p w → Numeral (.finite negative m e hcanonical)
        ((if negative then "-" else "").toList ++ w) := by
      intro w hw
      refine numeral_signed hw.1 ?_
      rw [hw.2, hread]
      cases negative <;> rfl
    simp only
    split
    · rw [String.append_assoc, String.toList_append]
      refine hsigned _ ?_
      split
      · rename_i hp
        obtain ⟨n, rfl⟩ := Int.eq_ofNat_of_zero_le hp
        rw [String.toList_append]
        exact laysOut_positional digits n
      · obtain ⟨n, rfl⟩ : ∃ n : ℕ, p = -n := ⟨(-p).toNat, by omega⟩
        rw [String.append_empty]
        exact laysOut_positional_of_neg digits (by omega)
    · rw [String.toList_append]
      exact hsigned _ (laysOut_scientific digits p)

/-- The text of a JSON number names the number that it is, unless that is not finite. -/
theorem numeral_numberText {n : JsonNumber} (h : ∀ x, n = .float x → x.isFinite = true) :
    Numeral n.toNumber (Json.numberText n).toList := by
  cases n with
  | int k => exact numeral_int k
  | float x =>
    cases x with
    | finite negative m e hcanonical => exact numeral_finite negative m e hcanonical
    | nan | infinity s => cases h _ rfl

end Syntax

end TemplateFlow
