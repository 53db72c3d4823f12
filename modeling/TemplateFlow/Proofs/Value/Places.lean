import TemplateFlow.Proofs.Number.Integral
import TemplateFlow.Proofs.Syntax.Numeral
import TemplateFlow.Value.Access
import TemplateFlow.Value.Operators

/-!
# Places in a text

A natural in brackets reads the character of a text in that place, whatever detour it takes: it is
rounded to a number, the number is written out, and the digits are read as a place again
(`index_str_ofNat`). Naturals below `2 ^ 53` come back as they are, and larger ones stay outside of
every text whose length is a number.

Places count characters, so they agree with the length in characters. The length that a text has in
the language counts 16-bit units, of which the characters beyond the first 65536 take two. So it
agrees with the places of those texts only that have no such character (`placesAgree_length16_iff`).

## Main definitions

* `PlacesAgree`: a length and the places of a text agree.

## Main results

* `index_str_ofNat`: what a text has in a place.
* `placesAgree_length16_iff`: the texts whose length and places agree.
-/

namespace TemplateFlow

namespace Text

/-! ## Units -/

/-- Every character has a unit. -/
theorem units_pos (c : Char) : 1 ≤ units c := by
  rw [units]
  split <;> decide

/-- The characters of one unit are the first 65536. -/
theorem units_eq_one_iff (c : Char) : units c = 1 ↔ c.toNat < 0x10000 := by
  rw [units]
  split <;> simp [*]

/-- Units are counted character by character. -/
theorem length16_ofList_cons (c : Char) (cs : List Char) :
    length16 (String.ofList (c :: cs)) = units c + length16 (String.ofList cs) := by
  simp [length16]

theorem length16_singleton (c : Char) : length16 (String.singleton c) = units c := by
  simp [length16]

/-- A text has as many units as characters exactly if none of its characters takes two. -/
theorem length16_ofList (cs : List Char) :
    cs.length ≤ length16 (String.ofList cs) ∧
      (length16 (String.ofList cs) = cs.length ↔ ∀ c ∈ cs, c.toNat < 0x10000) := by
  induction cs with
  | nil => exact ⟨Nat.le_refl 0, by simp [length16]⟩
  | cons c cs ih =>
    have hunits := units_pos c
    rw [length16_ofList_cons, List.length_cons, List.forall_mem_cons, ← ih.2, ← units_eq_one_iff]
    exact ⟨by omega, by omega⟩

/-- A text has no fewer units than characters. -/
theorem length_le_length16 (s : String) : s.length ≤ length16 s := by
  have h := (length16_ofList s.toList).1
  rwa [String.ofList_toList, String.length_toList] at h

/-- The two lengths agree if no character of the text takes two units. -/
theorem length16_eq_length_iff (s : String) :
    length16 s = s.length ↔ ∀ c ∈ s.toList, c.toNat < 0x10000 := by
  have h := (length16_ofList s.toList).2
  rwa [String.ofList_toList, String.length_toList] at h

end Text

namespace Number

/-! ## The texts of naturals -/

/-- Small integers are written as integers. -/
theorem toText_of_toSmallInt? {x : Number} {n : ℤ} (h : x.toSmallInt? = some n) :
    x.toText = toString n := by
  cases x with
  | nan | infinity s => cases h
  | finite s m e hc => simp only [toText, h]

/-- A natural below `2 ^ 53` is written with its digits. -/
theorem toList_toText_ofNat {k : ℕ} (h : k < 2 ^ 53) :
    (ofNat k).toText.toList = Nat.toDigits 10 k := by
  have hsmall : (ofNat k).toSmallInt? = some (k : ℤ) := by
    rw [toSmallInt?_eq_some_iff, value?_ofNat h.le, Int.natAbs_natCast]
    exact ⟨by rw [Int.cast_natCast], h⟩
  rw [toText_of_toSmallInt? hsmall, Int.toString_eq_repr, Int.repr_eq_if, if_pos (by omega),
    Int.toNat_natCast, Nat.toList_repr]

/-- Digits written out in full have zeros after them, or a point among them or in front. -/
theorem toList_positional (digits : ℕ) (p : ℤ) :
    (∃ n : ℕ, p = n ∧ Syntax.IsDigits (positional digits p).toList ∧
        ofDigits (positional digits p).toList = digits * 10 ^ n) ∨
      '.' ∈ (positional digits p).toList := by
  by_cases hp : 0 ≤ p
  · obtain ⟨n, rfl⟩ := Int.eq_ofNat_of_zero_le hp
    have htext : (positional digits n).toList =
        Nat.toDigits 10 digits ++ List.replicate n '0' := by
      simp only [positional, if_pos hp, String.toList_ofList, Int.toNat_natCast]
    rw [htext, Syntax.ofDigits_append_zeros, Syntax.ofDigits_toDigits]
    refine .inl ⟨n, rfl, ⟨by simp [Nat.toDigits_ne_nil], fun d hd => ?_⟩, rfl⟩
    rcases List.mem_append.mp hd with hd | hd
    · exact (Syntax.isDigits_toDigits digits).2 d hd
    · rw [List.eq_of_mem_replicate hd]
      rfl
  · refine .inr ?_
    simp only [positional, if_neg hp]
    split
    · simp
    · simp

/-- No number is written like the name of the length. -/
theorem positional_ne_length (digits : ℕ) (p : ℤ) : positional digits p ≠ "length" := by
  intro h
  obtain ⟨n, -, hdigits, -⟩ | hpoint := toList_positional digits p
  · rw [h] at hdigits
    exact absurd (hdigits.2 'l' (by decide)) (by decide)
  · rw [h] at hpoint
    exact absurd hpoint (by decide)

end Number

namespace Value

open Number (ofNat)

/-! ## The places that names stand for -/

/-- Digits are the name of the place that they name, if that fits 64 bits. -/
theorem placeOf?_of_isDigits {name : String} (h : Syntax.IsDigits name.toList) :
    placeOf? name =
      (some (Number.ofDigits name.toList)).filter fun place => decide (place < Nat.pow 2 64) := by
  obtain ⟨hne, hdigits⟩ := h
  have hplus : '+' ∉ name.toList := fun hmem => absurd (hdigits '+' hmem) (by decide)
  have hdigits' : name.toList.all Char.isDigit = true := List.all_eq_true.mpr hdigits
  unfold placeOf?
  generalize name.toList = text at *
  split
  · exact absurd List.mem_cons_self hplus
  · simp [hne, hdigits']

/-- The name of a place has digits in it only, after a plus sign. -/
theorem placeOf?_eq_none {name : String} {c : Char} (hc : c ∈ name.toList) (hplus : c ≠ '+')
    (hdigit : c.isDigit = false) : placeOf? name = none := by
  unfold placeOf?
  generalize name.toList = text at hc
  have hnot : ∀ {digits : List Char}, c ∈ digits → digits.all Char.isDigit = false := fun h =>
    List.all_eq_false.mpr ⟨c, h, by simp [hdigit]⟩
  split
  · rename_i rest
    simp [hnot ((List.mem_cons.mp hc).resolve_left hplus)]
  · simp [hnot hc]

/-- A natural below `2 ^ 53` names its own place. -/
theorem placeOf?_toText_ofNat {k : ℕ} (h : k < 2 ^ 53) : placeOf? (ofNat k).toText = some k := by
  have htext := Number.toList_toText_ofNat h
  rw [placeOf?_of_isDigits (htext ▸ Syntax.isDigits_toDigits k), htext, Syntax.ofDigits_toDigits,
    Option.filter_some, if_pos]
  rw [decide_eq_true_eq, Nat.pow_eq]
  omega

/-- Digits that are read back as a number from `2 ^ 53` on name a place from there on. -/
theorem le_of_placeOf?_magnitudeText {m : ℕ} {e : ℤ} (hc : Canonical m e)
    (hlarge : (2 : ℚ) ^ 53 ≤ m * 2 ^ e) {j : ℕ}
    (h : placeOf? (Number.magnitudeText m e) = some j) : 2 ^ 53 ≤ j := by
  have hm : 0 < m := by
    rcases Nat.eq_zero_or_pos m with rfl | hm
    · norm_num at hlarge
    · exact hm
  have hread := Number.ofDecimal_shortest hm hc .up false
  rw [Number.magnitudeText] at h
  generalize Number.shortest .up m e = found at h hread
  obtain ⟨digits, p⟩ := found
  simp only at h hread
  obtain ⟨n, rfl, hdigits, hplace⟩ | hpoint := Number.toList_positional digits p
  · rw [placeOf?_of_isDigits hdigits, hplace] at h
    obtain ⟨hj, -⟩ := Option.filter_eq_some_iff.mp h
    obtain rfl := Option.some.inj hj
    by_contra hlt
    -- A smaller natural would be read as itself.
    have hnatural : Number.ofDecimal false digits n = ofNat (digits * 10 ^ n) :=
      Number.ofDecimal_eq Nat.one_pos (by push_cast; simp) false
    have hvalue := Number.value?_ofNat (not_le.mp hlt).le
    rw [← hnatural, hread, Number.value?, Option.some.injEq] at hvalue
    rw [if_neg (by decide)] at hvalue
    rw [hvalue] at hlarge
    exact hlt (by exact_mod_cast hlarge)
  · rw [placeOf?_eq_none hpoint (by decide) (by decide)] at h
    cases h

/-- The text of a natural from `2 ^ 53` on is no name of a smaller place, and not that of the
length. -/
theorem toText_ofNat_of_le {k : ℕ} (h : 2 ^ 53 ≤ k) :
    (ofNat k).toText ≠ "length" ∧ ∀ j, placeOf? (ofNat k).toText = some j → 2 ^ 53 ≤ j := by
  obtain hk | ⟨m, e, hc, hk, hlarge⟩ := Number.ofNat_of_le h
  · -- The text of the infinity begins with a letter, so it names no place.
    rw [hk]
    refine ⟨by decide, fun j hj => ?_⟩
    rw [placeOf?_eq_none (c := 'I') (by decide) (by decide) (by decide)] at hj
    cases hj
  · -- Such a number is not small, so it is written with the digits that read it back.
    have hsmall : (ofNat k).toSmallInt? = none := by
      refine Option.eq_none_iff_forall_ne_some.mpr fun n hn => ?_
      obtain ⟨hvalue, hlt⟩ := Number.toSmallInt?_eq_some_iff.mp hn
      rw [hk] at hvalue
      obtain ⟨hmagnitude, -⟩ := Number.magnitude_eq hvalue
      rw [hmagnitude] at hlarge
      exact absurd hlt (not_lt.mpr (by exact_mod_cast hlarge))
    have htext : (ofNat k).toText = Number.magnitudeText m e := by
      rw [hk] at hsmall ⊢
      simp only [Number.toText, hsmall]
      exact String.empty_append
    rw [htext]
    exact ⟨Number.positional_ne_length _ _, fun j => le_of_placeOf?_magnitudeText hc hlarge⟩

/-! ## What a text has in a place -/

/-- The character of a text in a place, as a text, and `undefined` behind the last one. -/
def characterAt (s : String) (place : ℕ) : Value :=
  match s.toList[place]? with
  | some c => .str (String.singleton c)
  | none => .undefined

/-- In a place inside of the text there is one of its characters. -/
theorem characterAt_of_lt {s : String} {i : ℕ} (h : i < s.length) :
    ∃ c ∈ s.toList, s.toList[i]? = some c ∧ characterAt s i = .str (String.singleton c) := by
  rw [← String.length_toList] at h
  refine ⟨s.toList[i], List.getElem_mem h, List.getElem?_eq_getElem h, ?_⟩
  rw [characterAt, List.getElem?_eq_getElem h]

/-- Behind the text there is nothing. -/
theorem characterAt_of_le {s : String} {i : ℕ} (h : s.length ≤ i) :
    characterAt s i = .undefined := by
  rw [characterAt, List.getElem?_eq_none (by rwa [String.length_toList])]

/-- A property of a text other than its length is the character in a place. -/
theorem textProperty_eq_characterAt {s name : String} (hname : name ≠ "length") :
    textProperty s name = ((placeOf? name).map (characterAt s)).getD .undefined := by
  rw [textProperty, if_neg hname]
  cases placeOf? name with
  | none => rfl
  | some j => rfl

/-- A natural reads the character in its place. -/
theorem index_str_ofNat {s : String} (hs : s.length ≤ 2 ^ 53) (i : ℕ) :
    (str s).index (.num (ofNat i)) = .ok (characterAt s i) := by
  rw [index, property, toText]
  rcases Nat.lt_or_ge i (2 ^ 53) with hi | hi
  · have hplace := placeOf?_toText_ofNat hi
    have hname : (ofNat i).toText ≠ "length" := by
      intro heq
      rw [heq] at hplace
      cases hplace
    rw [textProperty_eq_characterAt hname, hplace]
    rfl
  · -- Whatever place the text names, it is behind the text.
    obtain ⟨hname, hplace⟩ := toText_ofNat_of_le hi
    rw [textProperty_eq_characterAt hname, characterAt_of_le (hs.trans hi)]
    cases hj : placeOf? (ofNat i).toText with
    | none => rfl
    | some j => exact congrArg Except.ok (characterAt_of_le (hs.trans (hplace j hj)))

/-! ## Length and places -/

/-- What a text has in its first places, joined by the sum of the language. -/
def joinPlaces (s : String) (n : ℕ) : Except EvalError Value :=
  (List.range n).foldlM (fun joined i => joined.add <$> (str s).index (.num (ofNat i))) (.str "")

/-- A length and the places of a text agree: there are texts of length one in the places below the
length and nothing beyond, and joined they are the text. -/
structure PlacesAgree (length : String → ℕ) (s : String) : Prop where
  inside : ∀ i < length s, ∃ t, (str s).index (.num (ofNat i)) = .ok (.str t) ∧ length t = 1
  outside : ∀ i, length s ≤ i → (str s).index (.num (ofNat i)) = .ok .undefined
  joined : joinPlaces s (length s) = .ok (.str s)

section

variable {s : String} (hs : s.length ≤ 2 ^ 53)

include hs

/-- The characters of the first places make up the beginning of the text. -/
theorem joinPlaces_eq {n : ℕ} (hn : n ≤ s.length) :
    joinPlaces s n = .ok (.str (String.ofList (s.toList.take n))) := by
  induction n with
  | zero => rfl
  | succ n ih =>
    obtain ⟨c, -, hc, hplace⟩ := characterAt_of_lt hn
    rw [joinPlaces, List.range_succ, List.foldlM_append]
    have hbefore := ih (Nat.le_of_succ_le hn)
    rw [joinPlaces] at hbefore
    rw [hbefore, List.take_add_one, hc]
    show (str _).add <$> (str s).index (.num (ofNat n)) >>= pure = _
    rw [index_str_ofNat hs, hplace]
    simp [add, isTextual, toText]

/-- The places of a text count its characters. -/
theorem placesAgree_length : PlacesAgree String.length s where
  inside i hi := by
    obtain ⟨c, -, -, hplace⟩ := characterAt_of_lt hi
    exact ⟨String.singleton c, by rw [index_str_ofNat hs, hplace], String.length_singleton⟩
  outside i hi := by rw [index_str_ofNat hs, characterAt_of_le hi]
  joined := by
    rw [joinPlaces_eq hs le_rfl, ← String.length_toList, List.take_length, String.ofList_toList]

end

/-- The length of a text in the language is the number of its 16-bit units. Its places count
characters, so the two agree exactly if no character takes two units. -/
theorem placesAgree_length16_iff {s : String} (hs : Text.length16 s ≤ 2 ^ 53) :
    (∃ x, (str s).property "length" = .ok (.num x) ∧ x.value? = some (Text.length16 s : ℚ)) ∧
      PlacesAgree String.length s ∧
      (PlacesAgree Text.length16 s ↔ ∀ c ∈ s.toList, c.toNat < 0x10000) := by
  have hlength : s.length ≤ 2 ^ 53 := (Text.length_le_length16 s).trans hs
  have hplaces := placesAgree_length hlength
  refine ⟨⟨ofNat (Text.length16 s), rfl, Number.value?_ofNat hs⟩, hplaces, fun h => ?_, fun h => ?_⟩
  · -- Behind the last character nothing is left to read, so the length ends there, too.
    rw [← Text.length16_eq_length_iff]
    refine Nat.le_antisymm (Nat.le_of_not_lt fun hlt => ?_) (Text.length_le_length16 s)
    obtain ⟨t, ht, -⟩ := h.inside s.length hlt
    rw [hplaces.outside s.length le_rfl] at ht
    cases ht
  · have heq := (Text.length16_eq_length_iff s).mpr h
    refine ⟨fun i hi => ?_, fun i hi => hplaces.outside i (heq ▸ hi), heq ▸ hplaces.joined⟩
    obtain ⟨c, hc, -, hplace⟩ := characterAt_of_lt (heq ▸ hi)
    refine ⟨String.singleton c, by rw [index_str_ofNat hlength, hplace], ?_⟩
    rw [Text.length16_singleton, Text.units_eq_one_iff]
    exact h c hc

/-- A character with two units: it has one place, but the length is one more. -/
theorem placesAgree_length16_iff_smile :
    Text.length16 "a😀" ≤ 2 ^ 53 ∧ PlacesAgree String.length "a😀" ∧
      ¬ PlacesAgree Text.length16 "a😀" := by
  have hsmall : Text.length16 "a😀" ≤ 2 ^ 53 := by decide
  obtain ⟨-, hplaces, hiff⟩ := placesAgree_length16_iff hsmall
  refine ⟨hsmall, hplaces, fun h => ?_⟩
  exact absurd (hiff.mp h '😀' (by decide)) (by decide)

end Value

end TemplateFlow
