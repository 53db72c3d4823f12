import Mathlib.Data.List.Induction
import TemplateFlow.Proofs.Syntax.Contents
import TemplateFlow.Proofs.Syntax.Spelling

/-!
# Escapes without their digits

After a backslash `x` and `u` ask for digits: two, four, or between braces as many as the number of
a character takes (`Formed`). Where these are missing the letter stands for itself and nothing after
it is lost. The exception is a plus sign between the opening brace and the digits (`Signed`): it is
read over, and the digits count as if it were not there.

What comes before such an escape is read as if it came last (`IsContent.unescape_append`). The
escapes there take nothing of it along, since its backslash is no digit, and in the middle of a
surrogate pair it would have digits behind it.

## Main results

* `IsContent.unescape_append`: what comes before an escape is read apart from it.
* `escaped_of_not_formed`, `Signed.exists_escaped`: what an escape without its digits stands for.
* `parse_malformed`: a string literal with such an escape in it.
-/

namespace TemplateFlow

/-! ## Digits that are read -/

namespace Text

/-- A digit that is read is that of its value, in upper or lower case. -/
theorem hexDigit?_eq_some {c : Char} {k : Nat} (h : hexDigit? c = some k) :
    k < 16 ∧ c.toLower = k.digitChar := by
  have hall : ∀ n < 103, ∀ k ∈ hexDigit? (Char.ofNat n),
      k < 16 ∧ (Char.ofNat n).toLower = k.digitChar := by decide
  have hbound : c.toNat < 103 := by
    refine Nat.lt_of_not_le fun hle => ?_
    have hlow : ∀ d : Char, d.toNat < 103 → ¬ c ≤ d := fun d hd hcd =>
      absurd (UInt32.le_iff_toNat_le.mp hcd) (by simp only [Char.toNat_val]; omega)
    rw [hexDigit?, if_neg fun hc => hlow '9' (by decide) hc.2,
      if_neg fun hc => hlow 'f' (by decide) hc.2, if_neg fun hc => hlow 'F' (by decide) hc.2] at h
    cases h
  have hc := hall c.toNat hbound k
  rw [Char.ofNat_toNat] at hc
  exact hc h

/-- The last digit is read by itself. -/
theorem exists_of_ofHex?_append_singleton {digits : List Char} {c : Char} {n : Nat}
    (h : ofHex? (digits ++ [c]) = some n) :
    ∃ m k, ofHex? digits = some m ∧ hexDigit? c = some k ∧ n = 16 * m + k := by
  rw [ofHex?, List.foldlM_append] at h
  obtain ⟨m, hm, h⟩ := Option.bind_eq_some_iff.mp h
  obtain ⟨k, hk, rfl⟩ := Option.map_eq_some_iff.mp (by simpa using h)
  exact ⟨m, k, hm, hk, rfl⟩

/-- A backslash is no digit, so it ends the digits before it as the end of the text would. -/
theorem hexPrefix?_append_backslash (width : Nat) (w t : List Char) :
    hexPrefix? width (w ++ '\\' :: t) = hexPrefix? width w := by
  by_cases hlength : w.length < width
  · rw [hexPrefix?.eq_1 width w, if_pos hlength]
    refine Option.eq_none_iff_forall_ne_some.mpr fun n hn => ?_
    -- There are too few digits before the backslash, so it would have to be one of them.
    have hmem : '\\' ∈ (w ++ '\\' :: t).take width := by
      obtain ⟨k, hk⟩ : ∃ k, width - w.length = k + 1 := ⟨width - w.length - 1, by omega⟩
      rw [List.take_append, hk, List.take_succ_cons]
      exact List.mem_append_right _ List.mem_cons_self
    exact hexDigit?_of_hexPrefix? hn _ hmem rfl
  · have hle : width ≤ w.length := Nat.le_of_not_lt hlength
    rw [hexPrefix?, hexPrefix?, if_neg hlength, if_neg (by rw [List.length_append]; omega),
      List.take_append_of_le_length hle]

end Text

namespace Syntax

/-- What is read as a natural is one way of writing it. -/
theorem hexadecimal_of_ofHex? {digits : List Char} {n : Nat} (hne : digits ≠ [])
    (h : Text.ofHex? digits = some n) : Hexadecimal n digits := by
  -- The last digit is read last, so the induction takes it off.
  induction digits using List.reverseRecOn generalizing n with
  | nil => exact absurd rfl hne
  | append_singleton digits c ih =>
    obtain ⟨m, k, hm, hk, rfl⟩ := Text.exists_of_ofHex?_append_singleton h
    obtain ⟨hk, hc⟩ := Text.hexDigit?_eq_some hk
    have hlast : Nat.toDigits 16 k = [k.digitChar] := Nat.toDigits_of_lt_base hk
    by_cases hnil : digits = []
    · subst hnil
      cases hm
      refine ⟨0, ?_⟩
      rw [Nat.mul_zero, Nat.zero_add, hlast]
      simp [hc]
    · obtain ⟨zeros, hdigits⟩ := ih hnil hm
      rw [Hexadecimal, List.map_append, hdigits, List.map_singleton, hc]
      rcases Nat.eq_zero_or_pos m with rfl | hpos
      · -- The digits before the last one are zeros, and so is the digit of zero itself.
        refine ⟨zeros + 1, ?_⟩
        rw [Nat.mul_zero, Nat.zero_add, hlast, List.replicate_succ', Nat.toDigits_zero]
      · refine ⟨zeros, ?_⟩
        rw [← Nat.toDigits_append_toDigits (by decide) hpos hk, hlast, List.append_assoc]

/-- A prefix that is read as a number has digits in the given width. -/
theorem exists_of_hexPrefix? {width n : Nat} {text : List Char} (hwidth : 0 < width)
    (h : Text.hexPrefix? width text = some n) :
    ∃ digits rest, text = digits ++ rest ∧ digits.length = width ∧ Hexadecimal n digits := by
  rw [Text.hexPrefix?] at h
  split at h
  · cases h
  · rename_i hlength
    have htake : (text.take width).length = width :=
      List.length_take_of_le (Nat.le_of_not_lt hlength)
    refine ⟨text.take width, text.drop width, (List.take_append_drop width text).symm, htake,
      hexadecimal_of_ofHex? ?_ h⟩
    exact List.ne_nil_of_length_pos (htake.symm ▸ hwidth)

/-- Between braces stand digits, possibly after a plus sign. -/
theorem exists_of_bracedHex? {body : List Char} {n : Nat} (h : bracedHex? body = some n) :
    ∃ digits, Hexadecimal n digits ∧ (body = digits ∨ body = '+' :: digits) := by
  have hdigits {digits : List Char}
      (h : (if digits.isEmpty then none else (Text.ofHex? digits).filter (· < Nat.pow 2 32)) =
        some n) : Hexadecimal n digits := by
    split at h
    · cases h
    · rename_i hne
      exact hexadecimal_of_ofHex? (by simpa using hne) (Option.filter_eq_some_iff.mp h).1
  unfold bracedHex? at h
  split at h
  · exact ⟨_, hdigits h, .inr rfl⟩
  · exact ⟨_, hdigits h, .inl rfl⟩

/-- The second half of a pair is an escape of its own with four digits. -/
theorem exists_of_lowSurrogate? {text : List Char} {low : Nat} (h : lowSurrogate? text = some low) :
    ∃ digits rest, text = '\\' :: 'u' :: (digits ++ rest) ∧ digits.length = 4 ∧
      Hexadecimal low digits := by
  unfold lowSurrogate? at h
  split at h
  · obtain ⟨digits, rest, rfl, hlength, hdigits⟩ :=
      exists_of_hexPrefix? (by decide) (Option.filter_eq_some_iff.mp h).1
    exact ⟨digits, rest, rfl, hlength, hdigits⟩
  · cases h

/-- Digits have nothing but digits in them. -/
theorem Hexadecimal.not_mem {n : Nat} {digits : List Char} (h : Hexadecimal n digits) {c : Char}
    (hc : Text.hexDigit? c = none) : c ∉ digits :=
  fun hmem => h.forall_hexDigit? c hmem hc

/-! ## What escapes take along -/

/-- After `u` there is a number between braces, four digits, or two times four with a mark between
them. -/
theorem unicodeEscape?_cases {text : List Char} {c : Char} {taken : Nat}
    (h : unicodeEscape? text = some (c, taken)) :
    (∃ body behind n, text = '\x7b' :: (body ++ '\x7d' :: behind) ∧ bracedHex? body = some n ∧
        Text.charOf? n = some c ∧ taken = body.length + 2) ∨
      (∃ n, Text.hexPrefix? 4 text = some n ∧
        (taken = 4 ∨ taken = 10 ∧ ∃ low, lowSurrogate? (text.drop 4) = some low)) := by
  cases hn : Text.hexPrefix? 4 text with
  | some n =>
    refine .inr ⟨n, rfl, ?_⟩
    rw [unicodeEscape?_of_hexPrefix? hn] at h
    split at h
    · rename_i low hlow
      split at hlow
      · simp only [Option.some.injEq, Prod.mk.injEq] at h
        exact .inr ⟨h.2.symm, low, hlow⟩
      · cases hlow
    · simp only [Option.some.injEq, Prod.mk.injEq] at h
      exact .inl h.2.symm
  | none =>
    unfold unicodeEscape? at h
    split at h
    · rename_i rest
      simp only at h
      split at h
      · cases h
      · rename_i hlength
        obtain ⟨d, hd, hpair⟩ := Option.map_eq_some_iff.mp h
        obtain ⟨n, hn, hc⟩ := Option.bind_eq_some_iff.mp hd
        cases hpair
        -- The body ends at a closing brace, since it is shorter than the text.
        have hsplit := List.takeWhile_append_dropWhile (p := (· ≠ '\x7d')) (l := rest)
        have hhead := List.head?_dropWhile_not (· ≠ '\x7d') rest
        generalize rest.dropWhile (· ≠ '\x7d') = behind at hsplit hhead
        cases behind with
        | nil =>
          rw [List.append_nil] at hsplit
          exact absurd (congrArg List.length hsplit) hlength
        | cons d behind =>
          obtain rfl : d = '\x7d' := by simpa using hhead
          exact .inl ⟨_, behind, n, by rw [hsplit], hn, hc, rfl⟩
    · rw [hn] at h
      cases h

/-- An escape takes no backslash along but the one in the middle of a surrogate pair. -/
theorem exists_escaped_eq_length (mark : Char) (text : List Char) :
    ∃ taken behind, text = taken ++ behind ∧ (escaped mark text).2 = taken.length ∧
      ('\\' ∉ taken ∨
        ∃ high low, taken = high ++ '\\' :: 'u' :: low ∧ '\\' ∉ high ∧ '\\' ∉ low) := by
  -- An escape that is not well-formed takes nothing along.
  have hnothing : ∃ taken behind, text = taken ++ behind ∧ 0 = taken.length ∧
      ('\\' ∉ taken ∨
        ∃ high low, taken = high ++ '\\' :: 'u' :: low ∧ '\\' ∉ high ∧ '\\' ∉ low) :=
    ⟨[], text, rfl, rfl, .inl List.not_mem_nil⟩
  unfold escaped
  split_ifs
  · cases h : byteEscape? text with
    | none => exact hnothing
    | some found =>
      obtain ⟨n, hn, rfl⟩ := Option.map_eq_some_iff.mp h
      obtain ⟨digits, behind, rfl, hlength, hdigits⟩ := exists_of_hexPrefix? (by decide) hn
      exact ⟨digits, behind, rfl, hlength.symm, .inl (hdigits.not_mem rfl)⟩
  · cases h : unicodeEscape? text with
    | none => exact hnothing
    | some found =>
      obtain ⟨body, behind, n, rfl, hn, -, htaken⟩ | ⟨n, hn, htaken⟩ := unicodeEscape?_cases h
      · obtain ⟨digits, hdigits, rfl | rfl⟩ := exists_of_bracedHex? hn
        · have hbody : '\\' ∉ body := hdigits.not_mem rfl
          refine ⟨'\x7b' :: (body ++ ['\x7d']), behind, by simp, ?_, .inl (by simp [hbody])⟩
          simpa using htaken
        · have hbody : '\\' ∉ digits := hdigits.not_mem rfl
          refine ⟨'\x7b' :: '+' :: (digits ++ ['\x7d']), behind, by simp, ?_,
            .inl (by simp [hbody])⟩
          simpa using htaken
      · obtain ⟨high, behind, rfl, hhigh, hhighDigits⟩ := exists_of_hexPrefix? (by decide) hn
        rcases htaken with htaken | ⟨htaken, low, hlow⟩
        · exact ⟨high, behind, rfl, htaken.trans hhigh.symm, .inl (hhighDigits.not_mem rfl)⟩
        · rw [List.drop_left' hhigh] at hlow
          obtain ⟨lowDigits, behind, rfl, hlowLength, hlowDigits⟩ := exists_of_lowSurrogate? hlow
          refine ⟨high ++ '\\' :: 'u' :: lowDigits, behind, by simp, htaken.trans ?_,
            .inr ⟨high, lowDigits, rfl, hhighDigits.not_mem rfl, hlowDigits.not_mem rfl⟩⟩
          simp [hhigh, hlowLength]
  · exact hnothing

/-- Behind a character that is no backslash the contents go on. -/
theorem IsContent.tail {quote c : Char} {w : List Char} (hc : c ≠ '\\')
    (h : IsContent quote (c :: w)) : IsContent quote w := by
  cases h with
  | escape _ => exact absurd rfl hc
  | plain _ _ h => exact h

/-- Behind a text without backslashes the contents go on. -/
theorem IsContent.of_append {quote : Char} {w rest : List Char} (hw : '\\' ∉ w)
    (h : IsContent quote (w ++ rest)) : IsContent quote rest := by
  induction w with
  | nil => exact h
  | cons c w ih =>
    obtain ⟨hc, hw⟩ := List.ne_and_not_mem_of_not_mem_cons hw
    exact ih hw (h.tail (Ne.symm hc))

/-- What an escape in contents takes along does not break into another escape. -/
theorem IsContent.drop_escaped {quote : Char} {w : List Char} (h : IsContent quote w)
    (mark : Char) : IsContent quote (w.drop (escaped mark w).2) := by
  obtain ⟨taken, behind, hsplit, hlength, hplain | ⟨high, low, rfl, hhigh, hlow⟩⟩ :=
    exists_escaped_eq_length mark w
  · rw [hlength, hsplit, List.drop_left]
    rw [hsplit] at h
    exact h.of_append hplain
  · rw [hlength, hsplit, List.drop_left]
    rw [hsplit, List.append_assoc] at h
    cases h.of_append hhigh with
    | escape h => exact h.of_append hlow
    | plain _ hne _ => exact absurd rfl hne

/-- No escape takes along more than there is. -/
theorem escaped_le (mark : Char) (w : List Char) : (escaped mark w).2 ≤ w.length := by
  obtain ⟨taken, behind, hsplit, hlength, -⟩ := exists_escaped_eq_length mark w
  rw [hlength, hsplit, List.length_append]
  exact Nat.le_add_right _ _

/-! ## Escapes before an escape -/

section

variable {t : List Char}

/-- Whether a second half follows does not depend on an escape further on that is none. -/
theorem lowSurrogate?_append (ht : lowSurrogate? ('\\' :: t) = none) (w : List Char) :
    lowSurrogate? (w ++ '\\' :: t) = lowSurrogate? w := by
  have hnone {text : List Char} (h : ∀ rest, text ≠ '\\' :: 'u' :: rest) :
      lowSurrogate? text = none := by
    unfold lowSurrogate?
    split
    · exact absurd rfl (h _)
    · rfl
  -- Either the backslash of the second half is there already, or what is there does not begin with
  -- one.
  by_cases hw : ∃ w', w = '\\' :: 'u' :: w'
  · obtain ⟨w', rfl⟩ := hw
    show (Text.hexPrefix? 4 (w' ++ '\\' :: t)).filter _ = (Text.hexPrefix? 4 w').filter _
    rw [Text.hexPrefix?_append_backslash]
  · have hright : lowSurrogate? w = none := hnone fun rest h => hw ⟨rest, h⟩
    rw [hright]
    match w with
    | [] => exact ht
    | [c] => exact hnone fun rest h => by simp at h
    | c :: d :: w' =>
      refine hnone fun rest h => hw ⟨w', ?_⟩
      simp only [List.cons_append, List.cons.injEq] at h
      rw [h.1, h.2.1]

/-- Of two marks in a text the one that comes first is in front of the other. -/
theorem mem_of_append_cons_eq {a b : Char} {u v u' v' : List Char}
    (h : u ++ a :: v = u' ++ b :: v') (hab : a ≠ b) (hb : b ∉ u) : a ∈ u' := by
  rcases List.append_eq_append_iff.mp h with ⟨x, rfl, hx⟩ | ⟨x, rfl, hx⟩
  · cases x with
    | nil => exact absurd (List.cons.inj hx).1 hab
    | cons d x =>
      rw [(List.cons.inj hx).1]
      exact List.mem_append_right _ List.mem_cons_self
  · cases x with
    | nil => exact absurd (List.cons.inj hx).1.symm hab
    | cons d x =>
      rw [(List.cons.inj hx).1] at hb
      exact absurd (List.mem_append_right _ List.mem_cons_self) hb

/-- A body that is not closed before a backslash is not closed before the end, and one that is
closed behind it has it among its digits. -/
theorem unicodeEscape?_braced_append (w : List Char) :
    unicodeEscape? ('\x7b' :: (w ++ '\\' :: t)) = unicodeEscape? ('\x7b' :: w) := by
  -- Only what is before the first brace counts.
  by_cases hw : '\x7d' ∈ w
  · obtain ⟨body, behind, rfl, hbody⟩ := List.eq_append_cons_of_mem hw
    rw [List.append_assoc, List.cons_append, unicodeEscape?_braced hbody,
      unicodeEscape?_braced hbody]
  · have hnone {text : List Char} (h : ∀ body behind, text = body ++ '\x7d' :: behind →
        '\\' ∈ body) : unicodeEscape? ('\x7b' :: text) = none := by
      refine Option.eq_none_iff_forall_ne_some.mpr fun (c, taken) hsome => ?_
      obtain ⟨body, behind, n, htext, hn, -⟩ | ⟨n, hn, -⟩ := unicodeEscape?_cases hsome
      · have hmem := h body behind (List.cons.inj htext).2
        obtain ⟨digits, hdigits, rfl | rfl⟩ := exists_of_bracedHex? hn
        · exact hdigits.not_mem rfl hmem
        · exact hdigits.not_mem rfl (List.mem_of_ne_of_mem (by decide) hmem)
      · exact Text.hexDigit?_of_hexPrefix? hn '\x7b' List.mem_cons_self rfl
    rw [hnone fun body behind h => ?_, hnone fun body behind h => ?_]
    · exact absurd (h ▸ List.mem_append_right body List.mem_cons_self) hw
    · exact mem_of_append_cons_eq h (by decide) hw

/-- A Unicode escape is the same with such an escape behind it. -/
theorem unicodeEscape?_append (ht : lowSurrogate? ('\\' :: t) = none) (w : List Char) :
    unicodeEscape? (w ++ '\\' :: t) = unicodeEscape? w := by
  have hprefix := Text.hexPrefix?_append_backslash 4 w t
  -- With four digits in front the escape is not in braces.
  cases hn : Text.hexPrefix? 4 w with
  | some n =>
    obtain ⟨digits, behind, rfl, hlength, -⟩ := exists_of_hexPrefix? (by decide) hn
    rw [hn] at hprefix
    rw [unicodeEscape?_of_hexPrefix? hprefix, unicodeEscape?_of_hexPrefix? hn, List.append_assoc,
      List.drop_left' hlength, List.drop_left' hlength, lowSurrogate?_append ht]
  | none =>
    rw [hn] at hprefix
    have hnone {text : List Char} (h : Text.hexPrefix? 4 text = none)
        (hbrace : ∀ rest, text ≠ '\x7b' :: rest) : unicodeEscape? text = none := by
      refine Option.eq_none_iff_forall_ne_some.mpr fun (c, taken) hsome => ?_
      obtain ⟨body, behind, n, htext, -⟩ | ⟨n, hn, -⟩ := unicodeEscape?_cases hsome
      · exact hbrace _ htext
      · rw [h] at hn
        cases hn
    by_cases hbrace : ∃ w', w = '\x7b' :: w'
    · obtain ⟨w', rfl⟩ := hbrace
      exact unicodeEscape?_braced_append w'
    · -- Neither text begins with a brace, not even if there is nothing before the backslash.
      rw [hnone hn fun rest h => hbrace ⟨rest, h⟩, hnone hprefix fun rest h => ?_]
      cases w with
      | nil => cases h
      | cons d w => exact hbrace ⟨w, by rw [(List.cons.inj h).1]⟩

/-- Every escape is the same with such an escape behind it. -/
theorem escaped_append (ht : lowSurrogate? ('\\' :: t) = none) (mark : Char) (w : List Char) :
    escaped mark (w ++ '\\' :: t) = escaped mark w := by
  rw [escaped, escaped, byteEscape?, byteEscape?, Text.hexPrefix?_append_backslash,
    unicodeEscape?_append ht]

/-- A text is read as the contents before an escape, and then as the escape and what comes after it,
unless its backslash is in the middle of a surrogate pair. -/
theorem IsContent.unescape_append {quote : Char} {before : List Char} (h : IsContent quote before)
    (ht : lowSurrogate? ('\\' :: t) = none) :
    unescape (before ++ '\\' :: t) = unescape before ++ unescape ('\\' :: t) := by
  -- By the length, since an escape leaves out as many characters as it takes along.
  induction hn : before.length using Nat.strongRecOn generalizing before with
  | ind n ih =>
    subst hn
    cases h with
    | nil => rw [List.nil_append, unescape, List.nil_append]
    | @plain c w _ hc h =>
      rw [List.cons_append, unescape_cons hc, unescape_cons hc,
        ih w.length (Nat.lt_succ_self _) h rfl]
      rfl
    | @escape c w h =>
      -- The escape takes the same along with and without the text behind, and ends before it.
      have hlt : (w.drop (escaped c w).2).length < ('\\' :: c :: w).length := by
        simp only [List.length_drop, List.length_cons]
        omega
      rw [List.cons_append, List.cons_append, unescape_escape, unescape_escape,
        escaped_append ht, List.drop_append_of_le_length (escaped_le c w),
        ih _ hlt (h.drop_escaped c) rfl]
      rfl

end

/-! ## Escapes without their digits -/

/-- After a backslash and `x` or `u` stand the digits that are asked for: two, four, or between
braces as many as the number of a character takes. -/
inductive Formed : Char → List Char → Prop where
  /-- Two digits. -/
  | byte {n : Nat} {digits rest : List Char} : Hexadecimal n digits → digits.length = 2 →
      Formed 'x' (digits ++ rest)
  /-- Four digits. -/
  | unit {n : Nat} {digits rest : List Char} : Hexadecimal n digits → digits.length = 4 →
      Formed 'u' (digits ++ rest)
  /-- Any number of digits between braces, for a character. -/
  | braced {c : Char} {digits rest : List Char} : Hexadecimal c.toNat digits →
      Formed 'u' ('\x7b' :: (digits ++ '\x7d' :: rest))

/-- Braces with a plus sign and the number of a character between them, and a text behind them. -/
def Signed (c : Char) (behind text : List Char) : Prop :=
  ∃ digits, Hexadecimal c.toNat digits ∧
    text = '\x7b' :: '+' :: (digits ++ '\x7d' :: behind)

/-- Without its four digits a Unicode escape has no prefix that could be read. -/
theorem hexPrefix?_of_not_formed {rest : List Char} (h : ¬ Formed 'u' rest) :
    Text.hexPrefix? 4 rest = none := by
  refine Option.eq_none_iff_forall_ne_some.mpr fun n hn => h ?_
  obtain ⟨digits, behind, rfl, hlength, hdigits⟩ := exists_of_hexPrefix? (by decide) hn
  exact .unit hdigits hlength

/-- The character of a code point has this code point. -/
theorem toNat_of_charOf? {n : Nat} {c : Char} (h : Text.charOf? n = some c) : c.toNat = n := by
  obtain ⟨_, hc⟩ := Option.dite_none_right_eq_some.mp h
  cases hc
  rfl

/-- Without its digits and without a plus sign in their place, a letter stands for itself, and
nothing after it is taken along. -/
theorem escaped_of_not_formed {mark : Char} (hmark : mark ∈ ['x', 'u']) {rest : List Char}
    (h : ¬ Formed mark rest) (hsign : ¬ (mark = 'u' ∧ ∃ c behind, Signed c behind rest)) :
    escaped mark rest = (mark, 0) := by
  simp only [List.mem_cons, List.not_mem_nil, or_false] at hmark
  rcases hmark with rfl | rfl
  · have hnone : byteEscape? rest = none := by
      refine Option.map_eq_none_iff.mpr (Option.eq_none_iff_forall_ne_some.mpr fun n hn => h ?_)
      obtain ⟨digits, behind, rfl, hlength, hdigits⟩ := exists_of_hexPrefix? (by decide) hn
      exact .byte hdigits hlength
    rw [escaped, if_pos rfl, hnone]
    rfl
  · have hnone : unicodeEscape? rest = none := by
      refine Option.eq_none_iff_forall_ne_some.mpr ?_
      rintro ⟨d, taken⟩ hsome
      obtain ⟨body, behind, n, rfl, hn, hc, -⟩ | ⟨n, hn, -⟩ := unicodeEscape?_cases hsome
      · rw [← toNat_of_charOf? hc] at hn
        -- The digits of a character are allowed there, so it is the sign that was ruled out.
        obtain ⟨digits, hdigits, rfl | rfl⟩ := exists_of_bracedHex? hn
        · exact h (.braced hdigits)
        · exact hsign ⟨rfl, d, behind, digits, hdigits, rfl⟩
      · rw [hexPrefix?_of_not_formed h] at hn
        cases hn
    rw [escaped, if_neg (by decide), if_pos rfl, hnone]
    rfl

/-- A plus sign before the digits between braces is read over, and taken along with them. -/
theorem Signed.exists_escaped {c : Char} {behind text : List Char} (h : Signed c behind text) :
    ∃ taken, taken ≠ [] ∧ '\\' ∉ taken ∧ text = taken ++ behind ∧
      escaped 'u' text = (c, taken.length) := by
  obtain ⟨digits, hdigits, rfl⟩ := h
  have hchar := Text.charOf?_toNat c
  have hsign : bracedHex? ('+' :: digits) = some c.toNat := by
    rw [← bracedHex?_of_ofHex? hdigits.ofHex? hdigits.ne_nil hchar]
    unfold bracedHex?
    split
    · rename_i rest hrest
      -- The digits themselves do not begin with another sign.
      split
      · exact absurd List.mem_cons_self (hdigits.not_mem (c := '+') rfl)
      · rw [(List.cons.inj hrest).2]
    · rename_i hne
      exact absurd rfl (hne digits)
  have hbody : '\x7d' ∉ '+' :: digits := by simpa using hdigits.not_mem (c := '\x7d') rfl
  have hescaped := escaped_of_bracedHex? hbody hsign hchar behind
  refine ⟨'\x7b' :: '+' :: (digits ++ ['\x7d']), List.cons_ne_nil _ _, ?_, by simp, ?_⟩
  · simpa using hdigits.not_mem (c := '\\') rfl
  · simpa using hescaped

/-- A plus sign stands where the digits are asked for. -/
theorem Signed.not_formed {c : Char} {behind text : List Char} (h : Signed c behind text) :
    ¬ Formed 'u' text := by
  obtain ⟨digits, -, rfl⟩ := h
  generalize htext : '\x7b' :: '+' :: (digits ++ '\x7d' :: behind) = text
  -- In each form something stands in the place of the sign or of the brace before it.
  rintro (_ | ⟨hdigits, hlength⟩ | hdigits)
  · rename_i digits' rest
    cases digits' with
    | nil => cases hlength
    | cons d digits' =>
      rw [List.cons_append] at htext
      exact hdigits.not_mem (c := '\x7b') rfl ((List.cons.inj htext).1 ▸ List.mem_cons_self)
  · rename_i digits' rest
    have hsign := (List.cons.inj htext).2
    cases digits' with
    | nil => exact hdigits.ne_nil rfl
    | cons d digits' =>
      rw [List.cons_append] at hsign
      exact hdigits.not_mem (c := '+') rfl ((List.cons.inj hsign).1 ▸ List.mem_cons_self)

/-- A text without backslashes stands for itself, whatever comes behind it. -/
theorem unescape_append_of_not_mem {w : List Char} (hw : '\\' ∉ w) (rest : List Char) :
    unescape (w ++ rest) = w ++ unescape rest := by
  induction w with
  | nil => rfl
  | cons c w ih =>
    obtain ⟨hc, hw⟩ := List.ne_and_not_mem_of_not_mem_cons hw
    rw [List.cons_append, unescape_cons hc.symm, ih hw]
    rfl

/-- Between quotation marks a text is read as a string literal of another one. -/
def ReadAs (quote : Char) (content text : List Char) : Prop :=
  ∃ span, Expr.parse (String.ofList (quote :: (content ++ [quote]))) =
    .ok (.literal (.str (String.ofList text)) span)

/-- Contents are read as one text only. -/
theorem ReadAs.unique {quote : Char} {content text text' : List Char}
    (h : ReadAs quote content text) (h' : ReadAs quote content text') : text = text' := by
  obtain ⟨span, h⟩ := h
  obtain ⟨span', h'⟩ := h'
  rw [h] at h'
  simp only [Except.ok.injEq, Expr.literal.injEq, Literal.str.injEq] at h'
  exact String.ofList_injective h'.1

/-- Contents behind contents are contents. -/
theorem IsContent.append {quote : Char} {before rest : List Char} (hbefore : IsContent quote before)
    (hrest : IsContent quote rest) : IsContent quote (before ++ rest) := by
  induction hbefore with
  | nil => exact hrest
  | escape _ ih => exact .escape ih
  | plain hquote hbackslash _ ih => exact .plain hquote hbackslash ih

/-- Contents are read as what they stand for. -/
theorem IsContent.readAs {quote : Char} (hquote : quote ∈ ['\'', '"']) {content : List Char}
    (h : IsContent quote content) : ReadAs quote content (unescape content) := by
  obtain ⟨t, ht, hbare⟩ := parse_of_sourceOf (Spells.str ⟨quote, hquote, h, rfl⟩).sourceOf
  -- Nothing but a literal is a literal without its span.
  cases t with
  | literal v span =>
    cases hbare
    refine ⟨span, ?_⟩
    rw [Expr.parse, String.toList_ofList, ht]
  | _ => cases hbare

/-- A string literal with an escape without its digits in it keeps the letter of the escape and all
that comes after it, as long as there is no plus sign in place of the digits. A plus sign and its
braces are lost, and the digits are read as a character. -/
theorem parse_malformed {quote : Char} (hquote : quote ∈ ['\'', '"']) {before rest : List Char}
    (hbefore : IsContent quote before) (hrest : IsContent quote rest) {mark : Char}
    (hmark : mark ∈ ['x', 'u']) (h : ¬ Formed mark rest) :
    (ReadAs quote (before ++ '\\' :: mark :: rest) (unescape before ++ mark :: unescape rest) ↔
        ¬ (mark = 'u' ∧ ∃ c behind, Signed c behind rest)) ∧
      ∀ c behind, mark = 'u' → Signed c behind rest →
        ReadAs quote (before ++ '\\' :: mark :: rest)
          (unescape before ++ c :: unescape behind) := by
  have hlow : lowSurrogate? ('\\' :: mark :: rest) = none := by
    simp only [List.mem_cons, List.not_mem_nil, or_false] at hmark
    rcases hmark with rfl | rfl
    · rfl
    · rw [lowSurrogate?, hexPrefix?_of_not_formed h]
      rfl
  have hread : ReadAs quote (before ++ '\\' :: mark :: rest)
      (unescape before ++ (escaped mark rest).1 :: unescape (rest.drop (escaped mark rest).2)) := by
    rw [← unescape_escape, ← hbefore.unescape_append hlow]
    exact (hbefore.append (.escape hrest)).readAs hquote
  have hsigned : ∀ c behind, mark = 'u' → Signed c behind rest →
      ReadAs quote (before ++ '\\' :: mark :: rest) (unescape before ++ c :: unescape behind) := by
    rintro c behind rfl hsign
    obtain ⟨taken, -, -, rfl, htaken⟩ := hsign.exists_escaped
    rw [htaken, List.drop_left] at hread
    exact hread
  refine ⟨⟨?_, fun hsign => ?_⟩, hsigned⟩
  · rintro hkept ⟨rfl, c, behind, hsign⟩
    have heq := hkept.unique (hsigned c behind rfl hsign)
    -- The text that keeps what was taken along is longer by it.
    obtain ⟨taken, hne, hplain, rfl, -⟩ := hsign.exists_escaped
    have hlength := congrArg List.length heq
    rw [unescape_append_of_not_mem hplain] at hlength
    simp only [List.length_append, List.length_cons] at hlength
    have hpos := List.length_pos_of_ne_nil hne
    omega
  · rw [escaped_of_not_formed hmark h hsign] at hread
    exact hread

/-- A plus sign before the digits of a letter. -/
theorem parse_malformed_plus :
    IsContent '\'' ['a', '\\', 'n'] ∧ IsContent '\'' "\x7b+41\x7d!".toList ∧
      ¬ Formed 'u' "\x7b+41\x7d!".toList ∧
      ReadAs '\'' "a\\n\\u\x7b+41\x7d!".toList "a\nA!".toList ∧
      ¬ ReadAs '\'' "a\\n\\u\x7b+41\x7d!".toList "a\nu\x7b+41\x7d!".toList := by
  have hbefore : IsContent '\'' ['a', '\\', 'n'] := .plain (by decide) (by decide) (.escape .nil)
  have hrest : IsContent '\'' "\x7b+41\x7d!".toList := isContent_of_not_mem (by decide) (by decide)
  have hsign : Signed 'A' ['!'] "\x7b+41\x7d!".toList := ⟨['4', '1'], ⟨0, by decide⟩, by decide⟩
  have hread : unescape ['a', '\\', 'n'] = ['a', '\n'] := by
    rw [unescape_cons (by decide), unescape_escape]
    exact congrArg (['a', '\n'] ++ ·) (unescape_of_not_mem List.not_mem_nil)
  obtain ⟨hkept, hsigned⟩ :=
    parse_malformed (by decide) hbefore hrest (by decide) hsign.not_formed
  rw [hread, unescape_of_not_mem (by decide)] at hkept
  have hlost := hsigned 'A' ['!'] rfl hsign
  rw [hread, unescape_of_not_mem (by decide)] at hlost
  exact ⟨hbefore, hrest, hsign.not_formed, hlost, fun h => hkept.mp h ⟨rfl, 'A', ['!'], hsign⟩⟩

end Syntax

end TemplateFlow
