import TemplateFlow.Proofs.Syntax.Escape

/-!
# Contents that stand for themselves

The contents of a string are read as the text between its quotation marks if they have no backslash
in them, and no quotation mark. Of a text that was put between single quotation marks as it stands
the converse holds as well (`IsContent.not_mem_of_unescape`): if what is read back is the text, it
has neither of the two in it.

It would not do to look for a text that escapes change, since an escape can stand for a backslash,
and the string may end later than the text. What decides is where the first quotation mark goes. It
is inside the string only if it is escaped, and then it comes out at an earlier place, as escapes
take digits and their marks along, but no quotation marks (`isEscapeTail_of_escaped`).

## Main results

* `exists_unescape_eq_append`: the place that the first quotation mark of a text comes out at.
* `IsContent.not_mem_of_unescape`: which texts are read back as they stand.
-/

namespace TemplateFlow

namespace Syntax

/-! ## What an escape takes along -/

/-- The characters that an escape may take along: digits, and what marks them. -/
def isEscapeTail (c : Char) : Bool :=
  (Text.hexDigit? c).isSome || c ∈ ['\x7b', '\x7d', '+', '\\', 'u']

/-- Hexadecimal digits of either case may be taken along. -/
theorem isEscapeTail_of_hexDigit? {c : Char} (h : Text.hexDigit? c ≠ none) :
    isEscapeTail c = true := by
  rw [isEscapeTail, Option.isSome_iff_ne_none.mpr h, Bool.true_or]

/-- An escape with a fixed number of digits takes these along. -/
theorem isEscapeTail_of_hexPrefix? {width n : Nat} {text : List Char}
    (h : Text.hexPrefix? width text = some n) : ∀ c ∈ text.take width, isEscapeTail c = true :=
  fun c hc => isEscapeTail_of_hexDigit? (Text.hexDigit?_of_hexPrefix? h c hc)

/-- An escape with braces takes digits along, possibly with a plus sign before them. -/
theorem isEscapeTail_of_bracedHex? {body : List Char} {n : Nat} (h : bracedHex? body = some n) :
    ∀ c ∈ body, isEscapeTail c = true := by
  unfold bracedHex? at h
  have hdigits {digits : List Char}
      (h : (if digits.isEmpty then none else (Text.ofHex? digits).filter (· < Nat.pow 2 32)) =
        some n) : ∀ c ∈ digits, isEscapeTail c = true := by
    split at h
    · cases h
    · obtain ⟨hdigits, -⟩ := Option.filter_eq_some_iff.mp h
      exact fun c hc => isEscapeTail_of_hexDigit? (Text.hexDigit?_of_ofHex? hdigits c hc)
  -- A sign may come before the digits.
  split at h
  · exact List.forall_mem_cons.mpr ⟨rfl, hdigits h⟩
  · exact hdigits h

/-- The escape of a byte takes its two digits along. -/
theorem isEscapeTail_of_byteEscape? {text : List Char} {c : Char} {taken : Nat}
    (h : byteEscape? text = some (c, taken)) : ∀ d ∈ text.take taken, isEscapeTail d = true := by
  obtain ⟨code, hcode, hpair⟩ := Option.map_eq_some_iff.mp h
  cases hpair
  exact isEscapeTail_of_hexPrefix? hcode

/-- The second half of a pair is taken along with the mark before it. -/
theorem isEscapeTail_of_lowSurrogate? {text : List Char} {low : Nat}
    (h : lowSurrogate? text = some low) : ∀ d ∈ text.take 6, isEscapeTail d = true := by
  unfold lowSurrogate? at h
  split at h
  · obtain ⟨hlow, -⟩ := Option.filter_eq_some_iff.mp h
    exact List.forall_mem_cons.mpr ⟨rfl, List.forall_mem_cons.mpr
      ⟨rfl, isEscapeTail_of_hexPrefix? hlow⟩⟩
  · cases h

/-- Between braces stands the number, and the closing brace is taken along. -/
theorem isEscapeTail_of_takeWhile {rest : List Char} {n : Nat}
    (h : bracedHex? (rest.takeWhile (· ≠ '\x7d')) = some n) :
    ∀ d ∈ rest.take ((rest.takeWhile (· ≠ '\x7d')).length + 1), isEscapeTail d = true := by
  have hsplit := List.takeWhile_append_dropWhile (p := (· ≠ '\x7d')) (l := rest)
  generalize hbody : rest.takeWhile (· ≠ '\x7d') = body at h hsplit
  have hhead := List.head?_dropWhile_not (· ≠ '\x7d') rest
  generalize rest.dropWhile (· ≠ '\x7d') = behind at hsplit hhead
  -- What is taken along is the text up to the brace, and the brace if there is one.
  have htake : rest.take (body.length + 1) = body ++ behind.take 1 := by
    rw [← hsplit, List.take_length_add_append]
  have hend : ∀ d ∈ behind.take 1, d = '\x7d' := by
    intro d hd
    cases behind with
    | nil => cases hd
    | cons c t =>
      obtain rfl : d = c := by simpa using hd
      simpa using hhead
  rw [htake]
  refine List.forall_mem_append.mpr ⟨isEscapeTail_of_bracedHex? h, fun d hd => ?_⟩
  rw [hend d hd]
  rfl

/-- Whichever form a Unicode escape has, it takes along digits and their marks only. -/
theorem isEscapeTail_of_unicodeEscape? {text : List Char} {c : Char} {taken : Nat}
    (h : unicodeEscape? text = some (c, taken)) : ∀ d ∈ text.take taken, isEscapeTail d = true := by
  unfold unicodeEscape? at h
  split at h
  · simp only at h
    split at h
    · cases h
    · obtain ⟨found, hfound, hpair⟩ := Option.map_eq_some_iff.mp h
      obtain ⟨n, hn, -⟩ := Option.bind_eq_some_iff.mp hfound
      cases hpair
      exact List.forall_mem_cons.mpr ⟨rfl, isEscapeTail_of_takeWhile hn⟩
  · obtain ⟨high, hhigh, h⟩ := Option.bind_eq_some_iff.mp h
    have hfirst := isEscapeTail_of_hexPrefix? hhigh
    -- The escape is one unit, or the first of two, which make up a pair.
    have htaken : taken = 4 ∨ taken = 10 ∧ ∃ low, lowSurrogate? (text.drop 4) = some low := by
      split at h
      · cases hlow : lowSurrogate? (text.drop 4) with
        | none =>
          simp only [hlow, Option.pure_def, Option.some.injEq, Prod.mk.injEq] at h
          exact .inl h.2.symm
        | some low =>
          simp only [hlow, Option.pure_def, Option.some.injEq, Prod.mk.injEq] at h
          exact .inr ⟨h.2.symm, low, rfl⟩
      · simp only [Option.pure_def, Option.some.injEq, Prod.mk.injEq] at h
        exact .inl h.2.symm
    rcases htaken with rfl | ⟨rfl, low, hlow⟩
    · exact hfirst
    · -- Two halves of a pair: four digits, and the mark with four more.
      rw [List.take_add (i := 4) (j := 6)]
      exact List.forall_mem_append.mpr ⟨hfirst, isEscapeTail_of_lowSurrogate? hlow⟩

/-- No escape takes a quotation mark along, nor a blank or a line break. -/
theorem isEscapeTail_of_escaped {c : Char} {text : List Char} :
    ∀ d ∈ text.take (escaped c text).2, isEscapeTail d = true := by
  unfold escaped
  split_ifs
  · cases h : byteEscape? text with
    | none => simp
    | some found => exact isEscapeTail_of_byteEscape? h
  · cases h : unicodeEscape? text with
    | none => simp
    | some found => exact isEscapeTail_of_unicodeEscape? h
  · simp

/-! ## Contents that stand for a text between the same marks -/

/-- Contents stand for no more characters than they have. -/
theorem length_unescape_le (s : List Char) : (unescape s).length ≤ s.length := by
  induction s using unescape.induct with
  | case1 => simp [unescape]
  | case2 => simp [unescape]
  | case3 c rest char taken h ih =>
    rw [unescape_escape, h]
    simp only [List.length_cons, List.length_drop] at ih ⊢
    omega
  | case4 c rest hlast hescape ih =>
    rw [unescape]
    · simpa using ih
    · exact hlast
    · exact hescape

/-- What an escape takes along ends before the first quotation mark. -/
theorem escaped_le_length {t : List Char} (c : Char) (b : List Char) :
    (escaped c (t ++ '\'' :: b)).2 ≤ t.length := by
  have htail : ∀ d ∈ (t ++ '\'' :: b).take (escaped c (t ++ '\'' :: b)).2, isEscapeTail d = true :=
    isEscapeTail_of_escaped
  generalize (escaped c (t ++ '\'' :: b)).2 = taken at htail
  refine Nat.le_of_not_lt fun hlt => ?_
  -- Otherwise the quotation mark would be among what is taken along.
  have hmark : '\'' ∈ (t ++ '\'' :: b).take taken := by
    obtain ⟨k, hk⟩ : ∃ k, taken - t.length = k + 1 := ⟨taken - t.length - 1, by omega⟩
    rw [List.take_append, hk, List.take_succ_cons]
    exact List.mem_append_right _ List.mem_cons_self
  exact absurd (htail _ hmark) (by decide)

/-- The first quotation mark of a text stands for one, and not behind its own place: before it, if
there is a backslash before it, since then two characters or more have become one. -/
theorem exists_unescape_eq_append {a : List Char} (ha : '\'' ∉ a) (b : List Char) :
    ∃ u v, unescape (a ++ '\'' :: b) = u ++ '\'' :: v ∧
      (u.length < a.length ∨ u = a ∧ '\\' ∉ a) := by
  -- By the length, since an escape leaves out as many characters as it takes along.
  induction hn : a.length using Nat.strongRecOn generalizing a with
  | ind n ih =>
    subst hn
    cases a with
    | nil => exact ⟨[], _, unescape_cons (by decide) b, .inr ⟨rfl, List.not_mem_nil⟩⟩
    | cons c t =>
      have ht : '\'' ∉ t := fun h => ha (List.mem_cons_of_mem _ h)
      by_cases hc : c = '\\'
      · subst hc
        cases t with
        | nil => exact ⟨[], _, unescape_escape '\'' b, .inl Nat.zero_lt_one⟩
        | cons d t =>
          have hescape := unescape_escape d (t ++ '\'' :: b)
          rw [List.drop_append_of_le_length (escaped_le_length d b)] at hescape
          generalize (escaped d (t ++ '\'' :: b)).2 = taken at hescape
          obtain ⟨u, v, huv, hlength⟩ := ih (t.drop taken).length
            (by simp only [List.length_cons, List.length_drop]; omega)
            (fun h => ht (List.mem_cons_of_mem _ (List.mem_of_mem_drop h))) rfl
          have hu : u.length ≤ (t.drop taken).length := by
            rcases hlength with hlt | ⟨rfl, -⟩
            · exact Nat.le_of_lt hlt
            · exact Nat.le_refl _
          rw [huv] at hescape
          refine ⟨_ :: u, v, hescape, .inl ?_⟩
          simp only [List.length_cons, List.length_drop] at hu ⊢
          omega
      · obtain ⟨u, v, huv, hlength⟩ := ih t.length (Nat.lt_succ_self _) ht rfl
        refine ⟨c :: u, v, ?_, ?_⟩
        · rw [List.cons_append, unescape_cons hc, huv]
          rfl
        · rcases hlength with hlt | ⟨rfl, hbackslash⟩
          · exact .inl (Nat.succ_lt_succ hlt)
          · refine .inr ⟨rfl, fun h => ?_⟩
            rcases List.mem_cons.mp h with h | h
            · exact hc h.symm
            · exact hbackslash h

/-- Contents without backslashes stand for themselves. -/
theorem unescape_of_not_mem {s : List Char} (h : '\\' ∉ s) : unescape s = s := by
  induction s with
  | nil => rw [unescape]
  | cons c s ih =>
    have hc : c ≠ '\\' := fun hc => h (hc ▸ List.mem_cons_self)
    rw [unescape_cons hc, ih fun hs => h (List.mem_cons_of_mem _ hs)]

/-- Any text is contents if neither the quotation mark nor a backslash is in it. -/
theorem isContent_of_not_mem {quote : Char} {s : List Char} (hquote : quote ∉ s)
    (hbackslash : '\\' ∉ s) : IsContent quote s := by
  induction s with
  | nil => exact .nil
  | cons c s ih =>
    refine .plain ?_ ?_ (ih ?_ ?_)
    · exact fun hc => hquote (hc ▸ List.mem_cons_self)
    · exact fun hc => hbackslash (hc ▸ List.mem_cons_self)
    · exact fun hs => hquote (List.mem_cons_of_mem _ hs)
    · exact fun hs => hbackslash (List.mem_cons_of_mem _ hs)

/-- Contents with a backslash stand for fewer characters than they have. -/
theorem IsContent.length_unescape_lt {quote : Char} {s : List Char} (h : IsContent quote s)
    (hbackslash : '\\' ∈ s) : (unescape s).length < s.length := by
  induction h with
  | nil => cases hbackslash
  | @escape c w _ _ =>
    have hlength := length_unescape_le (w.drop (escaped c w).2)
    rw [unescape_escape]
    simp only [List.length_cons, List.length_drop] at hlength ⊢
    omega
  | @plain c w _ hc _ ih =>
    rw [unescape_cons hc]
    rcases List.mem_cons.mp hbackslash with h | h
    · exact absurd h.symm hc
    · exact Nat.succ_lt_succ (ih h)

/-- A quotation mark in contents has a backslash somewhere before it. -/
theorem IsContent.backslash_mem {quote : Char} {a b : List Char}
    (h : IsContent quote (a ++ quote :: b)) (hquote : quote ≠ '\\') : '\\' ∈ a := by
  generalize hs : a ++ quote :: b = s at h
  induction h generalizing a with
  | nil => simp at hs
  | escape _ _ =>
    cases a with
    | nil => exact absurd (List.cons.inj hs).1 hquote
    | cons d a =>
      rw [(List.cons.inj hs).1]
      exact List.mem_cons_self
  | plain hc _ _ ih =>
    cases a with
    | nil => exact absurd (List.cons.inj hs).1.symm hc
    | cons d a => exact List.mem_cons_of_mem _ (ih (List.cons.inj hs).2)

/-- Contents that stand for themselves have neither of the two characters in them. -/
theorem IsContent.not_mem_of_unescape_eq {s : List Char} (h : IsContent '\'' s)
    (hs : unescape s = s) : '\'' ∉ s ∧ '\\' ∉ s := by
  have hbackslash : '\\' ∉ s := by
    -- With a backslash the contents are longer than what they stand for.
    intro hmem
    have hlt := h.length_unescape_lt hmem
    rw [hs] at hlt
    exact Nat.lt_irrefl _ hlt
  refine ⟨fun hmem => hbackslash ?_, hbackslash⟩
  obtain ⟨a, b, rfl⟩ := List.append_of_mem hmem
  exact List.mem_append_left _ (h.backslash_mem (by decide))

/-- A text with a quotation mark behind it that is read as contents for this very text has neither
quotation marks nor backslashes in it. -/
theorem IsContent.not_mem_of_unescape {content text rest rest' : List Char}
    (h : IsContent '\'' content) (hunescape : unescape content = text)
    (heq : content ++ '\'' :: rest = text ++ '\'' :: rest') : '\'' ∉ text ∧ '\\' ∉ text := by
  rcases List.append_eq_append_iff.mp heq with ⟨w, hw, -⟩ | ⟨w, hw, hrest⟩
  · -- The contents are no longer than the text, and stand for as many characters at most.
    have hlength := length_unescape_le content
    rw [hunescape, hw, List.length_append] at hlength
    obtain rfl : w = [] := List.length_eq_zero_iff.mp (by omega)
    rw [List.append_nil] at hw
    subst hw
    exact h.not_mem_of_unescape_eq hunescape
  · cases w with
    | nil =>
      rw [List.append_nil] at hw
      subst hw
      exact h.not_mem_of_unescape_eq hunescape
    | cons d w =>
      obtain ⟨rfl, -⟩ := List.cons.inj hrest
      -- The first quotation mark of the contents is escaped, so the text has an earlier one.
      have hmem : '\'' ∈ content := by rw [hw]; simp
      obtain ⟨a, b, hcontent, ha⟩ := List.eq_append_cons_of_mem hmem
      obtain ⟨u, v, huv, hlt | ⟨-, hnot⟩⟩ := exists_unescape_eq_append ha b
      · rw [← hcontent, hunescape] at huv
        have hsame : a ++ '\'' :: b = u ++ '\'' :: (v ++ '\'' :: w) := by
          rw [← hcontent, hw, huv]
          simp
        rcases List.append_eq_append_iff.mp hsame with ⟨x, rfl, -⟩ | ⟨x, rfl, hx⟩
        · rw [List.length_append] at hlt
          omega
        · cases x with
          | nil => simp at hlt
          | cons e x =>
            obtain ⟨rfl, -⟩ := List.cons.inj hx
            exact absurd (List.mem_append_right _ List.mem_cons_self) ha
      · rw [hcontent] at h
        exact absurd (h.backslash_mem (by decide)) hnot

end Syntax

end TemplateFlow
