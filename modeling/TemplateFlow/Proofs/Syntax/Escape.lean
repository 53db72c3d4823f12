import Mathlib.Algebra.Group.Nat.Defs
import Mathlib.Tactic.SplitIfs
import TemplateFlow.Json.Writer
import TemplateFlow.Proofs.Syntax.Written
import TemplateFlow.Syntax.Escape

/-!
# Escapes that are undone

What a string literal stands for, character by character: a character that is no backslash stands
for itself (`unescape_cons`), and a backslash and what it takes along stand for one character
(`unescape_escape`). Hexadecimal digits are read as the natural that they are written from
(`ofHex?_paddedHex`), so an escape of four digits stands for its code point (`escaped_unicode`).

The contents of a JSON string are those of a string literal of the same text
(`isContent_flatMap_escapeChar`, `unescape_flatMap_escapeChar`).
-/

namespace TemplateFlow

/-! ## Hexadecimal digits -/

namespace Text

/-- The digit of a small number is read as the number. -/
theorem hexDigit?_digitChar {n : Nat} (h : n < 16) : hexDigit? n.digitChar = some n := by
  have hall : ∀ n < 16, hexDigit? n.digitChar = some n := by decide
  exact hall n h

/-- One more digit makes the number sixteen times as large and adds its own value. -/
theorem ofHex?_append_singleton {digits : List Char} {c : Char} {n k : Nat}
    (hdigits : ofHex? digits = some n) (hc : hexDigit? c = some k) :
    ofHex? (digits ++ [c]) = some (16 * n + k) := by
  rw [ofHex?] at hdigits ⊢
  rw [List.foldlM_append, hdigits]
  simp [hc]

/-- The digits of a number are read as the number. -/
theorem ofHex?_hex (n : Nat) : ofHex? (hex n) = some n := by
  rw [hex]
  -- The digits are written with the last one behind those of the quotient.
  induction n using Nat.base_induction 16 (by decide) with
  | single m hm =>
    rw [Nat.toDigits_of_lt_base hm]
    simp [ofHex?, hexDigit?_digitChar hm]
  | digit m k hk hm ih =>
    rw [← Nat.toDigits_append_toDigits (by decide) hm hk, Nat.toDigits_of_lt_base hk,
      ofHex?_append_singleton ih (hexDigit?_digitChar hk)]

/-- Zeros in front do not count. -/
theorem ofHex?_zeros_append (n : Nat) (digits : List Char) :
    ofHex? (List.replicate n '0' ++ digits) = ofHex? digits := by
  induction n with
  | zero => rfl
  | succ n ih => exact ih

/-- Digits that fit a width are padded to this width. -/
theorem length_paddedHex {width n : Nat} (hwidth : 0 < width) (h : n < 16 ^ width) :
    (paddedHex width n).length = width := by
  have hlength : (hex n).length ≤ width := (Nat.length_toDigits_le_iff (by decide) hwidth).mpr h
  rw [paddedHex, List.length_append, List.length_replicate]
  omega

/-- Padded digits are read as the number. -/
theorem ofHex?_paddedHex (width n : Nat) : ofHex? (paddedHex width n) = some n := by
  rw [paddedHex, ofHex?_zeros_append, ofHex?_hex]

/-- Digits at the front of a text name the natural that they name alone. -/
theorem hexPrefix?_append {width n : Nat} {digits : List Char} (hdigits : ofHex? digits = some n)
    (hlength : digits.length = width) (rest : List Char) :
    hexPrefix? width (digits ++ rest) = some n := by
  have htake : (digits ++ rest).take width = digits := List.take_left' hlength
  rw [hexPrefix?, if_neg (by simp [hlength]), htake, hdigits]

/-- What names a natural consists of digits. -/
theorem hexDigit?_of_ofHex? {digits : List Char} {n : Nat} (h : ofHex? digits = some n) :
    ∀ c ∈ digits, hexDigit? c ≠ none := by
  rw [ofHex?] at h
  generalize 0 = start at h
  induction digits generalizing start with
  | nil => exact fun c hc => absurd hc List.not_mem_nil
  | cons d digits ih =>
    rw [List.foldlM_cons] at h
    obtain ⟨next, hnext, h⟩ := Option.bind_eq_some_iff.mp h
    refine List.forall_mem_cons.mpr ⟨fun hd => ?_, ih next h⟩
    rw [hd] at hnext
    cases hnext

/-- All characters of a prefix that is read are digits. -/
theorem hexDigit?_of_hexPrefix? {width n : Nat} {text : List Char}
    (h : hexPrefix? width text = some n) : ∀ c ∈ text.take width, hexDigit? c ≠ none := by
  rw [hexPrefix?] at h
  split at h
  · cases h
  · exact hexDigit?_of_ofHex? h

/-- A character is found again by its code point. -/
theorem charOf?_toNat (c : Char) : charOf? c.toNat = some c := by
  have hvalid : c.toNat.isValidChar := c.valid
  rw [charOf?, dif_pos hvalid]
  rfl

end Text

namespace Syntax

/-! ## Single characters -/

/-- A character that is no backslash stands for itself. -/
theorem unescape_cons {c : Char} (h : c ≠ '\\') (rest : List Char) :
    unescape (c :: rest) = c :: unescape rest := by
  rw [unescape]
  · exact fun hc _ => h hc
  · exact fun _ _ hc _ => h hc

/-- A backslash and what it takes along stand for one character. -/
theorem unescape_escape (c : Char) (rest : List Char) :
    unescape ('\\' :: c :: rest) =
      (escaped c rest).1 :: unescape (rest.drop (escaped c rest).2) := by
  rw [unescape]

/-- What begins with four digits does not begin with a brace, so it is these digits that count, and
the second half of a pair if they are the first. -/
theorem unicodeEscape?_of_hexPrefix? {text : List Char} {n : Nat}
    (h : Text.hexPrefix? 4 text = some n) :
    unicodeEscape? text =
      match (if 0xD800 ≤ n ∧ n < 0xDC00 then lowSurrogate? (text.drop 4) else none) with
      | some low => some (Char.ofNat (0x10000 + (n - 0xD800) * 0x400 + (low - 0xDC00)), 10)
      | none => some ((Text.charOf? n).getD replacement, 4) := by
  have hdigit := Text.hexDigit?_of_hexPrefix? h
  unfold unicodeEscape?
  split
  · exact absurd rfl (hdigit _ List.mem_cons_self)
  · rw [h]
    rfl

/-- Four digits that are not the first half of a pair stand for their code point. -/
theorem escaped_unicode {digits : List Char} {n : Nat} (hdigits : Text.ofHex? digits = some n)
    (hlength : digits.length = 4) (hhigh : ¬ (0xD800 ≤ n ∧ n < 0xDC00)) {c : Char}
    (hc : Text.charOf? n = some c) (rest : List Char) : escaped 'u' (digits ++ rest) = (c, 4) := by
  have hprefix := Text.hexPrefix?_append hdigits hlength rest
  rw [escaped, if_neg (by decide), if_pos rfl, unicodeEscape?_of_hexPrefix? hprefix, if_neg hhigh,
    hc]
  rfl

/-- Hexadecimal digits are neither quotation marks nor backslashes. -/
theorem isContent_digits_append {quote : Char} (hquote : Text.hexDigit? quote = none)
    {digits rest : List Char} (hdigits : ∀ d ∈ digits, Text.hexDigit? d ≠ none)
    (h : IsContent quote rest) : IsContent quote (digits ++ rest) := by
  induction digits with
  | nil => exact h
  | cons d digits ih =>
    obtain ⟨hd, hdigits⟩ := List.forall_mem_cons.mp hdigits
    refine .plain ?_ ?_ (ih hdigits)
    · rintro rfl
      exact hd hquote
    · rintro rfl
      exact hd rfl

/-! ## JSON strings -/

/-- The three forms of a character in a JSON string: after a backslash a letter for it, after a
backslash its code point, or itself. -/
theorem escapeChar_cases (c : Char) :
    (∃ mark, Json.escapeChar c = ['\\', mark] ∧ ∀ rest, escaped mark rest = (c, 0)) ∨
      (c.toNat < 0x20 ∧ Json.escapeChar c = '\\' :: 'u' :: Text.paddedHex 4 c.toNat) ∨
      (c ≠ '"' ∧ c ≠ '\\' ∧ Json.escapeChar c = [c]) := by
  unfold Json.escapeChar
  split_ifs with hquote hbackslash hb ht hn hf hr hcontrol
  · exact .inl ⟨'"', rfl, fun _ => by rw [hquote]; rfl⟩
  · exact .inl ⟨'\\', rfl, fun _ => by rw [hbackslash]; rfl⟩
  · exact .inl ⟨'b', rfl, fun _ => by rw [hb]; rfl⟩
  · exact .inl ⟨'t', rfl, fun _ => by rw [ht]; rfl⟩
  · exact .inl ⟨'n', rfl, fun _ => by rw [hn]; rfl⟩
  · exact .inl ⟨'f', rfl, fun _ => by rw [hf]; rfl⟩
  · exact .inl ⟨'r', rfl, fun _ => by rw [hr]; rfl⟩
  · exact .inr (.inl ⟨hcontrol, rfl⟩)
  · exact .inr (.inr ⟨hquote, hbackslash, rfl⟩)

/-- What stands for a character in a JSON string is read as that character. -/
theorem unescape_escapeChar_append (c : Char) (rest : List Char) :
    unescape (Json.escapeChar c ++ rest) = c :: unescape rest := by
  obtain ⟨mark, heq, hmark⟩ | ⟨hcontrol, heq⟩ | ⟨-, hbackslash, heq⟩ := escapeChar_cases c
  · rw [heq, List.cons_append, List.singleton_append, unescape_escape, hmark]
    rfl
  · have hlength : (Text.paddedHex 4 c.toNat).length = 4 :=
      Text.length_paddedHex (by decide) (by omega)
    rw [heq, List.cons_append, List.cons_append, unescape_escape,
      escaped_unicode (Text.ofHex?_paddedHex 4 c.toNat) hlength (by omega) (Text.charOf?_toNat c)]
    simp only [List.drop_left' hlength]
  · rw [heq, List.singleton_append, unescape_cons hbackslash]

/-- What stands for a character in a JSON string does not end it. -/
theorem isContent_escapeChar_append (c : Char) {rest : List Char} (h : IsContent '"' rest) :
    IsContent '"' (Json.escapeChar c ++ rest) := by
  obtain ⟨mark, heq, -⟩ | ⟨-, heq⟩ | ⟨hquote, hbackslash, heq⟩ := escapeChar_cases c
  · rw [heq]
    exact .escape h
  · rw [heq]
    have hdigits := Text.hexDigit?_of_ofHex? (Text.ofHex?_paddedHex 4 c.toNat)
    exact .escape (isContent_digits_append rfl hdigits h)
  · rw [heq]
    exact .plain hquote hbackslash h

/-- The escapes that the writer puts in are those that the reader takes out. -/
theorem unescape_flatMap_escapeChar (text : List Char) :
    unescape (text.flatMap Json.escapeChar) = text := by
  induction text with
  | nil => rw [List.flatMap_nil, unescape]
  | cons c text ih => rw [List.flatMap_cons, unescape_escapeChar_append, ih]

/-- What the writer escapes does not end the string. -/
theorem isContent_flatMap_escapeChar (text : List Char) :
    IsContent '"' (text.flatMap Json.escapeChar) := by
  induction text with
  | nil => exact .nil
  | cons c text ih =>
    rw [List.flatMap_cons]
    exact isContent_escapeChar_append c ih

/-- A JSON string is a string literal. -/
theorem isString_quote (s : String) :
    IsString (s.toList.flatMap Json.escapeChar) (Json.quote s).toList := by
  refine ⟨'"', by decide, isContent_flatMap_escapeChar _, ?_⟩
  rw [Json.quote, String.toList_ofList, List.cons_append]

end Syntax

end TemplateFlow
