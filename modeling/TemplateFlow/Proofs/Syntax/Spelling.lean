import Mathlib.Data.List.Forall2
import TemplateFlow.Proofs.Syntax.Completeness
import TemplateFlow.Proofs.Syntax.Escape

/-!
# Spellings of characters in strings

A character can be spelled in several ways between quotation marks (`Spelling`): as it stands, after
a backslash, by the letter of a control, or by its code point in two digits, in four, in two times
four or in braces. Each spelling is read as its character and as nothing more, whatever comes after
it (`Spelling.unescape_append`), and none of them ends the string (`Spelling.isContent_append`). So
the spellings of the characters of a text can be chosen one by one, and the string that is put
together from them is read as the text (`parse_spelled`).

Hexadecimal digits are described by how they are written and not by how they are read
(`Hexadecimal`).
-/

namespace TemplateFlow

namespace Text

/-! ## Hexadecimal digits of either case -/

/-- Digits are read without regard to their case. -/
theorem hexDigit?_toLower (c : Char) : hexDigit? c.toLower = hexDigit? c := by
  by_cases h : c.val ≥ 'A'.val ∧ c.val ≤ 'Z'.val
  · -- There are few letters in upper case.
    have hall : ∀ n < 91, 65 ≤ n →
        hexDigit? (Char.ofNat n).toLower = hexDigit? (Char.ofNat n) := by decide
    have hlow : 65 ≤ c.toNat := UInt32.le_iff_toNat_le.mp h.1
    have hhigh : c.toNat ≤ 90 := UInt32.le_iff_toNat_le.mp h.2
    have hc := hall c.toNat (by omega) hlow
    rwa [Char.ofNat_toNat] at hc
  · have hlower : c.toLower = c := dif_neg h
    rw [hlower]

/-- So are whole numbers. -/
theorem ofHex?_map_toLower (digits : List Char) :
    ofHex? (digits.map Char.toLower) = ofHex? digits := by
  simp only [ofHex?, List.foldlM_map, hexDigit?_toLower]

end Text

namespace Syntax

/-- The digits write a natural in hexadecimal, possibly after some zeros. Letters may be of either
case. -/
def Hexadecimal (n : Nat) (digits : List Char) : Prop :=
  ∃ zeros, digits.map Char.toLower = List.replicate zeros '0' ++ Nat.toDigits 16 n

section

variable {n : Nat} {digits : List Char}

/-- Digits of either case, with any zeros in front, are read as their number. -/
theorem Hexadecimal.ofHex? (h : Hexadecimal n digits) : Text.ofHex? digits = some n := by
  obtain ⟨zeros, hdigits⟩ := h
  rw [← Text.ofHex?_map_toLower, hdigits, Text.ofHex?_zeros_append]
  exact Text.ofHex?_hex n

theorem Hexadecimal.forall_hexDigit? (h : Hexadecimal n digits) :
    ∀ d ∈ digits, Text.hexDigit? d ≠ none :=
  Text.hexDigit?_of_ofHex? h.ofHex?

theorem Hexadecimal.ne_nil (h : Hexadecimal n digits) : digits ≠ [] := by
  rintro rfl
  obtain ⟨zeros, hdigits⟩ := h
  exact Nat.toDigits_ne_nil (List.append_eq_nil_iff.mp hdigits.symm).2

end

/-! ## Spellings -/

/-- The controls that have a letter for them, with their letters. -/
def controls : List (Char × Char) :=
  [('n', '\n'), ('t', '\t'), ('r', '\r'), ('b', '\x08'), ('f', '\x0c'), ('v', '\x0b'),
   ('0', '\x00')]

/-- The ways of spelling a character between quotation marks. -/
inductive Spelling (quote : Char) : Char → List Char → Prop where
  /-- As it stands, if it neither ends the string nor begins an escape. -/
  | raw {c : Char} : c ≠ quote → c ≠ '\\' → Spelling quote c [c]
  /-- After a backslash, if it has no meaning of its own there. -/
  | escaped {c : Char} : c ∉ ['n', 't', 'r', 'b', 'f', 'v', '0', 'x', 'u'] →
      Spelling quote c ['\\', c]
  /-- By the letter of a control. -/
  | control {letter c : Char} : (letter, c) ∈ controls → Spelling quote c ['\\', letter]
  /-- By two digits. -/
  | byte {c : Char} {digits : List Char} : Hexadecimal c.toNat digits → digits.length = 2 →
      Spelling quote c ('\\' :: 'x' :: digits)
  /-- By four digits. -/
  | unit {c : Char} {digits : List Char} : Hexadecimal c.toNat digits → digits.length = 4 →
      Spelling quote c ('\\' :: 'u' :: digits)
  /-- By a surrogate pair: four digits for the upper bits and four for the lower ten. -/
  | pair {c : Char} {upper lower : Nat} {high low : List Char} :
      c.toNat = 0x10000 + upper * 0x400 + lower → upper < 0x400 → lower < 0x400 →
      Hexadecimal (0xD800 + upper) high → high.length = 4 →
      Hexadecimal (0xDC00 + lower) low → low.length = 4 →
      Spelling quote c ('\\' :: 'u' :: (high ++ '\\' :: 'u' :: low))
  /-- By any number of digits between braces. -/
  | braced {c : Char} {digits : List Char} : Hexadecimal c.toNat digits →
      Spelling quote c ('\\' :: 'u' :: '\x7b' :: (digits ++ ['\x7d']))

/-! ## Reading -/

/-- A letter of a control stands for it after a backslash, and takes nothing along. -/
theorem escaped_of_mem_controls {letter c : Char} (h : (letter, c) ∈ controls)
    (text : List Char) : escaped letter text = (c, 0) := by
  have hall : ∀ p ∈ controls, p.1 ≠ 'x' ∧ p.1 ≠ 'u' ∧ controlOf? p.1 = some p.2 := by decide
  obtain ⟨hx, hu, hcontrol⟩ := hall _ h
  rw [escaped, if_neg hx, if_neg hu, hcontrol]
  rfl

/-- A character without a meaning after a backslash stands for itself. -/
theorem escaped_of_not_mem {c : Char} (h : c ∉ ['n', 't', 'r', 'b', 'f', 'v', '0', 'x', 'u'])
    (text : List Char) : escaped c text = (c, 0) := by
  simp only [List.mem_cons, List.not_mem_nil, or_false, not_or] at h
  obtain ⟨-, -, -, -, -, -, -, hx, hu⟩ := id h
  have hcontrol : controlOf? c = none := by
    unfold controlOf?
    split <;> simp_all
  rw [escaped, if_neg hx, if_neg hu, hcontrol]
  rfl

/-- Two digits stand for their code point. -/
theorem escaped_byte {digits : List Char} {n : Nat} (hdigits : Text.ofHex? digits = some n)
    (hlength : digits.length = 2) {c : Char} (hc : Text.charOf? n = some c) (rest : List Char) :
    escaped 'x' (digits ++ rest) = (c, 2) := by
  rw [escaped, if_pos rfl, byteEscape?, Text.hexPrefix?_append hdigits hlength rest,
    Option.map_some, hc]
  rfl

/-- Four digits for the upper bits and, after a mark of their own, four for the lower ten stand for
one code point. -/
theorem escaped_pair {high low : List Char} {upper lower : Nat} (hupper : upper < 0x400)
    (hlower : lower < 0x400) (hhigh : Text.ofHex? high = some (0xD800 + upper))
    (hhighLength : high.length = 4) (hlow : Text.ofHex? low = some (0xDC00 + lower))
    (hlowLength : low.length = 4) (rest : List Char) :
    escaped 'u' (high ++ '\\' :: 'u' :: (low ++ rest)) =
      (Char.ofNat (0x10000 + upper * 0x400 + lower), 10) := by
  have hprefix := Text.hexPrefix?_append hhigh hhighLength ('\\' :: 'u' :: (low ++ rest))
  have hsecond : lowSurrogate? ('\\' :: 'u' :: (low ++ rest)) = some (0xDC00 + lower) := by
    rw [lowSurrogate?, Text.hexPrefix?_append hlow hlowLength rest, Option.filter_some, if_pos]
    exact decide_eq_true (by omega)
  rw [escaped, if_neg (by decide), if_pos rfl, unicodeEscape?_of_hexPrefix? hprefix,
    List.drop_left' hhighLength, hsecond, if_pos (by omega)]
  show (Char.ofNat (0x10000 + (0xD800 + upper - 0xD800) * 0x400 + (0xDC00 + lower - 0xDC00)), 10) =
    (Char.ofNat (0x10000 + upper * 0x400 + lower), 10)
  rw [Nat.add_sub_cancel_left, Nat.add_sub_cancel_left]

/-- The body of an escape in braces goes up to the closing one, whatever comes after it. -/
theorem unicodeEscape?_braced {body : List Char} (hbody : '\x7d' ∉ body) (rest : List Char) :
    unicodeEscape? ('\x7b' :: (body ++ '\x7d' :: rest)) =
      ((bracedHex? body).bind Text.charOf?).map fun c => (c, body.length + 2) := by
  have htake : (body ++ '\x7d' :: rest).takeWhile (· ≠ '\x7d') = body := by
    rw [List.takeWhile_append_of_pos]
    · simp
    · intro d hd
      simp only [decide_eq_true_eq]
      rintro rfl
      exact hbody hd
  rw [unicodeEscape?]
  simp only [htake]
  rw [if_neg (by simp)]

/-- A number between braces stands for its character. -/
theorem escaped_of_bracedHex? {body : List Char} {n : Nat} (hbody : '\x7d' ∉ body)
    (hn : bracedHex? body = some n) {c : Char} (hc : Text.charOf? n = some c) (rest : List Char) :
    escaped 'u' ('\x7b' :: (body ++ '\x7d' :: rest)) = (c, body.length + 2) := by
  rw [escaped, if_neg (by decide), if_pos rfl, unicodeEscape?_braced hbody, hn, Option.bind_some,
    hc]
  rfl

/-- Digits in braces are read unless they are no code point. -/
theorem bracedHex?_of_ofHex? {digits : List Char} {n : Nat} (hdigits : Text.ofHex? digits = some n)
    (hne : digits ≠ []) {c : Char} (hc : Text.charOf? n = some c) :
    bracedHex? digits = some n := by
  have hn : n < Nat.pow 2 32 := by
    have hvalid : n.isValidChar := by
      by_contra hnot
      rw [Text.charOf?, dif_neg hnot] at hc
      cases hc
    simp only [Nat.isValidChar] at hvalid
    simp only [Nat.pow_eq]
    omega
  unfold bracedHex?
  split
  · exact absurd rfl (Text.hexDigit?_of_ofHex? hdigits _ List.mem_cons_self)
  · rw [if_neg (by simpa using hne), hdigits, Option.filter_some, if_pos (by simpa using hn)]

/-- Digits between braces stand for their code point, however many there are. -/
theorem escaped_braced {digits : List Char} {n : Nat} (hdigits : Text.ofHex? digits = some n)
    (hne : digits ≠ []) {c : Char} (hc : Text.charOf? n = some c) (rest : List Char) :
    escaped 'u' ('\x7b' :: (digits ++ '\x7d' :: rest)) = (c, digits.length + 2) := by
  refine escaped_of_bracedHex? (fun hmem => ?_) (bracedHex?_of_ofHex? hdigits hne hc) hc rest
  exact Text.hexDigit?_of_ofHex? hdigits _ hmem rfl

/-- A spelling is read as its character, and nothing after it is taken along. -/
theorem Spelling.unescape_append {quote c : Char} {s : List Char} (h : Spelling quote c s)
    (rest : List Char) : unescape (s ++ rest) = c :: unescape rest := by
  have hchar := Text.charOf?_toNat c
  cases h with
  | raw _ hbackslash => rw [List.singleton_append, unescape_cons hbackslash]
  | escaped hc =>
    rw [List.cons_append, List.singleton_append, unescape_escape, escaped_of_not_mem hc]
    rfl
  | control hletter =>
    rw [List.cons_append, List.singleton_append, unescape_escape, escaped_of_mem_controls hletter]
    rfl
  | byte hdigits hlength =>
    rw [List.cons_append, List.cons_append, unescape_escape,
      escaped_byte hdigits.ofHex? hlength hchar]
    simp only [List.drop_left' hlength]
  | unit hdigits hlength =>
    -- A character is no half of a pair.
    have hhigh : ¬ (0xD800 ≤ c.toNat ∧ c.toNat < 0xDC00) := by
      have hvalid : c.toNat.isValidChar := c.valid
      simp only [Nat.isValidChar] at hvalid
      omega
    rw [List.cons_append, List.cons_append, unescape_escape,
      escaped_unicode hdigits.ofHex? hlength hhigh hchar]
    simp only [List.drop_left' hlength]
  | @pair _ upper lower high low hc hupper hlower hhigh hhighLength hlow hlowLength =>
    have hdrop : (high ++ '\\' :: 'u' :: (low ++ rest)).drop 10 = rest := by
      rw [← List.cons_append, ← List.cons_append, ← List.append_assoc]
      exact List.drop_left' (by simp [hhighLength, hlowLength])
    have hcode : Char.ofNat (0x10000 + upper * 0x400 + lower) = c := by
      rw [← hc, Char.ofNat_toNat]
    rw [List.cons_append, List.cons_append, List.append_assoc, List.cons_append, List.cons_append,
      unescape_escape, escaped_pair hupper hlower hhigh.ofHex? hhighLength hlow.ofHex? hlowLength,
      hcode]
    simp only [hdrop]
  | @braced _ digits hdigits =>
    have hdrop : ('\x7b' :: (digits ++ '\x7d' :: rest)).drop (digits.length + 2) = rest := by
      rw [show '\x7b' :: (digits ++ '\x7d' :: rest) =
        '\x7b' :: (digits ++ ['\x7d']) ++ rest by simp]
      exact List.drop_left' (by simp)
    simp only [List.cons_append, List.append_assoc, List.nil_append]
    rw [unescape_escape, escaped_braced hdigits.ofHex? hdigits.ne_nil hchar]
    simp only [hdrop]

/-- A spelling does not end the string that it stands in. -/
theorem Spelling.isContent_append {quote : Char} (hquote : quote ∈ ['\'', '"']) {c : Char}
    {s : List Char} (h : Spelling quote c s) {rest : List Char} (hrest : IsContent quote rest) :
    IsContent quote (s ++ rest) := by
  -- A quotation mark is neither a digit nor a brace, so no spelling ends the string.
  have hmarks : Text.hexDigit? quote = none ∧ '\x7b' ≠ quote ∧ '\x7d' ≠ quote := by
    simp only [List.mem_cons, List.not_mem_nil, or_false] at hquote
    rcases hquote with rfl | rfl <;> decide
  obtain ⟨hdigit, hopen, hclose⟩ := hmarks
  cases h with
  | raw hne hbackslash => exact .plain hne hbackslash hrest
  | escaped _ => exact .escape hrest
  | control _ => exact .escape hrest
  | byte hdigits _ => exact .escape (isContent_digits_append hdigit hdigits.forall_hexDigit? hrest)
  | unit hdigits _ => exact .escape (isContent_digits_append hdigit hdigits.forall_hexDigit? hrest)
  | @pair _ _ _ high low _ _ _ hhigh _ hlow _ =>
    have hsecond : IsContent quote (low ++ rest) :=
      isContent_digits_append hdigit hlow.forall_hexDigit? hrest
    have hfirst : IsContent quote (high ++ '\\' :: 'u' :: (low ++ rest)) :=
      isContent_digits_append hdigit hhigh.forall_hexDigit? (.escape hsecond)
    simpa using IsContent.escape (c := 'u') hfirst
  | @braced _ digits hdigits =>
    have hbody : IsContent quote (digits ++ '\x7d' :: rest) :=
      isContent_digits_append hdigit hdigits.forall_hexDigit? (.plain hclose (by decide) hrest)
    simpa using IsContent.escape (c := 'u') (.plain hopen (by decide) hbody)

/-- The spellings of a text, one after the other, are the contents of a string that stand for it. -/
theorem unescape_spellings {quote : Char} {text : List Char} {spellings : List (List Char)}
    (h : List.Forall₂ (Spelling quote) text spellings) : unescape spellings.flatten = text := by
  induction h with
  | nil => rw [List.flatten_nil, unescape]
  | cons hc _ ih => rw [List.flatten_cons, hc.unescape_append, ih]

/-- Spellings do not end the string that they are in. -/
theorem isContent_spellings {quote : Char} (hquote : quote ∈ ['\'', '"']) {text : List Char}
    {spellings : List (List Char)} (h : List.Forall₂ (Spelling quote) text spellings) :
    IsContent quote spellings.flatten := by
  induction h with
  | nil => exact .nil
  | cons hc _ ih =>
    rw [List.flatten_cons]
    exact hc.isContent_append hquote ih

/-- A text that is spelled character by character, each in any of the ways there are, is read as a
string literal of the text, in either kind of quotation marks. -/
theorem parse_spelled {quote : Char} (hquote : quote ∈ ['\'', '"']) {text : String}
    {spellings : List (List Char)} (h : List.Forall₂ (Spelling quote) text.toList spellings) :
    ∃ span, Expr.parse (String.ofList (quote :: (spellings.flatten ++ [quote]))) =
      .ok (.literal (.str text) span) := by
  have hspells := Spells.str ⟨quote, hquote, isContent_spellings hquote h, rfl⟩
  rw [unescape_spellings h, String.ofList_toList] at hspells
  obtain ⟨t, ht, hbare⟩ := parse_of_sourceOf hspells.sourceOf
  -- Nothing but a literal is a literal without its span.
  cases t with
  | literal v span =>
    cases hbare
    refine ⟨span, ?_⟩
    rw [Expr.parse, String.toList_ofList, ht]
  | _ => cases hbare

/-- A quotation mark, a line feed, a digit behind an escape that could take more of them, and a
character beyond the first 65536, spelled in several ways. -/
def sampleSpellings : List (List Char) :=
  [['a'], ['\\', '\''], ['\\', 'n'], '\\' :: 'x' :: ['4', 'B'],
    '\\' :: 'u' :: ['0', '0', 'e', '9'], ['4'],
    '\\' :: 'u' :: (['D', '8', '3', 'D'] ++ '\\' :: 'u' :: ['D', 'e', '0', '0']),
    '\\' :: 'u' :: '\x7b' :: (['0', '0', '1', 'F', '6', '0', '0'] ++ ['\x7d']), ['😀']]

/-- A text with each kind of spelling in it. -/
theorem parse_spelled_sampleSpellings :
    List.Forall₂ (Spelling '\'') "a'\nKé4😀😀😀".toList sampleSpellings ∧
      ∃ span, Expr.parse "'a\\'\\n\\x4B\\u00e94\\uD83D\\uDe00\\u\x7b001F600\x7d😀'" =
        .ok (.literal (.str "a'\nKé4😀😀😀") span) := by
  have hspellings : List.Forall₂ (Spelling '\'') "a'\nKé4😀😀😀".toList sampleSpellings := by
    have hsmile : '😀'.toNat = 0x10000 + 0x3D * 0x400 + 0x200 := by decide
    exact .cons (.raw (by decide) (by decide)) <| .cons (.escaped (by decide)) <|
      .cons (.control (by decide)) <| .cons (.byte ⟨0, by decide⟩ rfl) <|
      .cons (.unit ⟨2, by decide⟩ rfl) <| .cons (.raw (by decide) (by decide)) <|
      .cons (.pair hsmile (by decide) (by decide) ⟨0, by decide⟩ rfl ⟨0, by decide⟩ rfl) <|
      .cons (.braced ⟨2, by decide⟩) <| .cons (.raw (by decide) (by decide)) .nil
  have hsource : String.ofList ('\'' :: (sampleSpellings.flatten ++ ['\''])) =
      "'a\\'\\n\\x4B\\u00e94\\uD83D\\uDe00\\u\x7b001F600\x7d😀'" := by decide
  refine ⟨hspellings, ?_⟩
  rw [← hsource]
  exact parse_spelled (by decide) hspellings

end Syntax

end TemplateFlow
