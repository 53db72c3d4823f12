import TemplateFlow.Proofs.Syntax.Written

/-!
# Scanners and words

Every scanner cuts off a word of its shape (`scanName?_sound` and so on), and where such a word
stands it cuts off just this word, provided that the word is not continued by the text after it
(`scanName?_append`). Names end where no part of a name follows. Numbers end there too, unless a
point with a digit follows (`NumberEnd`). Strings end with their second quotation mark, whatever
follows.
-/

namespace TemplateFlow

namespace Syntax

/-! ## Characters -/

/-- A text that does not continue a name, nor a number with a fraction. -/
structure NumberEnd (s : List Char) : Prop where
  name : StopsAt isNamePart s
  fraction : ∀ t, s = '.' :: t → StopsAt Char.isDigit t

/-- Digits may stand in a name. -/
theorem isNamePart_of_isDigit {c : Char} (h : c.isDigit = true) : isNamePart c = true := by
  simp [isNamePart, Char.isAlphanum, h]

/-- What may begin a name may also continue it. -/
theorem isNamePart_of_isNameStart {c : Char} (h : isNameStart c = true) : isNamePart c = true := by
  simp only [isNameStart, Bool.or_eq_true] at h
  simp only [isNamePart, Char.isAlphanum, Bool.or_eq_true]
  rcases h with (h | h) | h <;> simp [h]

/-- Blanks end a name. -/
theorem isNamePart_of_isBlank {c : Char} (h : isBlank c = true) : isNamePart c = false := by
  simp only [isBlank, Bool.decide_or, Bool.or_eq_true, decide_eq_true_eq] at h
  rcases h with rfl | rfl | rfl | rfl <;> rfl

/-- Blanks end a number. -/
theorem isDigit_of_isBlank {c : Char} (h : isBlank c = true) : c.isDigit = false := by
  rw [Bool.eq_false_iff]
  intro hd
  have hpart := isNamePart_of_isBlank h
  rw [isNamePart_of_isDigit hd] at hpart
  cases hpart

/-- No blank comes before a part of a name. -/
theorem stopsAt_isBlank {c : Char} (t : List Char) (h : isNamePart c = true) :
    StopsAt isBlank (c :: t) := by
  rintro d ⟨⟩
  rw [Bool.eq_false_iff]
  intro hb
  rw [isNamePart_of_isBlank hb] at h
  cases h

/-- No blank comes before a token whose word begins with none. -/
theorem Token.stopsAt_isBlank {c : Char} {w s : List Char} (h : Token (c :: w) s)
    (hc : isBlank c = false) (rest : List Char) : StopsAt isBlank (s ++ rest) := by
  obtain ⟨blanks, -, rfl⟩ := h
  rintro d ⟨⟩
  exact hc

/-- Where a test fails, every stronger test fails. -/
theorem StopsAt.mono {p q : Char → Bool} {s : List Char} (h : StopsAt q s)
    (hpq : ∀ c, p c = true → q c = true) : StopsAt p s := by
  intro c hc
  rw [Bool.eq_false_iff]
  intro hp
  have := h c hc
  rw [hpq c hp] at this
  cases this

/-- Where no part of a name stands, no digit stands. -/
theorem StopsAt.isDigit {s : List Char} (h : StopsAt isNamePart s) : StopsAt Char.isDigit s :=
  h.mono fun _ => isNamePart_of_isDigit

/-- A test that blanks fail stops at blanks. -/
theorem StopsAt.blanks_append {p : Char → Bool} {blanks rest : List Char}
    (hp : ∀ c, isBlank c = true → p c = false) (hb : Blanks blanks) (hr : StopsAt p rest) :
    StopsAt p (blanks ++ rest) := by
  cases blanks with
  | nil => exact hr
  | cons b blanks =>
    intro c hc
    cases hc
    exact hp b (hb b (by simp))

/-- Blanks in front do not begin with a character that is no blank. -/
theorem StopsAt.head_ne_blanks_append {d : Char} {blanks rest : List Char}
    (hd : isBlank d = false) (hb : Blanks blanks) (hr : StopsAt (· = d) rest) :
    StopsAt (· = d) (blanks ++ rest) := by
  refine hr.blanks_append (fun c hc => ?_) hb
  rw [decide_eq_false_iff_not]
  rintro rfl
  rw [hd] at hc
  cases hc

/-- The end of a number is one also with blanks before it. -/
theorem NumberEnd.blanks_append {blanks rest : List Char} (hb : Blanks blanks)
    (hr : NumberEnd rest) : NumberEnd (blanks ++ rest) := by
  refine ⟨hr.name.blanks_append (fun _ => isNamePart_of_isBlank) hb, ?_⟩
  cases blanks with
  | nil => exact hr.fraction
  | cons b blanks =>
    intro t ht
    have hdot : b = '.' := (List.cons.inj ht).1
    have := hb b (by simp)
    rw [hdot] at this
    cases this

/-! ## Names -/

/-- What is cut off as a name is a name at the front of the text. -/
theorem scanName?_sound {text w : List Char} (h : scanName? text = some w) :
    w <+: text ∧ IsName w := by
  cases text with
  | nil => cases h
  | cons c rest =>
    simp only [scanName?, Option.ite_none_right_eq_some, Option.some.injEq] at h
    obtain ⟨hc, rfl⟩ := h
    refine ⟨?_, c, rest.takeWhile isNamePart, rfl, hc, fun _ hd => mem_takeWhile hd⟩
    exact (List.prefix_cons_inj c).mpr (List.takeWhile_prefix isNamePart)

/-- A name is cut off as a whole, provided that the text behind it does not continue it. -/
theorem scanName?_append {w rest : List Char} (hw : IsName w) (hr : StopsAt isNamePart rest) :
    scanName? (w ++ rest) = some w := by
  obtain ⟨c, t, rfl, hc, ht⟩ := hw
  rw [List.cons_append, scanName?, if_pos hc, takeWhile_append_of_stopsAt ht hr]

/-- What is cut off as an identifier is a name at the front of the text that is not reserved. -/
theorem scanIdentifier?_sound {text w : List Char} (h : scanIdentifier? text = some w) :
    w <+: text ∧ IsIdentifier w := by
  rw [scanIdentifier?, Option.filter_eq_some_iff] at h
  obtain ⟨hpre, hname⟩ := scanName?_sound h.1
  exact ⟨hpre, hname, by simpa using h.2⟩

/-- An identifier is cut off where it stands, like any name. -/
theorem scanIdentifier?_append {w rest : List Char} (hw : IsIdentifier w)
    (hr : StopsAt isNamePart rest) : scanIdentifier? (w ++ rest) = some w := by
  rw [scanIdentifier?, Option.filter_eq_some_iff]
  exact ⟨scanName?_append hw.1 hr, by simpa using hw.2⟩

/-- What is cut off as a reserved word is that word, at the front of the text. -/
theorem scanKeyword?_sound {keyword : String} {text w : List Char}
    (h : scanKeyword? keyword text = some w) : w <+: text ∧ w = keyword.toList := by
  rw [scanKeyword?, Option.filter_eq_some_iff] at h
  obtain ⟨hpre, -⟩ := scanName?_sound h.1
  have heq : String.ofList w = keyword := by simpa using h.2
  exact ⟨hpre, by rw [← heq, String.toList_ofList]⟩

/-- A reserved word is cut off where it stands, unless it is only the beginning of a name. -/
theorem scanKeyword?_append {keyword : String} {rest : List Char} (hw : IsName keyword.toList)
    (hr : StopsAt isNamePart rest) :
    scanKeyword? keyword (keyword.toList ++ rest) = some keyword.toList := by
  rw [scanKeyword?, Option.filter_eq_some_iff]
  exact ⟨scanName?_append hw hr, by simp⟩

/-- Where another name stands, a keyword is not found. -/
theorem scanKeyword?_eq_none {keyword : String} {w rest : List Char} (hw : IsName w)
    (hr : StopsAt isNamePart rest) (hne : String.ofList w ≠ keyword) :
    scanKeyword? keyword (w ++ rest) = none := by
  rw [scanKeyword?, scanName?_append hw hr, Option.filter_some, if_neg (by simpa using hne)]

/-- Where nothing stands that may begin a name, there is none. -/
theorem scanName?_eq_none {text : List Char} (h : StopsAt isNameStart text) :
    scanName? text = none := by
  cases text with
  | nil => rfl
  | cons c rest => rw [scanName?, if_neg (by simp [h c rfl])]

/-! ## Numbers -/

/-- Digits are cut off up to the first character that is none. -/
theorem scanDigits_append {w rest : List Char} (hw : ∀ d ∈ w, d.isDigit = true)
    (hr : StopsAt Char.isDigit rest) : scanDigits (w ++ rest) = w :=
  takeWhile_append_of_stopsAt hw hr

/-- Where no digit stands, no digits are cut off. -/
theorem scanDigits_eq_nil {rest : List Char} (hr : StopsAt Char.isDigit rest) :
    scanDigits rest = [] :=
  scanDigits_append (w := []) (by simp) hr

/-- Digits that are cut off are at least one unless nothing is cut off. -/
theorem isDigits_scanDigits {text : List Char} (h : (scanDigits text).isEmpty = false) :
    IsDigits (scanDigits text) :=
  ⟨by simpa using h, fun _ hd => mem_takeWhile hd⟩

/-- What is cut off as a fraction is nothing, or a point with digits behind it. -/
theorem scanFraction_sound (text : List Char) :
    scanFraction text <+: text ∧
      (scanFraction text = [] ∨ ∃ f, scanFraction text = '.' :: f ∧ IsDigits f) := by
  unfold scanFraction
  split
  · rename_i rest
    split
    · exact ⟨List.nil_prefix, .inl rfl⟩
    · rename_i h
      refine ⟨(List.prefix_cons_inj '.').mpr (List.takeWhile_prefix _), .inr ⟨_, rfl, ?_⟩⟩
      exact isDigits_scanDigits (by simpa using h)
  · exact ⟨List.nil_prefix, .inl rfl⟩

/-- A point with digits behind it is cut off as a fraction. -/
theorem scanFraction_append {f rest : List Char} (hf : IsDigits f)
    (hr : StopsAt Char.isDigit rest) : scanFraction ('.' :: (f ++ rest)) = '.' :: f := by
  rw [scanFraction, scanDigits_append hf.2 hr, if_neg (by simpa using hf.1)]

/-- A point without a digit behind it is no fraction, so it can be the dot of a member. -/
theorem scanFraction_eq_nil {rest : List Char}
    (hr : ∀ t, rest = '.' :: t → StopsAt Char.isDigit t) : scanFraction rest = [] := by
  unfold scanFraction
  split
  · rename_i t
    rw [scanDigits_eq_nil (hr t rfl)]
    rfl
  · rfl

/-- What is cut off as a sign is a plus, a minus or nothing. -/
theorem scanSign_sound (text : List Char) :
    scanSign text <+: text ∧ scanSign text ∈ [[], ['+'], ['-']] := by
  unfold scanSign
  split
  · exact ⟨by simp, by simp⟩
  · exact ⟨by simp, by simp⟩
  · exact ⟨List.nil_prefix, by simp⟩

/-- The front of a text and the front of what follows it are a front of the text. -/
theorem isPrefix_append {s t text : List Char} (hs : s <+: text) (ht : t <+: text.drop s.length) :
    s ++ t <+: text := by
  obtain ⟨u, rfl⟩ := hs
  rw [List.drop_left] at ht
  exact (List.prefix_append_right_inj s).mpr ht

/-- What is cut off as an exponent is one or nothing: a letter without digits is left standing. -/
theorem scanExponent_sound (text : List Char) :
    scanExponent text <+: text ∧ IsExponent (scanExponent text) := by
  cases text with
  | nil => exact ⟨List.nil_prefix, .none⟩
  | cons mark rest =>
    simp only [scanExponent]
    split
    · rename_i hmark
      split
      · exact ⟨List.nil_prefix, .none⟩
      · rename_i hdigits
        obtain ⟨hpre, hsign⟩ := scanSign_sound rest
        refine ⟨(List.prefix_cons_inj mark).mpr ?_, ?_⟩
        · exact isPrefix_append hpre (List.takeWhile_prefix _)
        · exact .some (by simpa using hmark) hsign (isDigits_scanDigits (by simpa using hdigits))
    · exact ⟨List.nil_prefix, .none⟩

/-- What is cut off as a number is one: it has a digit on one side of the point at least. -/
theorem scanNumber?_sound {text w : List Char} (h : scanNumber? text = some w) :
    w <+: text ∧ IsNumber w := by
  simp only [scanNumber?, Option.ite_none_left_eq_some, Option.some.injEq] at h
  obtain ⟨hne, rfl⟩ := h
  have hwhole : scanDigits text <+: text := List.takeWhile_prefix _
  obtain ⟨hfraction, hshape⟩ := scanFraction_sound (text.drop (scanDigits text).length)
  obtain ⟨hexponent, hexp⟩ := scanExponent_sound
    (text.drop (scanDigits text ++ scanFraction (text.drop (scanDigits text).length)).length)
  refine ⟨isPrefix_append (isPrefix_append hwhole hfraction) hexponent, _, _, rfl, ?_, hexp⟩
  -- The significand is not empty, so one of its two parts is there.
  cases hd : (scanDigits text).isEmpty with
  | false =>
    have hdigits := isDigits_scanDigits hd
    rcases hshape with hnil | ⟨f, hf, hfd⟩
    · rw [hnil, List.append_nil]
      exact .whole hdigits
    · rw [hf]
      exact .both hdigits hfd
  | true =>
    rw [List.isEmpty_iff] at hd
    rw [hd] at hshape hne ⊢
    rcases hshape with hnil | ⟨f, hf, hfd⟩
    · rw [hnil] at hne
      exact absurd rfl hne
    · rw [hf]
      exact .fraction hfd

/-- No digit comes before an exponent. -/
theorem StopsAt.exponent_append {exponent rest : List Char} (he : IsExponent exponent)
    (hr : StopsAt Char.isDigit rest) : StopsAt Char.isDigit (exponent ++ rest) := by
  cases he with
  | none => exact hr
  | some hmark _ _ =>
    intro c hc
    cases hc
    simp only [List.mem_cons, List.not_mem_nil, or_false] at hmark
    rcases hmark with rfl | rfl <;> rfl

/-- A sign is cut off before digits, and nothing if there is none. -/
theorem scanSign_append {sign digits : List Char} (hsign : sign ∈ [[], ['+'], ['-']])
    (hdigits : IsDigits digits) (rest : List Char) :
    scanSign (sign ++ digits ++ rest) = sign := by
  simp only [List.mem_cons, List.not_mem_nil, or_false] at hsign
  rcases hsign with rfl | rfl | rfl
  · obtain ⟨d, t, rfl⟩ := List.exists_cons_of_ne_nil hdigits.1
    have hd : d.isDigit = true := hdigits.2 d List.mem_cons_self
    -- A digit is none of the two signs.
    rw [List.nil_append, List.cons_append]
    unfold scanSign
    split
    · rename_i heq
      rw [(List.cons.inj heq).1] at hd
      cases hd
    · rename_i heq
      rw [(List.cons.inj heq).1] at hd
      cases hd
    · rfl
  · rfl
  · rfl

/-- An exponent is cut off as a whole, and nothing if there is none, provided that no part of a name
follows. -/
theorem scanExponent_append {exponent rest : List Char} (he : IsExponent exponent)
    (hr : StopsAt isNamePart rest) : scanExponent (exponent ++ rest) = exponent := by
  cases he with
  | none =>
    cases rest with
    | nil => rfl
    | cons c rest =>
      -- The letter of an exponent would be part of a name.
      have hc : ¬ (c = 'e' ∨ c = 'E') := by
        rintro (rfl | rfl) <;> exact absurd (hr _ rfl) (by decide)
      rw [List.nil_append, scanExponent, if_neg hc]
  | @some mark sign digits hmark hsign hdigits =>
    have hm : mark = 'e' ∨ mark = 'E' := by simpa using hmark
    rw [List.cons_append, scanExponent, if_pos hm]
    simp only [scanSign_append hsign hdigits]
    rw [List.append_assoc, List.drop_left, scanDigits_append hdigits.2 hr.isDigit,
      if_neg (by simpa using hdigits.1)]

/-- Where the digits and the fraction at the front of a text are known, so is its number. -/
theorem scanNumber?_of_parts (whole fraction : List Char) {exponent rest : List Char}
    (hw : scanDigits (whole ++ (fraction ++ (exponent ++ rest))) = whole)
    (hf : scanFraction (fraction ++ (exponent ++ rest)) = fraction)
    (he : scanExponent (exponent ++ rest) = exponent) (hne : whole ++ fraction ≠ []) :
    scanNumber? (whole ++ (fraction ++ (exponent ++ rest))) =
      some (whole ++ fraction ++ exponent) := by
  simp only [scanNumber?, hw, List.drop_left, hf]
  rw [if_neg (by simpa using hne), ← List.append_assoc, List.drop_left, he]

/-- A number is cut off as a whole, provided that the text behind it does not continue it. -/
theorem scanNumber?_append {w rest : List Char} (hw : IsNumber w) (hr : NumberEnd rest) :
    scanNumber? (w ++ rest) = some w := by
  obtain ⟨significand, exponent, rfl, hsig, hexp⟩ := hw
  -- The exponent begins with a letter, so the digits before it end there.
  have hstop : StopsAt Char.isDigit (exponent ++ rest) := .exponent_append hexp hr.name.isDigit
  have hscan := scanExponent_append hexp hr.name
  cases hsig with
  | whole hdigits =>
    -- Without a fraction the number must not be followed by what could be one.
    have hfraction : scanFraction (exponent ++ rest) = [] := by
      refine scanFraction_eq_nil fun t ht => ?_
      cases hexp with
      | none => exact hr.fraction t ht
      | some hmark _ _ =>
        rw [(List.cons.inj ht).1] at hmark
        exact absurd hmark (by decide)
    have := scanNumber?_of_parts _ [] (scanDigits_append hdigits.2 hstop)
      hfraction hscan (by simpa using hdigits.1)
    simpa using this
  | @fraction f hdigits =>
    have := scanNumber?_of_parts [] ('.' :: f)
      (scanDigits_eq_nil fun c hc => by cases hc; rfl)
      (scanFraction_append hdigits hstop) hscan (by simp)
    simpa using this
  | @both w f hdigits hfdigits =>
    have := scanNumber?_of_parts w ('.' :: f)
      (scanDigits_append hdigits.2 fun c hc => by cases hc; rfl)
      (scanFraction_append hfdigits hstop) hscan (by simp)
    simpa using this

/-- A text that begins neither with a digit nor with a point is no number. -/
theorem scanNumber?_eq_none {text : List Char} (hd : StopsAt Char.isDigit text)
    (hdot : ∀ t, text = '.' :: t → StopsAt Char.isDigit t) : scanNumber? text = none := by
  simp only [scanNumber?, scanDigits_eq_nil hd, List.length_nil, List.drop_zero,
    scanFraction_eq_nil hdot]
  rfl

/-! ## Strings -/

/-- What is cut off inside of a string is its contents and the second quotation mark. -/
theorem scanContent?_sound {quote : Char} {text w : List Char}
    (h : scanContent? quote text = some w) :
    w <+: text ∧ ∃ content, IsContent quote content ∧ w = content ++ [quote] := by
  -- In turn: the end, a backslash before a character, the mark, a last backslash, the rest.
  fun_induction scanContent? quote text generalizing w with
  | case1 => cases h
  | case2 c rest ih =>
    obtain ⟨v, hv, rfl⟩ := Option.map_eq_some_iff.mp h
    obtain ⟨hpre, content, hcontent, rfl⟩ := ih hv
    refine ⟨?_, '\\' :: c :: content, .escape hcontent, rfl⟩
    exact (List.prefix_cons_inj _).mpr ((List.prefix_cons_inj _).mpr hpre)
  | case3 rest hno =>
    cases h
    exact ⟨by simp, [], .nil, rfl⟩
  | case4 => cases h
  | case5 c rest hno hq hb ih =>
    obtain ⟨v, hv, rfl⟩ := Option.map_eq_some_iff.mp h
    obtain ⟨hpre, content, hcontent, rfl⟩ := ih hv
    exact ⟨(List.prefix_cons_inj _).mpr hpre, c :: content, .plain hq hb hcontent, rfl⟩

/-- The contents end with the first quotation mark that has no backslash before it. -/
theorem scanContent?_append {quote : Char} {content : List Char} (rest : List Char)
    (hq : quote ≠ '\\') (h : IsContent quote content) :
    scanContent? quote (content ++ quote :: rest) = some (content ++ [quote]) := by
  -- The mark is no backslash, so after the contents it is taken for the end.
  induction h with
  | nil =>
    rw [List.nil_append]
    unfold scanContent?
    split
    · rename_i heq
      cases heq
    · rename_i heq
      exact absurd (List.cons.inj heq).1 hq
    · rename_i heq
      obtain ⟨rfl, rfl⟩ := List.cons.inj heq
      rw [if_pos rfl]
      rfl
  | escape _ ih => rw [List.cons_append, List.cons_append, scanContent?, ih]; rfl
  | @plain c w hne hback _ ih =>
    rw [List.cons_append]
    unfold scanContent?
    split
    · rename_i heq
      cases heq
    · rename_i heq
      exact absurd (List.cons.inj heq).1 hback
    · rename_i heq
      obtain ⟨rfl, rfl⟩ := List.cons.inj heq
      rw [if_neg hne, if_neg hback, ih]
      rfl

/-- The contents of a string are what stands between its quotation marks. -/
theorem contentOf_quoted (quote : Char) (content : List Char) :
    contentOf (quote :: (content ++ [quote])) = content := by
  simp [contentOf]

/-- What is cut off as a string is one, at the front of the text. -/
theorem scanString?_sound {text w : List Char} (h : scanString? text = some w) :
    w <+: text ∧ IsString (contentOf w) w := by
  cases text with
  | nil => cases h
  | cons quote rest =>
    simp only [scanString?, Option.ite_none_right_eq_some, Option.map_eq_some_iff] at h
    obtain ⟨hquote, v, hv, rfl⟩ := h
    obtain ⟨hpre, content, hcontent, rfl⟩ := scanContent?_sound hv
    refine ⟨(List.prefix_cons_inj _).mpr hpre, quote, by simpa using hquote, ?_, ?_⟩
    · rwa [contentOf_quoted]
    · rw [contentOf_quoted]

/-- A string is cut off as a whole, whatever follows it. -/
theorem scanString?_append {content w : List Char} (rest : List Char) (h : IsString content w) :
    scanString? (w ++ rest) = some w := by
  obtain ⟨quote, hquote, hcontent, rfl⟩ := h
  simp only [List.mem_cons, List.not_mem_nil, or_false] at hquote
  have hback : quote ≠ '\\' := by rcases hquote with rfl | rfl <;> decide
  rw [List.cons_append, scanString?, if_pos hquote, List.append_assoc, List.singleton_append,
    scanContent?_append rest hback hcontent]
  rfl

/-- A text that begins with no quotation mark is no string. -/
theorem scanString?_eq_none {text : List Char} (h : ∀ c ∈ text.head?, c ≠ '\'' ∧ c ≠ '"') :
    scanString? text = none := by
  cases text with
  | nil => rfl
  | cons c rest =>
    obtain ⟨h₁, h₂⟩ := h c rfl
    rw [scanString?, if_neg (by simp [h₁, h₂])]

end Syntax

end TemplateFlow
