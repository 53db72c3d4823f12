import TemplateFlow.Proofs.Syntax.Word

/-!
# What may stand around an expression

A rule takes what it can, so whether it stops after an expression depends on what the text after it
begins with. `continuedRank` reads off the rank of the level that this text would continue: none for
the end of the text and for what closes or separates expressions, and more than any level has for
what can follow no expression at all. An expression of a level ends before a text that continues a
looser level only.

Conversely a text that is written in the grammar begins with a character that begins an expression
(`Written.starts`), which is neither a blank nor part of any symbol that could be mistaken for a
longer one.
-/

namespace TemplateFlow

namespace Syntax

/-! ## The text after an expression -/

/-- The place of a level among the levels. The question mark of a ternary has rank one. -/
def Precedence.rank : Precedence → Nat
  | .ternary => 0
  | .nullish => 2
  | .or => 3
  | .and => 4
  | .equality => 5
  | .comparison => 6
  | .additive => 7
  | .multiplicative => 8
  | .unary => 9
  | .chain => 10
  | .primary => 11

/-- Whether a text begins with a digit. -/
def startsWithDigit (s : List Char) : Bool := (s.head?.map Char.isDigit).getD false

/-- A text in front of which no digit stands does not begin with one. -/
theorem startsWithDigit_eq_false {s : List Char} (h : StopsAt Char.isDigit s) :
    startsWithDigit s = false := by
  cases s with
  | nil => rfl
  | cons c t => exact h c rfl

/-- The rank of the level that a character continues by itself. -/
def symbolRank (c : Char) : Nat :=
  if c ∈ [')', ']', '\x7d', ',', ':'] then 0
  else if c = '|' then 3
  else if c = '&' then 4
  else if c ∈ ['=', '!'] then 5
  else if c ∈ ['<', '>'] then 6
  else if c ∈ ['+', '-'] then 7
  else if c ∈ ['*', '/', '%'] then 8
  else if c ∈ ['(', '['] then 10
  else 12

/-- The rank of the level that a text continues after an expression. A point before a digit belongs
to a number, so a question mark before it is that of a ternary. -/
def continuedRank : List Char → Nat
  | [] => 0
  | '?' :: '?' :: _ => 2
  | '?' :: '.' :: rest => if startsWithDigit rest then 1 else 10
  | '?' :: _ => 1
  | '.' :: rest => if startsWithDigit rest then 12 else 10
  | c :: _ => symbolRank c

/-- What may continue a word can follow no expression. -/
theorem symbolRank_of_isNamePart {c : Char} (h : isNamePart c = true) : symbolRank c = 12 := by
  -- No character with a rank of its own is part of a name.
  have hnot : c ∉ [')', ']', '\x7d', ',', ':', '|', '&', '=', '!', '<', '>', '+', '-', '*', '/',
      '%', '(', '['] := by
    intro hc
    have hsymbols : [')', ']', '\x7d', ',', ':', '|', '&', '=', '!', '<', '>', '+', '-', '*', '/',
        '%', '(', '['].all (fun d => !isNamePart d) = true := rfl
    have hpart := List.all_eq_true.mp hsymbols c hc
    rw [h] at hpart
    cases hpart
  simp only [List.mem_cons, List.not_mem_nil, or_false, not_or] at hnot
  simp [symbolRank, hnot]

/-- No blank follows an expression, which takes the blanks behind it along. -/
theorem symbolRank_of_isBlank {c : Char} (h : isBlank c = true) : symbolRank c = 12 := by
  simp only [isBlank, Bool.decide_or, Bool.or_eq_true, decide_eq_true_eq] at h
  rcases h with rfl | rfl | rfl | rfl <;> rfl

/-- The rank of a text that begins with neither a question mark nor a point. -/
theorem continuedRank_cons {c : Char} (t : List Char) (hq : c ≠ '?') (hd : c ≠ '.') :
    continuedRank (c :: t) = symbolRank c := by
  unfold continuedRank
  split
  · rename_i h; cases h
  · rename_i h; exact absurd (List.cons.inj h).1 hq
  · rename_i h; exact absurd (List.cons.inj h).1 hq
  · rename_i h; exact absurd (List.cons.inj h).1 hq
  · rename_i h; exact absurd (List.cons.inj h).1 hd
  · rename_i h; rw [(List.cons.inj h).1]

/-- A text that may follow an expression begins with no blank and continues no word. -/
theorem ends_of_continuedRank {rest : List Char} (h : continuedRank rest < 12) :
    StopsAt isBlank rest ∧ NumberEnd rest := by
  cases rest with
  | nil => exact ⟨by simp [StopsAt], by simp [StopsAt], by simp⟩
  | cons c t =>
    -- A question mark and a point get their rank together with what follows them.
    by_cases hq : c = '?'
    · subst hq
      exact ⟨fun d hd => by cases hd; rfl, fun d hd => by cases hd; rfl, by simp⟩
    · by_cases hdot : c = '.'
      · subst hdot
        -- With a digit after it the point would have the rank of what follows no expression.
        have hdigit : startsWithDigit t = false := by
          rw [continuedRank] at h
          split at h
          · omega
          · rename_i hd
            simpa using hd
        refine ⟨fun d hd => by cases hd; rfl, fun d hd => by cases hd; rfl, ?_⟩
        intro u hu d hd
        cases hu
        rw [Option.mem_def] at hd
        simpa [startsWithDigit, hd] using hdigit
      · rw [continuedRank_cons t hq hdot] at h
        refine ⟨fun d hd => ?_, fun d hd => ?_, fun u hu => absurd (List.cons.inj hu).1 hdot⟩
        · cases hd
          rw [Bool.eq_false_iff]
          intro hb
          rw [symbolRank_of_isBlank hb] at h
          omega
        · cases hd
          rw [Bool.eq_false_iff]
          intro hb
          rw [symbolRank_of_isNamePart hb] at h
          omega

/-- An operator continues its own level. -/
theorem continuedRank_spelling (op : Operator) (t : List Char) :
    continuedRank (op.spelling.toList ++ t) = op.precedence.rank := by
  rcases op with op | op <;> cases op <;> rfl

/-- The next level is tighter. -/
theorem rank_next {p : Precedence} (h : p ≠ .primary) : p.rank < p.next.rank := by
  cases p <;> first | exact absurd rfl h | decide

/-! ## The text of an expression -/

/-- The characters that an expression may begin with, operators apart. -/
def isOperandStart (c : Char) : Bool :=
  isNameStart c || c.isDigit || c ∈ ['.', '\'', '"', '\x7b', '[', '(']

/-- The characters of the operators before an operand. -/
def isPrefixSymbol (c : Char) : Bool := c ∈ ['!', '-', '+']

/-- No operand begins with an operator. -/
theorem isPrefixSymbol_eq_false {c : Char} (h : isOperandStart c = true) :
    isPrefixSymbol c = false := by
  rw [Bool.eq_false_iff]
  intro hc
  have hsymbols : ['!', '-', '+'].all (fun d => !isOperandStart d) = true := rfl
  have hoperand := List.all_eq_true.mp hsymbols c (of_decide_eq_true hc)
  rw [h] at hoperand
  cases hoperand

/-- A text that begins as an expression of a level does: with an operator only at the levels of
operators, and with a point only if a digit follows. -/
def Starts (p : Precedence) (s : List Char) : Prop :=
  ∃ c t, s = c :: t ∧ (isOperandStart c = true ∨ p.rank ≤ 9 ∧ isPrefixSymbol c = true) ∧
    (c = '.' → startsWithDigit t = true)

/-- What begins as an expression does so with anything behind it. -/
theorem Starts.append {p : Precedence} {s : List Char} (h : Starts p s) (t : List Char) :
    Starts p (s ++ t) := by
  obtain ⟨c, u, rfl, hc, hdot⟩ := h
  refine ⟨c, u ++ t, rfl, hc, fun h => ?_⟩
  have hu := hdot h
  cases u with
  | nil => cases hu
  | cons d u => exact hu

/-- What begins as an expression of a level begins as one of every looser level. -/
theorem Starts.mono {p q : Precedence} {s : List Char} (h : Starts q s) (hpq : p.rank ≤ q.rank) :
    Starts p s := by
  obtain ⟨c, t, rfl, hc, hdot⟩ := h
  exact ⟨c, t, rfl, hc.imp_right fun h => ⟨by omega, h.2⟩, hdot⟩

/-- Nothing at all is no beginning. -/
theorem Starts.ne_nil {p : Precedence} {s : List Char} (h : Starts p s) : s ≠ [] := by
  obtain ⟨c, t, rfl, -⟩ := h
  exact List.cons_ne_nil c t

/-- An expression begins with none of the other characters. -/
theorem Starts.stopsAt {p : Precedence} {s : List Char} (h : Starts p s) {q : Char → Bool}
    (hq : ∀ c, q c = true → isOperandStart c = false ∧ isPrefixSymbol c = false) :
    StopsAt q s := by
  obtain ⟨c, t, rfl, hc, -⟩ := h
  intro d hd
  cases hd
  rw [Bool.eq_false_iff]
  intro hqc
  -- The first character begins an operand or is an operator, and the test excludes both.
  obtain ⟨h₁, h₂⟩ := hq c hqc
  rcases hc with hc | ⟨-, hc⟩
  · rw [h₁] at hc
    cases hc
  · rw [h₂] at hc
    cases hc

/-- An expression does not begin with a character that is neither an operator nor begins an
operand. -/
theorem Starts.head_ne {p : Precedence} {s : List Char} (h : Starts p s) {d : Char}
    (hoperand : isOperandStart d = false) (hsymbol : isPrefixSymbol d = false) :
    StopsAt (· = d) s := by
  refine h.stopsAt fun c hc => ?_
  rw [of_decide_eq_true hc]
  exact ⟨hoperand, hsymbol⟩

/-- An expression begins with no blank. -/
theorem Starts.unblank {p : Precedence} {s : List Char} (h : Starts p s) : StopsAt isBlank s := by
  refine h.stopsAt fun c hc => ?_
  simp only [isBlank, Bool.decide_or, Bool.or_eq_true, decide_eq_true_eq] at hc
  rcases hc with rfl | rfl | rfl | rfl <;> exact ⟨rfl, rfl⟩

/-- The first character is enough, unless it is a point. -/
theorem starts_of_head {p : Precedence} {c : Char} (t : List Char)
    (hc : isOperandStart c = true) (hdot : c ≠ '.') : Starts p (c :: t) :=
  ⟨c, t, rfl, .inl hc, fun h => absurd h hdot⟩

/-- A name is the beginning of an expression. -/
theorem IsName.starts {w : List Char} (h : IsName w) : Starts .primary w := by
  obtain ⟨c, t, rfl, hc, -⟩ := h
  refine starts_of_head t (by simp [isOperandStart, hc]) ?_
  rintro rfl
  cases hc

/-- Digits have a first one. -/
theorem IsDigits.exists_cons {w : List Char} (h : IsDigits w) :
    ∃ d t, w = d :: t ∧ d.isDigit = true := by
  obtain ⟨d, t, rfl⟩ := List.exists_cons_of_ne_nil h.1
  exact ⟨d, t, rfl, h.2 d (by simp)⟩

/-- A number begins with a digit, or with a point and a digit. -/
theorem IsNumber.exists_cons {w : List Char} (h : IsNumber w) :
    ∃ c t, w = c :: t ∧ (c.isDigit = true ∨ c = '.' ∧ startsWithDigit t = true) := by
  obtain ⟨significand, exponent, rfl, hsig, -⟩ := h
  cases hsig with
  | whole hw =>
    obtain ⟨d, t, rfl, hd⟩ := hw.exists_cons
    exact ⟨d, t ++ exponent, rfl, .inl hd⟩
  | @both whole fraction hw _ =>
    obtain ⟨d, t, rfl, hd⟩ := hw.exists_cons
    exact ⟨d, t ++ '.' :: fraction ++ exponent, rfl, .inl hd⟩
  | fraction hf =>
    obtain ⟨d, t, rfl, hd⟩ := hf.exists_cons
    exact ⟨'.', d :: t ++ exponent, rfl, .inr ⟨rfl, hd⟩⟩

/-- A number is the beginning of an expression, also one that begins with a point. -/
theorem IsNumber.starts {w : List Char} (h : IsNumber w) : Starts .primary w := by
  obtain ⟨c, t, rfl, hd | ⟨rfl, hd⟩⟩ := h.exists_cons
  · refine starts_of_head t (by simp [isOperandStart, hd]) ?_
    rintro rfl
    cases hd
  · exact ⟨'.', t, rfl, .inl rfl, fun _ => hd⟩

/-- A string is the beginning of an expression, with either quotation mark. -/
theorem IsString.starts {content w : List Char} (h : IsString content w) : Starts .primary w := by
  obtain ⟨quote, hquote, -, rfl⟩ := h
  simp only [List.mem_cons, List.not_mem_nil, or_false] at hquote
  rcases hquote with rfl | rfl <;> exact starts_of_head _ rfl (by decide)

/-- The words that stand for literals are names, numbers and strings. -/
theorem Spells.starts {v : Literal} {w : List Char} (h : Spells v w) : Starts .primary w := by
  cases h with
  | num hw => exact hw.starts
  | str hw => exact hw.starts
  | _ => exact starts_of_head _ rfl (by decide)

/-- A key of a property begins as an expression does. -/
theorem SpellsKey.starts {k : String} {w : List Char} (h : SpellsKey k w) : Starts .primary w := by
  cases h with
  | name hw => exact hw.starts
  | num hw => exact hw.starts
  | str hw => exact hw.starts

/-- Blanks behind a word do not change how it begins. -/
theorem Token.starts {p : Precedence} {w s : List Char} (h : Token w s) (hw : Starts .primary w) :
    Starts p s := by
  obtain ⟨blanks, -, rfl⟩ := h
  exact (hw.append blanks).mono (by cases p <;> decide)

/-- What is said of the beginning of a form. -/
def Form.Starts : Form → List Char → Prop
  | .phrase p _, s => Syntax.Starts p s
  | .items _, s | .property _ _, s | .properties _, s => Syntax.Starts .ternary s
  | .elements _, s | .members _, s => s = [] ∨ Syntax.Starts .ternary s

/-- Whatever is written begins as an expression does, lists of nothing apart. -/
theorem Written.starts {f : Form} {s : List Char} (h : Written f s) : f.Starts s := by
  -- Each way of writing begins with a word of its own or with the writing of its first part.
  induction h with
  | literal hv ht => exact ht.starts hv.starts
  | ident hw ht => exact ht.starts hw.1.starts
  | list ht _ _ _ =>
    exact Starts.append (ht.starts (starts_of_head [] rfl (by decide))) _
  | object ht _ _ _ =>
    exact Starts.append (ht.starts (starts_of_head [] rfl (by decide))) _
  | parenthesized ht _ _ _ =>
    exact Starts.append (ht.starts (starts_of_head [] rfl (by decide))) _
  | member _ _ _ _ ih => exact Starts.append ih _
  | index _ _ _ _ _ ih => exact Starts.append ih _
  | call _ _ _ _ _ ih => exact Starts.append ih _
  | @prefixed op e s₁ s₂ ht _ _ =>
    obtain ⟨blanks, -, rfl⟩ := ht
    refine Starts.append ?_ s₂
    cases op with
    | not => exact ⟨'!', blanks, rfl, .inr ⟨by decide, rfl⟩, fun h => absurd h (by decide)⟩
    | neg => exact ⟨'-', blanks, rfl, .inr ⟨by decide, rfl⟩, fun h => absurd h (by decide)⟩
    | pos => exact ⟨'+', blanks, rfl, .inr ⟨by decide, rfl⟩, fun h => absurd h (by decide)⟩
  | operation _ _ _ ih _ => exact Starts.append ih _
  | ternary _ _ _ _ _ ih _ _ => exact Starts.append (Starts.mono ih (by decide)) _
  | @tighter p e s _ ih => exact Starts.mono ih (by cases p <;> decide)
  | oneItem _ ih => exact ih
  | moreItems _ _ _ ih _ => exact Starts.append ih _
  | noElements => exact .inl rfl
  | elements _ _ ih => exact .inr (Starts.append ih _)
  | keyed hk ht _ _ _ => exact Starts.append (ht.starts hk.starts) _
  | shorthand hw ht => exact ht.starts hw.1.starts
  | oneProperty _ ih => exact ih
  | moreProperties _ _ _ ih _ => exact Starts.append ih _
  | noMembers => exact .inl rfl
  | members _ _ ih => exact .inr (Starts.append ih _)

end Syntax

end TemplateFlow
