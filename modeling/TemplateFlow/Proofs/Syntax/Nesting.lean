import TemplateFlow.Proofs.Syntax.Follow

/-!
# Brackets and strings in a text

A text can be read with nothing kept in mind but what is open: the brackets, each with the one that
has to close it, and possibly a string (`Nesting`). That is far less than the grammar asks for, but
enough to tell what stands outside of all brackets and strings.

Whatever is written in the grammar ends outside of them, if it begins there, and an expression has
no comma outside of them (`Written.selfContained`). So the commas and the brackets that a text puts
around expressions can be told from those inside the expressions, whatever these are.

## Main definitions

* `Nesting`, `nestingAfter`: what is open at a place in a text.
* `Closed`: all that a text opens it closes, and it closes nothing else.
* `SelfContained`: a closed text without a comma outside of its brackets and strings.

## Main results

* `Closed.exists_bracketed`: behind an opening bracket there is one that closes it.
* `Closed.prefix_cases`: where a closed part of a text with brackets can end.
* `Written.selfContained`: expressions are self-contained.
-/

namespace TemplateFlow

namespace Syntax

/-! ## Nesting -/

/-- What is open at a place in a text: brackets, of which the closing ones are listed, the innermost
first, and possibly a string inside them, in which a backslash may have been read last. -/
inductive Nesting where
  | code (expected : List Char)
  | string (quote : Char) (expected : List Char)
  | escape (quote : Char) (expected : List Char)
  deriving DecidableEq, Inhabited

/-- What a character outside of strings does: it begins a string, opens a bracket that another
character has to close, closes a bracket, or none of these. -/
inductive Role where
  | quote
  | opening (closing : Char)
  | closing
  | other
  deriving DecidableEq, Inhabited

/-- The role of a character. -/
def roleOf : Char → Role
  | '\'' | '"' => .quote
  | '(' => .opening ')'
  | '[' => .opening ']'
  | '\x7b' => .opening '\x7d'
  | ')' | ']' | '\x7d' => .closing
  | _ => .other

/-- What is open after a character, unless it closes a bracket that is not the innermost open
one. -/
def Nesting.next : Nesting → Char → Option Nesting
  | .code expected, c =>
    match roleOf c with
    | .quote => some (.string c expected)
    | .opening closing => some (.code (closing :: expected))
    | .closing => if expected.head? = some c then some (.code expected.tail) else none
    | .other => some (.code expected)
  | .string quote expected, c =>
    if c = '\\' then some (.escape quote expected)
    else if c = quote then some (.code expected)
    else some (.string quote expected)
  | .escape quote expected, _ => some (.string quote expected)

/-- What is open after a text. -/
def nestingAfter (n : Nesting) (s : List Char) : Option Nesting := s.foldlM Nesting.next n

/-- All that the text opens it closes, and it closes nothing else. -/
def Closed (s : List Char) : Prop := nestingAfter (.code []) s = some (.code [])

instance (s : List Char) : Decidable (Closed s) :=
  inferInstanceAs (Decidable (_ = _))

/-- The text is closed, and no comma stands outside of its brackets and strings. -/
structure SelfContained (s : List Char) : Prop where
  closed : Closed s
  no_comma : ∀ before after, s = before ++ ',' :: after → ¬ Closed before

instance (s : List Char) : Decidable (SelfContained s) :=
  decidable_of_iff
    (Closed s ∧ ∀ i < s.length, s[i]? = some ',' → ¬ Closed (s.take i)) <| by
  constructor
  · rintro ⟨hclosed, hcomma⟩
    refine ⟨hclosed, ?_⟩
    rintro before after rfl
    simpa using hcomma before.length (by simp) (by simp)
  · rintro ⟨hclosed, hcomma⟩
    refine ⟨hclosed, fun i hi hget => hcomma _ (s.drop (i + 1)) ?_⟩
    -- The text in front of the comma and the text behind it.
    rw [List.getElem?_eq_getElem hi] at hget
    rw [← Option.some.inj hget, ← List.drop_eq_getElem_cons hi, List.take_append_drop]

section

variable {n n' : Nesting} {s t : List Char}

@[simp]
theorem nestingAfter_nil (n : Nesting) : nestingAfter n [] = some n := rfl

theorem nestingAfter_cons (n : Nesting) (c : Char) (s : List Char) :
    nestingAfter n (c :: s) = (n.next c).bind fun n' => nestingAfter n' s := rfl

theorem nestingAfter_append (n : Nesting) (s t : List Char) :
    nestingAfter n (s ++ t) = (nestingAfter n s).bind fun n' => nestingAfter n' t := by
  rw [nestingAfter, List.foldlM_append]
  rfl

theorem nestingAfter_append_of_eq (h : nestingAfter n s = some n') (t : List Char) :
    nestingAfter n (s ++ t) = nestingAfter n' t := by
  rw [nestingAfter_append, h, Option.bind_some]

/-! ## Brackets around a text -/

/-- The same with more brackets open around it. -/
def Nesting.within (outer : List Char) : Nesting → Nesting
  | .code expected => .code (expected ++ outer)
  | .string quote expected => .string quote (expected ++ outer)
  | .escape quote expected => .escape quote (expected ++ outer)

/-- Inside of a bracket no place is outside of all brackets. -/
theorem Nesting.within_ne (n : Nesting) (closing : Char) : n.within [closing] ≠ .code [] := by
  cases n <;> simp [within]

/-- What is read without the brackets around it is read with them in the same way. -/
theorem Nesting.next_within {c : Char} (h : n.next c = some n') (outer : List Char) :
    (n.within outer).next c = some (n'.within outer) := by
  cases n with
  | code expected =>
    simp only [next, within] at h ⊢
    cases hrole : roleOf c with
    | closing =>
      simp only [hrole] at h ⊢
      -- A bracket that is closed inside is open inside.
      cases expected with
      | nil => cases h
      | cons first rest =>
        rw [List.head?_cons] at h
        rw [List.cons_append, List.head?_cons]
        split at h
        · rename_i hfirst
          cases h
          exact if_pos hfirst
        · cases h
    | _ =>
      simp only [hrole] at h
      cases h
      rfl
  | string quote expected =>
    -- In a string the brackets around it only wait for its end.
    simp only [next, within] at h ⊢
    repeat' split at h
    all_goals cases h
    all_goals simp_all
  | escape quote expected =>
    cases h
    rfl

/-- What can not be read without the bracket around it is what closes this bracket. -/
theorem Nesting.next_within_cases {closing c : Char} (h : (n.within [closing]).next c = some n') :
    (∃ n₁, n.next c = some n₁ ∧ n' = n₁.within [closing]) ∨
      n = .code [] ∧ c = closing ∧ n' = .code [] := by
  cases hnext : n.next c with
  | some n₁ =>
    rw [next_within hnext] at h
    exact .inl ⟨n₁, rfl, (Option.some.inj h).symm⟩
  | none =>
    refine .inr ?_
    cases n with
    | code expected =>
      simp only [next, within] at h hnext
      cases hrole : roleOf c with
      | closing =>
        simp only [hrole] at h hnext
        cases expected with
        | nil =>
          rw [List.nil_append, List.head?_cons] at h
          split at h
          · rename_i hc
            exact ⟨rfl, (Option.some.inj hc).symm, (Option.some.inj h).symm⟩
          · cases h
        | cons first rest =>
          -- The innermost bracket is the same one with and without the one around all.
          rw [List.head?_cons] at hnext
          rw [List.cons_append, List.head?_cons] at h
          split at h
          · rename_i hc
            rw [if_pos hc] at hnext
            cases hnext
          · cases h
      | _ =>
        simp only [hrole] at hnext
        cases hnext
    | string quote expected =>
      simp only [next] at hnext
      repeat' split at hnext
      all_goals cases hnext
    | escape quote expected => cases hnext

/-- A text can be read in brackets as it can be read without. -/
theorem nestingAfter_within (h : nestingAfter n s = some n') (outer : List Char) :
    nestingAfter (n.within outer) s = some (n'.within outer) := by
  induction s generalizing n with
  | nil =>
    cases h
    rfl
  | cons c s ih =>
    rw [nestingAfter_cons] at h ⊢
    obtain ⟨n₁, hnext, h⟩ := Option.bind_eq_some_iff.mp h
    rw [Nesting.next_within hnext, Option.bind_some, ih h]

/-- An opening bracket is open after it. -/
theorem nestingAfter_opening {c closing : Char} (h : roleOf c = .opening closing) (s : List Char) :
    nestingAfter (.code []) (c :: s) = nestingAfter (.code [closing]) s := by
  rw [nestingAfter_cons, Nesting.next, h]
  rfl

/-- A bracket is not open after the one that has to close it. -/
theorem nestingAfter_closing {c : Char} (h : roleOf c = .closing) (s : List Char) :
    nestingAfter (.code [c]) (c :: s) = nestingAfter (.code []) s := by
  rw [nestingAfter_cons, Nesting.next, h]
  simp

/-- What has to close a bracket closes brackets. -/
theorem roleOf_of_opening {c closing : Char} (h : roleOf c = .opening closing) :
    roleOf closing = .closing := by
  unfold roleOf at h
  split at h
  all_goals cases h
  all_goals rfl

theorem Closed.nil : Closed [] := rfl

/-- Closed texts in a row are closed. -/
theorem Closed.append (hs : Closed s) (ht : Closed t) : Closed (s ++ t) := by
  rw [Closed, nestingAfter_append_of_eq hs]
  exact ht

/-- Behind a closed text a text is closed if it is so by itself. -/
theorem Closed.of_append (hs : Closed s) (h : Closed (s ++ t)) : Closed t := by
  rwa [Closed, nestingAfter_append_of_eq hs] at h

/-- A closed text does not begin with what closes a bracket. -/
theorem not_closed_closing {c : Char} (hc : roleOf c = .closing) (s : List Char) :
    ¬ Closed (c :: s) := by
  rw [Closed, nestingAfter_cons, Nesting.next, hc]
  simp

/-- No place inside of brackets is outside of them. -/
theorem not_closed_opening {c closing : Char} {before after : List Char}
    (hc : roleOf c = .opening closing) (h : Closed (before ++ after)) : ¬ Closed (c :: before) := by
  intro hbefore
  -- What can be read without the bracket is in it behind it, and so never outside.
  rw [Closed, nestingAfter_append] at h
  obtain ⟨n, hn, -⟩ := Option.bind_eq_some_iff.mp h
  rw [Closed, nestingAfter_opening hc] at hbefore
  exact n.within_ne closing
    (Option.some.inj ((nestingAfter_within hn [closing]).symm.trans hbefore))

/-- From inside a bracket a text comes to the end of all brackets through the one that closes
it. -/
theorem exists_closing_of_within {closing : Char}
    (h : nestingAfter (n.within [closing]) s = some (.code [])) :
    ∃ inside rest, s = inside ++ closing :: rest ∧ nestingAfter n inside = some (.code []) ∧
      Closed rest := by
  induction s generalizing n with
  | nil => exact absurd (Option.some.inj h) (n.within_ne closing)
  | cons c s ih =>
    rw [nestingAfter_cons] at h
    obtain ⟨n', hnext, h⟩ := Option.bind_eq_some_iff.mp h
    rcases Nesting.next_within_cases hnext with ⟨n₁, hn₁, rfl⟩ | ⟨rfl, rfl, rfl⟩
    · obtain ⟨inside, rest, rfl, hinside, hrest⟩ := ih h
      refine ⟨c :: inside, rest, rfl, ?_, hrest⟩
      rw [nestingAfter_cons, hn₁, Option.bind_some, hinside]
    · exact ⟨[], s, rfl, rfl, h⟩

variable {head inside rest closedPart after : List Char} {opening closing : Char}

/-- In a closed text that begins with a bracket there is one that closes it. -/
theorem Closed.exists_bracketed (hopening : roleOf opening = .opening closing)
    (h : Closed (opening :: s)) :
    ∃ inside rest, s = inside ++ closing :: rest ∧ Closed inside ∧ Closed rest := by
  rw [Closed, nestingAfter_opening hopening] at h
  exact exists_closing_of_within (n := .code []) h

/-- Brackets of one kind around a closed text are closed. -/
theorem Closed.bracketed (hopening : roleOf opening = .opening closing)
    (hinside : Closed inside) (hrest : Closed rest) :
    Closed (opening :: (inside ++ closing :: rest)) := by
  have hdeep : nestingAfter (.code [closing]) inside = some (.code [closing]) :=
    nestingAfter_within hinside [closing]
  rw [Closed, nestingAfter_opening hopening, nestingAfter_append_of_eq hdeep,
    nestingAfter_closing (roleOf_of_opening hopening)]
  exact hrest

/-- Only one closed text ends in front of a closing bracket. -/
theorem Closed.closing_inj (hs : Closed s) (ht : Closed t) (hclosing : roleOf closing = .closing)
    (h : s ++ closing :: rest = t ++ closing :: after) : s = t := by
  -- The bracket behind the shorter text would be in the longer one.
  rcases List.append_eq_append_iff.mp h with ⟨u, rfl, hu⟩ | ⟨u, rfl, hu⟩
  · cases u with
    | nil => exact (List.append_nil s).symm
    | cons d u =>
      obtain ⟨rfl, -⟩ := List.cons.inj hu
      exact absurd (hs.of_append ht) (not_closed_closing hclosing u)
  · cases u with
    | nil => exact List.append_nil t
    | cons d u =>
      obtain ⟨rfl, -⟩ := List.cons.inj hu
      exact absurd (ht.of_append hs) (not_closed_closing hclosing u)

/-- A closed part at the beginning of a text with brackets in it ends before the brackets, or right
at the opening one, or behind the closing one. -/
theorem Closed.prefix_cases {c : Char} (hpart : Closed closedPart)
    (hopening : roleOf opening = .opening closing) (hhead : Closed head) (hinside : Closed inside)
    (h : closedPart ++ c :: after = head ++ opening :: (inside ++ closing :: rest)) :
    (∃ u, head = closedPart ++ c :: u) ∨
      (closedPart = head ∧ c :: after = opening :: (inside ++ closing :: rest)) ∨
      ∃ u, closedPart = head ++ opening :: (inside ++ closing :: u) ∧ rest = u ++ c :: after := by
  rcases List.append_eq_append_iff.mp h with ⟨u, rfl, hu⟩ | ⟨u, rfl, hu⟩
  · cases u with
    | nil => exact .inr (.inl ⟨(List.append_nil _).symm, hu⟩)
    | cons d u =>
      obtain ⟨rfl, -⟩ := List.cons.inj hu
      exact .inl ⟨u, rfl⟩
  · cases u with
    | nil => exact .inr (.inl ⟨List.append_nil _, hu.symm⟩)
    | cons d u =>
      obtain ⟨rfl, hbehind⟩ := List.cons.inj hu
      have hbracket : Closed (opening :: u) := hhead.of_append hpart
      -- The closed part goes on behind the bracket, so it does not end inside.
      rcases List.append_eq_append_iff.mp hbehind with ⟨v, rfl, hv⟩ | ⟨v, rfl, hv⟩
      · cases v with
        | nil =>
          rw [List.append_nil] at hbracket
          rw [← List.append_nil inside] at hinside
          exact absurd hbracket (not_closed_opening hopening hinside)
        | cons d v =>
          obtain ⟨rfl, hrest⟩ := List.cons.inj hv
          exact .inr (.inr ⟨v, rfl, hrest⟩)
      · exact absurd hbracket (not_closed_opening hopening hinside)

/-- No comma between brackets is outside of them. -/
theorem SelfContained.bracketed (hopening : roleOf opening = .opening closing)
    (hinside : Closed inside) : SelfContained (opening :: (inside ++ [closing])) := by
  refine ⟨Closed.bracketed hopening hinside .nil, fun before after h hbefore => ?_⟩
  rcases hbefore.prefix_cases hopening .nil hinside h.symm with ⟨u, hu⟩ | ⟨-, hcomma⟩ | ⟨u, -, hu⟩
  · cases before <;> cases hu
  · obtain ⟨rfl, -⟩ := List.cons.inj hcomma
    cases hopening
  · cases u <;> cases hu

/-- Texts one behind the other are self-contained if each of them is. -/
theorem SelfContained.append (hs : SelfContained s) (ht : SelfContained t) :
    SelfContained (s ++ t) := by
  refine ⟨hs.closed.append ht.closed, fun before after h hbefore => ?_⟩
  -- The comma is in the second text, or at its beginning, or in the first one.
  rcases List.append_eq_append_iff.mp h with ⟨u, rfl, hu⟩ | ⟨u, hu, hcomma⟩
  · exact ht.no_comma u after hu (hs.closed.of_append hbefore)
  · cases u with
    | nil =>
      rw [List.append_nil] at hu
      subst hu
      exact ht.no_comma [] after hcomma.symm .nil
    | cons d u =>
      obtain ⟨rfl, -⟩ := List.cons.inj hcomma
      exact hs.no_comma before u hu hbefore

/-! ## Words -/

/-- The characters that neither open nor close anything and separate nothing. -/
def isPlain (c : Char) : Bool := roleOf c = .other ∧ c ≠ ','

/-- A plain character changes nothing of what is open. -/
theorem Nesting.next_of_isPlain {c : Char} (h : isPlain c = true) (expected : List Char) :
    (Nesting.code expected).next c = some (.code expected) := by
  have hrole : roleOf c = .other := (of_decide_eq_true h).1
  rw [next, hrole]

/-- The text opens, closes and separates nothing. -/
def Plain (s : List Char) : Prop := ∀ c ∈ s, isPlain c = true

instance (s : List Char) : Decidable (Plain s) :=
  List.decidableBAll _ s

theorem Plain.append (hs : Plain s) (ht : Plain t) : Plain (s ++ t) :=
  List.forall_mem_append.mpr ⟨hs, ht⟩

/-- A plain text is self-contained, since nothing is open or separated in it. -/
theorem Plain.selfContained (h : Plain s) : SelfContained s := by
  refine ⟨?_, fun before after hs _ => ?_⟩
  · induction s with
    | nil => exact .nil
    | cons c s ih =>
      obtain ⟨hc, hs⟩ := List.forall_mem_cons.mp h
      rw [Closed, nestingAfter_cons, Nesting.next_of_isPlain hc]
      exact ih hs
  · have hcomma := h ',' (by simp [hs])
    cases hcomma

/-- A test that fails for every other character passes plain ones only. -/
theorem isPlain_of {p : Char → Bool} {c : Char}
    (hp : ['\'', '"', '(', '[', '\x7b', ')', ']', '\x7d', ','].any p = false)
    (h : p c = true) : isPlain c = true := by
  have hnot : c ∉ ['\'', '"', '(', '[', '\x7b', ')', ']', '\x7d', ','] :=
    fun hc => List.any_eq_false.mp hp c hc h
  simp only [List.mem_cons, List.not_mem_nil, or_false, not_or] at hnot
  have hrole : roleOf c = .other := by
    unfold roleOf
    split <;> simp_all
  simp [isPlain, hrole, hnot]

theorem isPlain_of_isNamePart {c : Char} (h : isNamePart c = true) : isPlain c = true :=
  isPlain_of rfl h

theorem Blanks.plain (h : Blanks s) : Plain s := fun c hc => isPlain_of rfl (h c hc)

theorem Blanks.selfContained (h : Blanks s) : SelfContained s := h.plain.selfContained

/-- All characters of a name are such as may continue one. -/
theorem IsName.forall_isNamePart (h : IsName s) : ∀ c ∈ s, isNamePart c = true := by
  obtain ⟨c, t, rfl, hc, ht⟩ := h
  exact List.forall_mem_cons.mpr ⟨isNamePart_of_isNameStart hc, ht⟩

theorem IsName.plain (h : IsName s) : Plain s :=
  fun c hc => isPlain_of_isNamePart (h.forall_isNamePart c hc)

theorem IsDigits.plain (h : IsDigits s) : Plain s :=
  fun d hd => isPlain_of_isNamePart (isNamePart_of_isDigit (h.2 d hd))

/-- Points, signs and letters of numbers open and close nothing. -/
theorem IsNumber.plain (h : IsNumber s) : Plain s := by
  obtain ⟨significand, exponent, rfl, hsignificand, hexponent⟩ := h
  have hpoint : Plain ['.'] := by decide
  refine .append ?_ ?_
  · cases hsignificand with
    | whole hw => exact hw.plain
    | fraction hf => exact hpoint.append hf.plain
    | both hw hf => exact hw.plain.append (hpoint.append hf.plain)
  · cases hexponent with
    | none => decide
    | @some mark sign digits hmark hsign hdigits =>
      have hmark' : Plain [mark] := by
        simp only [List.mem_cons, List.not_mem_nil, or_false] at hmark
        rcases hmark with rfl | rfl <;> decide
      have hsign' : Plain sign := by
        simp only [List.mem_cons, List.not_mem_nil, or_false] at hsign
        rcases hsign with rfl | rfl | rfl <;> decide
      exact hmark'.append (hsign'.append hdigits.plain)

/-! ## Strings -/

/-- Between its quotation marks a string stays open. -/
theorem IsContent.nestingAfter {quote : Char} (h : IsContent quote s) (expected : List Char) :
    nestingAfter (.string quote expected) s = some (.string quote expected) := by
  induction h with
  | nil => rfl
  | escape _ ih => exact ih
  | plain hquote hbackslash _ ih =>
    rw [nestingAfter_cons, Nesting.next, if_neg hbackslash, if_neg hquote]
    exact ih

/-- No place in a string is outside of it. -/
theorem IsContent.nestingAfter_prefix_ne {quote : Char} (h : IsContent quote (s ++ t))
    (expected outer : List Char) :
    Syntax.nestingAfter (.string quote expected) s ≠ some (.code outer) := by
  generalize hs : s ++ t = content at h
  -- What was read ends at the beginning of the contents, or within an escape, or further on.
  induction h generalizing s with
  | nil =>
    obtain ⟨rfl, -⟩ := List.append_eq_nil_iff.mp hs
    simp
  | @escape c w _ ih =>
    match s, hs with
    | [], _ => simp
    | [_], hs =>
      obtain ⟨rfl, -⟩ := List.cons.inj hs
      simp [nestingAfter_cons, Nesting.next]
    | _ :: _ :: s, hs =>
      obtain ⟨rfl, htail⟩ := List.cons.inj hs
      have hrest : s ++ t = w := (List.cons.inj htail).2
      have hinner := ih hrest
      exact hinner
  | @plain c w hquote hbackslash _ ih =>
    match s, hs with
    | [], _ => simp
    | _ :: s, hs =>
      obtain ⟨rfl, htail⟩ := List.cons.inj hs
      rw [nestingAfter_cons, Nesting.next, if_neg hbackslash, if_neg hquote]
      exact ih htail

/-- A string is self-contained, whatever its contents are. -/
theorem IsString.selfContained {content : List Char} (h : IsString content s) :
    SelfContained s := by
  obtain ⟨quote, hquote, hcontent, rfl⟩ := h
  have hmark : roleOf quote = .quote ∧ quote ≠ '\\' ∧ quote ≠ ',' := by
    simp only [List.mem_cons, List.not_mem_nil, or_false] at hquote
    rcases hquote with rfl | rfl <;> exact ⟨rfl, by decide, by decide⟩
  have hopen (u : List Char) :
      nestingAfter (.code []) (quote :: u) = nestingAfter (.string quote []) u := by
    rw [nestingAfter_cons, Nesting.next, hmark.1, Option.bind_some]
  refine ⟨?_, fun before after hs hbefore => ?_⟩
  · rw [Closed, hopen, nestingAfter_append_of_eq (hcontent.nestingAfter []), nestingAfter_cons,
      Nesting.next, if_neg hmark.2.1, if_pos rfl]
    rfl
  · -- A comma in the string stands before the last quotation mark.
    cases before with
    | nil => exact hmark.2.2 (List.cons.inj hs).1
    | cons d u =>
      obtain ⟨rfl, htail⟩ := List.cons.inj hs
      rw [Closed, hopen] at hbefore
      obtain ⟨v, rfl⟩ : ∃ v, content = u ++ v := by
        rcases List.append_eq_append_iff.mp htail with ⟨v, rfl, hv⟩ | ⟨v, hv, -⟩
        · cases v with
          | nil => exact ⟨[], by simp⟩
          | cons d v => cases v <;> cases hv
        · exact ⟨v, hv⟩
      exact hcontent.nestingAfter_prefix_ne [] [] hbefore

/-! ## Expressions -/

/-- The words of a literal are plain, strings apart. -/
theorem Spells.plain_or_isString {v : Literal} (h : Spells v s) :
    Plain s ∨ ∃ content, IsString content s := by
  cases h with
  | num hw => exact .inl hw.plain
  | str hw => exact .inr ⟨_, hw⟩
  | _ => exact .inl (by decide)

theorem Spells.selfContained {v : Literal} (h : Spells v s) : SelfContained s := by
  rcases h.plain_or_isString with h | ⟨content, h⟩
  · exact h.selfContained
  · exact h.selfContained

theorem SpellsKey.selfContained {k : String} (h : SpellsKey k s) : SelfContained s := by
  cases h with
  | name hw => exact hw.plain.selfContained
  | num hw => exact hw.plain.selfContained
  | str hw => exact hw.selfContained

theorem Operator.plain_spelling (op : Operator) : Plain op.spelling.toList := by
  cases op with
  | binary op => cases op <;> decide
  | logical op => cases op <;> decide

theorem Token.plain {w : List Char} (h : Token w s) (hw : Plain w) : Plain s := by
  obtain ⟨blanks, hblanks, rfl⟩ := h
  exact hw.append hblanks.plain

theorem Token.selfContained {w : List Char} (h : Token w s) (hw : SelfContained w) :
    SelfContained s := by
  obtain ⟨blanks, hblanks, rfl⟩ := h
  exact hw.append hblanks.selfContained

/-- The mark of an optional link opens nothing. -/
theorem Mark.plain {optional : Bool} (h : Mark optional s) : Plain s := by
  cases optional with
  | true => exact Token.plain h (by decide)
  | false =>
    rw [Mark, if_neg Bool.false_ne_true] at h
    subst h
    decide

theorem Dot.plain {optional : Bool} (h : Dot optional s) : Plain s := by
  cases optional with
  | true => exact Token.plain h (by decide)
  | false => exact Token.plain h (by decide)

theorem closed_comma (h : Token [','] s) : Closed s := by
  obtain ⟨blanks, hblanks, rfl⟩ := h
  exact hblanks.selfContained.closed

/-- A comma closes nothing and opens nothing. -/
theorem TrailingComma.closed (h : TrailingComma s) : Closed s := by
  rcases h with rfl | h
  · exact .nil
  · exact closed_comma h

/-- Brackets with blanks behind them are self-contained around what is closed. -/
theorem SelfContained.enclosed {s₁ s₂ s₃ : List Char} (hopening : roleOf opening = .opening closing)
    (h₁ : Token [opening] s₁) (h₂ : Closed s₂) (h₃ : Token [closing] s₃) :
    SelfContained (s₁ ++ (s₂ ++ s₃)) := by
  obtain ⟨blanks₁, hblanks₁, rfl⟩ := h₁
  obtain ⟨blanks₃, hblanks₃, rfl⟩ := h₃
  have hbrackets := SelfContained.bracketed hopening
    (hblanks₁.selfContained.closed.append h₂)
  simpa using hbrackets.append hblanks₃.selfContained

/-- What is said of the brackets and strings of a form: of an expression also that no comma is
outside of them. -/
def Form.Nested : Form → List Char → Prop
  | .phrase _ _, s => SelfContained s
  | _, s => Closed s

/-- Whatever is written closes what it opens, and nothing else. -/
theorem Written.nested {f : Form} (h : Written f s) : f.Nested s := by
  -- Words are plain, what brackets enclose is closed, and the rest is put together from its parts.
  induction h with
  | literal hv ht => exact ht.selfContained hv.selfContained
  | ident hw ht => exact (ht.plain hw.1.plain).selfContained
  | list h₁ _ h₃ ih => exact .enclosed rfl h₁ ih h₃
  | object h₁ _ h₃ ih => exact .enclosed rfl h₁ ih h₃
  | parenthesized h₁ _ h₃ ih => exact .enclosed rfl h₁ ih.closed h₃
  | member _ hdot hw ht ih => exact .append ih (hdot.plain.append (ht.plain hw.plain)).selfContained
  | index _ hmark h₁ _ h₃ ih ih' =>
    exact .append ih (hmark.plain.selfContained.append (.enclosed rfl h₁ ih'.closed h₃))
  | call _ hmark h₁ _ h₃ ih ih' =>
    exact .append ih (hmark.plain.selfContained.append (.enclosed rfl h₁ ih' h₃))
  | @prefixed op e s₁ s₂ ht _ ih =>
    have hop : Plain (prefixSpelling op).toList := by cases op <;> decide
    exact (ht.plain hop).selfContained.append ih
  | @operation op l r s₁ s₂ s₃ _ ht _ ih ih' =>
    exact .append ih ((ht.plain op.plain_spelling).selfContained.append ih')
  | ternary _ h₁ _ h₂ _ ih ih' ih'' =>
    have hmark := (h₁.plain (by decide)).selfContained
    have hcolon := (h₂.plain (by decide)).selfContained
    exact .append ih (hmark.append (.append ih' (hcolon.append ih'')))
  | tighter _ ih => exact ih
  | oneItem _ ih => exact ih.closed
  | moreItems _ ht _ ih ih' => exact .append ih.closed ((closed_comma ht).append ih')
  | noElements => exact .nil
  | elements _ ht ih => exact .append ih ht.closed
  | keyed hk ht hcolon _ ih =>
    have hword := (hcolon.plain (by decide)).selfContained
    exact (ht.selfContained hk.selfContained).closed.append (hword.closed.append ih.closed)
  | shorthand hw ht => exact (ht.plain hw.1.plain).selfContained.closed
  | oneProperty _ ih => exact ih
  | moreProperties _ ht _ ih ih' => exact .append ih ((closed_comma ht).append ih')
  | noMembers => exact .nil
  | members _ ht ih => exact .append ih ht.closed

/-- Expressions close what they open, and their commas are inside of brackets and strings. -/
theorem Written.selfContained {p : Precedence} {e : Expr} (h : Written (.phrase p e) s) :
    SelfContained s := h.nested

/-- So do whole sources. -/
theorem SourceOf.selfContained {e : Expr} (h : SourceOf e s) : SelfContained s := by
  obtain ⟨blanks, t, hblanks, ht, rfl⟩ := h
  exact hblanks.selfContained.append ht.selfContained

/-- A source is not blank, since what is written begins with no blank. -/
theorem SourceOf.not_blanks {e : Expr} (h : SourceOf e s) : ¬ Blanks s := by
  obtain ⟨blanks, t, -, ht, rfl⟩ := h
  intro hblanks
  have hstarts : Starts .ternary t := ht.starts
  obtain ⟨c, u, rfl⟩ := List.exists_cons_of_ne_nil hstarts.ne_nil
  have hc : isBlank c = false := hstarts.unblank c rfl
  rw [hblanks c (by simp)] at hc
  cases hc

/-- Blanks may be put in front of a source. -/
theorem SourceOf.blanks_append {e : Expr} {lead : List Char} (hlead : Blanks lead)
    (h : SourceOf e s) : SourceOf e (lead ++ s) := by
  obtain ⟨blanks, t, hblanks, ht, rfl⟩ := h
  exact ⟨lead ++ blanks, t, Syntax.blanks_append hlead hblanks, ht, (List.append_assoc _ _ _).symm⟩

/-- Blanks in front of a source may be left out. -/
theorem SourceOf.of_blanks_append {e : Expr} {lead : List Char} (hlead : Blanks lead)
    (h : SourceOf e (lead ++ s)) : SourceOf e s := by
  obtain ⟨blanks, t, hblanks, ht, heq⟩ := h
  rcases List.append_eq_append_iff.mp heq with ⟨w, rfl, rfl⟩ | ⟨w, rfl, rfl⟩
  · exact ⟨w, t, fun c hc => hblanks c (List.mem_append_right _ hc), ht, rfl⟩
  · cases w with
    | nil => exact ⟨[], s, blanks_nil, ht, rfl⟩
    | cons c w =>
      -- What is written begins with no blank.
      have hc : isBlank c = false := Starts.unblank ht.starts c rfl
      rw [hlead c (List.mem_append_right _ List.mem_cons_self)] at hc
      cases hc

/-- A source that begins with no blank is written as it stands. -/
theorem SourceOf.written {e : Expr} {c : Char} (hc : isBlank c = false)
    (h : SourceOf e (c :: s)) : Written (.phrase .ternary e) (c :: s) := by
  obtain ⟨blanks, t, hblanks, ht, heq⟩ := h
  cases blanks with
  | nil =>
    rw [heq]
    exact ht
  | cons d blanks =>
    obtain ⟨rfl, -⟩ := List.cons.inj heq
    rw [hblanks c List.mem_cons_self] at hc
    cases hc

end

end Syntax

end TemplateFlow
