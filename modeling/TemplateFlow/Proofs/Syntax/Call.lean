import TemplateFlow.Proofs.Syntax.Elements

/-!
# Texts that begin with a call

A name with parentheses behind it is a call, whatever stands in the parentheses and behind them
(`callText`). The call is the first thing that is written, so it is found at the left end of every
expression that is written so: in the callee of another call, in the left operand of an operation,
in the condition of a choice. There the text between the parentheses is the arguments, and it can be
exchanged for other arguments without touching the rest (`Written.callWritten`).

So whether such a text is an expression depends on what is between the parentheses and on what is
behind them, but on each of these by itself (`exists_sourceOf_callText_iff`).

## Main definitions

* `IsHead`: a name, possibly with names of properties behind it.
* `callText`: such a name, parentheses with some text between them, and the text behind them.
* `CallWritten`: how a text that begins with a call is written.

## Main results

* `Written.callWritten`: an expression that begins with a call has the arguments of the call in it,
  and others may take their place.
* `exists_sourceOf_callText_iff`: the arguments of a call and what follows it are read apart.
-/

namespace TemplateFlow

namespace Syntax

variable {head inside rest : List Char}

/-! ## Names in front of parentheses -/

/-- A name, possibly of a property, in front of parentheses. -/
structure IsHead (head : List Char) : Prop where
  starts : ∃ c t, head = c :: t ∧ isNameStart c = true
  parts : ∀ c ∈ head, isNamePart c = true ∨ c = '.'

/-- There is nothing in a head that opens, closes or separates. -/
theorem IsHead.plain (h : IsHead head) : Plain head := by
  intro c hc
  rcases h.parts c hc with hc | rfl
  · exact isPlain_of_isNamePart hc
  · rfl

/-- No text begins both with a head and with what begins no name. -/
theorem IsHead.ne_cons (h : IsHead head) {s t : List Char} {c : Char}
    (hc : isNameStart c = false) : head ++ s ≠ c :: t := by
  obtain ⟨d, u, rfl, hd⟩ := h.starts
  intro heq
  obtain ⟨rfl, -⟩ := List.cons.inj heq
  rw [hc] at hd
  cases hd

/-- No blanks stand in front of a head. -/
theorem SourceOf.written_of_isHead {e : Expr} {s : List Char} (h : SourceOf e (head ++ s))
    (hhead : IsHead head) : Written (.phrase .ternary e) (head ++ s) := by
  obtain ⟨c, t, rfl, hc⟩ := hhead.starts
  refine h.written ?_
  rw [Bool.eq_false_iff]
  intro hblank
  have hpart := isNamePart_of_isNameStart hc
  rw [isNamePart_of_isBlank hblank] at hpart
  cases hpart

/-- No operator begins with what continues a head, nor with a blank or a parenthesis. -/
theorem Operator.exists_spelling_eq_cons (op : Operator) :
    ∃ c t, op.spelling.toList = c :: t ∧ isNamePart c = false ∧ isBlank c = false ∧ c ≠ '.' ∧
      c ≠ '(' := by
  cases op with
  | binary op => cases op <;> exact ⟨_, _, rfl, by decide⟩
  | logical op => cases op <;> exact ⟨_, _, rfl, by decide⟩

/-- No prefix operator begins a name. -/
theorem exists_prefixSpelling_eq_cons (op : UnaryOp) :
    ∃ c t, (prefixSpelling op).toList = c :: t ∧ isNameStart c = false := by
  cases op <;> exact ⟨_, _, rfl, by decide⟩

/-- The link of an index begins with a mark or a bracket. -/
theorem Mark.exists_index_eq_cons {optional : Bool} {s t : List Char} (hmark : Mark optional s)
    (ht : Token ['['] t) (u : List Char) :
    ∃ c after, s ++ (t ++ u) = c :: after ∧ isNamePart c = false ∧ isBlank c = false ∧ c ≠ '.' ∧
      c ≠ '(' := by
  obtain ⟨blanks, -, rfl⟩ := ht
  cases optional with
  | true =>
    obtain ⟨blanks', -, rfl⟩ : Token "?.".toList s := hmark
    exact ⟨_, _, rfl, by decide⟩
  | false =>
    obtain rfl : s = [] := hmark
    exact ⟨_, _, rfl, by decide⟩

/-! ## Calls -/

/-- A name in front of parentheses with a text between them, and what stands behind them. -/
def callText (head inside rest : List Char) : List Char := head ++ '(' :: (inside ++ ')' :: rest)

/-- What is put behind the text of a call is behind the call. -/
theorem callText_append (head inside rest s : List Char) :
    callText head inside rest ++ s = callText head inside (rest ++ s) := by
  simp [callText]

/-- The text of a call has a parenthesis in it. -/
theorem not_plain_callText (head inside rest : List Char) :
    ¬ Plain (callText head inside rest) := by
  intro hplain
  have hopening := hplain '(' (by simp [callText])
  cases hopening

/-- A part of the text with something behind it that does not go on in the name ends behind the
call. -/
theorem IsHead.exists_callText {s after : List Char} {c : Char} (h : IsHead head)
    (hinside : Closed inside) (hs : Closed s) (hc : c ≠ '(') (hhead : ∀ u, head ≠ s ++ c :: u)
    (heq : callText head inside rest = s ++ c :: after) :
    ∃ u, s = callText head inside u ∧ rest = u ++ c :: after := by
  rcases hs.prefix_cases rfl h.plain.selfContained.closed hinside heq.symm with
    ⟨u, hu⟩ | ⟨-, hu⟩ | hbehind
  · exact absurd hu (hhead u)
  · exact absurd (List.cons.inj hu).1 hc
  · exact hbehind

/-- There are no symbols but points in a name. -/
theorem IsHead.ne_append_cons (h : IsHead head) {s : List Char} {c : Char}
    (hpart : isNamePart c = false) (hdot : c ≠ '.') (u : List Char) : head ≠ s ++ c :: u := by
  intro hu
  rcases h.parts c (by simp [hu]) with hc | hc
  · rw [hpart] at hc
    cases hc
  · exact hdot hc

/-- An expression begins with a call: the arguments of the call are between its parentheses, and
whatever elements stand there instead, an expression is written. If nothing stands behind the call,
the expression is the call. -/
structure CallWritten (p : Precedence) (e : Expr) (head inside rest : List Char) : Prop where
  arguments : ∃ args, ElementsOf args inside ∧
    (Blanks rest → ∃ f, e = .call f args false .none ∧ Written (.phrase .chain f) head)
  exchange : ∀ args inside', ElementsOf args inside' →
    ∃ e', Written (.phrase p e') (callText head inside' rest)

/-- What is written with an expression at its left end begins with a call if the expression does. -/
theorem CallWritten.of_left {p q : Precedence} {e l : Expr} {u tail after : List Char} {c : Char}
    (h : CallWritten q l head inside u) (htail : tail = c :: after) (hblank : isBlank c = false)
    (hwhole : ∀ l' s', Written (.phrase q l') s' → ∃ e', Written (.phrase p e') (s' ++ tail)) :
    CallWritten p e head inside (u ++ tail) := by
  obtain ⟨args, hargs, -⟩ := h.arguments
  refine ⟨⟨args, hargs, fun hblanks => ?_⟩, fun args' inside' hargs' => ?_⟩
  · have hc := hblanks c (by simp [htail])
    rw [hblank] at hc
    cases hc
  · obtain ⟨l', hl'⟩ := h.exchange args' inside' hargs'
    rw [← callText_append]
    exact hwhole l' _ hl'

/-- An expression that begins as a call is written with the call at its left end. -/
theorem Written.callWritten {p : Precedence} {e : Expr} (hhead : IsHead head)
    (hinside : Closed inside) (h : Written (.phrase p e) (callText head inside rest)) :
    CallWritten p e head inside rest := by
  generalize htext : callText head inside rest = text at h
  generalize hform : Form.phrase p e = f at h
  -- By the beginning of the text, and by what stands to the right of the first operand.
  induction h generalizing p e rest with
  | literal hv ht =>
    subst htext
    rcases hv.plain_or_isString with hplain | ⟨content, quote, hquote, -, rfl⟩
    · exact absurd (ht.plain hplain) (not_plain_callText _ _ _)
    · obtain ⟨blanks, -, ht⟩ := ht
      refine absurd ht (hhead.ne_cons ?_)
      simp only [List.mem_cons, List.not_mem_nil, or_false] at hquote
      rcases hquote with rfl | rfl <;> rfl
  | ident hw ht =>
    subst htext
    exact absurd (ht.plain hw.1.plain) (not_plain_callText _ _ _)
  | list h₁ _ _ =>
    obtain ⟨blanks, -, rfl⟩ := h₁
    exact absurd htext (hhead.ne_cons rfl)
  | object h₁ _ _ =>
    obtain ⟨blanks, -, rfl⟩ := h₁
    exact absurd htext (hhead.ne_cons rfl)
  | parenthesized h₁ _ _ =>
    obtain ⟨blanks, -, rfl⟩ := h₁
    exact absurd htext (hhead.ne_cons rfl)
  | @prefixed op _ _ _ ht _ =>
    obtain ⟨blanks, -, rfl⟩ := ht
    obtain ⟨c, t, hop, hc⟩ := exists_prefixSpelling_eq_cons op
    rw [hop] at htext
    exact absurd htext (hhead.ne_cons hc)
  | @member o optional w s₁ s₂ s₃ ho hdot hw ht ih =>
    obtain ⟨rfl, rfl⟩ := Form.phrase.inj hform
    obtain ⟨c, after, htail, hc, hblank⟩ :
        ∃ c after, s₂ ++ s₃ = c :: after ∧ c ≠ '(' ∧ isBlank c = false := by
      obtain ⟨blanks, -, rfl⟩ := hdot
      cases optional <;> exact ⟨_, _, rfl, by decide, rfl⟩
    have hplain : Plain (s₂ ++ s₃) := hdot.plain.append (ht.plain hw.plain)
    have hnot : ∀ u, head ≠ s₁ ++ c :: u := by
      -- Behind a point of the name there is the parenthesis, behind this one only a name.
      rintro u rfl
      rw [callText, List.append_assoc, List.append_cancel_left_eq] at htext
      have hopening := hplain '(' (by simp [← htext])
      cases hopening
    rw [htail] at htext
    obtain ⟨u, rfl, rfl⟩ := hhead.exists_callText hinside ho.selfContained.closed hc hnot htext
    rw [← htail]
    exact (ih rfl rfl).of_left htail hblank fun o' s' h' => ⟨_, .member h' hdot hw ht⟩
  | @index _ _ optional s₁ s₂ s₃ s₄ s₅ ho hmark h₃ hi h₅ ih =>
    obtain ⟨rfl, rfl⟩ := Form.phrase.inj hform
    obtain ⟨c, after, htail, hpart, hblank, hdot, hc⟩ := hmark.exists_index_eq_cons h₃ (s₄ ++ s₅)
    rw [htail] at htext
    obtain ⟨u, rfl, rfl⟩ := hhead.exists_callText hinside ho.selfContained.closed hc
      (hhead.ne_append_cons hpart hdot) htext
    rw [← htail]
    exact (ih rfl rfl).of_left htail hblank fun o' s' h' => ⟨_, .index h' hmark h₃ hi h₅⟩
  | @call f args optional s₁ s₂ s₃ s₄ s₅ hf hmark h₃ hargs h₅ ih =>
    obtain ⟨rfl, rfl⟩ := Form.phrase.inj hform
    have hwhole : ∀ f' s', Written (.phrase .chain f') s' →
        ∃ e', Written (.phrase .chain e') (s' ++ (s₂ ++ (s₃ ++ (s₄ ++ s₅)))) :=
      fun f' s' h' => ⟨_, .call h' hmark h₃ hargs h₅⟩
    obtain ⟨blanks, hblanks, rfl⟩ := h₃
    cases optional with
    | true =>
      obtain ⟨blanks', -, rfl⟩ : Token "?.".toList s₂ := hmark
      obtain ⟨u, rfl, rfl⟩ := hhead.exists_callText hinside hf.selfContained.closed (by decide)
        (hhead.ne_append_cons (c := '?') rfl (by decide)) htext
      exact (ih rfl rfl).of_left rfl rfl hwhole
    | false =>
      obtain rfl : s₂ = [] := hmark
      have hmark : Mark false [] := rfl
      -- What is called is the name, or it begins with the call itself.
      rcases hf.selfContained.closed.prefix_cases rfl hhead.plain.selfContained.closed hinside
        htext.symm with ⟨u, hu⟩ | ⟨rfl, hcall⟩ | ⟨u, rfl, rfl⟩
      · exact absurd hu (hhead.ne_append_cons rfl (by decide) u)
      · obtain ⟨trailing, htrailing, rfl⟩ := h₅
        have hclosed : Closed (blanks ++ s₄) := hblanks.selfContained.closed.append hargs.nested
        have hbehind : inside ++ ')' :: rest = (blanks ++ s₄) ++ ')' :: trailing := by
          simpa using (List.cons.inj hcall).2.symm
        obtain rfl := hinside.closing_inj hclosed rfl hbehind
        obtain rfl : rest = trailing := by simpa using hbehind
        refine ⟨⟨args, ⟨blanks, s₄, hblanks, hargs, rfl⟩, fun _ => ⟨f, rfl, hf⟩⟩, ?_⟩
        rintro args' _ ⟨blanks', s', hblanks', hargs', rfl⟩
        have h' := Written.call hf hmark ⟨blanks', hblanks', rfl⟩ hargs' ⟨rest, htrailing, rfl⟩
        exact ⟨_, by simpa [callText] using h'⟩
      · exact (ih rfl rfl).of_left rfl rfl hwhole
  | @operation op _ _ s₁ s₂ s₃ hleft ht hright ih =>
    obtain ⟨rfl, rfl⟩ := Form.phrase.inj hform
    obtain ⟨c, t, hop, hpart, hblank, hdot, hc⟩ := op.exists_spelling_eq_cons
    obtain ⟨blanks, hblanks, rfl⟩ := id ht
    have htail : op.spelling.toList ++ blanks ++ s₃ = c :: (t ++ blanks ++ s₃) := by rw [hop]; rfl
    rw [htail] at htext
    obtain ⟨u, rfl, rfl⟩ := hhead.exists_callText hinside hleft.selfContained.closed hc
      (hhead.ne_append_cons hpart hdot) htext
    rw [← htail]
    exact (ih rfl rfl).of_left htail hblank fun l' s' h' => ⟨_, .operation h' ht hright⟩
  | @ternary c t e s₁ s₂ s₃ s₄ s₅ hcondition h₂ ht h₄ he ih =>
    obtain ⟨rfl, rfl⟩ := Form.phrase.inj hform
    obtain ⟨blanks, hblanks, rfl⟩ := id h₂
    obtain ⟨u, rfl, rfl⟩ := hhead.exists_callText hinside hcondition.selfContained.closed
      (by decide) (hhead.ne_append_cons (c := '?') rfl (by decide)) htext
    exact (ih rfl rfl).of_left rfl rfl fun c' s' h' => ⟨_, .ternary h' h₂ ht h₄ he⟩
  | tighter h ih =>
    obtain ⟨rfl, rfl⟩ := Form.phrase.inj hform
    obtain ⟨harguments, hexchange⟩ := ih htext rfl
    refine ⟨harguments, fun args inside' hargs => ?_⟩
    obtain ⟨e', he'⟩ := hexchange args inside' hargs
    exact ⟨e', .tighter he'⟩
  | _ => cases hform

/-! ## Sources -/

/-- Nothing at all is the elements of the empty list. -/
theorem elementsOf_nil : ElementsOf [] [] := ⟨[], [], blanks_nil, .noElements, rfl⟩

variable {blanks : List Char}

/-- A source that begins as a call is written with the call at its left end. -/
theorem SourceOf.callWritten {e : Expr} (hhead : IsHead head) (hinside : Closed inside)
    (hblanks : Blanks blanks) (h : SourceOf e (blanks ++ callText head inside rest)) :
    CallWritten .ternary e head inside rest := by
  -- Behind the blanks the text begins with the name.
  have hwritten := (h.of_blanks_append hblanks).written_of_isHead hhead
  exact hwritten.callWritten hhead hinside

/-- A text that begins with a call is read if and only if what stands between the parentheses is
elements and the text is read with nothing between them. -/
theorem exists_sourceOf_callText_iff (hhead : IsHead head) (hinside : Closed inside)
    (hblanks : Blanks blanks) :
    (∃ e, SourceOf e (blanks ++ callText head inside rest)) ↔
      (∃ args, ElementsOf args inside) ∧ ∃ e, SourceOf e (blanks ++ callText head [] rest) := by
  constructor
  · rintro ⟨e, he⟩
    have hcall := he.callWritten hhead hinside hblanks
    obtain ⟨args, hargs, -⟩ := hcall.arguments
    obtain ⟨e', he'⟩ := hcall.exchange [] [] elementsOf_nil
    exact ⟨⟨args, hargs⟩, e', blanks, _, hblanks, he', rfl⟩
  · rintro ⟨⟨args, hargs⟩, e, he⟩
    obtain ⟨e', he'⟩ := (he.callWritten hhead .nil hblanks).exchange args inside hargs
    exact ⟨e', blanks, _, hblanks, he', rfl⟩

end Syntax

end TemplateFlow
