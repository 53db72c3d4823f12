import TemplateFlow.Proofs.Syntax.Found

/-!
# Chains

What the rules for primary expressions and for the links of a chain find. Of the links the optional
ones are tried before the plain ones, and of each kind the calls before the indexes and these before
the names of properties, so the rules that are tried before the one that fits have to be refused.

A link is refused where the text continues a looser level than that of chains (`refuses_link`). The
one case with an argument in it is a question mark and a point before a digit: there the first
symbol of an optional link stands, but none of its three ways to go on.
-/

namespace TemplateFlow

namespace Syntax

open Rule

/-! ## The symbols of links -/

/-- The symbol before the name of a property continues a chain. -/
theorem continuedRank_dot {isOptional : Bool} {s t : List Char} (hs : Dot isOptional s)
    (ht : StopsAt Char.isDigit t) : continuedRank (s ++ t) = 10 := by
  obtain ⟨blanks, hb, rfl⟩ := hs
  have hdigit : startsWithDigit (blanks ++ t) = false :=
    startsWithDigit_eq_false (ht.blanks_append (fun _ => isDigit_of_isBlank) hb)
  cases isOptional with
  | true =>
    change continuedRank ('?' :: '.' :: (blanks ++ t)) = 10
    rw [continuedRank, hdigit]
    rfl
  | false =>
    change continuedRank ('.' :: (blanks ++ t)) = 10
    rw [continuedRank, hdigit]
    rfl

/-- The bracket that opens a call or an index continues a chain, with or without a mark before. -/
theorem continuedRank_mark {isOptional : Bool} {c : Char} {s t : List Char}
    (hs : Mark isOptional s) (hc : symbolRank c = 10) (hbracket : Token [c] t) (u : List Char) :
    continuedRank (s ++ (t ++ u)) = 10 := by
  obtain ⟨blanks, -, rfl⟩ := hbracket
  -- The two characters whose rank depends on what comes after them do not have this rank.
  have hne : c ≠ '?' ∧ c ≠ '.' ∧ c.isDigit = false := by
    refine ⟨?_, ?_, ?_⟩
    · rintro rfl
      cases hc
    · rintro rfl
      cases hc
    · rw [Bool.eq_false_iff]
      intro hd
      rw [symbolRank_of_isNamePart (isNamePart_of_isDigit hd)] at hc
      cases hc
  cases isOptional with
  | true =>
    have hdot : Dot true s := hs
    refine continuedRank_dot hdot fun d hd => ?_
    cases hd
    exact hne.2.2
  | false =>
    cases hs
    rw [← hc]
    exact continuedRank_cons _ hne.1 hne.2.1

/-- What opens a call or an index. -/
theorem finds_opening {bracket : String} {isOptional : Bool} {s t rest : List Char}
    (hs : Mark isOptional s) (ht : Token bracket.toList t) (hblank : StopsAt isBlank (t ++ rest))
    (hr : StopsAt isBlank rest) :
    Finds ((if isOptional then ["?.", bracket] else [bracket]).forM fun s => do
      let _ ← symbol s : Rule Unit) (s ++ t) rest fun _ => True := by
  have hbracket : Finds (do let _ ← symbol bracket : Rule Unit) t rest fun _ => True :=
    Finds.bind_nil_right (.symbol ht hr) fun _ _ => .pure trivial
  cases isOptional with
  | true =>
    have hmark : Finds (do let _ ← symbol "?." : Rule Unit) s (t ++ rest) fun _ => True :=
      Finds.bind_nil_right (.symbol hs hblank) fun _ _ => .pure trivial
    exact Finds.bind hmark fun _ _ => hbracket.bind_nil_right fun _ _ => .pure trivial
  | false =>
    cases hs
    exact hbracket.bind_nil_right fun _ _ => .pure trivial

/-- No link with these opening symbols is found where the first of them does not stand, -/
theorem refuses_opening {opening : String} (more : List String) {rest : List Char}
    (h : ¬ opening.toList <+: rest) :
    Refuses ((opening :: more).forM fun s => do let _ ← symbol s : Rule Unit) rest :=
  Refuses.bind (Refuses.bind (.symbol h))

/-- or where the second of them does not stand after the first. -/
theorem refuses_second_opening {opening bracket : String} {s rest : List Char}
    (hs : Token opening.toList s) (hblank : StopsAt isBlank rest)
    (h : ¬ bracket.toList <+: rest) :
    Refuses ([opening, bracket].forM fun s => do let _ ← symbol s : Rule Unit) (s ++ rest) := by
  have hmark : Finds (do let _ ← symbol opening : Rule Unit) s rest fun _ => True :=
    Finds.bind_nil_right (.symbol hs hblank) fun _ _ => .pure trivial
  exact Refuses.bind_right hmark fun _ _ => refuses_opening [] h

/-! ## Links after their symbols -/

section

variable {expression : Rule Expr}

/-- A call is found behind its symbols if its arguments are. -/
theorem finds_callLink {isOptional : Bool} {args : List Expr} {s₁ s₂ s₃ s₄ rest : List Char}
    (h₁ : Mark isOptional s₁) (h₂ : Token ['('] s₂)
    (h₃ : Finds (optional (commaList expression)) s₃ (s₄ ++ rest) fun es =>
      Expr.bareAll (es.getD []) = args)
    (hblank : StopsAt isBlank (s₃ ++ (s₄ ++ rest))) (h₄ : Token [')'] s₄)
    (hr : StopsAt isBlank rest) :
    Finds (callLink expression (if isOptional then ["?.", "("] else ["("]) isOptional)
      (s₁ ++ (s₂ ++ (s₃ ++ s₄))) rest
      fun l => ∀ e span, (l.apply e span).bare = .call e.bare args isOptional .none := by
  have hopen : StopsAt isBlank (s₂ ++ (s₃ ++ s₄ ++ rest)) := h₂.stopsAt_isBlank rfl _
  rw [← List.append_assoc s₁]
  refine .after_position fun first =>
    Finds.bind (finds_opening h₁ h₂ hopen (by rwa [List.append_assoc])) fun _ _ =>
    Finds.bind_nil_right (P := fun x => Expr.bareAll x.1 = args) ?_ fun x hx =>
    .pure fun e span => ?_
  · exact Finds.bind h₃ fun es hes => Finds.bind_nil_right (.symbol h₄ hr) fun _ _ => .pure hes
  · rw [← hx]
    rfl

/-- An index is found behind its symbols if the expression in it is. -/
theorem finds_indexLink {isOptional : Bool} {i : Expr} {s₁ s₂ s₃ s₄ rest : List Char}
    (h₁ : Mark isOptional s₁) (h₂ : Token ['['] s₂)
    (h₃ : Finds expression s₃ (s₄ ++ rest) fun e => e.bare = i)
    (hblank : StopsAt isBlank (s₃ ++ (s₄ ++ rest))) (h₄ : Token [']'] s₄)
    (hr : StopsAt isBlank rest) :
    Finds (indexLink expression (if isOptional then ["?.", "["] else ["["]) isOptional)
      (s₁ ++ (s₂ ++ (s₃ ++ s₄))) rest
      fun l => ∀ e span, (l.apply e span).bare = .index e.bare i isOptional .none := by
  have hopen : StopsAt isBlank (s₂ ++ (s₃ ++ s₄ ++ rest)) := h₂.stopsAt_isBlank rfl _
  rw [← List.append_assoc s₁]
  refine .after_position fun first =>
    Finds.bind (finds_opening h₁ h₂ hopen (by rwa [List.append_assoc])) fun _ _ =>
    Finds.bind_nil_right (P := fun x => x.1.bare = i) ?_ fun x hx => .pure fun e span => ?_
  · exact Finds.bind h₃ fun e he => Finds.bind_nil_right (.symbol h₄ hr) fun _ _ => .pure he
  · rw [← hx]
    rfl

/-- A member is found behind its symbol, where a name stands. -/
theorem finds_memberLink {isOptional : Bool} {w s₁ s₂ rest : List Char}
    (h₁ : Dot isOptional s₁) (hw : IsName w) (h₂ : Token w s₂) (hr : continuedRank rest < 12) :
    Finds (memberLink (if isOptional then "?." else ".") isOptional) (s₁ ++ s₂) rest
      fun l => ∀ e span,
        (l.apply e span).bare = .member e.bare (String.ofList w) .none isOptional .none := by
  have hdot : Token (if isOptional then "?." else ".").toList s₁ := by cases isOptional <;> exact h₁
  have hblank : StopsAt isBlank (s₂ ++ rest) :=
    ((h₂.starts (p := .primary) hw.starts).append rest).unblank
  refine .after_position fun first => Finds.bind (.symbol hdot hblank) fun _ _ =>
    Finds.bind_nil_right (finds_name hw h₂ hr) fun x hx => .pure fun e span => ?_
  rw [← hx]
  rfl

/-- Optional links are refused where their symbol does not stand, -/
theorem refuses_optional_links {rest : List Char} (h : ¬ "?.".toList <+: rest) :
    ∀ r ∈ [callLink expression ["?.", "("] true, indexLink expression ["?.", "["] true,
      memberLink "?." true], Refuses r rest := by
  intro r hr
  simp only [List.mem_cons, List.not_mem_nil, or_false] at hr
  rcases hr with rfl | rfl | rfl
  · exact Refuses.after_position fun _ => .bind (refuses_opening _ h)
  · exact Refuses.after_position fun _ => .bind (refuses_opening _ h)
  · exact Refuses.after_position fun _ => .bind (.symbol h)

/-- and those with brackets also where a name stands after it. -/
theorem refuses_optional_brackets {s rest : List Char} (hs : Token "?.".toList s)
    (hblank : StopsAt isBlank rest) (hcall : ¬ "(".toList <+: rest)
    (hindex : ¬ "[".toList <+: rest) :
    ∀ r ∈ [callLink expression ["?.", "("] true, indexLink expression ["?.", "["] true],
      Refuses r (s ++ rest) := by
  intro r hr
  simp only [List.mem_cons, List.not_mem_nil, or_false] at hr
  rcases hr with rfl | rfl
  · exact Refuses.after_position fun _ =>
      .bind (refuses_second_opening hs hblank hcall)
  · exact Refuses.after_position fun _ =>
      .bind (refuses_second_opening hs hblank hindex)

/-- Plain links are refused where their symbols do not stand. -/
theorem refuses_plain_links {rest : List Char} (hcall : ¬ "(".toList <+: rest)
    (hindex : ¬ "[".toList <+: rest) :
    ∀ r ∈ [callLink expression ["("] false, indexLink expression ["["] false], Refuses r rest := by
  intro r hr
  simp only [List.mem_cons, List.not_mem_nil, or_false] at hr
  rcases hr with rfl | rfl
  · exact Refuses.after_position fun _ => .bind (refuses_opening _ hcall)
  · exact Refuses.after_position fun _ => .bind (refuses_opening _ hindex)

/-! ## The choice of a link -/

/-- Where a parenthesis stands, the other links are refused. -/
theorem finds_link_of_callLink {isOptional : Bool} {s₁ s₂ t rest : List Char} {P : Link → Prop}
    (h₁ : Mark isOptional s₁) (h₂ : Token ['('] s₂)
    (h : Finds (callLink expression (if isOptional then ["?.", "("] else ["("]) isOptional)
      (s₁ ++ (s₂ ++ t)) rest P) : Finds (link expression) (s₁ ++ (s₂ ++ t)) rest P := by
  cases isOptional with
  | true => exact .named (.orElse_left h)
  | false =>
    cases h₁
    obtain ⟨blanks, -, rfl⟩ := h₂
    refine .named (Finds.firstOf _ (refuses_optional_links ?_) h)
    exact not_prefix_cons _ rfl (by decide)

/-- Where a bracket stands, calls are refused, and members too. -/
theorem finds_link_of_indexLink {isOptional : Bool} {s₁ s₂ t rest : List Char} {P : Link → Prop}
    (h₁ : Mark isOptional s₁) (h₂ : Token ['['] s₂)
    (h : Finds (indexLink expression (if isOptional then ["?.", "["] else ["["]) isOptional)
      (s₁ ++ (s₂ ++ t)) rest P) : Finds (link expression) (s₁ ++ (s₂ ++ t)) rest P := by
  obtain ⟨blanks, -, rfl⟩ := h₂
  cases isOptional with
  | true =>
    refine .named (.orElse_right ?_ (.orElse_left h))
    rw [List.append_assoc]
    -- The mark of an optional call would be followed by the other bracket.
    refine Refuses.after_position fun _ =>
      .bind (refuses_second_opening h₁ ?_ (not_prefix_cons _ rfl (by decide)))
    rintro c ⟨⟩
    rfl
  | false =>
    cases h₁
    refine .named (Finds.firstOf [callLink expression ["?.", "("] true,
      indexLink expression ["?.", "["] true, memberLink "?." true,
      callLink expression ["("] false] ?_ h)
    intro r hr
    rcases List.mem_append.mp (show r ∈ [_, _, _] ++ [_] from hr) with hr | hr
    · exact refuses_optional_links (not_prefix_cons _ rfl (by decide)) r hr
    · rw [List.mem_singleton.mp hr]
      exact Refuses.after_position fun _ =>
        .bind (refuses_opening _ (not_prefix_cons _ rfl (by decide)))

/-- Where a name stands behind the symbol, calls and indices are refused. -/
theorem finds_link_of_memberLink {isOptional : Bool} {c : Char} {s t rest : List Char}
    {P : Link → Prop} (hs : Dot isOptional s) (hc : isNameStart c = true)
    (h : Finds (memberLink (if isOptional then "?." else ".") isOptional) (s ++ c :: t) rest P) :
    Finds (link expression) (s ++ c :: t) rest P := by
  cases isOptional with
  | true =>
    -- Calls and indexes are tried before, but a name begins with neither of their brackets.
    refine .named (Finds.firstOf [callLink expression ["?.", "("] true,
      indexLink expression ["?.", "["] true] ?_ h)
    have hne : '(' ≠ c ∧ '[' ≠ c := by
      constructor
      all_goals
        rintro rfl
        cases hc
    have hblank : StopsAt isBlank (c :: t ++ rest) :=
      stopsAt_isBlank _ (isNamePart_of_isNameStart hc)
    rw [List.append_assoc]
    exact refuses_optional_brackets hs hblank (not_prefix_cons _ rfl hne.1)
      (not_prefix_cons _ rfl hne.2)
  | false =>
    obtain ⟨blanks, -, rfl⟩ := hs
    refine .named (Finds.firstOf [callLink expression ["?.", "("] true,
      indexLink expression ["?.", "["] true, memberLink "?." true, callLink expression ["("] false,
      indexLink expression ["["] false] ?_ h)
    intro r hr
    rcases List.mem_append.mp (show r ∈ [_, _, _] ++ _ from hr) with hr | hr
    · exact refuses_optional_links (not_prefix_cons _ rfl (by decide)) r hr
    · exact refuses_plain_links (not_prefix_cons _ rfl (by decide))
        (not_prefix_cons _ rfl (by decide)) r hr

/-- A question mark and a point are those of a link, unless a digit comes then. -/
theorem exists_digit_of_continuedRank {t : List Char} (h : continuedRank ("?.".toList ++ t) < 10) :
    ∃ d u, t = d :: u ∧ d.isDigit = true := by
  change continuedRank ('?' :: '.' :: t) < 10 at h
  rw [continuedRank] at h
  split at h
  · rename_i hd
    cases t with
    | nil => cases hd
    | cons d u => exact ⟨d, u, rfl, hd⟩
  · omega

/-- No link is found where the text continues a looser level. -/
theorem refuses_link {rest : List Char} (h : continuedRank rest < 10) :
    Refuses (link expression) rest := by
  -- With any of the three symbols of plain links the text would continue a chain.
  have hcall : ¬ "(".toList <+: rest := by
    rintro ⟨t, rfl⟩
    exact absurd h (Nat.lt_irrefl 10)
  have hindex : ¬ "[".toList <+: rest := by
    rintro ⟨t, rfl⟩
    exact absurd h (Nat.lt_irrefl 10)
  have hdot : ¬ ".".toList <+: rest := by
    rintro ⟨t, rfl⟩
    change continuedRank ('.' :: t) < 10 at h
    rw [continuedRank] at h
    split at h <;> omega
  refine .named (.firstOf fun r hr => ?_)
  rcases List.mem_append.mp (show r ∈ [_, _, _] ++ [_, _, _] from hr) with hr | hr
  · by_cases hpre : "?.".toList <+: rest
    · -- A question mark and a point before a digit are not one symbol.
      obtain ⟨t, rfl⟩ := hpre
      obtain ⟨d, t, rfl, hd⟩ := exists_digit_of_continuedRank h
      have hs : Token "?.".toList "?.".toList := ⟨[], blanks_nil, by simp⟩
      have hblank : StopsAt isBlank (d :: t) := stopsAt_isBlank t (isNamePart_of_isDigit hd)
      have hne : '(' ≠ d ∧ '[' ≠ d := by
        constructor
        all_goals
          rintro rfl
          cases hd
      rcases List.mem_append.mp (show r ∈ [_, _] ++ [_] from hr) with hr | hr
      · exact refuses_optional_brackets hs hblank (not_prefix_cons t rfl hne.1)
          (not_prefix_cons t rfl hne.2) r hr
      · -- The name of an optional property does not begin with a digit.
        rw [List.mem_singleton.mp hr]
        refine Refuses.after_position fun _ =>
          .bind_right (.symbol hs hblank) fun _ _ => .bind (refuses_name ?_)
        rintro c ⟨⟩
        rw [Bool.eq_false_iff]
        intro hn
        rw [(ne_of_isNameStart hn).1] at hd
        cases hd
    · exact refuses_optional_links hpre r hr
  · rcases List.mem_append.mp (show r ∈ [_, _] ++ [_] from hr) with hr | hr
    · exact refuses_plain_links hcall hindex r hr
    · rw [List.mem_singleton.mp hr]
      exact Refuses.after_position fun _ => .bind (.symbol hdot)

/-! ## Primary expressions -/

/-- A literal is the first kind of primary expression that is tried. -/
theorem finds_primary_of_literal {v : Literal} {w s rest : List Char} (hv : Spells v w)
    (hs : Token w s) (hr : continuedRank rest < 12) :
    Finds (primary expression) s rest fun t => t.bare = .literal v .none :=
  .named (.orElse_left (finds_literal hv hs hr))

/-- Objects, lists and parentheses are refused where their brackets do not stand. -/
theorem refuses_object {c : Char} (t : List Char) (h : '\x7b' ≠ c) :
    Refuses (object expression) (c :: t) :=
  Refuses.after_position fun _ => .bind (refuses_symbol t rfl h)

/-- No list begins with another character than its bracket. -/
theorem refuses_list {c : Char} (t : List Char) (h : '[' ≠ c) :
    Refuses (list expression) (c :: t) :=
  Refuses.after_position fun _ => .bind (refuses_symbol t rfl h)

/-- An identifier is no reserved word, so the rules before it refuse it. -/
theorem finds_primary_of_ident {w s rest : List Char} (hw : IsIdentifier w) (hs : Token w s)
    (hr : continuedRank rest < 12) :
    Finds (primary expression) s rest fun t => t.bare = .ident (String.ofList w) .none := by
  obtain ⟨c, t, hct, hc⟩ := hs.exists_cons hw.1
  -- A name begins with neither of the two brackets, and an identifier is no reserved word.
  have hne : '\x7b' ≠ c ∧ '[' ≠ c := by
    constructor
    all_goals
      rintro rfl
      cases hc
  refine .named (.orElse_right ?_ (.orElse_right ?_ (.orElse_right ?_ (.orElse_left
    (.map ((finds_identifier hw hs hr).mono ?_))))))
  · exact refuses_literal_of_identifier hw hs (ends_of_continuedRank hr).2.name
  · rw [hct]
    exact refuses_object (t ++ rest) hne.1
  · rw [hct]
    exact refuses_list (t ++ rest) hne.2
  · rintro ⟨k, span⟩ rfl
    rfl

/-- An object is found where a brace stands. -/
theorem finds_primary_of_object {ps : List (String × Span × Expr)} {s₁ s₂ s₃ rest : List Char}
    (h₁ : Token ['\x7b'] s₁)
    (h₂ : Finds (optional (commaList (property expression))) s₂ (s₃ ++ rest)
      fun xs => Expr.bareProperties (xs.getD []) = ps)
    (hblank : StopsAt isBlank (s₂ ++ (s₃ ++ rest))) (h₃ : Token ['\x7d'] s₃)
    (hr : StopsAt isBlank rest) :
    Finds (primary expression) (s₁ ++ (s₂ ++ s₃)) rest fun t => t.bare = .object ps .none := by
  refine .named (.orElse_right ?_ (.orElse_left ?_))
  · obtain ⟨blanks, -, rfl⟩ := h₁
    exact refuses_literal _ rfl rfl (by decide)
  · refine .after_position fun first =>
      Finds.bind (.symbol h₁ (by rwa [List.append_assoc])) fun _ _ => Finds.bind h₂ fun xs hxs =>
      Finds.bind_nil_right (.symbol h₃ hr) fun last _ => .pure ?_
    rw [← hxs]
    rfl

/-- A list is found where a square bracket stands. -/
theorem finds_primary_of_list {es : List Expr} {s₁ s₂ s₃ rest : List Char} (h₁ : Token ['['] s₁)
    (h₂ : Finds (optional (commaList expression)) s₂ (s₃ ++ rest)
      fun ts => Expr.bareAll (ts.getD []) = es)
    (hblank : StopsAt isBlank (s₂ ++ (s₃ ++ rest))) (h₃ : Token [']'] s₃)
    (hr : StopsAt isBlank rest) :
    Finds (primary expression) (s₁ ++ (s₂ ++ s₃)) rest fun t => t.bare = .list es .none := by
  refine .named (.orElse_right ?_ (.orElse_right ?_ (.orElse_left ?_)))
  · obtain ⟨blanks, -, rfl⟩ := h₁
    exact refuses_literal _ rfl rfl (by decide)
  · obtain ⟨blanks, -, rfl⟩ := h₁
    exact refuses_object _ (by decide)
  · refine .after_position fun first =>
      Finds.bind (.symbol h₁ (by rwa [List.append_assoc])) fun _ _ => Finds.bind h₂ fun ts hts =>
      Finds.bind_nil_right (.symbol h₃ hr) fun last _ => .pure ?_
    rw [← hts]
    rfl

/-- Parentheses are tried last, and only they begin with one. -/
theorem finds_primary_of_parenthesized {e : Expr} {s₁ s₂ s₃ rest : List Char}
    (h₁ : Token ['('] s₁) (h₂ : Finds expression s₂ (s₃ ++ rest) fun t => t.bare = e)
    (hblank : StopsAt isBlank (s₂ ++ (s₃ ++ rest))) (h₃ : Token [')'] s₃)
    (hr : StopsAt isBlank rest) :
    Finds (primary expression) (s₁ ++ (s₂ ++ s₃)) rest fun t => t.bare = e := by
  have hparenthesized : Finds (parenthesized expression) (s₁ ++ (s₂ ++ s₃)) rest
      fun t => t.bare = e :=
    Finds.bind (.symbol h₁ (by rwa [List.append_assoc])) fun _ _ => Finds.bind h₂ fun t ht =>
      Finds.bind_nil_right (.symbol h₃ hr) fun last _ => .pure ht
  obtain ⟨blanks, -, rfl⟩ := h₁
  -- What comes before parentheses in the choice does not begin with one.
  refine .named (.orElse_right ?_ (.orElse_right ?_ (.orElse_right ?_ (.orElse_right ?_
    (.orElse_left hparenthesized)))))
  · exact refuses_literal _ rfl rfl (by decide)
  · exact refuses_object _ (by decide)
  · exact refuses_list _ (by decide)
  · refine .map (refuses_identifier ?_)
    rintro c ⟨⟩
    rfl

end

end Syntax

end TemplateFlow
