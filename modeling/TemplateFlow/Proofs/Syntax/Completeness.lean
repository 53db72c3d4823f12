import TemplateFlow.Proofs.Syntax.Chain
import TemplateFlow.Proofs.Syntax.Soundness

/-!
# What is written in the grammar is read

The converse of soundness: where an expression is written, the rule for its level finds it and stops
after it (`Written.found`), so every source of a tree is read as a whole and as this tree
(`parse_of_sourceOf`).

The induction is on the ways of writing. Its invariant (`Form.Found`) holds for every text that may
follow: after an expression of a level, a text that continues this level or a looser one. At the
levels that group from the left a continuation of the same level is still to come when the left
operand has been read, so the invariant leaves it open there whether one more step is found.

Expressions that are nested in brackets or branches are read by the rule for whole expressions, of
which it is assumed that it can read all shorter texts (`Handles`).

## Main definitions

* `Handles`: a rule finds every expression whose text, with what follows, is shorter than a bound;
* `Form.Found`: what the rules for a form find where it is written.

## Main results

* `Written.found`: every form is found where it is written;
* `handles_expressionUpTo`: the rule that allows a depth of nesting handles the texts of less
  characters;
* `parse_of_sourceOf`: a source of a tree is read as that tree;
* `parse_eq_ok_iff_sourceOf`: the texts that are read as a tree are its sources.
-/

namespace TemplateFlow

namespace Syntax

open Rule

/-! ## Lists with commas -/

/-- A text that begins with a closing bracket. -/
def Closes (rest : List Char) : Prop := ∃ c t, rest = c :: t ∧ c ∈ [')', ']', '\x7d']

/-- A text that begins with a comma or a closing bracket. -/
def Ends (rest : List Char) : Prop := ∃ c t, rest = c :: t ∧ c ∈ [',', ')', ']', '\x7d']

/-- A bracket that closes ends an expression. -/
theorem Closes.ends {rest : List Char} (h : Closes rest) : Ends rest := by
  obtain ⟨c, t, rfl, hc⟩ := h
  exact ⟨c, t, rfl, List.mem_cons_of_mem _ hc⟩

/-- Where an expression ends, no level goes on. -/
theorem Ends.continuedRank {rest : List Char} (h : Ends rest) : continuedRank rest = 0 := by
  obtain ⟨c, t, rfl, hc⟩ := h
  simp only [List.mem_cons, List.not_mem_nil, or_false] at hc
  rcases hc with rfl | rfl | rfl | rfl <;> rfl

/-- A comma or a closing bracket ends an expression, whatever comes behind it. -/
theorem Ends.of_token {c : Char} {s : List Char} (h : Token [c] s)
    (hc : c ∈ [',', ')', ']', '\x7d']) (t : List Char) : Ends (s ++ t) := by
  obtain ⟨blanks, -, rfl⟩ := h
  exact ⟨c, blanks ++ t, rfl, hc⟩

/-- A closing bracket with blanks behind it closes, whatever comes then. -/
theorem Closes.of_token {c : Char} {s : List Char} (h : Token [c] s)
    (hc : c ∈ [')', ']', '\x7d']) (t : List Char) : Closes (s ++ t) := by
  obtain ⟨blanks, -, rfl⟩ := h
  exact ⟨c, blanks ++ t, rfl, hc⟩

/-- What is before a closing bracket ends there, or at the comma in front of the bracket. -/
theorem TrailingComma.ends {s rest : List Char} (h : TrailingComma s) (hr : Closes rest) :
    Ends (s ++ rest) := by
  rcases h with rfl | h
  · exact hr.ends
  · exact .of_token h (by decide) rest

/-- A text that continues some level or none is not taken for the end of a word. -/
theorem continuedRank_lt_of_le {rest : List Char} {p : Precedence}
    (h : continuedRank rest ≤ p.rank) : continuedRank rest < 12 :=
  Nat.lt_of_le_of_lt h (by cases p <;> decide)

/-- No blank stands where a level goes on or an expression ends. -/
theorem unblank_of_le {rest : List Char} {p : Precedence} (h : continuedRank rest ≤ p.rank) :
    StopsAt isBlank rest :=
  (ends_of_continuedRank (continuedRank_lt_of_le h)).1

/-- No blank stands where an expression ends. -/
theorem Ends.unblank {rest : List Char} (h : Ends rest) : StopsAt isBlank rest :=
  unblank_of_le (p := .ternary) (Nat.le_of_eq h.continuedRank)

section

variable {α : Type} {r : Rule α}

/-- A comma and one more finding of a rule. -/
def another (r : Rule α) : Rule α := do
  let _ ← symbol ","
  r

/-- Where `s` and then `rest` stand, the rule is found one or more times with commas between, and
not once more. -/
def FindsList (r : Rule α) (s rest : List Char) (P : List α → Prop) : Prop :=
  ∃ (s₁ s₂ : List Char) (P₁ : α → Prop) (Q : List α → Prop), s = s₁ ++ s₂ ∧
    Finds r s₁ (s₂ ++ rest) P₁ ∧ FindsMany (another r) s₂ rest Q ∧
    ∀ a as, P₁ a → Q as → P (a :: as)

/-- A list of one item. -/
theorem FindsList.one {s rest : List Char} {P : List α → Prop}
    (hr : Finds r s rest fun a => P [a]) (hstop : Refuses (another r) rest) :
    FindsList r s rest P := by
  refine ⟨s, [], fun a => P [a], fun as => as = [], by simp, hr, .nil hstop rfl, ?_⟩
  rintro a as ha rfl
  exact ha

/-- One more item is put in front of a list, with a comma behind it. -/
theorem FindsList.cons {s t u rest : List Char} {P : α → Prop} {Q R : List α → Prop}
    (hr : Finds r s (t ++ (u ++ rest)) P) (ht : Token [','] t)
    (hblank : StopsAt isBlank (u ++ rest)) (hmore : FindsList r u rest Q)
    (h : ∀ a as, P a → Q as → R (a :: as)) : FindsList r (s ++ (t ++ u)) rest R := by
  obtain ⟨u₁, u₂, P₁, Q₁, rfl, hu₁, hu₂, hcons⟩ := hmore
  refine ⟨s, t ++ (u₁ ++ u₂), P, Q, rfl, by rwa [List.append_assoc], ?_, h⟩
  -- The first item of the list after the comma is one more finding of the repetition.
  rw [← List.append_assoc]
  refine FindsMany.cons (P := P₁) ?_ ?_ hu₂ hcons
  · obtain ⟨blanks, -, rfl⟩ := ht
    simp
  · exact Finds.bind (.symbol ht (by rwa [List.append_assoc] at hblank)) fun _ _ => hu₁

/-- After a comma that nothing follows, or none, there is no further finding. -/
theorem refuses_another {t rest : List Char} (ht : TrailingComma t) (hc : Closes rest)
    (hr : Refuses r rest) : Refuses (another r) (t ++ rest) := by
  rcases ht with rfl | ht
  · obtain ⟨c, u, rfl, hc⟩ := hc
    refine .bind (refuses_symbol u rfl ?_)
    rintro rfl
    exact absurd hc (by decide)
  · exact Refuses.bind_right (.symbol ht hc.ends.unblank) fun _ _ => hr

/-- A list is found up to the bracket that closes it, with or without a comma before that. -/
theorem FindsList.finds {s t rest : List Char} {P : List α → Prop}
    (h : FindsList r s (t ++ rest) P) (ht : TrailingComma t) (hc : Closes rest) :
    Finds (commaList r) (s ++ t) rest P := by
  obtain ⟨s₁, s₂, P₁, Q, rfl, hs₁, hs₂, hcons⟩ := h
  have hcomma : Finds (Rule.optional (symbol ",")) t rest fun _ => True := by
    rcases ht with rfl | ht
    · obtain ⟨c, u, rfl, hc⟩ := hc
      refine Refuses.optional (refuses_symbol u rfl ?_) trivial
      rintro rfl
      exact absurd hc (by decide)
    · have hcomma : Token ",".toList t := ht
      exact .optional (.symbol hcomma hc.ends.unblank)
  rw [List.append_assoc]
  exact Finds.bind (by rwa [List.append_assoc]) fun a ha => Finds.bind hs₂.many fun as has =>
    Finds.bind_nil_right hcomma fun _ _ => .pure (hcons a as ha has)

end

/-! ## Rules that are given the rule for whole expressions -/

/-- The rule finds every expression whose text, with what follows, has less than `n` characters, and
it is refused where a bracket closes. -/
structure Handles (expression : Rule Expr) (n : Nat) : Prop where
  finds : ∀ {e : Expr} {s rest : List Char}, Written (.phrase .ternary e) s →
    continuedRank rest = 0 → (s ++ rest).length < n →
    Finds expression s rest fun t => t.bare = e
  refuses : ∀ {rest : List Char}, Closes rest → Refuses expression rest

/-- What is found where an expression of a level is written. At the levels that group from the left
it is open whether one more step is found; the operators before a chain are all found. -/
def PhraseFound (expression : Rule Expr) (p : Precedence) (e : Expr) (s rest : List Char) : Prop :=
  match p with
  | .ternary => Finds (ternary expression) s rest fun t => t.bare = e
  | .unary => ∃ t u ops operand, s = t ++ u ∧
      FindsMany prefixOperator t (u ++ rest) (fun found => found.map Prod.fst = ops) ∧
      Finds (chain expression) u rest (fun x => x.1.bare = operand) ∧
      e = ops.foldr (fun op e => .unary op e .none) operand
  | .chain => Leads (primary expression) (link expression)
      (fun e l => l.apply e (e.span.merge l.span)) s rest fun t => t.bare = e
  | .primary => Finds (primary expression) s rest fun t => t.bare = e
  | p => Leads (levelRule expression p.next) (operationStep expression p)
      (fun left (op, right) => op.apply left right) s rest fun t => t.bare = e

/-- What is found where a form is written, whatever may follow it. Lists are parts of expressions,
so their texts are shorter than those of expressions. -/
def Form.Found (expression : Rule Expr) (n : Nat) : Form → List Char → Prop
  | .phrase p e, s => ∀ rest, continuedRank rest ≤ p.rank → (s ++ rest).length ≤ n →
      PhraseFound expression p e s rest
  | .items es, s => ∀ rest, Ends rest → Refuses (another expression) rest →
      (s ++ rest).length < n → FindsList expression s rest fun ts => Expr.bareAll ts = es
  | .elements es, s => ∀ rest, Closes rest → (s ++ rest).length < n →
      Finds (optional (commaList expression)) s rest fun ts => Expr.bareAll (ts.getD []) = es
  | .property k e, s => ∀ rest, Ends rest → (s ++ rest).length < n →
      Finds (Syntax.property expression) s rest fun x => x.1 = k ∧ x.2.2.bare = e
  | .properties ps, s => ∀ rest, Ends rest → Refuses (another (Syntax.property expression)) rest →
      (s ++ rest).length < n →
      FindsList (Syntax.property expression) s rest fun xs => Expr.bareProperties xs = ps
  | .members ps, s => ∀ rest, Closes rest → (s ++ rest).length < n →
      Finds (optional (commaList (Syntax.property expression))) s rest
        fun xs => Expr.bareProperties (xs.getD []) = ps

section

variable {expression : Rule Expr}

/-! ## Levels -/

/-- A chain is found as a whole where no link follows it. -/
theorem finds_chain {e : Expr} {s rest : List Char}
    (h : PhraseFound expression .chain e s rest) (hr : continuedRank rest < 10) :
    Finds (chain expression) s rest fun x => x.1.bare = e := by
  -- The rule for chains looks at the spans of its links, so it is followed step by step.
  intro c hc
  obtain ⟨base, c₁, links, c₂, hbase, hlinks, hrest, he⟩ := h c hc
  refine ⟨(applyLinks base links, (links.getLast?.map (·.span.last)).getD c₂.pos), c₂, ?_,
    hrest, he⟩
  rw [chain, found_bind, hbase, Option.bind_some, found_bind,
    found_many hlinks (refuses_link hr c₂ hrest), Option.bind_some]
  rfl

/-- A level has no further step where no operator of it stands. -/
theorem refuses_operationStep {p : Precedence} {rest : List Char}
    (h : continuedRank rest ≠ p.rank) : Refuses (operationStep expression p) rest :=
  .bind (refuses_operator h)

/-- The levels that group from the left are all found in one way. -/
theorem phraseFound_eq {p : Precedence} {e : Expr} {s rest : List Char} (hp : p.operators ≠ []) :
    PhraseFound expression p e s rest =
      Leads (levelRule expression p.next) (operationStep expression p)
        (fun left (op, right) => op.apply left right) s rest fun t => t.bare = e := by
  cases p <;> first | exact absurd rfl hp | rfl

/-- The spans of prefix operations are none of what is written. -/
theorem bare_foldr {operators : List (UnaryOp × Position)} {operand : Expr} {last : Position} :
    (operators.foldr (fun (op, first) e => Expr.unary op e ⟨first, last⟩) operand).bare =
      (operators.map Prod.fst).foldr (fun op e => Expr.unary op e .none) operand.bare := by
  induction operators with
  | nil => rfl
  | cons x operators ih =>
    rw [List.foldr_cons, List.map_cons, List.foldr_cons, ← ih]
    rfl

/-- Where the text after an expression continues a looser level only, the rule for its level stops
there. -/
theorem PhraseFound.finds {p : Precedence} {e : Expr} {s rest : List Char}
    (h : PhraseFound expression p e s rest) (hr : continuedRank rest < p.rank ∨ p = .ternary) :
    Finds (levelRule expression p) s rest fun t => t.bare = e := by
  by_cases hp : p.operators = []
  · -- The levels without operators between their operands.
    cases p with
    | ternary => exact h
    | unary =>
      obtain ⟨t, u, ops, operand, rfl, hops, hoperand, rfl⟩ := h
      refine Finds.bind hops.many fun found hfound => hoperand.bind_nil_right fun x hx => .pure ?_
      rw [bare_foldr, hfound, hx]
    | chain =>
      rcases hr with hr | hr
      · exact .map (finds_chain h hr)
      · cases hr
    | primary => exact h
    | _ => cases hp
  · rw [phraseFound_eq hp] at h
    rw [levelRule_eq expression hp]
    refine h.finds (refuses_operationStep ?_)
    rcases hr with hr | rfl
    · omega
    · exact absurd rfl hp

/-- An expression of the next tighter level is one of the level itself. -/
theorem PhraseFound.tighter {p : Precedence} {e : Expr} {s rest : List Char}
    (h : PhraseFound expression p.next e s rest) (hs : Starts p.next s)
    (hr : continuedRank rest ≤ p.rank) : PhraseFound expression p e s rest := by
  by_cases hp : p.operators = []
  · cases p with
    | ternary =>
      -- No branches follow, so the condition is all there is.
      have hcondition : Finds (operation expression levels) s rest fun t => t.bare = e :=
        h.finds (.inl (Nat.lt_of_le_of_lt hr (by decide)))
      refine .after_position fun first => hcondition.bind_nil_right fun t ht => ?_
      refine Finds.bind_nil_right (P := fun x => x = none)
        (Refuses.optional (refuses_branches (Nat.le_zero.mp hr)) rfl) ?_
      rintro x rfl
      exact .pure ht
    | unary =>
      -- A chain begins with no operator, so there are none before it.
      refine ⟨[], s, [], e, rfl, .nil ?_ rfl,
        finds_chain h (Nat.lt_of_le_of_lt hr (by decide)), rfl⟩
      obtain ⟨c, t, rfl, hc | ⟨hrank, -⟩, -⟩ := hs
      · exact refuses_prefixOperator _ (isPrefixSymbol_eq_false hc)
      · exact absurd hrank (by decide)
    | chain => exact Finds.leads h
    | primary => exact h
    | _ => cases hp
  · rw [phraseFound_eq hp]
    refine Finds.leads (h.finds (.inl (Nat.lt_of_le_of_lt hr (rank_next ?_))))
    rintro rfl
    exact hp rfl

/-! ## Properties -/

/-- A property with a colon is found by the first of the two rules. -/
theorem finds_property_of_keyed {k : String} {e : Expr} {w s₁ s₂ s₃ rest : List Char}
    (hk : SpellsKey k w) (h₁ : Token w s₁) (h₂ : Token [':'] s₂)
    (h₃ : Finds expression s₃ rest fun t => t.bare = e) (hblank : StopsAt isBlank (s₃ ++ rest)) :
    Finds (property expression) (s₁ ++ (s₂ ++ s₃)) rest fun x => x.1 = k ∧ x.2.2.bare = e := by
  have hcolon : continuedRank (s₂ ++ s₃ ++ rest) < 12 := by
    obtain ⟨blanks, -, rfl⟩ := h₂
    exact Nat.lt_of_le_of_lt (Nat.le_refl 0) (by decide)
  exact .named (.orElse_left (.named (Finds.bind (finds_propertyKey hk h₁ hcolon)
    fun x hx => Finds.bind (.symbol h₂ hblank) fun _ _ => h₃.bind_nil_right fun t ht =>
    .pure ⟨hx, ht⟩)))

/-- A property without a colon is found by the second rule, since the first one misses the colon. -/
theorem finds_property_of_shorthand {w s rest : List Char} (hw : IsIdentifier w)
    (hs : Token w s) (hr : Ends rest) :
    Finds (property expression) s rest fun x =>
      x.1 = String.ofList w ∧ x.2.2.bare = .ident (String.ofList w) .none := by
  have hrank : continuedRank rest < 12 := by
    rw [hr.continuedRank]
    decide
  refine .named (.orElse_right ?_ (.map ((finds_identifier hw hs hrank).mono ?_)))
  · -- The key is found, but no colon after it.
    refine .named (.bind_right (finds_propertyKey (.name hw.1) hs hrank) fun x _ => .bind ?_)
    obtain ⟨c, t, rfl, hc⟩ := hr
    refine refuses_symbol t rfl ?_
    rintro rfl
    exact absurd hc (by decide)
  · rintro ⟨k, span⟩ rfl
    exact ⟨rfl, rfl⟩

/-- A closing bracket begins no word. -/
theorem not_operand_of_closing {c : Char} (h : c ∈ [')', ']', '\x7d']) :
    c.isDigit = false ∧ isNameStart c = false ∧ c ∉ ['.', '\'', '"'] := by
  simp only [List.mem_cons, List.not_mem_nil, or_false] at h
  rcases h with rfl | rfl | rfl <;> decide

/-- No property stands where a bracket closes. -/
theorem refuses_property {rest : List Char} (h : Closes rest) :
    Refuses (property expression) rest := by
  obtain ⟨c, t, rfl, hc⟩ := h
  obtain ⟨hd, hn, hne⟩ := not_operand_of_closing hc
  have hname : StopsAt isNameStart (c :: t) := by
    rintro d ⟨⟩
    exact hn
  simp only [List.mem_cons, List.not_mem_nil, or_false, not_or] at hne
  refine .named (.orElse (.named (.bind (.named (.firstOf fun r hr => ?_))))
    (.map (refuses_identifier hname)))
  simp only [List.mem_cons, List.not_mem_nil, or_false] at hr
  rcases hr with rfl | rfl | rfl
  · exact refuses_string t hne.2.1 hne.2.2
  · exact .map (refuses_number t hd hne.1)
  · exact refuses_name hname

/-! ## The ways of writing, one by one -/

/-- A word that is not empty takes up room. -/
theorem Token.length_pos {c : Char} {w s : List Char} (h : Token (c :: w) s) : 0 < s.length := by
  obtain ⟨blanks, -, rfl⟩ := h
  exact Nat.succ_pos _

/-- What is written begins with no blank. -/
theorem Written.unblank {f : Form} {s rest : List Char} (h : Written f s)
    (hr : StopsAt isBlank rest) : StopsAt isBlank (s ++ rest) := by
  have hs := h.starts
  cases f with
  | elements es | members ps =>
    rcases hs with rfl | hs
    · exact hr
    · exact (hs.append rest).unblank
  | _ => exact (Starts.append hs rest).unblank

/-- An expression takes up room. -/
theorem Written.length_pos {p : Precedence} {e : Expr} {s : List Char}
    (h : Written (.phrase p e) s) : 0 < s.length :=
  List.length_pos_iff.mpr (Starts.ne_nil h.starts)

section

variable {n : Nat}

/-- The elements of a list are shorter than the list. -/
theorem found_list {es : List Expr} {s₁ s₂ s₃ : List Char} (h₁ : Token ['['] s₁)
    (h₂ : Written (.elements es) s₂) (h₃ : Token [']'] s₃)
    (ih : (Form.elements es).Found expression n s₂) :
    (Form.phrase .primary (.list es .none)).Found expression n (s₁ ++ (s₂ ++ s₃)) := by
  intro rest hr hlen
  -- The bracket takes up a character, so what is nested is shorter.
  have hpos := h₁.length_pos
  have hend : Closes (s₃ ++ rest) := .of_token h₃ (by decide) rest
  simp only [List.length_append] at hlen
  refine finds_primary_of_list h₁ (ih _ hend ?_) (h₂.unblank hend.ends.unblank) h₃
    (unblank_of_le hr)
  simp only [List.length_append]
  omega

/-- The properties of an object are shorter than the object. -/
theorem found_object {ps : List (String × Span × Expr)} {s₁ s₂ s₃ : List Char}
    (h₁ : Token ['\x7b'] s₁) (h₂ : Written (.members ps) s₂) (h₃ : Token ['\x7d'] s₃)
    (ih : (Form.members ps).Found expression n s₂) :
    (Form.phrase .primary (.object ps .none)).Found expression n (s₁ ++ (s₂ ++ s₃)) := by
  intro rest hr hlen
  have hpos := h₁.length_pos
  have hend : Closes (s₃ ++ rest) := .of_token h₃ (by decide) rest
  simp only [List.length_append] at hlen
  refine finds_primary_of_object h₁ (ih _ hend ?_) (h₂.unblank hend.ends.unblank) h₃
    (unblank_of_le hr)
  simp only [List.length_append]
  omega

/-- What parentheses enclose is shorter than they are, so the rule for whole expressions finds
it. -/
theorem found_parenthesized (hex : Handles expression n) {e : Expr} {s₁ s₂ s₃ : List Char}
    (h₁ : Token ['('] s₁) (h₂ : Written (.phrase .ternary e) s₂) (h₃ : Token [')'] s₃) :
    (Form.phrase .primary e).Found expression n (s₁ ++ (s₂ ++ s₃)) := by
  intro rest hr hlen
  have hpos := h₁.length_pos
  have hend : Ends (s₃ ++ rest) := .of_token h₃ (by decide) rest
  simp only [List.length_append] at hlen
  refine finds_primary_of_parenthesized h₁ (hex.finds h₂ hend.continuedRank ?_)
    (h₂.unblank hend.unblank) h₃ (unblank_of_le hr)
  simp only [List.length_append]
  omega

/-- A link after a chain makes one more chain, whatever node the link makes. -/
theorem found_link (node : Expr → Expr) {o : Expr} {s t : List Char}
    (ho : Written (.phrase .chain o) s) (ih : (Form.phrase .chain o).Found expression n s)
    (hrank : ∀ rest, continuedRank (t ++ rest) = 10)
    (hlink : ∀ rest, continuedRank rest ≤ 10 → (t ++ rest).length < n →
      Finds (link expression) t rest fun l => ∀ e span, (l.apply e span).bare = node e.bare) :
    (Form.phrase .chain (node o)).Found expression n (s ++ t) := by
  intro rest hr hlen
  have hpos := ho.length_pos
  rw [List.append_assoc] at hlen
  have hne : t ≠ [] := by
    rintro rfl
    exact absurd (hrank []) (by decide)
  have hlt : (t ++ rest).length < n := by
    rw [List.length_append] at hlen
    omega
  -- What follows the object continues the chain, so the invariant of the object covers it.
  have hleads : Leads (primary expression) (link expression)
      (fun e l => l.apply e (e.span.merge l.span)) s (t ++ rest) fun u => u.bare = o :=
    ih _ (Nat.le_of_eq (hrank rest)) hlen
  refine hleads.snoc (Q := fun u => u.bare = node o) hne (hlink rest hr hlt) fun e l he hl => ?_
  rw [hl, he]

/-- A name makes a chain longer. -/
theorem found_member {o : Expr} {isOptional : Bool} {w s₁ s₂ s₃ : List Char}
    (ho : Written (.phrase .chain o) s₁) (ih : (Form.phrase .chain o).Found expression n s₁)
    (h₂ : Dot isOptional s₂) (hw : IsName w) (h₃ : Token w s₃) :
    (Form.phrase .chain (.member o (String.ofList w) .none isOptional .none)).Found expression n
      (s₁ ++ (s₂ ++ s₃)) := by
  obtain ⟨c, t, hct, hc⟩ := h₃.exists_cons hw
  refine found_link (fun e => .member e (String.ofList w) .none isOptional .none) ho ih
    (fun rest => ?_) fun rest hr _ => ?_
  · rw [List.append_assoc]
    -- A name begins with no digit, so the dot is not the point of a number.
    refine continuedRank_dot h₂ ?_
    rw [hct]
    rintro d ⟨⟩
    exact (ne_of_isNameStart hc).1
  · have hlink := finds_memberLink h₂ hw h₃ (continuedRank_lt_of_le (p := .chain) hr)
    rw [hct] at hlink ⊢
    exact finds_link_of_memberLink h₂ hc hlink

/-- An index makes a chain longer; what is in the brackets is found as a whole expression. -/
theorem found_index (hex : Handles expression n) {o i : Expr} {isOptional : Bool}
    {s₁ s₂ s₃ s₄ s₅ : List Char} (ho : Written (.phrase .chain o) s₁)
    (ih : (Form.phrase .chain o).Found expression n s₁) (h₂ : Mark isOptional s₂)
    (h₃ : Token ['['] s₃) (h₄ : Written (.phrase .ternary i) s₄) (h₅ : Token [']'] s₅) :
    (Form.phrase .chain (.index o i isOptional .none)).Found expression n
      (s₁ ++ (s₂ ++ (s₃ ++ (s₄ ++ s₅)))) := by
  refine found_link (fun e => .index e i isOptional .none) ho ih (fun rest => ?_)
    fun rest hr hlen => ?_
  · rw [List.append_assoc, List.append_assoc s₃]
    exact continuedRank_mark h₂ rfl h₃ _
  · -- The bracket ends the index, and what is in front of it is shorter than the whole.
    have hend : Ends (s₅ ++ rest) := .of_token h₅ (by decide) rest
    simp only [List.length_append] at hlen
    refine finds_link_of_indexLink h₂ h₃ (finds_indexLink h₂ h₃
      (hex.finds h₄ hend.continuedRank ?_) (h₄.unblank hend.unblank) h₅
      (unblank_of_le (p := .chain) hr))
    simp only [List.length_append]
    omega

/-- Arguments make a chain longer. -/
theorem found_call {f : Expr} {args : List Expr} {isOptional : Bool}
    {s₁ s₂ s₃ s₄ s₅ : List Char} (hf : Written (.phrase .chain f) s₁)
    (ih : (Form.phrase .chain f).Found expression n s₁) (h₂ : Mark isOptional s₂)
    (h₃ : Token ['('] s₃) (h₄ : Written (.elements args) s₄)
    (ih₄ : (Form.elements args).Found expression n s₄) (h₅ : Token [')'] s₅) :
    (Form.phrase .chain (.call f args isOptional .none)).Found expression n
      (s₁ ++ (s₂ ++ (s₃ ++ (s₄ ++ s₅)))) := by
  refine found_link (fun e => .call e args isOptional .none) hf ih (fun rest => ?_)
    fun rest hr hlen => ?_
  · rw [List.append_assoc, List.append_assoc s₃]
    exact continuedRank_mark h₂ rfl h₃ _
  · -- The parenthesis ends the arguments, and what is in front of it is shorter than the whole.
    have hend : Closes (s₅ ++ rest) := .of_token h₅ (by decide) rest
    simp only [List.length_append] at hlen
    refine finds_link_of_callLink h₂ h₃ (finds_callLink h₂ h₃ (ih₄ _ hend ?_)
      (h₄.unblank hend.ends.unblank) h₅ (unblank_of_le (p := .chain) hr))
    simp only [List.length_append]
    omega

/-- One more operator stands before those that have been found. -/
theorem found_prefixed {op : UnaryOp} {e : Expr} {s₁ s₂ : List Char}
    (h₁ : Token (prefixSpelling op).toList s₁) (h₂ : Written (.phrase .unary e) s₂)
    (ih : (Form.phrase .unary e).Found expression n s₂) :
    (Form.phrase .unary (.unary op e .none)).Found expression n (s₁ ++ s₂) := by
  intro rest hr hlen
  have hs : Starts .unary s₂ := h₂.starts
  have hne : s₁ ≠ [] := by
    obtain ⟨blanks, -, rfl⟩ := h₁
    cases op <;> exact List.cons_ne_nil _ _
  -- The operators of the operand come after this one, and its chain is that of the whole.
  rw [List.append_assoc, List.length_append] at hlen
  obtain ⟨t, u, ops, operand, rfl, hops, hoperand, rfl⟩ := ih rest hr (by omega)
  refine ⟨s₁ ++ t, u, op :: ops, operand, (List.append_assoc _ _ _).symm, ?_, hoperand, rfl⟩
  refine FindsMany.cons hne (finds_prefixOperator h₁ ?_ ?_) hops fun x found hx hfound => ?_
  · rw [← List.append_assoc]
    exact (hs.append rest).unblank
  · rw [← List.append_assoc]
    exact (hs.append rest).head_ne rfl rfl
  · rw [List.map_cons, hx, hfound]

/-- An operator is one of its level, which is none of those without operators. -/
theorem operators_ne_nil (op : Operator) : op.precedence.operators ≠ [] := by
  obtain ⟨before, after, hops, -⟩ := exists_operators_eq op
  rw [hops]
  simp

/-- The right operand is of the next tighter level, so it stops before a further operator of the
same level. -/
theorem found_operation {op : Operator} {l r : Expr} {s₁ s₂ s₃ : List Char}
    (h₂ : Token op.spelling.toList s₂) (h₃ : Written (.phrase op.precedence.next r) s₃)
    (ih₁ : (Form.phrase op.precedence l).Found expression n s₁)
    (ih₃ : (Form.phrase op.precedence.next r).Found expression n s₃) :
    (Form.phrase op.precedence (op.node l r)).Found expression n (s₁ ++ (s₂ ++ s₃)) := by
  intro rest hr hlen
  have hs : Starts op.precedence.next s₃ := h₃.starts
  have hlt : op.precedence.rank < op.precedence.next.rank := by
    rcases op with op | op <;> cases op <;> decide
  -- For the left operand the operator is a continuation of its own level.
  have hrank : continuedRank (s₂ ++ s₃ ++ rest) = op.precedence.rank := by
    obtain ⟨blanks, -, rfl⟩ := h₂
    rw [List.append_assoc, List.append_assoc, continuedRank_spelling]
  have hne : s₂ ++ s₃ ≠ [] := fun h => hs.ne_nil (List.append_eq_nil_iff.mp h).2
  have hleft := ih₁ (s₂ ++ s₃ ++ rest) (Nat.le_of_eq hrank) (by rwa [← List.append_assoc])
  -- For the right operand what follows continues a looser level only.
  have hright : Finds (levelRule expression op.precedence.next) s₃ rest fun t => t.bare = r := by
    refine (ih₃ rest (by omega) ?_).finds (.inl (by omega))
    simp only [List.length_append] at hlen ⊢
    omega
  have hop := finds_operator h₂ (hs.append rest).unblank ((hs.append rest).head_ne rfl rfl)
  have hstep : Finds (operationStep expression op.precedence) (s₂ ++ s₃) rest
      fun x => x.1 = op ∧ x.2.bare = r :=
    Finds.bind hop fun _ hop' => hright.bind_nil_right fun _ ht => .pure ⟨hop', ht⟩
  rw [phraseFound_eq (operators_ne_nil op)] at hleft ⊢
  refine Leads.snoc hleft hne hstep ?_
  rintro t ⟨op', u⟩ rfl ⟨rfl, rfl⟩
  exact bare_apply _ t u

/-- The branches of a ternary are found as whole expressions, behind a condition that continues to
the question mark. -/
theorem found_ternary (hex : Handles expression n) {c t e : Expr} {s₁ s₂ s₃ s₄ s₅ : List Char}
    (ih : (Form.phrase .nullish c).Found expression n s₁) (h₁ : Written (.phrase .nullish c) s₁)
    (h₂ : Token ['?'] s₂) (h₃ : Written (.phrase .ternary t) s₃) (h₄ : Token [':'] s₄)
    (h₅ : Written (.phrase .ternary e) s₅) :
    (Form.phrase .ternary (.ternary c t e .none)).Found expression n
      (s₁ ++ (s₂ ++ (s₃ ++ (s₄ ++ s₅)))) := by
  intro rest hr hlen
  -- Both branches are shorter than the whole by the condition before them.
  have hpos := h₁.length_pos
  have hs₃ : Starts .ternary s₃ := h₃.starts
  have hs₅ : Starts .ternary s₅ := h₅.starts
  have hquestion : continuedRank (s₂ ++ (s₃ ++ (s₄ ++ s₅)) ++ rest) = 1 := by
    rw [List.append_assoc]
    exact continuedRank_question h₂ ((hs₃.append _).append rest)
  have hcolon : continuedRank (s₄ ++ s₅ ++ rest) = 0 := by
    obtain ⟨blanks, -, rfl⟩ := h₄
    rfl
  have hcondition : Finds (operation expression levels) s₁ (s₂ ++ (s₃ ++ (s₄ ++ s₅)) ++ rest)
      fun x => x.bare = c := by
    refine PhraseFound.finds (p := .nullish) (ih _ ?_ ?_) (.inl ?_)
    · rw [hquestion]
      decide
    · rwa [← List.append_assoc]
    · rw [hquestion]
      decide
  simp only [List.length_append] at hlen
  have hbranches : Finds (branches expression) (s₂ ++ (s₃ ++ (s₄ ++ s₅))) rest
      fun x => x.1.bare = t ∧ x.2.bare = e := by
    refine Finds.bind (finds_questionMark h₂ ((hs₃.append _).append rest)) fun _ _ =>
      Finds.bind (hex.finds h₃ hcolon ?_) fun x hx =>
      Finds.bind (.symbol h₄ (hs₅.append rest).unblank) fun _ _ =>
      Finds.bind_nil_right (hex.finds h₅ (Nat.le_zero.mp hr) ?_) fun y hy => .pure ⟨hx, hy⟩
    · simp only [List.length_append]
      omega
    · simp only [List.length_append]
      omega
  refine .after_position fun first => Finds.bind hcondition fun x hx =>
    Finds.bind_nil_right (Finds.optional
      (P := fun o => ∃ y, o = some y ∧ y.1.bare = t ∧ y.2.bare = e)
      (hbranches.mono fun y hy => ⟨y, rfl, hy⟩)) ?_
  rintro o ⟨y, rfl, rfl, rfl⟩
  refine .after_position fun last => .pure ?_
  rw [← hx]
  rfl

end

/-! ## Everything that is written -/

/-- Every form is found where it is written. -/
theorem Written.found {n : Nat} (hex : Handles expression n) {f : Form} {s : List Char}
    (h : Written f s) : f.Found expression n s := by
  -- Whole expressions inside a form are left to the rule for them, other parts to the induction.
  induction h with
  | literal hv hs =>
    intro rest hr _
    exact finds_primary_of_literal hv hs (continuedRank_lt_of_le (p := .primary) hr)
  | ident hw hs =>
    intro rest hr _
    exact finds_primary_of_ident hw hs (continuedRank_lt_of_le (p := .primary) hr)
  | list h₁ h₂ h₃ ih => exact found_list h₁ h₂ h₃ ih
  | object h₁ h₂ h₃ ih => exact found_object h₁ h₂ h₃ ih
  | parenthesized h₁ h₂ h₃ _ => exact found_parenthesized hex h₁ h₂ h₃
  | member h₁ h₂ hw h₃ ih => exact found_member h₁ ih h₂ hw h₃
  | index h₁ h₂ h₃ h₄ h₅ ih _ => exact found_index hex h₁ ih h₂ h₃ h₄ h₅
  | call h₁ h₂ h₃ h₄ h₅ ih ih₄ => exact found_call h₁ ih h₂ h₃ h₄ ih₄ h₅
  | prefixed h₁ h₂ ih => exact found_prefixed h₁ h₂ ih
  | operation h₁ h₂ h₃ ih₁ ih₃ => exact found_operation h₂ h₃ ih₁ ih₃
  | ternary h₁ h₂ h₃ h₄ h₅ ih _ _ => exact found_ternary hex ih h₁ h₂ h₃ h₄ h₅
  | tighter h ih =>
    rename_i p e s
    intro rest hr hlen
    exact PhraseFound.tighter (ih rest (Nat.le_trans hr (by cases p <;> decide)) hlen) h.starts hr
  | oneItem h _ =>
    intro rest hr hstop hlen
    refine .one ((hex.finds h hr.continuedRank hlen).mono fun t ht => ?_) hstop
    rw [← ht]
    rfl
  | @moreItems e es s₁ s₂ s₃ h₁ h₂ h₃ _ ih =>
    intro rest hr hstop hlen
    -- The comma ends the first item, whatever the items after it are.
    have hend : Ends (s₂ ++ (s₃ ++ rest)) := .of_token h₂ (by decide) _
    simp only [List.length_append] at hlen
    refine .cons (hex.finds h₁ hend.continuedRank ?_) h₂ (h₃.unblank hr.unblank)
      (ih rest hr hstop ?_) fun t ts ht hts => ?_
    · simp only [List.length_append]
      omega
    · simp only [List.length_append]
      omega
    · rw [← ht, ← hts]
      rfl
  | noElements =>
    intro rest hr _
    exact Refuses.optional (.bind (hex.refuses hr)) rfl
  | elements h₁ h₂ ih =>
    intro rest hr hlen
    -- A comma before the bracket is not taken for one between two items.
    have hlist := ih _ (h₂.ends hr) (refuses_another h₂ hr (hex.refuses hr))
      (by rwa [← List.append_assoc])
    exact .optional (hlist.finds h₂ hr)
  | keyed hk h₁ h₂ h₃ _ =>
    intro rest hr hlen
    simp only [List.length_append] at hlen
    refine finds_property_of_keyed hk h₁ h₂ (hex.finds h₃ hr.continuedRank ?_)
      (h₃.unblank hr.unblank)
    rw [List.length_append]
    omega
  | shorthand hw hs =>
    intro rest hr _
    exact finds_property_of_shorthand hw hs hr
  | oneProperty h ih =>
    intro rest hr hstop hlen
    refine .one ((ih rest hr hlen).mono fun x hx => ?_) hstop
    rw [← hx.1, ← hx.2]
    rfl
  | @moreProperties k e ps s₁ s₂ s₃ h₁ h₂ h₃ ih₁ ih₃ =>
    intro rest hr hstop hlen
    have hend : Ends (s₂ ++ (s₃ ++ rest)) := .of_token h₂ (by decide) _
    simp only [List.length_append] at hlen
    refine .cons (ih₁ _ hend ?_) h₂ (h₃.unblank hr.unblank)
      (ih₃ rest hr hstop ?_) fun x xs hx hxs => ?_
    · simp only [List.length_append]
      omega
    · simp only [List.length_append]
      omega
    · rw [← hx.1, ← hx.2, ← hxs]
      rfl
  | noMembers =>
    intro rest hr _
    exact Refuses.optional (.bind (refuses_property hr)) rfl
  | members h₁ h₂ ih =>
    intro rest hr hlen
    have hlist := ih _ (h₂.ends hr) (refuses_another h₂ hr (refuses_property hr))
      (by rwa [← List.append_assoc])
    exact .optional (hlist.finds h₂ hr)

/-! ## Whole expressions -/

/-- No primary expression stands where a bracket closes. -/
theorem refuses_primary {rest : List Char} (h : Closes rest) :
    Refuses (primary expression) rest := by
  obtain ⟨c, t, rfl, hc⟩ := h
  obtain ⟨hd, hn, hne⟩ := not_operand_of_closing hc
  -- A closing bracket is none of the opening ones.
  obtain ⟨hbrace, hbracket, hparen⟩ : '\x7b' ≠ c ∧ '[' ≠ c ∧ '(' ≠ c := by
    simp only [List.mem_cons, List.not_mem_nil, or_false] at hc
    rcases hc with rfl | rfl | rfl <;> decide
  refine .named (.firstOf fun r hr => ?_)
  simp only [List.mem_cons, List.not_mem_nil, or_false] at hr
  rcases hr with rfl | rfl | rfl | rfl | rfl
  · exact refuses_literal t hd hn hne
  · exact refuses_object t hbrace
  · exact refuses_list t hbracket
  · refine .map (refuses_identifier ?_)
    rintro d ⟨⟩
    exact hn
  · exact .bind (refuses_symbol t rfl hparen)

/-- Where a bracket closes, no expression of any level stands. -/
theorem refuses_level {rest : List Char} (h : Closes rest) (p : Precedence) :
    Refuses (levelRule expression p) rest := by
  have hprimary : Refuses (levelRule expression .primary) rest := refuses_primary h
  have hchain : Refuses (chain expression) rest := .bind hprimary
  -- Prefix operators may be missing, so it is the chain after them that is refused.
  have hunary : Refuses (levelRule expression .unary) rest := by
    have hnone : FindsMany prefixOperator [] rest fun ops => ops = [] := by
      obtain ⟨c, t, rfl, hc⟩ := h
      refine .nil (refuses_prefixOperator t ?_) rfl
      simp only [List.mem_cons, List.not_mem_nil, or_false] at hc
      rcases hc with rfl | rfl | rfl <;> rfl
    exact Refuses.bind_right (s := []) hnone.many fun _ _ => .bind hchain
  have hoperation : ∀ {q : Precedence}, q.operators ≠ [] → Refuses (levelRule expression q) rest :=
    Precedence.of_next (P := fun q => Refuses (levelRule expression q) rest) hunary
      fun q hq hr => by
        rw [levelRule_eq expression hq]
        exact .bind hr
  by_cases hp : p.operators = []
  · cases p with
    | ternary =>
      have hnullish : Refuses (levelRule expression .nullish) rest :=
        hoperation (List.cons_ne_nil _ _)
      exact .after_position fun _ => .bind hnullish
    | unary => exact hunary
    | chain => exact .map hchain
    | primary => exact hprimary
    | _ => cases hp
  · exact hoperation hp

end

/-- A nesting of expressions takes up at least one character each. -/
theorem handles_expressionUpTo (depth : Nat) : Handles (expressionUpTo depth) depth := by
  induction depth with
  | zero => exact ⟨fun _ _ h => absurd h (Nat.not_lt_zero _), fun _ c _ => rfl⟩
  | succ depth ih =>
    -- Inside an expression every other one is shorter, and the rule inside handles these.
    refine ⟨fun hw hr hlen => ?_, fun h => refuses_level h .ternary⟩
    exact hw.found ih _ (Nat.le_of_eq hr) (Nat.le_of_lt_succ hlen)

/-- A source of a tree is read as that tree. -/
theorem parse_of_sourceOf {e : Expr} {text : List Char} (h : SourceOf e text) :
    ∃ t, parse text = .ok t ∧ t.bare = e := by
  obtain ⟨blanks, s, hb, hw, rfl⟩ := h
  have hs : Starts .ternary s := hw.starts
  have hrest : (Cursor.start (blanks ++ s)).skipBlanks.rest = s ++ [] := by
    rw [List.append_nil]
    exact rest_skipBlanks rfl hb hs.unblank
  -- The rule for a whole text allows more nesting than the text has characters.
  have hend : continuedRank [] = 0 := rfl
  have hfound := (handles_expressionUpTo ((blanks ++ s).length + 1)).finds hw hend
    (by simp only [List.length_append, List.length_nil]; omega)
  obtain ⟨t, c, hc, hend, ht⟩ := hfound _ hrest
  exact ⟨t, parse_eq_ok_iff_found.mpr ⟨c, hc, hend⟩, ht⟩

/-- A text that is read as an expression. -/
def Readable (text : List Char) : Prop := ∃ e, parse text = .ok e

/-- Read are the texts that are sources of some tree. -/
theorem readable_iff_sourceOf {text : List Char} : Readable text ↔ ∃ e, SourceOf e text := by
  constructor
  · rintro ⟨t, ht⟩
    exact ⟨t.bare, sourceOf_of_parse ht⟩
  · rintro ⟨e, he⟩
    obtain ⟨t, ht, -⟩ := parse_of_sourceOf he
    exact ⟨t, ht⟩

end Syntax

/-- A source text is read as a tree, spans aside, if and only if it is a source of the tree. -/
theorem parse_eq_ok_iff_sourceOf (source : String) (e : Expr) :
    (∃ t, Expr.parse source = .ok t ∧ t.bare = e.bare) ↔
      Syntax.SourceOf e.bare source.toList := by
  constructor
  · rintro ⟨t, ht, he⟩
    rw [← he]
    exact Syntax.sourceOf_of_parse ht
  · exact Syntax.parse_of_sourceOf

end TemplateFlow
