import Mathlib.Data.List.Induction
import TemplateFlow.Proofs.Syntax.Completeness
import TemplateFlow.Proofs.Syntax.Place
import TemplateFlow.Proofs.Syntax.Reach

/-!
# What comes before a syntax error

A text that is no expression is one up to the reported place: the text before it can be continued to
an expression (`Expr.parse_error_viable`). So the place is never behind the first mistake, the first
character with which no expression can go on.

The proof follows each rule through its parts. Wherever a named rule is tried, the texts that have
been read before are writings of parts of an expression, and what is missing after them can be
supplied: an operand where one is expected, and the brackets and colons that are still open. Whether
the completed text is read the way it was put together does not matter here. It is written in the
grammar (`Written`), which knows no order of choice, and whatever is written is read.

## Main definitions

* `Viable`: some continuation of a text has a property.
* `Position.At`: a position is that behind the first characters of a text.

## Main results

* `reaches_expressionUpTo`: before a place that is reported there is the beginning of an expression.
* `Expr.parse_error_viable`: the text before a syntax error is the beginning of an expression.
-/

namespace TemplateFlow

/-! ## Positions -/

/-- The position behind the first `n` characters of a text: the line feeds among them are counted,
and the characters after the last of these. -/
structure Position.At (text : List Char) (n : Nat) (p : Position) : Prop where
  offset_eq : p.offset = String.utf8Len (text.take n)
  line_eq : p.line = (text.take n).count '\n'
  column_eq : p.column = ((text.take n).reverse.takeWhile (· ≠ '\n')).length

/-- The position that is counted along a text is the one behind its characters. -/
theorem Position.at_advanceBy (before rest : List Char) :
    (advanceBy {} before).At (before ++ rest) before.length := by
  have hline : ∀ s, (advanceBy {} s).line = s.count '\n' ∧
      (advanceBy {} s).column = (s.reverse.takeWhile (· ≠ '\n')).length := by
    intro s
    -- Each character changes the position by what it is, so the induction is on the last one.
    induction s using List.reverseRecOn with
    | nil => exact ⟨rfl, rfl⟩
    | append_singleton s c ih =>
      rw [advanceBy_append, advanceBy_cons, advanceBy_nil, advance_eq]
      by_cases hc : c = '\n'
      · simp [hc, ih.1]
      · simp [hc, ih.1, ih.2]
  refine ⟨?_, ?_, ?_⟩
  · rw [List.take_left, offset_advanceBy, Nat.zero_add]
  · rw [List.take_left, (hline before).1]
  · rw [List.take_left, (hline before).2]

namespace Syntax

open Rule

/-! ## Viable texts -/

/-- With some continuation the text has a property. -/
def Viable (W : List Char → Prop) (s : List Char) : Prop := ∃ t, W (s ++ t)

section

variable {V W : List Char → Prop} {s t : List Char}

/-- What has the property already is viable, with nothing behind it. -/
theorem Viable.of (h : W s) : Viable W s := ⟨[], by rwa [List.append_nil]⟩

/-- The beginning of a viable text is viable. -/
theorem Viable.of_append (h : Viable W (s ++ t)) : Viable W s := by
  obtain ⟨u, hu⟩ := h
  exact ⟨t ++ u, by rwa [← List.append_assoc]⟩

/-- What is viable for a property is viable for every weaker one. -/
theorem Viable.mono (ht : Viable V t) (h : ∀ u, V u → W u) : Viable W t := by
  obtain ⟨u, hu⟩ := ht
  exact ⟨u, h _ hu⟩

/-- A text is viable if it ends with a viable one and what that can be continued to can be supplied
with what is still missing. -/
theorem Viable.within (ht : Viable V t) (h : ∀ u, V u → Viable W (s ++ u)) :
    Viable W (s ++ t) := by
  obtain ⟨u, hu⟩ := ht
  have hwhole := h _ hu
  rw [← List.append_assoc] at hwhole
  exact hwhole.of_append

/-- What is missing after the viable end may be a bracket that closes. -/
theorem Viable.closed (c : Char) (ht : Viable V t) (h : ∀ u, V u → W (s ++ (u ++ [c]))) :
    Viable W (s ++ t) :=
  ht.within fun u hu => ⟨[c], by rw [List.append_assoc]; exact h u hu⟩

/-- What stands before the viable end may have two parts, and nothing may be missing after it. -/
theorem Viable.last_of_three {s₁ s₂ : List Char} (ht : Viable V t)
    (h : ∀ u, V u → W (s₁ ++ (s₂ ++ u))) : Viable W (s₁ ++ (s₂ ++ t)) := by
  rw [← List.append_assoc]
  refine ht.within fun u hu => .of ?_
  rw [List.append_assoc]
  exact h u hu

end

/-! ## Parts of expressions -/

/-- An expression of a level. -/
def Phrase (p : Precedence) (s : List Char) : Prop := ∃ e : Expr, Written (.phrase p e.bare) s

/-- Expressions with commas between them. -/
def Items (s : List Char) : Prop := ∃ es, Written (.items (Expr.bareAll es)) s

/-- What stands between the brackets of a list or of a call. -/
def Elements (s : List Char) : Prop := ∃ es, Written (.elements (Expr.bareAll es)) s

/-- A property of an object. -/
def Entry (s : List Char) : Prop := ∃ k, ∃ e : Expr, Written (.property k e.bare) s

/-- Properties with commas between them. -/
def Entries (s : List Char) : Prop := ∃ ps, Written (.properties (Expr.bareProperties ps)) s

/-- What stands between the braces of an object. -/
def Members (s : List Char) : Prop := ∃ ps, Written (.members (Expr.bareProperties ps)) s

/-- A word is a token without any blanks behind it. -/
theorem token_self (w : List Char) : Token w w := ⟨[], blanks_nil, (List.append_nil w).symm⟩

/-- A name to stand where one is missing. -/
theorem isIdentifier_a : IsIdentifier ['a'] :=
  ⟨⟨'a', [], rfl, rfl, by simp⟩, by decide⟩

/-- Where an operand is missing, a name can stand. -/
theorem phrase_a : Phrase .primary ['a'] :=
  ⟨.ident (String.ofList ['a']) .none, .ident isIdentifier_a (token_self _)⟩

/-- An expression of a tighter level is one of this level. -/
theorem Phrase.tighter {p : Precedence} {s : List Char} (h : Phrase p.next s) : Phrase p s := by
  obtain ⟨e, he⟩ := h
  exact ⟨e, .tighter he⟩

/-- An operation is an expression of the level of its operator. -/
theorem Phrase.operation {op : Operator} {s₁ s₂ s₃ : List Char} (h₁ : Phrase op.precedence s₁)
    (h₂ : Token op.spelling.toList s₂) (h₃ : Phrase op.precedence.next s₃) :
    Phrase op.precedence (s₁ ++ (s₂ ++ s₃)) := by
  obtain ⟨l, hl⟩ := h₁
  obtain ⟨r, hr⟩ := h₃
  refine ⟨op.apply l r, ?_⟩
  rw [bare_apply]
  exact .operation hl h₂ hr

/-- A name is an expression also where an operator may stand. -/
theorem phrase_unary_a : Phrase .unary ['a'] := .tighter (.tighter phrase_a)

/-- A name is a whole expression. -/
theorem phrase_ternary_a : Phrase .ternary ['a'] := by
  obtain ⟨e, he⟩ := phrase_unary_a
  exact ⟨e, he.ternary_of_unary⟩

/-! ## Lists with commas -/

/-- What is reported in a list lies behind some items and commas, in the next item or comma. -/
theorem reaches_commaList {α : Type} {r : Rule α} {P : α → List Char → Prop}
    {I L : List Char → Prop} (hreads : Reads r P) (hr : Reaches r (Viable I))
    (hitem : ∀ a s, P a s → I s) (hone : ∀ s, I s → L s)
    (hmore : ∀ s t u, I s → Token [','] t → L u → L (s ++ (t ++ u))) :
    Reaches (commaList r) (Viable L) := by
  have hanother : Reads (another r) fun _ t => ∃ t₁ t₂, t = t₁ ++ t₂ ∧ Token [','] t₁ ∧ I t₂ :=
    (Reads.symbol ",").bind fun _ t₁ h₁ => hreads.mono fun a t₂ h₂ =>
      ⟨t₁, t₂, rfl, h₁, hitem a t₂ h₂⟩
  have hreach : Reaches (another r) fun t =>
      ∃ t₁ t₂, t = t₁ ++ t₂ ∧ Token [','] t₁ ∧ Viable I t₂ :=
    .after_symbol fun _ t₁ h₁ => hr.mono fun t₂ h₂ => ⟨t₁, t₂, rfl, h₁, h₂⟩
  -- The repetition stands behind an item, and with this item before it, it makes a list.
  have hmany : Reaches (many (another r)) fun t => ∀ s, I s → Viable L (s ++ t) := by
    refine hreach.many hanother ?_ ?_
    · rintro _ ⟨t₁, t₂, rfl, h₁, h₂⟩ s hs
      exact h₂.last_of_three fun u hu => hmore s t₁ u hs h₁ (hone u hu)
    · rintro _ _ t ⟨t₁, t₂, rfl, h₁, h₂⟩ ht s hs
      rw [List.append_assoc]
      exact (ht t₂ h₂).last_of_three fun u hu => hmore s t₁ u hs h₁ hu
  refine (hr.mono fun t ht => ht.mono hone).bind hreads fun a s hs => ?_
  refine (hmany.mono fun t ht => ht s (hitem a s hs)).bind_left fun _ => ?_
  exact .bind_left (.optional .symbol) fun _ => .pure

/-! ## Primary expressions

Rules in which whole expressions are nested are given the rule for these, with what it reads and how
far it reaches. -/

section

variable {V : List Char → Prop} {expression : Rule Expr}

/-- A literal is reported missing only where it is looked for. -/
theorem reaches_literal (h : V []) : Reaches literal V := by
  refine .firstOf fun r hr => ?_
  simp only [List.mem_cons, List.not_mem_nil, or_false] at hr
  rcases hr with rfl | rfl | rfl | rfl | rfl | rfl
  · exact .map (.token h)
  · exact .map (.token h)
  · exact .token h
  · exact .token h
  · exact .token h
  · exact .token h

/-- A key is reported missing only where it is looked for. -/
theorem reaches_propertyKey (h : V []) : Reaches propertyKey V := by
  refine .named (.firstOf fun r hr => ?_) h
  simp only [List.mem_cons, List.not_mem_nil, or_false] at hr
  rcases hr with rfl | rfl | rfl
  · exact .token h
  · exact .map (.token h)
  · exact .token h

variable (hex : Reads expression fun e s => Written (.phrase .ternary e.bare) s)
  (hreach : Reaches expression (Viable (Phrase .ternary)))

include hex hreach

/-- What is reported within elements lies behind the beginning of some. -/
theorem reaches_elements :
    Reaches (Rule.optional (commaList expression)) (Viable Elements) := by
  have hitems : Reaches (commaList expression) (Viable Items) := by
    refine reaches_commaList hex hreach (fun e s he => ⟨e, he⟩) ?_ ?_
    · rintro s ⟨e, he⟩
      exact ⟨[e], .oneItem he⟩
    · rintro s t u ⟨e, he⟩ ht ⟨es, hes⟩
      exact ⟨e :: es, .moreItems he ht hes⟩
  refine .optional (hitems.mono fun t ht => ht.mono ?_)
  rintro s ⟨es, hes⟩
  refine ⟨es, ?_⟩
  rw [← List.append_nil s]
  exact .elements hes (.inl rfl)

omit hex in
/-- What is reported within parentheses can be completed and closed. -/
theorem reaches_parenthesized :
    Reaches (parenthesized expression) (Viable (Phrase .primary)) := by
  refine .after_symbol fun _ s₁ h₁ => .bind_left (hreach.mono fun t ht => ht.closed ')' ?_) fun _ =>
    .bind_left .symbol fun _ => .pure
  rintro u ⟨e, he⟩
  exact ⟨e, .parenthesized h₁ he (token_self _)⟩

/-- What is reported within a list can be completed and closed. -/
theorem reaches_list : Reaches (list expression) (Viable (Phrase .primary)) := by
  refine .after_position fun _ => .after_symbol fun _ s₁ h₁ =>
    .bind_left ((reaches_elements hex hreach).mono fun t ht => ht.closed ']' ?_) fun _ =>
    .bind_left .symbol fun _ => .pure
  rintro u ⟨es, hes⟩
  exact ⟨.list es .none, .list h₁ hes (token_self _)⟩

omit hex in
/-- What is reported within a property is its key, or lies within its value. -/
theorem reaches_property : Reaches (property expression) (Viable Entry) := by
  have hname : Viable Entry [] := by
    refine ⟨['a'], String.ofList ['a'], .ident (String.ofList ['a']) .none, ?_⟩
    exact .shorthand isIdentifier_a (token_self _)
  refine .named (.orElse (.named ?_ hname) (.map (.token hname))) hname
  refine .bind (reaches_propertyKey hname) reads_propertyKey fun key s₁ ⟨w, hw, h₁⟩ =>
    .after_symbol fun _ s₂ h₂ => .bind_left (hreach.mono fun t ht => ?_) fun _ => .pure
  refine ht.last_of_three ?_
  rintro u ⟨e, he⟩
  exact ⟨key.1, e, .keyed hw h₁ h₂ he⟩

/-- What is reported within members lies behind the beginning of some. -/
theorem reaches_members :
    Reaches (Rule.optional (commaList (property expression))) (Viable Members) := by
  have hentries : Reaches (commaList (property expression)) (Viable Entries) := by
    refine reaches_commaList (reads_property hex) (reaches_property hreach)
      (fun x s hx => ⟨x.1, x.2.2, hx⟩) ?_ ?_
    · rintro s ⟨k, e, he⟩
      exact ⟨[(k, .none, e)], .oneProperty he⟩
    · rintro s t u ⟨k, e, he⟩ ht ⟨ps, hps⟩
      exact ⟨(k, .none, e) :: ps, .moreProperties he ht hps⟩
  refine .optional (hentries.mono fun t ht => ht.mono ?_)
  rintro s ⟨ps, hps⟩
  refine ⟨ps, ?_⟩
  rw [← List.append_nil s]
  exact .members hps (.inl rfl)

/-- What is reported within an object can be completed and closed. -/
theorem reaches_object : Reaches (object expression) (Viable (Phrase .primary)) := by
  refine .after_position fun _ => .after_symbol fun _ s₁ h₁ =>
    .bind_left ((reaches_members hex hreach).mono fun t ht => ht.closed '\x7d' ?_) fun _ =>
    .bind_left .symbol fun _ => .pure
  rintro u ⟨ps, hps⟩
  exact ⟨.object ps .none, .object h₁ hps (token_self _)⟩

/-- Where a primary expression is missing, a name can stand. -/
theorem reaches_primary : Reaches (primary expression) (Viable (Phrase .primary)) := by
  have hname : Viable (Phrase .primary) [] := ⟨['a'], phrase_a⟩
  refine .named (.firstOf fun r hr => ?_) hname
  simp only [List.mem_cons, List.not_mem_nil, or_false] at hr
  rcases hr with rfl | rfl | rfl | rfl | rfl
  · exact reaches_literal hname
  · exact reaches_object hex hreach
  · exact reaches_list hex hreach
  · exact .map (.token hname)
  · exact reaches_parenthesized hreach

end

/-! ## Continuations -/

/-- Behind any expression of a level the text is the beginning of a longer one. -/
def Continues (p : Precedence) (t : List Char) : Prop :=
  ∀ s, Phrase p s → Viable (Phrase p) (s ++ t)

/-- Behind an expression itself, nothing has to be supplied. -/
theorem continues_nil (p : Precedence) : Continues p [] := by
  intro s hs
  rw [List.append_nil]
  exact .of hs

/-- Where every finding makes an expression of a level longer, so do several, and the next attempt
is behind a longer expression. -/
theorem reaches_many_of_continues {α : Type} {r : Rule α} {p : Precedence}
    (hr : Reaches r (Continues p))
    (hreads : Reads r fun _ t => ∀ s, Phrase p s → Phrase p (s ++ t)) :
    Reaches (many r) (Continues p) := by
  refine hr.many hreads (fun _ ht => ht) fun _ s t hs ht u hu => ?_
  rw [← List.append_assoc]
  exact ht (u ++ s) (hs u hu)

/-! ## Chains -/

/-- The opening symbols of a link have no names, so nothing is reported between them. -/
theorem reaches_opening (opening : List String) :
    Reaches (opening.forM fun s => do let _ ← symbol s : Rule Unit) fun _ => False := by
  induction opening with
  | nil => exact .pure
  | cons s opening ih => exact .bind_left (.bind_left .symbol fun _ => .pure) fun _ => ih

/-- Between the brackets of a link something may be left incomplete. When it is completed, the
bracket is still to be closed. -/
theorem reaches_bracketLink {α : Type} {inside : Rule α} {link : Position → α → Rule Link}
    {V : List Char → Prop} {bracket : String} {isOptional : Bool} (close : Char)
    (hinside : Reaches inside (Viable V))
    (hlink : ∀ first a, Reaches (link first a) fun _ => False)
    (hwritten : ∀ s t₁ t₂ u, Phrase .chain s → Mark isOptional t₁ → Token bracket.toList t₂ → V u →
      Phrase .chain (s ++ (t₁ ++ (t₂ ++ (u ++ [close]))))) :
    Reaches (do
      let first ← Rule.position
      (if isOptional then ["?.", bracket] else [bracket]).forM fun s => do let _ ← symbol s
      let a ← inside
      link first a : Rule Link) (Continues .chain) := by
  refine .after_position fun first => .bind ((reaches_opening _).mono fun _ => False.elim)
    (reads_opening bracket isOptional) fun _ t ⟨t₁, t₂, ht, h₁, h₂⟩ =>
    .bind_left (hinside.mono fun u hu s hs => ?_) (hlink first)
  rw [← List.append_assoc]
  -- What is missing in the brackets is supplied, and then the bracket.
  refine hu.closed close fun v hv => ?_
  rw [ht, List.append_assoc, List.append_assoc]
  exact hwritten s t₁ t₂ v hs h₁ h₂ hv

/-- Where the name of a member is missing, a name can stand. -/
theorem reaches_memberLink (isOptional : Bool) :
    Reaches (memberLink (if isOptional then "?." else ".") isOptional) (Continues .chain) := by
  refine .after_position fun _ => .after_symbol fun _ t h => .bind_left (.token ?_) fun _ => .pure
  rintro s ⟨e, he⟩
  have hdot : Dot isOptional t := by cases isOptional <;> exact h
  refine ⟨['a'], .member e (String.ofList ['a']) .none isOptional .none, ?_⟩
  rw [List.append_nil, List.append_assoc]
  exact .member he hdot isIdentifier_a.1 (token_self _)

section

variable {expression : Rule Expr}
  (hex : Reads expression fun e s => Written (.phrase .ternary e.bare) s)
  (hreach : Reaches expression (Viable (Phrase .ternary)))

include hex hreach

/-- What is reported within the arguments of a call can be completed and closed. -/
theorem reaches_callLink (isOptional : Bool) :
    Reaches (callLink expression (if isOptional then ["?.", "("] else ["("]) isOptional)
      (Continues .chain) := by
  have hargs : Reaches (arguments expression) (Viable Elements) :=
    .bind_left (reaches_elements hex hreach) fun _ => .bind_left .symbol fun _ => .pure
  refine reaches_bracketLink ')' hargs (fun _ _ => .pure) ?_
  rintro s t₁ t₂ u ⟨e, he⟩ h₁ h₂ ⟨args, hargs⟩
  exact ⟨.call e args isOptional .none, .call he h₁ h₂ hargs (token_self _)⟩

omit hex in
/-- What is reported within an index can be completed and closed. -/
theorem reaches_indexLink (isOptional : Bool) :
    Reaches (indexLink expression (if isOptional then ["?.", "["] else ["["]) isOptional)
      (Continues .chain) := by
  have hindex : Reaches (bracketed expression) (Viable (Phrase .ternary)) :=
    .bind_left hreach fun _ => .bind_left .symbol fun _ => .pure
  refine reaches_bracketLink ']' hindex (fun _ _ => .pure) ?_
  rintro s t₁ t₂ u ⟨e, he⟩ h₁ h₂ ⟨i, hi⟩
  exact ⟨.index e i isOptional .none, .index he h₁ h₂ hi (token_self _)⟩

/-- What is reported within a link lies behind a chain that this link can extend. -/
theorem reaches_link : Reaches (link expression) (Continues .chain) := by
  refine .named (.firstOf fun r hr => ?_) (continues_nil _)
  simp only [List.mem_cons, List.not_mem_nil, or_false] at hr
  rcases hr with rfl | rfl | rfl | rfl | rfl | rfl
  · exact reaches_callLink hex hreach true
  · exact reaches_indexLink hreach true
  · exact reaches_memberLink true
  · exact reaches_callLink hex hreach false
  · exact reaches_indexLink hreach false
  · exact reaches_memberLink false

/-- What is reported within a chain lies in its primary expression or in one of its links. -/
theorem reaches_chain : Reaches (chain expression) (Viable (Phrase .chain)) := by
  have hlinks : Reaches (many (link expression)) (Continues .chain) := by
    refine reaches_many_of_continues (reaches_link hex hreach) ((reads_link hex).mono ?_)
    rintro l t hl s ⟨e, he⟩
    exact ⟨l.apply e .none, hl e .none s he⟩
  have hprimary : Reaches (primary expression) (Viable (Phrase .chain)) :=
    (reaches_primary hex hreach).mono fun t ht => ht.mono fun _ => .tighter (p := .chain)
  refine hprimary.bind (reads_primary hex) fun base s hbase => ?_
  refine (hlinks.mono fun t ht => ht s ⟨base, .tighter hbase⟩).bind_left fun _ => ?_
  exact .after_position fun _ => .pure

/-! ## Operators -/

omit hex hreach in
/-- A prefix operator is reported missing only where it is looked for. -/
theorem reaches_prefixOperator {V : List Char → Prop} (h : V []) : Reaches prefixOperator V := by
  refine .after_position fun _ => .bind_left (.firstOf fun r hr => ?_) fun _ => .pure
  simp only [List.mem_cons, List.not_mem_nil, or_false] at hr
  rcases hr with rfl | rfl | rfl
  · exact .named (.bind_left .symbol fun _ => .bind_left .guard fun _ => .pure) h
  · exact .named (.bind_left .symbol fun _ => .pure) h
  · exact .named (.bind_left .symbol fun _ => .pure) h

omit hex hreach in
/-- Operators may be put before an operand, and so before the beginning of one. -/
theorem reads_prefixOperators :
    Reads (many prefixOperator) fun _ t => ∀ s, Phrase .unary s → Phrase .unary (t ++ s) := by
  refine reads_prefixOperator.many (fun s hs => hs) ?_
  intro x t _ u hx hu s hs
  obtain ⟨e, he⟩ := hu s hs
  rw [List.append_assoc]
  exact ⟨.unary x.1 e .none, .prefixed hx he⟩

/-- Behind prefix operators, however many, an operand can stand. -/
theorem reaches_unary : Reaches (unary expression) (Viable (Phrase .unary)) := by
  have hops : Reaches (many prefixOperator) (Viable (Phrase .unary)) := by
    refine (reaches_prefixOperator ⟨['a'], phrase_unary_a⟩).many reads_prefixOperator
      (fun _ ht => ht) ?_
    intro x s t hx ht
    refine ht.within ?_
    rintro u ⟨e, he⟩
    exact .of ⟨.unary x.1 e .none, .prefixed hx he⟩
  refine hops.bind reads_prefixOperators fun _ s hs => ?_
  refine ((reaches_chain hex hreach).mono fun t ht => ?_).bind_left fun _ => .pure
  exact ht.within fun u hu => .of (hs u (.tighter hu))

omit hex hreach in
/-- An infix operator is reported missing only where it is looked for. -/
theorem reaches_operator {V : List Char → Prop} (operators : List (String × Operator)) (h : V []) :
    Reaches (operator operators) V := by
  refine .firstOf fun r hr => ?_
  obtain ⟨x, -, rfl⟩ := List.mem_map.mp hr
  exact .named (.bind_left .symbol fun _ => .pure) h

/-- What the levels of operators have to read and may reach. -/
structure LevelReaches (expression : Rule Expr) (p : Precedence) : Prop where
  reads : Reads (levelRule expression p) fun e s => Written (.phrase p e.bare) s
  reaches : Reaches (levelRule expression p) (Viable (Phrase p))

omit hex hreach in
/-- If the next level reaches only beginnings of its expressions, so does a level, whose operands
are of the next one. -/
theorem LevelReaches.of_next {p : Precedence} (hp : p.operators ≠ [])
    (hnext : LevelReaches expression p.next) : LevelReaches expression p := by
  refine ⟨reads_level_of_next hp hnext.reads, ?_⟩
  have hreads : Reads (operationStep expression p) fun _ t =>
      ∀ s, Phrase p s → Phrase p (s ++ t) := by
    refine (reads_operator p).bind fun op t₁ ⟨hop, h₁⟩ => hnext.reads.bind fun r t₂ h₂ =>
      .pure fun s hs => ?_
    subst hop
    rw [List.append_nil]
    exact hs.operation h₁ ⟨r, h₂⟩
  have hstep : Reaches (operationStep expression p) (Continues p) := by
    refine .bind (reaches_operator _ (continues_nil p)) (reads_operator p)
      fun op t₁ ⟨hop, h₁⟩ => .bind_left (hnext.reaches.mono fun t₂ h₂ s hs => ?_) fun _ => .pure
    subst hop
    exact h₂.last_of_three fun u hu => hs.operation h₁ hu
  -- Operations group from the left: those before a step are its left operand.
  have hsteps := reaches_many_of_continues hstep hreads
  rw [levelRule_eq expression hp]
  refine .bind (hnext.reaches.mono fun t ht => ht.mono fun _ => .tighter) hnext.reads
    fun e s hs => ?_
  exact (hsteps.mono fun t ht => ht s (.tighter ⟨e, hs⟩)).bind_left fun _ => .pure

/-- All levels of operators reach only beginnings of their expressions. -/
theorem levelReaches_nullish : LevelReaches expression .nullish :=
  Precedence.of_next (P := LevelReaches expression) ⟨reads_unary hex, reaches_unary hex hreach⟩
    (fun _ hp hnext => hnext.of_next hp) (List.cons_ne_nil _ _)

/-! ## Branches -/

/-- Behind a condition the branches may be left incomplete. -/
theorem reaches_branches {s : List Char} (hs : Phrase .nullish s) :
    Reaches (branches expression) fun t => Viable (Phrase .ternary) (s ++ t) := by
  obtain ⟨c, hc⟩ := hs
  have hmark : Reaches questionMark fun t => Viable (Phrase .ternary) (s ++ t) :=
    .bind_left .symbol fun _ => .guard
  refine .bind hmark reads_questionMark fun _ s₁ h₁ => .bind (hreach.mono fun t ht => ?_) hex
    fun t s₂ h₂ => .after_symbol fun _ s₃ h₃ =>
    .bind_left (hreach.mono fun u hu => ?_) fun _ => .pure
  · -- The colon and the second branch are still to come.
    rw [← List.append_assoc]
    refine ht.within ?_
    rintro u ⟨t, ht⟩
    obtain ⟨e, he⟩ := phrase_ternary_a
    refine ⟨[':', 'a'], .ternary c t e .none, ?_⟩
    have hcolon : [':', 'a'] = [':'] ++ ['a'] := rfl
    simp only [List.append_assoc, hcolon]
    exact .ternary hc h₁ ht (token_self _) he
  · simp only [← List.append_assoc]
    refine hu.within ?_
    rintro v ⟨e, he⟩
    refine .of ⟨.ternary c t e .none, ?_⟩
    simp only [List.append_assoc]
    exact .ternary hc h₁ h₂ h₃ he

/-- What is reported within a ternary lies in the condition, or in branches that can be
completed. -/
theorem reaches_ternary : Reaches (ternary expression) (Viable (Phrase .ternary)) := by
  have hcondition := levelReaches_nullish hex hreach
  refine .after_position fun _ => .bind (hcondition.reaches.mono fun t ht => ?_) hcondition.reads
    fun c s hs => .bind_left (.optional (reaches_branches hex hreach ⟨c, hs⟩)) fun x => ?_
  · exact ht.mono fun _ => .tighter (p := .ternary)
  · cases x with
    | none => exact .pure
    | some x => exact .after_position fun _ => .pure

end

/-! ## Whole expressions -/

/-- Before a place that is reported there is the beginning of an expression. -/
theorem reaches_expressionUpTo (depth : Nat) :
    Reaches (expressionUpTo depth) (Viable (Phrase .ternary)) := by
  induction depth with
  | zero => exact .never
  | succ depth ih => exact reaches_ternary (reads_expressionUpTo depth) ih

/-- What is written in the grammar is read. -/
theorem Phrase.readable {blanks s : List Char} (hblanks : Blanks blanks) (h : Phrase .ternary s) :
    Readable (blanks ++ s) := by
  obtain ⟨e, he⟩ := h
  obtain ⟨t, ht, -⟩ := parse_of_sourceOf ⟨blanks, s, hblanks, he, rfl⟩
  exact ⟨t, ht⟩

/-- The place of a syntax error lies behind a text that can be continued to an expression. -/
theorem exists_viable_of_parse_error {text : List Char} {err : SyntaxError}
    (h : parse text = .error err) :
    ∃ before, before <+: text ∧ err.pos = Position.advanceBy {} before ∧
      Viable Readable before := by
  have hprogram : Reaches (do
      let e ← expressionUpTo ((Cursor.start text).rest.length + 1)
      endOfText
      return e : Rule Expr) (Viable (Phrase .ternary)) := by
    -- Where the text should end and does not, there is an expression already.
    refine .bind (reaches_expressionUpTo _) (reads_expressionUpTo _) fun e s hs => ?_
    refine .bind_left (.named .guard ?_) fun _ => .pure
    rw [List.append_nil]
    exact .of ⟨e, hs⟩
  have hpos : err.pos = (program (.start text)).reach := by
    unfold parse at h
    generalize program (.start text) = reply at h ⊢
    obtain ⟨found, reach⟩ := reply
    cases found with
    | none =>
      cases h
      rfl
    | some x => cases h
  obtain ⟨blanks, hblanks, hpasses⟩ := (Cursor.start text).exists_passes_skipBlanks
  have hbehind : (Cursor.start text).Behind (Viable Readable) (program (.start text)).reach := by
    refine hpasses.behind ((hprogram.behind _).mono fun s hs => ?_)
    exact hs.within fun u hu => .of (hu.readable hblanks)
  rcases hbehind with hreach | ⟨before, hpre, hreach, hviable⟩
  · -- Any expression is a continuation of the empty text.
    have hempty : Readable (['a'] : List Char) := phrase_ternary_a.readable blanks_nil
    exact ⟨[], List.nil_prefix, hpos.trans hreach, ['a'], hempty⟩
  · exact ⟨before, hpre, hpos.trans hreach, hviable⟩

end Syntax

namespace Expr

open Syntax

/-- The first `n` characters of a source text can be continued to one that is read. -/
def Continuable (source : String) (n : Nat) : Prop :=
  ∃ rest e, Expr.parse (String.ofList (source.toList.take n) ++ rest) = .ok e

/-- A source can be continued where the text before is viable. -/
theorem continuable_of_viable {source : String} {n : Nat}
    (h : Viable Readable (source.toList.take n)) : Continuable source n := by
  obtain ⟨rest, e, he⟩ := h
  refine ⟨String.ofList rest, e, ?_⟩
  rwa [Expr.parse, String.toList_append, String.toList_ofList, String.toList_ofList]

/-- Where a source text cannot be read, what is reported are the line and the column of a place in
it, and the text before that place can be continued to one that is read. So the place is not behind
the first mistake: a beginning of the text that no continuation helps is longer. -/
theorem parse_error_viable (source : String) (err : SyntaxError)
    (h : Expr.parse source = .error err) :
    ∃ n ≤ source.length, err.pos.At source.toList n ∧ Continuable source n ∧
      ∀ m, ¬ Continuable source m → n < m := by
  obtain ⟨before, ⟨after, htext⟩, hpos, hviable⟩ := exists_viable_of_parse_error h
  have htake : source.toList.take before.length = before := by rw [← htext, List.take_left]
  refine ⟨before.length, ?_, ?_, ?_, fun m hm => ?_⟩
  · rw [← String.length_toList, ← htext, List.length_append]
    exact Nat.le_add_right _ _
  · rw [hpos, ← htext]
    exact Position.at_advanceBy before after
  · exact continuable_of_viable (by rwa [htake])
  · -- A shorter beginning of the text is a beginning of the text before the place.
    refine Nat.lt_of_not_le fun hle => hm (continuable_of_viable ?_)
    refine Viable.of_append (t := before.drop m) ?_
    rwa [← htext, List.take_append_of_le_length hle, List.take_append_drop]

/-- An optional link whose name is missing: the place lies where the name should be, although the
question mark is then taken for the one of a choice, which fails earlier. -/
theorem parse_error_viable_missingName :
    Expr.parse "[f(a),\n\x7bk: y ?. 1\x7d]" = .error ⟨⟨16, 1, 9⟩⟩ ∧
      ∃ n ≤ "[f(a),\n\x7bk: y ?. 1\x7d]".length,
        (⟨16, 1, 9⟩ : Position).At "[f(a),\n\x7bk: y ?. 1\x7d]".toList n ∧
        Continuable "[f(a),\n\x7bk: y ?. 1\x7d]" n ∧
        ∀ m, ¬ Continuable "[f(a),\n\x7bk: y ?. 1\x7d]" m → n < m := by
  have herror : (match Expr.parse "[f(a),\n\x7bk: y ?. 1\x7d]" with
      | .ok _ => none
      | .error err => some err) = some ⟨⟨16, 1, 9⟩⟩ := by decide +kernel
  have hparse : Expr.parse "[f(a),\n\x7bk: y ?. 1\x7d]" = .error ⟨⟨16, 1, 9⟩⟩ := by
    revert herror
    cases Expr.parse "[f(a),\n\x7bk: y ?. 1\x7d]" with
    | ok e =>
      intro herror
      cases herror
    | error err =>
      intro herror
      rw [Option.some.inj herror]
  exact ⟨hparse, parse_error_viable _ _ hparse⟩

end Expr

end TemplateFlow
