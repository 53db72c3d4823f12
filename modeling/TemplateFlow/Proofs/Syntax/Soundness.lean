import TemplateFlow.Proofs.Syntax.Level
import TemplateFlow.Proofs.Syntax.Word

/-!
# What is read is written in the grammar

Whatever a rule of the grammar finds, the text it has read is a writing of the tree it has built
(`reads_expressionUpTo`), and a text that is read as a whole is a source of the tree
(`sourceOf_of_parse`). Each rule is followed through its parts; a rule that nests whole expressions
is given that the rule for these has the property.
-/

namespace TemplateFlow

namespace Syntax

open Rule

/-! ## Tokens -/

/-- An identifier is read as the word that stands there, with blanks behind it. -/
theorem reads_identifier :
    Reads identifier fun x s => ∃ w, IsIdentifier w ∧ x.1 = String.ofList w ∧ Token w s :=
  .named (.map (.mono (.lexeme fun _ _ => scanIdentifier?_sound) fun _ _ ⟨hw, ht⟩ =>
    ⟨_, hw, rfl, ht⟩))

/-- A name may be a reserved word, unlike an identifier. -/
theorem reads_name : Reads name fun x s => ∃ w, IsName w ∧ x.1 = String.ofList w ∧ Token w s :=
  .named (.map (.mono (.lexeme fun _ _ => scanName?_sound) fun _ _ ⟨hw, ht⟩ => ⟨_, hw, rfl, ht⟩))

/-- The number read is the one its digits denote. -/
theorem reads_number : Reads number fun x s => ∃ w, IsNumber w ∧ x.1 = numberOf w ∧ Token w s :=
  .named (.map (.mono (.lexeme fun _ _ => scanNumber?_sound) fun _ _ ⟨hw, ht⟩ => ⟨_, hw, rfl, ht⟩))

/-- The string read is what the contents between the quotation marks stand for. -/
theorem reads_string :
    Reads string fun x s => ∃ content w, IsString content w ∧
      x.1 = String.ofList (unescape content) ∧ Token w s :=
  .named (.map (.mono (.lexeme fun _ _ => scanString?_sound) fun _ _ ⟨hw, ht⟩ =>
    ⟨_, _, hw, rfl, ht⟩))

/-- A reserved word is read as the literal that it spells. -/
theorem reads_keyword {word : String} {v : Literal} (hv : Spells v word.toList) :
    Reads (keyword word v) fun e s => Written (.phrase .primary e.bare) s := by
  refine .named (.map (.mono (.lexeme fun _ _ => scanKeyword?_sound) ?_))
  rintro ⟨w, span⟩ s ⟨rfl, ht⟩
  exact .literal hv ht

/-- A literal is read by whichever of its six rules finds something. -/
theorem reads_literal : Reads literal fun e s => Written (.phrase .primary e.bare) s := by
  refine .firstOf fun r hr => ?_
  simp only [List.mem_cons, List.not_mem_nil, or_false] at hr
  rcases hr with rfl | rfl | rfl | rfl | rfl | rfl
  · refine .map (reads_number.mono ?_)
    rintro ⟨n, span⟩ s ⟨w, hw, rfl, ht⟩
    exact .literal (.num hw) ht
  · refine .map (reads_string.mono ?_)
    rintro ⟨n, span⟩ s ⟨content, w, hw, rfl, ht⟩
    exact .literal (.str hw) ht
  · exact reads_keyword .true
  · exact reads_keyword .false
  · exact reads_keyword .null
  · exact reads_keyword .undefined

/-- The key of a property is an identifier, a number or a string. -/
theorem reads_propertyKey :
    Reads propertyKey fun x s => ∃ w, SpellsKey x.1 w ∧ Token w s := by
  refine .named (.firstOf fun r hr => ?_)
  simp only [List.mem_cons, List.not_mem_nil, or_false] at hr
  rcases hr with rfl | rfl | rfl
  · refine reads_string.mono ?_
    rintro ⟨k, span⟩ s ⟨content, w, hw, rfl, ht⟩
    exact ⟨w, .str hw, ht⟩
  · refine .map (reads_number.mono ?_)
    rintro ⟨n, span⟩ s ⟨w, hw, rfl, ht⟩
    exact ⟨w, .num hw, ht⟩
  · refine reads_name.mono ?_
    rintro ⟨k, span⟩ s ⟨w, hw, rfl, ht⟩
    exact ⟨w, .name hw, ht⟩

/-- One or more findings with commas between, where `Q` says how such a list is put together. -/
theorem reads_commaList {α : Type} {r : Rule α} {P : α → List Char → Prop}
    {Q : List α → List Char → Prop} (hr : Reads r P) (hone : ∀ a s, P a s → Q [a] s)
    (hmore : ∀ a s t as u, P a s → Token [','] t → Q as u → Q (a :: as) (s ++ (t ++ u))) :
    Reads (commaList r) fun as s => ∃ s₁ s₂, s = s₁ ++ s₂ ∧ Q as s₁ ∧ TrailingComma s₂ := by
  have hitem : Reads (do let _ ← symbol ","; r) fun a s =>
      ∃ s₁ s₂, s = s₁ ++ s₂ ∧ Token [','] s₁ ∧ P a s₂ :=
    (Reads.symbol ",").bind fun _ s₁ h₁ => hr.mono fun a s₂ h₂ => ⟨s₁, s₂, rfl, h₁, h₂⟩
  -- What the repetition reads is a list only together with the item before it.
  have hmany : Reads (many (do let _ ← symbol ","; r)) fun as t =>
      ∀ a s, P a s → Q (a :: as) (s ++ t) := by
    refine hitem.many (fun a s ha => ?_) ?_
    · rw [List.append_nil]
      exact hone a s ha
    · rintro b t as u ⟨t₁, t₂, rfl, ht₁, hb⟩ has a s ha
      rw [List.append_assoc]
      exact hmore a s t₁ (b :: as) (t₂ ++ u) ha ht₁ (has b t₂ hb)
  refine hr.bind fun a s ha => hmany.bind fun as t has => ?_
  have hcomma : Reads (Rule.optional (symbol ",")) fun _ u => TrailingComma u :=
    .optional ((Reads.symbol ",").mono fun _ _ h => .inr h) (.inl rfl)
  refine hcomma.bind fun _ u hu => .pure ⟨s ++ t, u, ?_, has a s ha, hu⟩
  simp [List.append_assoc]

/-! ## Primary expressions -/

section

variable {expression : Rule Expr}
  (hex : Reads expression fun e s => Written (.phrase .ternary e.bare) s)

include hex

/-- What is found between the brackets of a list is its elements; nothing found is none. -/
theorem reads_elements :
    Reads (Rule.optional (commaList expression)) fun es s =>
      Written (.elements (Expr.bareAll (es.getD []))) s := by
  refine .optional ?_ .noElements
  refine (reads_commaList (Q := fun es s => Written (.items (Expr.bareAll es)) s) hex
    (fun e s he => .oneItem he) fun e s t es u he ht hes => .moreItems he ht hes).mono ?_
  rintro es s ⟨s₁, s₂, rfl, hes, hs⟩
  exact .elements hes hs

/-- Parentheses leave no trace in the tree, but in the text they make any expression a primary
one. -/
theorem reads_parenthesized :
    Reads (parenthesized expression) fun e s => Written (.phrase .primary e.bare) s := by
  refine (Reads.symbol "(").bind fun _ s₁ h₁ => hex.bind fun e s₂ h₂ =>
    (Reads.symbol ")").bind fun _ s₃ h₃ => .pure ?_
  rw [List.append_nil]
  exact .parenthesized h₁ h₂ h₃

/-- A list is its elements and the brackets around them. -/
theorem reads_list :
    Reads (list expression) fun e s => Written (.phrase .primary e.bare) s := by
  refine .after_position fun first =>
    (Reads.symbol "[").bind fun _ s₁ h₁ => (reads_elements hex).bind fun es s₂ h₂ =>
    (Reads.symbol "]").bind fun last s₃ h₃ => .pure ?_
  rw [List.append_nil]
  exact .list h₁ h₂ h₃

/-- A property has a value of its own, or is the identifier that is its key. -/
theorem reads_property :
    Reads (property expression) fun p s => Written (.property p.1 p.2.2.bare) s := by
  refine .named (.orElse (.named ?_) (.map (reads_identifier.mono ?_)))
  · refine reads_propertyKey.bind fun key s₁ ⟨w, hw, h₁⟩ =>
      (Reads.symbol ":").bind fun _ s₂ h₂ => hex.bind fun value s₃ h₃ => .pure ?_
    rw [List.append_nil]
    exact .keyed hw h₁ h₂ h₃
  · rintro ⟨k, span⟩ s ⟨w, hw, rfl, ht⟩
    exact .shorthand hw ht

/-- What is found between the braces of an object is its properties; nothing found is none. -/
theorem reads_members :
    Reads (Rule.optional (commaList (property expression))) fun ps s =>
      Written (.members (Expr.bareProperties (ps.getD []))) s := by
  refine .optional ?_ .noMembers
  refine (reads_commaList (Q := fun ps s => Written (.properties (Expr.bareProperties ps)) s)
    (reads_property hex) (fun p s hp => .oneProperty hp)
    fun p s t ps u hp ht hps => .moreProperties hp ht hps).mono ?_
  rintro ps s ⟨s₁, s₂, rfl, hps, hs⟩
  exact .members hps hs

/-- An object is its properties and the braces around them. -/
theorem reads_object :
    Reads (object expression) fun e s => Written (.phrase .primary e.bare) s := by
  refine .after_position fun first =>
    (Reads.symbol "\x7b").bind fun _ s₁ h₁ => (reads_members hex).bind fun ps s₂ h₂ =>
    (Reads.symbol "\x7d").bind fun last s₃ h₃ => .pure ?_
  rw [List.append_nil]
  exact .object h₁ h₂ h₃

/-- A primary expression is one of its five kinds, whichever is found first. -/
theorem reads_primary :
    Reads (primary expression) fun e s => Written (.phrase .primary e.bare) s := by
  refine .named (.firstOf fun r hr => ?_)
  simp only [List.mem_cons, List.not_mem_nil, or_false] at hr
  rcases hr with rfl | rfl | rfl | rfl | rfl
  · exact reads_literal
  · exact reads_object hex
  · exact reads_list hex
  · refine .map (reads_identifier.mono ?_)
    rintro ⟨k, span⟩ s ⟨w, hw, rfl, ht⟩
    exact .ident hw ht
  · exact reads_parenthesized hex

/-! ## Chains -/

/-- The text of a link after a chain is a writing of the chain that the link makes of it. -/
def Extends (l : Link) (t : List Char) : Prop :=
  ∀ (e : Expr) (span : Span) (s : List Char), Written (.phrase .chain e.bare) s →
    Written (.phrase .chain (l.apply e span).bare) (s ++ t)

/-- The arguments of a call are elements like those of a list, up to the parenthesis. -/
theorem reads_arguments :
    Reads (arguments expression) fun x s => ∃ s₁ s₂, s = s₁ ++ s₂ ∧
      Written (.elements (Expr.bareAll x.1)) s₁ ∧ Token [')'] s₂ := by
  refine (reads_elements hex).bind fun es s₁ h₁ => (Reads.symbol ")").bind fun last s₂ h₂ =>
    .pure ⟨s₁, s₂, by simp, h₁, h₂⟩

/-- An index is any expression, up to the bracket. -/
theorem reads_bracketed :
    Reads (bracketed expression) fun x s => ∃ s₁ s₂, s = s₁ ++ s₂ ∧
      Written (.phrase .ternary x.1.bare) s₁ ∧ Token [']'] s₂ := by
  refine hex.bind fun e s₁ h₁ => (Reads.symbol "]").bind fun last s₂ h₂ =>
    .pure ⟨s₁, s₂, by simp, h₁, h₂⟩

omit hex in
/-- The opening symbols of a link: its bracket, with a mark before it if the link is optional. -/
theorem reads_opening (bracket : String) (isOptional : Bool) :
    Reads (((if isOptional then ["?.", bracket] else [bracket]).forM fun s => do
        let _ ← symbol s : Rule Unit)) fun _ t =>
      ∃ t₁ t₂, t = t₁ ++ t₂ ∧ Mark isOptional t₁ ∧ Token bracket.toList t₂ := by
  cases isOptional with
  | true =>
    refine Reads.bind (P := fun _ s => Token "?.".toList s)
      ((Reads.symbol "?.").bind fun _ s h => .pure (by simpa using h)) fun _ s₁ h₁ => ?_
    refine Reads.bind (P := fun _ s => Token bracket.toList s)
      ((Reads.symbol bracket).bind fun _ s h => .pure (by simpa using h)) fun _ s₂ h₂ => ?_
    exact .pure ⟨s₁, s₂, by simp, h₁, h₂⟩
  | false =>
    refine Reads.bind (P := fun _ s => Token bracket.toList s)
      ((Reads.symbol bracket).bind fun _ s h => .pure (by simpa using h)) fun _ s h => ?_
    exact .pure ⟨[], s, by simp, rfl, h⟩

/-- A call extends the chain in front of it by its arguments. -/
theorem reads_callLink (isOptional : Bool) :
    Reads (callLink expression (if isOptional then ["?.", "("] else ["("]) isOptional) Extends := by
  refine .after_position fun first =>
    (reads_opening "(" isOptional).bind fun _ t ⟨t₁, t₂, ht, h₁, h₂⟩ =>
    (reads_arguments hex).bind fun x u ⟨u₁, u₂, hu, h₃, h₄⟩ => .pure ?_
  intro e span s he
  subst ht hu
  have := Written.call he h₁ h₂ h₃ h₄
  simpa [Expr.bare, List.append_assoc] using this

/-- An index extends the chain in front of it by an expression in brackets. -/
theorem reads_indexLink (isOptional : Bool) :
    Reads (indexLink expression (if isOptional then ["?.", "["] else ["["]) isOptional)
      Extends := by
  refine .after_position fun first =>
    (reads_opening "[" isOptional).bind fun _ t ⟨t₁, t₂, ht, h₁, h₂⟩ =>
    (reads_bracketed hex).bind fun x u ⟨u₁, u₂, hu, h₃, h₄⟩ => .pure ?_
  intro e span s he
  subst ht hu
  have := Written.index he h₁ h₂ h₃ h₄
  simpa [Expr.bare, List.append_assoc] using this

omit hex in
/-- A member extends the chain in front of it by a name, which may be a reserved word. -/
theorem reads_memberLink (isOptional : Bool) :
    Reads (memberLink (if isOptional then "?." else ".") isOptional) Extends := by
  refine .after_position fun first =>
    (Reads.symbol _).bind fun _ t h₁ => reads_name.bind fun x u ⟨w, hw, hx, h₂⟩ => .pure ?_
  intro e span s he
  have hdot : Dot isOptional t := by cases isOptional <;> exact h₁
  have := Written.member he hdot hw h₂
  simpa [Expr.bare, List.append_assoc, hx] using this

/-- Every link extends the chain in front of it, optional or not. -/
theorem reads_link : Reads (link expression) Extends := by
  refine .named (.firstOf fun r hr => ?_)
  simp only [List.mem_cons, List.not_mem_nil, or_false] at hr
  rcases hr with rfl | rfl | rfl | rfl | rfl | rfl
  · exact reads_callLink hex true
  · exact reads_indexLink hex true
  · exact reads_memberLink true
  · exact reads_callLink hex false
  · exact reads_indexLink hex false
  · exact reads_memberLink false

/-- A chain is a primary expression that is extended link by link. -/
theorem reads_chain :
    Reads (chain expression) fun x s => Written (.phrase .chain x.1.bare) s := by
  -- Any chain to which the text of the links is appended becomes the chain with these links.
  have hlinks : Reads (many (link expression)) fun links t => ∀ e s,
      Written (.phrase .chain e.bare) s →
        Written (.phrase .chain (applyLinks e links).bare) (s ++ t) := by
    refine (reads_link hex).many (fun e s he => by simpa [applyLinks] using he) ?_
    intro l t links u hl hlinks e s he
    rw [← List.append_assoc]
    exact hlinks _ _ (hl e _ s he)
  refine (reads_primary hex).bind fun base s hbase => hlinks.bind fun links t ht =>
    .after_position fun after => .pure ?_
  simpa using ht base s (.tighter hbase)

/-! ## Operators -/

omit hex in
/-- A prefix operator is read as the one whose spelling stands there. -/
theorem reads_prefixOperator :
    Reads prefixOperator fun x s => Token (prefixSpelling x.1).toList s := by
  refine .after_position fun first => ?_
  refine Reads.bind (P := fun op s => Token (prefixSpelling op).toList s)
    (.firstOf fun r hr => ?_) fun op s h => .pure (by simpa using h)
  simp only [List.mem_cons, List.not_mem_nil, or_false] at hr
  rcases hr with rfl | rfl | rfl
  · -- That no equals sign follows takes up no text.
    refine .named ((Reads.symbol "!").bind fun _ s h =>
      (Reads.guard (P := fun _ s => s = []) rfl).bind fun _ t ht => .pure ?_)
    subst ht
    rwa [List.append_nil, List.append_nil]
  · exact .named ((Reads.symbol "-").bind fun _ s h => .pure (by rwa [List.append_nil]))
  · exact .named ((Reads.symbol "+").bind fun _ s h => .pure (by rwa [List.append_nil]))

/-- Prefix operators apply from the inside to the outside, whatever their number. -/
theorem reads_unary :
    Reads (unary expression) fun e s => Written (.phrase .unary e.bare) s := by
  -- The operators apply from the inside out, to whatever operand stands after all of them.
  have hops : Reads (many prefixOperator) fun ops t => ∀ (e : Expr) (last : Position) s,
      Written (.phrase .unary e.bare) s →
        Written (.phrase .unary
          (ops.foldr (fun op e => Expr.unary op.1 e ⟨op.2, last⟩) e).bare) (t ++ s) := by
    refine reads_prefixOperator.many (fun e last s he => he) ?_
    intro x t ops u hx hops e last s he
    rw [List.append_assoc]
    exact .prefixed hx (hops e last s he)
  refine hops.bind fun ops t ht => (reads_chain hex).bind fun x s hx => .pure ?_
  rw [List.append_nil]
  exact ht x.1 x.2 s (.tighter hx)

omit hex in
/-- The operators of a level are those of its precedence. -/
theorem reads_operator (p : Precedence) :
    Reads (operator p.operators) fun op s => op.precedence = p ∧ Token op.spelling.toList s := by
  refine .firstOf fun r hr => ?_
  obtain ⟨⟨text, op⟩, hmem, rfl⟩ := List.mem_map.mp hr
  obtain ⟨htext, hp⟩ := of_mem_operators hmem
  change text = op.spelling at htext
  subst htext
  exact .named ((Reads.symbol op.spelling).bind fun _ s h => .pure ⟨hp, by rwa [List.append_nil]⟩)

omit hex in
/-- A level with operators reads what it has to if the next tighter level does. -/
theorem reads_level_of_next {p : Precedence} (hp : p.operators ≠ [])
    (hnext : Reads (levelRule expression p.next) fun e s => Written (.phrase p.next e.bare) s) :
    Reads (levelRule expression p) fun e s => Written (.phrase p e.bare) s := by
  have hstep : Reads (operationStep expression p) fun x t =>
      ∃ t₁ t₂, t = t₁ ++ t₂ ∧ x.1.precedence = p ∧ Token x.1.spelling.toList t₁ ∧
        Written (.phrase p.next x.2.bare) t₂ :=
    (reads_operator p).bind fun op t₁ ⟨hop, h₁⟩ => hnext.bind fun r t₂ h₂ =>
      .pure ⟨t₁, t₂, by simp, hop, h₁, h₂⟩
  -- The left operand of a step is what the steps before it have built, so it is left open.
  have hsteps : Reads (many (operationStep expression p)) fun xs t => ∀ (e : Expr) s,
      Written (.phrase p e.bare) s →
        Written (.phrase p (xs.foldl (fun left x => x.1.apply left x.2) e).bare)
          (s ++ t) := by
    refine hstep.many (fun e s he => by simpa using he) ?_
    rintro ⟨op, r⟩ t xs u ⟨t₁, t₂, rfl, rfl, h₁, h₂⟩ hxs e s he
    rw [← List.append_assoc]
    refine hxs _ _ ?_
    rw [bare_apply]
    exact .operation he h₁ h₂
  rw [levelRule_eq expression hp]
  refine hnext.bind fun e s he => hsteps.bind fun xs t ht => .pure ?_
  rw [List.append_nil]
  exact ht e s (.tighter he)

/-- The levels follow one another, each with the next tighter one for its operands. -/
theorem reads_operation :
    Reads (levelRule expression .nullish) fun e s => Written (.phrase .nullish e.bare) s := by
  refine Precedence.of_next
    (P := fun p => Reads (levelRule expression p) fun e s => Written (.phrase p e.bare) s)
    (reads_unary hex) (fun p hp hnext => reads_level_of_next hp hnext) ?_
  exact List.cons_ne_nil _ _

omit hex in
/-- A question mark that begins a ternary is one word, like every other symbol. -/
theorem reads_questionMark : Reads questionMark fun _ s => Token ['?'] s :=
  (Reads.symbol "?").bind fun _ s h => .guard (by rwa [List.append_nil])

/-- The two branches of a ternary are whole expressions, with the colon between them. -/
theorem reads_branches :
    Reads (branches expression) fun x s => ∃ s₁ s₂ s₃ s₄, s = s₁ ++ (s₂ ++ (s₃ ++ s₄)) ∧
      Token ['?'] s₁ ∧ Written (.phrase .ternary x.1.bare) s₂ ∧ Token [':'] s₃ ∧
      Written (.phrase .ternary x.2.bare) s₄ :=
  reads_questionMark.bind fun _ s₁ h₁ => hex.bind fun t s₂ h₂ =>
    (Reads.symbol ":").bind fun _ s₃ h₃ => hex.bind fun e s₄ h₄ =>
    .pure ⟨s₁, s₂, s₃, s₄, by simp, h₁, h₂, h₃, h₄⟩

/-- A ternary is a condition with two branches, or just what could be its condition. -/
theorem reads_ternary :
    Reads (ternary expression) fun e s => Written (.phrase .ternary e.bare) s := by
  refine .after_position fun first => (reads_operation hex).bind fun c s hc => ?_
  -- What has been read so far is an expression already if no branches follow.
  refine Reads.bind (P := fun x t => Written (.phrase .ternary
      (x.elim c.bare fun y => .ternary c.bare y.1.bare y.2.bare .none)) (s ++ t))
    (.optional ((reads_branches hex).mono ?_) ?_) fun x t ht => ?_
  · rintro ⟨t, e⟩ u ⟨s₁, s₂, s₃, s₄, rfl, h₁, h₂, h₃, h₄⟩
    exact .ternary hc h₁ h₂ h₃ h₄
  · rw [List.append_nil]
    exact .tighter hc
  · -- Without branches the condition is the expression, and its span is kept.
    cases x with
    | none => exact .pure (by simpa using ht)
    | some x =>
      refine .after_position fun last => .pure ?_
      simpa [Expr.bare] using ht

end

/-! ## Whole expressions -/

/-- What is read as an expression is written as one. -/
theorem reads_expressionUpTo (depth : Nat) :
    Reads (expressionUpTo depth) fun e s => Written (.phrase .ternary e.bare) s := by
  induction depth with
  | zero =>
    intro c a c' h
    cases h
  | succ depth ih => exact reads_ternary ih

/-- A text is an expression if one is read after the blanks in front and nothing is left. -/
theorem parse_eq_ok_iff_found {text : List Char} {e : Expr} :
    parse text = .ok e ↔
      ∃ c, (expressionUpTo (text.length + 1) (Cursor.start text).skipBlanks).found = some (e, c) ∧
        c.rest = [] := by
  have hend : ∀ c : Cursor, (endOfText c).found = if c.rest = [] then some ((), c) else none := by
    intro c
    rw [endOfText, found_named, Rule.guard]
    cases c.rest <;> rfl
  -- That the text ends there decides whether the expression found first is the answer.
  have hfound : (program (.start text)).found =
      (expressionUpTo (text.length + 1) (Cursor.start text).skipBlanks).found.bind
        fun x => if x.2.rest = [] then some x else none := by
    rw [program, found_bind]
    refine Option.bind_congr fun x _ => ?_
    rw [found_bind, hend]
    split <;> rfl
  have hparse : parse text = .ok e ↔ ∃ c, (program (.start text)).found = some (e, c) := by
    unfold parse
    generalize program (.start text) = reply
    obtain ⟨found, reach⟩ := reply
    rcases found with _ | ⟨e', c⟩ <;> simp
  rw [hparse, hfound]
  simp only [Option.bind_eq_some_iff, Option.ite_none_right_eq_some, Option.some.injEq]
  constructor
  · rintro ⟨c, x, hx, hrest, rfl⟩
    exact ⟨c, hx, hrest⟩
  · rintro ⟨c, hx, hrest⟩
    exact ⟨c, (e, c), hx, hrest, rfl⟩

/-- A text that is read as a whole is a source of the tree. -/
theorem sourceOf_of_parse {text : List Char} {e : Expr} (h : parse text = .ok e) :
    SourceOf e.bare text := by
  obtain ⟨c, hc, hend⟩ := parse_eq_ok_iff_found.mp h
  obtain ⟨blanks, hb, htext⟩ := exists_blanks_skipBlanks (.start text)
  obtain ⟨s, hs, hw⟩ := reads_expressionUpTo _ hc
  rw [hend, List.append_nil] at hs
  rw [hs] at htext
  exact ⟨blanks, s, hb, hw, htext⟩

end Syntax

end TemplateFlow
