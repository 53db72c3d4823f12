import TemplateFlow.Proofs.Expr.Unknown
import TemplateFlow.Proofs.Syntax.Follow
import TemplateFlow.Proofs.Syntax.Level
import TemplateFlow.Proofs.Syntax.Place
import TemplateFlow.Proofs.Syntax.Soundness

/-!
# The spans of an expression

The spans that reading gives to the nodes of a tree fit the text (`Expr.parse_fits`): every span is
one of the text, covers the spans of what the node is made of, and these lie one after the other in
the order of the text; where a span is that of a name or of a keyword, the text has just that word
there.

Spans come about in two ways. Lexemes, lists, objects, prefix operations and ternaries start and end
where the reading does, which may be after blanks. Operations and links of a chain cover the spans
of their parts, which leaves out parentheses. Both ways only need the parts to lie in order between
the two places (`Sits`), and that is what each rule hands on to the next.

## Main definitions

* `Expr.partSpans`: the spans of what a node is made of, in the order of the text.
* `Expr.Fits`: a node has a span that fits the text and its parts.
-/

namespace TemplateFlow

/-- The keyword that stands for a literal. -/
def Literal.keyword? : Literal → Option String
  | .undefined => some "undefined"
  | .null => some "null"
  | .bool true => some "true"
  | .bool false => some "false"
  | .num _ => none
  | .str _ => none

namespace Expr

/-! ## Parts -/

/-- A property that is written as an identifier, which is its key and its value at once. -/
def isShorthand : String × Span × Expr → Bool
  | (key, keySpan, .ident name span) => key = name && keySpan = span
  | _ => false

/-- The spans of the key and of the value of a property; for a shorthand they are one. -/
def propertySpans (x : String × Span × Expr) : List Span :=
  if isShorthand x then [x.2.1] else [x.2.1, x.2.2.span]

/-- The spans of what a node is made of, in the order in which it stands in the text. -/
def partSpans : Expr → List Span
  | .literal _ _ => []
  | .list es _ => es.map span
  | .object ps _ => ps.flatMap propertySpans
  | .ident _ _ => []
  | .member o _ propertySpan _ _ => [o.span, propertySpan]
  | .index o i _ _ => [o.span, i.span]
  | .call f as _ _ => f.span :: as.map span
  | .unary _ e _ => [e.span]
  | .binary _ l r _ => [l.span, r.span]
  | .logical _ l r _ => [l.span, r.span]
  | .ternary c t e _ => [c.span, t.span, e.span]

/-- The spans of the names in a node that are no operands: those of a property and of keys. -/
def nameSpans : Expr → List Span
  | .member _ _ propertySpan _ _ => [propertySpan]
  | .object ps _ => ps.map (·.2.1)
  | _ => []

/-- The word that a node is known to be written with, and its span. -/
def spelled? : Expr → Option (Span × String)
  | .literal v span => v.keyword?.map fun word => (span, word)
  | .ident name span => some (span, name)
  | .member _ property propertySpan _ _ => some (propertySpan, property)
  | _ => none

/-- The spans of a property are those of its key and of its value. -/
theorem mem_propertySpans {x : String × Span × Expr} {s : Span} :
    s ∈ propertySpans x ↔ s = x.2.1 ∨ s = x.2.2.span := by
  rw [propertySpans]
  split
  · rename_i h
    obtain ⟨key, keySpan, value⟩ := x
    have hspan : value.span = keySpan := by
      cases value with
      | ident name span =>
        simp only [isShorthand, Bool.and_eq_true, decide_eq_true_eq] at h
        exact h.2.symm
      | _ => cases h
    simp [hspan]
  · simp

/-- What a node is made of are its operands and the names that are none. -/
theorem mem_partSpans {e : Expr} {s : Span} :
    s ∈ e.partSpans ↔ (∃ c ∈ e.children, c.span = s) ∨ s ∈ e.nameSpans := by
  cases e with
  | object ps t =>
    simp only [partSpans, children, nameSpans, List.mem_flatMap, mem_propertySpans, List.mem_map]
    constructor
    · rintro ⟨x, hx, rfl | rfl⟩
      · exact .inr ⟨x, hx, rfl⟩
      · exact .inl ⟨_, ⟨x, hx, rfl⟩, rfl⟩
    · rintro (⟨_, ⟨x, hx, rfl⟩, rfl⟩ | ⟨x, hx, rfl⟩)
      · exact ⟨x, hx, .inr rfl⟩
      · exact ⟨x, hx, .inl rfl⟩
  | _ => simp [partSpans, children, nameSpans, eq_comm]

/-! ## Fitting nodes -/

/-- The spans of a node fit the text: they are spans of the text; that of the node covers all
others; what the node is made of lies one after the other; and a name or a keyword is what the text
has there. -/
structure Fits (source : String) (e : Expr) : Prop where
  span_placed : e.span.Placed source
  names_placed : ∀ s ∈ e.nameSpans, s.Placed source
  contains_children : ∀ c ∈ e.children, e.span.Contains c.span
  contains_names : ∀ s ∈ e.nameSpans, e.span.Contains s
  parts_pairwise : e.partSpans.Pairwise Span.Before
  cut_spelled : ∀ x ∈ e.spelled?, x.1.cut source = x.2

/-- All nodes of a tree fit the text. -/
def AllFit (source : String) (e : Expr) : Prop := ∀ n ∈ e.subexpressions, n.Fits source

/-- A tree all of whose nodes fit fits itself. -/
theorem AllFit.fits {source : String} {e : Expr} (h : e.AllFit source) : e.Fits source :=
  h e (by rw [subexpressions_eq]; exact List.mem_cons_self)

/-- A node whose parts lie in order between its start and its end fits the text. -/
theorem AllFit.node {source : String} {e : Expr} (hspan : e.span.Placed source)
    (hchildren : ∀ c ∈ e.children, c.AllFit source) (hnames : ∀ s ∈ e.nameSpans, s.Placed source)
    (horder : InOrder e.span.first e.partSpans e.span.last)
    (hspelled : ∀ x ∈ e.spelled?, x.1.cut source = x.2) : e.AllFit source := by
  have hparts : ∀ s ∈ e.partSpans, s.Placed source := by
    intro s hs
    rcases mem_partSpans.mp hs with ⟨c, hc, rfl⟩ | hs
    · exact (hchildren c hc).fits.span_placed
    · exact hnames s hs
  obtain ⟨hbounds, hpairs, -⟩ := horder.bounds_pairwise fun s hs => (hparts s hs).first_lt_last
  have hfits : e.Fits source :=
    { span_placed := hspan
      names_placed := hnames
      contains_children := fun c hc => hbounds c.span (mem_partSpans.mpr (.inl ⟨c, hc, rfl⟩))
      contains_names := fun s hs => hbounds s (mem_partSpans.mpr (.inr hs))
      parts_pairwise := hpairs
      cut_spelled := hspelled }
  -- The nodes below fit by themselves, so only this one was left.
  intro n hn
  rw [subexpressions_eq, List.mem_cons, List.mem_flatMap] at hn
  rcases hn with rfl | ⟨c, hc, hn⟩
  · exact hfits
  · exact hchildren c hc n hn

end Expr

namespace Syntax

open Rule

/-- A tree all nodes of which fit the text, between two places. -/
def Sits (source : String) (p : Position) (e : Expr) (q : Position) : Prop :=
  e.AllFit source ∧ InOrder p [e.span] q

variable {source : String} {p q : Position}

/-- What sits in a stretch of the source sits in every longer one. -/
theorem Sits.widen {p' q' : Position} {e : Expr} (h : Sits source p e q)
    (hp : p'.offset ≤ p.offset) (hq : q.offset ≤ q'.offset) : Sits source p' e q' :=
  ⟨h.1, h.2.widen hp hq⟩

/-- The span of a tree that sits in the source lies in the source. -/
theorem Sits.placed {e : Expr} (h : Sits source p e q) : e.span.Placed source :=
  h.1.fits.span_placed

/-- No tree sits in an empty stretch of the source. -/
theorem Sits.lt {e : Expr} (h : Sits source p e q) : p.offset < q.offset :=
  h.2.1.trans_lt (h.placed.first_lt_last.trans_le h.2.2)

/-! ## Tokens -/

/-- A name is not empty, since it has a first character of its own kind. -/
theorem IsName.ne_nil {w : List Char} (h : IsName w) : w ≠ [] := by
  obtain ⟨c, t, rfl, -⟩ := h
  exact List.cons_ne_nil c t

/-- A number is not empty, since it has a digit on one side of the point at least. -/
theorem IsNumber.ne_nil {w : List Char} (h : IsNumber w) : w ≠ [] := by
  obtain ⟨c, t, rfl, -⟩ := h.exists_cons
  exact List.cons_ne_nil c t

/-- A string is not empty, since it has its quotation marks. -/
theorem IsString.ne_nil {content w : List Char} (h : IsString content w) : w ≠ [] := by
  obtain ⟨quote, -, -, rfl⟩ := h
  exact List.cons_ne_nil _ _

/-- A span of the text between two places. -/
def Covers (source : String) (p : Position) (span : Span) (q : Position) : Prop :=
  span.Placed source ∧ InOrder p [span] q

/-- The span of an identifier is that of the word, and the word can be cut out again. -/
theorem lands_identifier : Lands source p identifier fun x q =>
    Covers source p x.2 q ∧ x.2.cut source = x.1 :=
  .named (.map ((Lands.lexeme (W := IsIdentifier) (fun _ _ => scanIdentifier?_sound) fun _ h =>
    IsName.ne_nil h.1).mono fun _ _ _ _ ⟨_, hplaced, hin, hcut⟩ => ⟨⟨hplaced, hin⟩, hcut⟩))

/-- The span of a name is that of the word, and the word can be cut out again. -/
theorem lands_name : Lands source p name fun x q =>
    Covers source p x.2 q ∧ x.2.cut source = x.1 :=
  .named (.map ((Lands.lexeme (W := IsName) (fun _ _ => scanName?_sound) fun _ h =>
    IsName.ne_nil h).mono fun _ _ _ _ ⟨_, hplaced, hin, hcut⟩ => ⟨⟨hplaced, hin⟩, hcut⟩))

/-- The span of a number is that of its digits, without the blanks behind it. -/
theorem lands_number : Lands source p number fun x q => Covers source p x.2 q :=
  .named (.map ((Lands.lexeme (W := IsNumber) (fun _ _ => scanNumber?_sound) fun _ h =>
    IsNumber.ne_nil h).mono fun _ _ _ _ ⟨_, hplaced, hin, _⟩ => ⟨hplaced, hin⟩))

/-- The span of a string has the quotation marks in it. -/
theorem lands_string : Lands source p string fun x q => Covers source p x.2 q :=
  .named (.map ((Lands.lexeme (W := fun w => IsString (contentOf w) w)
    (fun _ _ => scanString?_sound) fun _ h =>
    IsString.ne_nil h).mono fun _ _ _ _ ⟨_, hplaced, hin, _⟩ => ⟨hplaced, hin⟩))

/-- A node without parts fits the text if its word is what the text has there. -/
theorem Covers.sits_leaf {e : Expr} (h : Covers source p e.span q) (hchildren : e.children = [])
    (hnames : e.nameSpans = []) (hparts : e.partSpans = [])
    (hspelled : ∀ x ∈ e.spelled?, x.1.cut source = x.2) : Sits source p e q := by
  refine ⟨.node h.1 (by simp [hchildren]) (by simp [hnames]) ?_ hspelled, h.2⟩
  rw [hparts]
  exact h.1.first_lt_last.le

/-- An identifier sits where its word stands. -/
theorem sits_ident {n : String} {s : Span} (h : Covers source p s q) (hcut : s.cut source = n) :
    Sits source p (.ident n s) q := by
  refine Covers.sits_leaf (e := .ident n s) h rfl rfl rfl fun x hx => ?_
  cases hx
  exact hcut

/-- A reserved word sits where it stands; its spelling can be cut out again. -/
theorem lands_keyword {word : String} {v : Literal} (hne : word ≠ "")
    (hv : ∀ w ∈ v.keyword?, w = word) :
    Lands source p (keyword word v) fun e q => Sits source p e q := by
  refine .named (.map ((Lands.lexeme (W := (· = word.toList)) (fun _ _ => scanKeyword?_sound)
    ?_).mono ?_))
  · rintro w rfl h
    exact hne (String.toList_eq_nil_iff.mp h)
  · rintro ⟨w, span⟩ q - - ⟨rfl, hplaced, hin, hcut⟩
    refine Covers.sits_leaf (e := .literal v span) ⟨hplaced, hin⟩ rfl rfl rfl fun x hx => ?_
    obtain ⟨w, hw, rfl⟩ := Option.map_eq_some_iff.mp hx
    rw [hv w hw]
    rwa [String.ofList_toList] at hcut

/-- A literal sits where it stands, whichever rule has found it. -/
theorem lands_literal : Lands source p literal fun e q => Sits source p e q := by
  refine .firstOf fun r hr => ?_
  simp only [List.mem_cons, List.not_mem_nil, or_false] at hr
  rcases hr with rfl | rfl | rfl | rfl | rfl | rfl
  · exact .map (lands_number.mono fun x q _ _ h =>
      Covers.sits_leaf (e := .literal (.num x.1) x.2) h rfl rfl rfl nofun)
  · exact .map (lands_string.mono fun x q _ _ h =>
      Covers.sits_leaf (e := .literal (.str x.1) x.2) h rfl rfl rfl nofun)
  · exact lands_keyword (by decide) (by rintro w ⟨⟩; rfl)
  · exact lands_keyword (by decide) (by rintro w ⟨⟩; rfl)
  · exact lands_keyword (by decide) (by rintro w ⟨⟩; rfl)
  · exact lands_keyword (by decide) (by rintro w ⟨⟩; rfl)

/-- The span of a key is that of its word, whichever kind of key it is. -/
theorem lands_propertyKey : Lands source p propertyKey fun x q => Covers source p x.2 q := by
  refine .named (.firstOf fun r hr => ?_)
  simp only [List.mem_cons, List.not_mem_nil, or_false] at hr
  rcases hr with rfl | rfl | rfl
  · exact lands_string
  · exact .map lands_number
  · exact lands_name.mono fun _ _ _ _ h => h.1

/-- Items with commas between lie in order if each lies where it is read. -/
theorem lands_commaList {α : Type} {r : Rule α} {Good : α → Prop} (spans : α → List Span)
    (hr : ∀ p, Lands source p r fun a q => Good a ∧ InOrder p (spans a) q) (p : Position) :
    Lands source p (commaList r) fun as q =>
      (∀ a ∈ as, Good a) ∧ InOrder p (as.flatMap spans) q := by
  have hitem (p : Position) : Lands source p (do let _ ← symbol ","; r) fun a q =>
      Good a ∧ InOrder p (spans a) q :=
    (Lands.symbol (by decide)).bind fun _ q hle _ _ =>
      (hr q).mono fun a q' _ _ ⟨hgood, hin⟩ => ⟨hgood, hin.widen hle le_rfl⟩
  have hrest (p : Position) : Lands source p (many (do let _ ← symbol ","; r)) fun as q =>
      (∀ a ∈ as, Good a) ∧ InOrder p (as.flatMap spans) q := by
    refine Lands.many hitem (Q := fun p as q => (∀ a ∈ as, Good a) ∧ InOrder p (as.flatMap spans) q)
      (fun p _ => ⟨by simp, le_rfl⟩) ?_ p
    intro p a q as q' _ _ ⟨hgood, hin⟩ ⟨hgoods, hins⟩
    exact ⟨List.forall_mem_cons.mpr ⟨hgood, hgoods⟩, hin.append hins⟩
  refine (hr p).bind fun a q _ _ ⟨hgood, hin⟩ => (hrest q).bind fun as q' _ _ ⟨hgoods, hins⟩ => ?_
  -- The comma that may end the list only widens the stretch.
  have hcomma : Lands source q' (Rule.optional (symbol ",")) fun _ _ => True :=
    .optional ((Lands.symbol (by decide)).mono fun _ _ _ _ _ => trivial) trivial
  exact hcomma.bind fun _ q'' hle _ _ => .pure
    ⟨List.forall_mem_cons.mpr ⟨hgood, hgoods⟩, (hin.append hins).widen le_rfl hle⟩

/-! ## Primary expressions -/

section

variable {expression : Rule Expr}
  (hex : ∀ p, Lands source p expression fun e q => Sits source p e q)

include hex

/-- The elements of a list or the arguments of a call. -/
theorem lands_elements (p : Position) :
    Lands source p (Rule.optional (commaList expression)) fun es q =>
      (∀ e ∈ es.getD [], e.AllFit source) ∧ InOrder p ((es.getD []).map Expr.span) q := by
  refine .optional ((lands_commaList (fun e => [e.span]) hex p).mono ?_) ⟨nofun, le_rfl⟩
  rintro es q - - ⟨hes, hin⟩
  rw [← List.map_eq_flatMap] at hin
  exact ⟨hes, hin⟩

/-- An expression in parentheses has its own span, without the parentheses. -/
theorem lands_parenthesized : Lands source p (parenthesized expression) fun e q =>
    Sits source p e q :=
  (Lands.symbol (by decide)).bind fun _ q₁ h₁ _ _ => (hex q₁).bind fun _ _ _ _ he =>
    (Lands.symbol (by decide)).bind fun _ _ h₂ _ _ => .pure (he.widen h₁ h₂)

/-- A list sits where its brackets are, and its items one behind the other in between. -/
theorem lands_list : Lands source p (list expression) fun e q => Sits source p e q := by
  refine .after_position fun hp => (Lands.symbol (by decide)).bind fun _ q₁ h₁ _ _ =>
    (lands_elements hex q₁).bind fun es q₂ h₂ _ ⟨hes, hin⟩ =>
    (Lands.symbol (by decide)).bind fun last q₃ _ _ ⟨hlast, hlt, hle⟩ => .pure ?_
  refine ⟨.node ⟨hp, hlast, ?_⟩ hes nofun (hin.widen h₁ hlt.le) nofun, le_rfl, hle⟩
  exact lt_of_le_of_lt (h₁.trans h₂) hlt

/-- What a property has to have in order to stand in an object. -/
def PropertyFits (source : String) (x : String × Span × Expr) : Prop :=
  x.2.1.Placed source ∧ x.2.2.AllFit source

/-- The key of a property stands in front of its value. -/
theorem lands_keyedProperty (p : Position) :
    Lands source p (keyedProperty expression) fun x q =>
      PropertyFits source x ∧ InOrder p (Expr.propertySpans x) q := by
  refine .named (lands_propertyKey.bind fun key q₁ _ _ hkey =>
    (Lands.symbol (by decide)).bind fun _ q₂ h₂ _ _ => (hex q₂).bind fun value q₃ _ _ hvalue =>
    .pure ⟨⟨hkey.1, hvalue.1⟩, ?_⟩)
  have hboth : InOrder p [key.2, value.span] q₃ :=
    hkey.2.append (hvalue.2.widen h₂ le_rfl)
  rw [Expr.propertySpans]
  split
  · exact hkey.2.widen le_rfl (h₂.trans hvalue.lt.le)
  · exact hboth

/-- The spans of a property are in order, also where the key is the value. -/
theorem lands_property (p : Position) :
    Lands source p (property expression) fun x q =>
      PropertyFits source x ∧ InOrder p (Expr.propertySpans x) q := by
  refine .named (.orElse (lands_keyedProperty hex p) (.map (lands_identifier.mono ?_)))
  rintro ⟨key, span⟩ q - - ⟨hcovers, hcut⟩
  refine ⟨⟨hcovers.1, (sits_ident hcovers hcut).1⟩, ?_⟩
  simpa [Expr.propertySpans, Expr.isShorthand] using hcovers.2

/-- An object sits where its braces are, and its properties one behind the other in between. -/
theorem lands_object : Lands source p (object expression) fun e q => Sits source p e q := by
  have hproperties (p : Position) :
      Lands source p (Rule.optional (commaList (property expression))) fun ps q =>
        (∀ x ∈ ps.getD [], PropertyFits source x) ∧
          InOrder p ((ps.getD []).flatMap Expr.propertySpans) q :=
    .optional (lands_commaList _ (lands_property hex) p) ⟨nofun, le_rfl⟩
  refine .after_position fun hp => (Lands.symbol (by decide)).bind fun _ q₁ h₁ _ _ =>
    (hproperties q₁).bind fun ps q₂ h₂ _ ⟨hps, hin⟩ =>
    (Lands.symbol (by decide)).bind fun last q₃ _ _ ⟨hlast, hlt, hle⟩ => .pure ?_
  refine ⟨.node ⟨hp, hlast, lt_of_le_of_lt (h₁.trans h₂) hlt⟩ ?_ ?_ (hin.widen h₁ hlt.le) nofun,
    le_rfl, hle⟩
  · intro c hc
    obtain ⟨x, hx, rfl⟩ := List.mem_map.mp hc
    exact (hps x hx).2
  · intro s hs
    obtain ⟨x, hx, rfl⟩ := List.mem_map.mp hs
    exact (hps x hx).1

/-- A primary expression sits where it stands, whichever kind of it is found. -/
theorem lands_primary : Lands source p (primary expression) fun e q => Sits source p e q := by
  refine .named (.firstOf fun r hr => ?_)
  simp only [List.mem_cons, List.not_mem_nil, or_false] at hr
  rcases hr with rfl | rfl | rfl | rfl | rfl
  · exact lands_literal
  · exact lands_object hex
  · exact lands_list hex
  · exact .map (lands_identifier.mono fun x q _ _ ⟨hcovers, hcut⟩ => sits_ident hcovers hcut)
  · exact lands_parenthesized hex

/-! ## Chains -/

/-- A link that is read from `p` to `q` makes of every tree that ends before it a tree that goes on
to the end of the link. -/
def LinkSits (source : String) (p : Position) (l : Link) (q : Position) : Prop :=
  l.span.last.Placed source ∧ l.span.last.offset ≤ q.offset ∧
    ∀ p₀ e, Sits source p₀ e p → Sits source p₀ (l.apply e (e.span.merge l.span)) l.span.last

omit hex in
/-- A link has the properties that are asked for if its node has, whose span goes from the start of
the tree before it to the end of the link. -/
theorem LinkSits.of_node {l : Link} (hl : l.span.Placed source)
    (hp : l.span.first = p) (hq : l.span.last.offset ≤ q.offset)
    (hspan : ∀ e s, (l.apply e s).span = s)
    (hnode : ∀ e, e.AllFit source → InOrder e.span.first [e.span] p →
      (⟨e.span.first, l.span.last⟩ : Span).Placed source →
      (l.apply e ⟨e.span.first, l.span.last⟩).AllFit source) : LinkSits source p l q := by
  refine ⟨hl.last_placed, hq, fun p₀ e he => ?_⟩
  have hbefore : e.span.Before l.span := by
    rw [Span.Before, hp]
    exact he.2.2
  -- The span of the longer chain begins with the tree and ends with the link.
  rw [Span.merge_of_before he.placed hl hbefore]
  refine ⟨hnode e he.1 ⟨le_rfl, he.2.2⟩ (he.placed.hull hl hbefore), ?_, ?_⟩
  · rw [hspan]
    exact he.2.1
  · rw [hspan]
    exact le_rfl

omit hex in
/-- The words with which a link begins take the reading further, and no more is asked of them. -/
theorem lands_opening {opening : List String} (hne : ∀ s ∈ opening, s ≠ "") (p : Position) :
    Lands source p (opening.forM fun s => do let _ ← symbol s : Rule Unit) fun _ _ => True := by
  induction opening generalizing p with
  | nil => exact .pure trivial
  | cons s opening ih =>
    refine Lands.bind (P := fun _ _ => True) ?_ fun _ q _ _ _ =>
      ih (fun t ht => hne t (List.mem_cons_of_mem s ht)) q
    exact (Lands.symbol (hne s List.mem_cons_self)).bind fun _ _ _ _ _ => .pure trivial

/-- The arguments of a call stand behind the callee, one behind the other. -/
theorem lands_callLink {opening : List String} (hne : ∀ s ∈ opening, s ≠ "") (isOptional : Bool) :
    Lands source p (callLink expression opening isOptional) fun l q => LinkSits source p l q := by
  refine .after_position fun hp => (lands_opening hne p).bind fun _ q₁ h₁ _ _ => ?_
  refine Lands.bind (P := fun x q => (∀ e ∈ x.1, e.AllFit source) ∧ x.2.Placed source ∧
      q₁.offset < x.2.offset ∧ InOrder q₁ (x.1.map Expr.span) x.2 ∧ x.2.offset ≤ q.offset)
    ((lands_elements hex q₁).bind fun args q₂ h₂ _ ⟨hargs, hin⟩ =>
      (Lands.symbol (by decide)).bind fun last q₃ _ _ ⟨hlast, hlt, hle⟩ =>
      .pure ⟨hargs, hlast, lt_of_le_of_lt h₂ hlt, hin.widen le_rfl hlt.le, hle⟩) ?_
  rintro ⟨args, last⟩ q - - ⟨hargs, hlast, hlt, hin, hle⟩
  refine .pure (.of_node ⟨hp, hlast, lt_of_le_of_lt h₁ hlt⟩ rfl hle (fun _ _ => rfl)
    fun e he hbefore hspan => .node hspan ?_ nofun (hbefore.append (hin.widen h₁ le_rfl)) nofun)
  exact List.forall_mem_cons.mpr ⟨he, hargs⟩

/-- An index stands behind the object, before the closing bracket. -/
theorem lands_indexLink {opening : List String} (hne : ∀ s ∈ opening, s ≠ "")
    (isOptional : Bool) :
    Lands source p (indexLink expression opening isOptional) fun l q => LinkSits source p l q := by
  refine .after_position fun hp => (lands_opening hne p).bind fun _ q₁ h₁ _ _ => ?_
  refine Lands.bind (P := fun x q => x.1.AllFit source ∧ x.2.Placed source ∧
      q₁.offset < x.2.offset ∧ InOrder q₁ [x.1.span] x.2 ∧ x.2.offset ≤ q.offset)
    ((hex q₁).bind fun index q₂ h₂ _ ⟨hindex, hin⟩ =>
      (Lands.symbol (by decide)).bind fun last q₃ _ _ ⟨hlast, hlt, hle⟩ =>
      .pure ⟨hindex, hlast, lt_of_le_of_lt h₂ hlt, hin.widen le_rfl hlt.le, hle⟩) ?_
  rintro ⟨index, last⟩ q - - ⟨hindex, hlast, hlt, hin, hle⟩
  refine .pure (.of_node ⟨hp, hlast, lt_of_le_of_lt h₁ hlt⟩ rfl hle (fun _ _ => rfl)
    fun e he hbefore hspan => .node hspan ?_ nofun (hbefore.append (hin.widen h₁ le_rfl)) nofun)
  exact List.forall_mem_cons.mpr ⟨he, List.forall_mem_singleton.mpr hindex⟩

omit hex in
/-- The name of a member stands behind the object, and the link ends with it. -/
theorem lands_memberLink {opening : String} (hne : opening ≠ "") (isOptional : Bool) :
    Lands source p (memberLink opening isOptional) fun l q => LinkSits source p l q := by
  refine .after_position fun hp => (Lands.symbol hne).bind fun _ q₁ h₁ _ _ =>
    lands_name.bind fun x q _ _ ⟨hcovers, hcut⟩ => .pure ?_
  have hin : InOrder p [x.2] x.2.last := ⟨h₁.trans hcovers.2.1, le_rfl⟩
  refine .of_node ⟨hp, hcovers.1.last_placed, lt_of_le_of_lt hin.1 hcovers.1.first_lt_last⟩ rfl
    hcovers.2.2 (fun _ _ => rfl) fun e he hbefore hspan => .node hspan ?_ ?_ (hbefore.append hin) ?_
  · exact List.forall_mem_singleton.mpr he
  · exact List.forall_mem_singleton.mpr hcovers.1
  · rintro y ⟨⟩
    exact hcut

/-- Every link sits behind the chain that it extends. -/
theorem lands_link (p : Position) :
    Lands source p (link expression) fun l q => LinkSits source p l q := by
  refine .named (.firstOf fun r hr => ?_)
  simp only [List.mem_cons, List.not_mem_nil, or_false] at hr
  rcases hr with rfl | rfl | rfl | rfl | rfl | rfl
  · exact lands_callLink hex (by decide) true
  · exact lands_indexLink hex (by decide) true
  · exact lands_memberLink (by decide) true
  · exact lands_callLink hex (by decide) false
  · exact lands_indexLink hex (by decide) false
  · exact lands_memberLink (by decide) false

/-- A chain sits between its start and the place where it says that its reading ended, which is not
after the place where the rule ends. -/
theorem lands_chain : Lands source p (chain expression) fun x q =>
    Sits source p x.1 x.2 ∧ x.2.Placed source ∧ x.2.offset ≤ q.offset := by
  -- The tree before the links is left open: for the links after the first it is what that made.
  have hlinks (p : Position) : Lands source p (many (link expression)) fun links q =>
      ∀ p₀ e, Sits source p₀ e p → ∀ last,
        last = ((links.getLast?.map fun l => l.span.last).getD q) →
          Sits source p₀ (applyLinks e links) last ∧ last.Placed source ∧
            last.offset ≤ q.offset := by
    refine Lands.many (lands_link hex) (Q := fun p links q => ∀ p₀ e, Sits source p₀ e p →
      ∀ last, last = ((links.getLast?.map fun l => l.span.last).getD q) →
        Sits source p₀ (applyLinks e links) last ∧ last.Placed source ∧ last.offset ≤ q.offset)
      ?_ ?_ p
    · rintro p hp p₀ e he last rfl
      exact ⟨he, hp, le_rfl⟩
    · rintro p l q links q' - hle ⟨hplaced, hlast, hl⟩ hrest p₀ e he last rfl
      cases links with
      | nil => exact ⟨hl p₀ e he, hplaced, hlast.trans hle⟩
      | cons l' links =>
        rw [List.getLast?_cons_cons]
        exact hrest p₀ _ ((hl p₀ e he).widen le_rfl hlast) _ rfl
  exact (lands_primary hex).bind fun base q₁ _ _ hbase => (hlinks q₁).bind fun links q₂ _ _ hq =>
    .after_position fun _ => .pure (hq p base hbase _ rfl)

/-! ## Operators -/

omit hex in
/-- A prefix operator begins where it is looked for, since no blanks are in front of it. -/
theorem lands_prefixOperator (p : Position) : Lands source p prefixOperator fun x q =>
    x.2 = p ∧ p.Placed source ∧ p.offset ≤ q.offset := by
  refine .after_position fun hp => ?_
  refine Lands.bind (P := fun _ _ => True) (.firstOf fun r hr => ?_)
    fun op q hle _ _ => .pure ⟨rfl, hp, hle⟩
  simp only [List.mem_cons, List.not_mem_nil, or_false] at hr
  rcases hr with rfl | rfl | rfl
  · exact .named ((Lands.symbol (by decide)).bind fun _ q _ _ _ =>
      (Lands.guard (Q := fun _ _ => True) trivial).bind fun _ _ _ _ _ => .pure trivial)
  · exact .named ((Lands.symbol (by decide)).bind fun _ _ _ _ _ => .pure trivial)
  · exact .named ((Lands.symbol (by decide)).bind fun _ _ _ _ _ => .pure trivial)

/-- The span of a prefix operation reaches from the operator to where the chain behind it says that
its reading ended. -/
theorem lands_unary : Lands source p (unary expression) fun e q => Sits source p e q := by
  -- All operations end where the reading of the operand does, which is read after all operators.
  have hops (p : Position) : Lands source p (many prefixOperator) fun ops q =>
      ∀ e last, Sits source q e last → last.Placed source →
        Sits source p (ops.foldr (fun x e => Expr.unary x.1 e ⟨x.2, last⟩) e) last := by
    refine Lands.many lands_prefixOperator (Q := fun p ops q => ∀ e last, Sits source q e last →
      last.Placed source →
        Sits source p (ops.foldr (fun x e => Expr.unary x.1 e ⟨x.2, last⟩) e) last)
      (fun p _ e last he _ => he) ?_ p
    rintro p ⟨op, first⟩ q ops q' - - ⟨rfl, hp, hle⟩ hrest e last he hlast
    have hoperand := (hrest e last he hlast).widen hle le_rfl
    exact ⟨.node ⟨hp, hlast, hoperand.lt⟩ (List.forall_mem_singleton.mpr hoperand.1) nofun
      hoperand.2 nofun, le_rfl, le_rfl⟩
  exact (hops p).bind fun ops q₁ _ _ hq => (lands_chain hex).bind fun x q₂ _ _ ⟨hx, hlast, hle⟩ =>
    .pure ((hq x.1 x.2 hx hlast).widen le_rfl hle)

omit hex in
/-- An operation covers both operands. -/
theorem Sits.apply {op : Operator} {left right : Expr} {p q q' : Position}
    (hl : Sits source p left q) (hr : Sits source q right q') :
    Sits source p (op.apply left right) q' := by
  have hbefore : left.span.Before right.span := hl.2.2.trans hr.2.1
  have hspan := Span.merge_of_before hl.placed hr.placed hbefore
  have hchildren : ∀ c ∈ [left, right], c.AllFit source :=
    List.forall_mem_cons.mpr ⟨hl.1, List.forall_mem_singleton.mpr hr.1⟩
  have horder : InOrder left.span.first [left.span, right.span] right.span.last :=
    ⟨le_rfl, hbefore, le_rfl⟩
  have hhull := hl.placed.hull hr.placed hbefore
  cases op
  all_goals
    simp only [Operator.apply, hspan]
    exact ⟨.node hhull hchildren nofun horder nofun, hl.2.1, hr.2.2⟩

omit hex in
/-- The place of an infix operator is not kept in the tree. -/
theorem lands_operator {operators : List (String × Operator)} (hne : ∀ x ∈ operators, x.1 ≠ "") :
    Lands source p (operator operators) fun _ _ => True := by
  refine .firstOf fun r hr => ?_
  obtain ⟨x, hx, rfl⟩ := List.mem_map.mp hr
  exact .named ((Lands.symbol (hne x hx)).bind fun _ _ _ _ _ => .pure trivial)

/-- The span of an operation reaches from its first operand to its last one, by induction on the
levels and on the operands of a level. -/
theorem lands_operation {operators : List (List (String × Operator))}
    (hne : ∀ level ∈ operators, ∀ x ∈ level, x.1 ≠ "") (p : Position) :
    Lands source p (operation expression operators) fun e q => Sits source p e q := by
  induction operators generalizing p with
  | nil => exact lands_unary hex
  | cons level tighter ih =>
    have hnext := ih fun l hl => hne l (List.mem_cons_of_mem level hl)
    have hstep (p : Position) : Lands source p (do
        let op ← operator level
        let right ← operation expression tighter
        return (op, right)) fun x q => Sits source p x.2 q :=
      (lands_operator (hne level List.mem_cons_self)).bind fun op q₁ hle _ _ =>
        (hnext q₁).bind fun right q₂ _ _ hright => .pure (hright.widen hle le_rfl)
    -- The left operand of a step is what the steps before it have built, so it is left open.
    have hsteps (p : Position) : Lands source p (many do
        let op ← operator level
        let right ← operation expression tighter
        return (op, right)) fun xs q => ∀ p₀ e, Sits source p₀ e p →
          Sits source p₀ (xs.foldl (fun left x => x.1.apply left x.2) e) q := by
      refine Lands.many hstep (Q := fun p xs q => ∀ p₀ e, Sits source p₀ e p →
        Sits source p₀ (xs.foldl (fun left x => x.1.apply left x.2) e) q)
        (fun p _ p₀ e he => he) ?_ p
      intro p x q xs q' _ _ hx hxs p₀ e he
      exact hxs p₀ _ (he.apply hx)
    exact (hnext p).bind fun first q₁ _ _ hfirst => (hsteps q₁).bind fun xs q₂ _ _ hxs =>
      .pure (hxs p first hfirst)

/-- The branches of a ternary stand one behind the other. -/
theorem lands_branches : Lands source p (branches expression) fun x q =>
    x.1.AllFit source ∧ x.2.AllFit source ∧ InOrder p [x.1.span, x.2.span] q := by
  have hmark : Lands source p questionMark fun _ _ => True :=
    (Lands.symbol (by decide)).bind fun _ _ _ _ _ => .guard trivial
  exact hmark.bind fun _ q₁ h₁ _ _ => (hex q₁).bind fun t q₂ _ _ ht =>
    (Lands.symbol (by decide)).bind fun _ q₃ h₃ _ _ => (hex q₃).bind fun e q₄ _ _ he =>
    .pure ⟨ht.1, he.1, (ht.2.widen h₁ h₃).append he.2⟩

/-- The span of a ternary reaches from the place where it is looked for to the place where the
second branch has been read. -/
theorem lands_ternary (p : Position) :
    Lands source p (ternary expression) fun e q => Sits source p e q := by
  have hlevels : ∀ level ∈ levels, ∀ x ∈ level, x.1 ≠ "" := by decide
  refine .after_position fun hp => (lands_operation hex hlevels p).bind fun c q₁ _ hq₁ hc => ?_
  have hbranches : Lands source q₁ (Rule.optional (branches expression)) fun x q =>
      q₁.offset ≤ q.offset ∧ ∀ y ∈ x, y.1.AllFit source ∧ y.2.AllFit source ∧
        InOrder q₁ [y.1.span, y.2.span] q :=
    .optional ((lands_branches hex).mono fun y q hle _ hy => ⟨hle, by rintro y ⟨⟩; exact hy⟩)
      ⟨le_rfl, nofun⟩
  refine hbranches.bind fun x q₂ _ hq₂ ⟨hle, hx⟩ => ?_
  cases x with
  | none => exact .pure (hc.widen le_rfl hle)
  | some y =>
    -- The branches come after the condition, and the whole ends where they do.
    obtain ⟨hthen, helse, hin⟩ := hx y rfl
    have horder : InOrder p [c.span, y.1.span, y.2.span] q₂ := hc.2.append hin
    have hspan : (⟨p, q₂⟩ : Span).Placed source := ⟨hp, hq₂, hc.lt.trans_le hle⟩
    refine .after_position fun _ => .pure ⟨.node hspan ?_ nofun horder nofun, le_rfl, le_rfl⟩
    exact List.forall_mem_cons.mpr ⟨hc.1,
      List.forall_mem_cons.mpr ⟨hthen, List.forall_mem_singleton.mpr helse⟩⟩

end

/-! ## Whole expressions -/

/-- Every expression that is found sits where it stands, however deep expressions may be nested. -/
theorem lands_expressionUpTo (depth : Nat) (p : Position) :
    Lands source p (expressionUpTo depth) fun e q => Sits source p e q := by
  induction depth generalizing p with
  | zero =>
    intro c a c' _ _ h
    cases h
  | succ depth ih => exact lands_ternary ih p

end Syntax

/-- Every node of a tree that is read from a text fits the text. -/
theorem Expr.parse_fits {source : String} {e : Expr} (h : Expr.parse source = .ok e) :
    ∀ n ∈ e.subexpressions, n.Fits source := by
  obtain ⟨c, hc, -⟩ := Syntax.parse_eq_ok_iff_found.mp h
  have hin : (Syntax.Cursor.start source.toList).skipBlanks.In source :=
    (Syntax.Cursor.in_start source).skip _
  exact (Syntax.lands_expressionUpTo _ _ hin rfl hc).2.2.1

/-- Two lines, with a character of two bytes, parentheses and a blank at the end. -/
def sampleLines : String := "('é' + \n a.b) * -f(true) "

/-- A source with several lines, all of whose nodes fit. -/
theorem Expr.parse_fits_sampleLines :
    ∃ e, Expr.parse sampleLines = .ok e ∧ ∀ n ∈ e.subexpressions, n.Fits sampleLines := by
  have hok : (Expr.parse sampleLines).toOption.isSome := by decide +kernel
  cases he : Expr.parse sampleLines with
  | ok e => exact ⟨e, rfl, Expr.parse_fits he⟩
  | error err =>
    rw [he] at hok
    cases hok

end TemplateFlow
