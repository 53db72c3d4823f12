import TemplateFlow.Proofs.Expr.Constant
import TemplateFlow.Proofs.Json.WellFormed
import TemplateFlow.Proofs.Syntax.Escape
import TemplateFlow.Proofs.Syntax.Numeral
import TemplateFlow.Value.Data

/-!
# JSON text as expressions

Compact JSON text is a source of an expression, which is constant and has the value of the data that
the text was written from (`standsFor_compress`). The grammars differ: a number below zero is a
number after a minus sign, and the name of a member is a key of a property. Both read the text of a
number as the same number (`numeral_numberText`), and the contents of a string as the same text
(`unescape_flatMap_escapeChar`).

The data has to be well-formed, and its numbers finite, since JSON has no text for others.

## Main definitions

* `Json.FiniteNumbers`: every number in the data is finite.
* `Syntax.StandsFor`: a text is a source of a constant expression of the value, whatever blanks are
  behind it.
-/

namespace TemplateFlow

/-! ## Numbers in data -/

namespace Json

/-- A number occurs in the data, at any depth. -/
inductive Holds : Json → JsonNumber → Prop where
  | num (n : JsonNumber) : Holds (.num n) n
  | item {items : List Json} {item : Json} {n : JsonNumber} : item ∈ items → Holds item n →
      Holds (.arr items) n
  | member {members : Dictionary Json} {m : String × Json} {n : JsonNumber} : m ∈ members →
      Holds m.2 n → Holds (.obj members) n

variable {n : JsonNumber} {items : List Json} {members : Dictionary Json}

@[simp]
theorem not_holds_null : ¬ null.Holds n := nofun

@[simp]
theorem not_holds_bool {b : Bool} : ¬ (bool b).Holds n := nofun

@[simp]
theorem not_holds_str {s : String} : ¬ (str s).Holds n := nofun

/-- A number by itself holds no other number. -/
@[simp]
theorem holds_num {k : JsonNumber} : (num k).Holds n ↔ n = k := by
  constructor
  · rintro ⟨⟩
    rfl
  · rintro rfl
    exact .num _

/-- An array holds the numbers that its items hold. -/
@[simp]
theorem holds_arr : (arr items).Holds n ↔ ∃ item ∈ items, item.Holds n := by
  constructor
  · rintro ⟨⟩
    exact ⟨_, ‹_›, ‹_›⟩
  · rintro ⟨item, hitem, hn⟩
    exact .item hitem hn

/-- An object holds the numbers that its members hold. -/
@[simp]
theorem holds_obj : (obj members).Holds n ↔ ∃ m ∈ members, m.2.Holds n := by
  constructor
  · rintro ⟨⟩
    exact ⟨_, ‹_›, ‹_›⟩
  · rintro ⟨m, hm, hn⟩
    exact .member hm hn

/-- Every floating-point number in the data is finite. -/
def FiniteNumbers (data : Json) : Prop := ∀ x, data.Holds (.float x) → x.isFinite = true

@[simp]
theorem finiteNumbers_null : null.FiniteNumbers := by simp [FiniteNumbers]

@[simp]
theorem finiteNumbers_bool (b : Bool) : (bool b).FiniteNumbers := by simp [FiniteNumbers]

@[simp]
theorem finiteNumbers_str (s : String) : (str s).FiniteNumbers := by simp [FiniteNumbers]

/-- Integers are finite in any case. -/
@[simp]
theorem finiteNumbers_num : (num n).FiniteNumbers ↔ ∀ x, n = .float x → x.isFinite = true := by
  simp only [FiniteNumbers, holds_num]
  exact ⟨fun h x hx => h x hx.symm, fun h x hx => h x hx.symm⟩

/-- The numbers of an array are finite if those of its items are. -/
@[simp]
theorem finiteNumbers_arr : (arr items).FiniteNumbers ↔ ∀ item ∈ items, item.FiniteNumbers := by
  simp only [FiniteNumbers, holds_arr]
  exact ⟨fun h item hitem x hx => h x ⟨item, hitem, hx⟩,
    fun h x ⟨item, hitem, hx⟩ => h item hitem x hx⟩

/-- The numbers of an object are finite if those of its members are. -/
@[simp]
theorem finiteNumbers_obj :
    (obj members).FiniteNumbers ↔ ∀ m ∈ members, m.2.FiniteNumbers := by
  simp only [FiniteNumbers, holds_obj]
  exact ⟨fun h m hm x hx => h x ⟨m, hm, hx⟩, fun h x ⟨m, hm, hx⟩ => h m hm x hx⟩

end Json

/-- The names of the members stay as they are, and so does their order. -/
theorem Value.sorted_ofJsonMembers {members : Dictionary Json} (h : members.Sorted) :
    Dictionary.Sorted (ofJsonMembers members) := by
  have hmap : ∀ members, ofJsonMembers members = members.map fun m => (m.1, ofJson m.2) := by
    intro members
    induction members with
    | nil => rfl
    | cons m members ih => rw [ofJsonMembers, ih, List.map_cons]
  rw [hmap]
  exact List.pairwise_map.mpr h

namespace Syntax

/-- The text is a source of a constant expression with the value. Any blanks may follow it, and it
may stand after a sign. -/
def StandsFor (v : Value) (text : List Char) : Prop :=
  ∃ e : Expr, e.Constant v ∧ ∀ blanks, Blanks blanks → Written (.phrase .unary e) (text ++ blanks)

/-! ## Scalars -/

/-- What is written as a primary expression can stand anywhere, also after a sign. -/
theorem standsFor_of_primary {e : Expr} {v : Value} {text : List Char} (he : e.Constant v)
    (h : ∀ blanks, Blanks blanks → Written (.phrase .primary e) (text ++ blanks)) :
    StandsFor v text := by
  refine ⟨e, he, fun blanks hblanks => ?_⟩
  have hchain : Written (.phrase .chain e) (text ++ blanks) := .tighter (h blanks hblanks)
  exact .tighter hchain

/-- A word stands for the literal that it spells. -/
theorem standsFor_literal {l : Literal} {w : List Char} (h : Spells l w) :
    StandsFor l.toValue w :=
  standsFor_of_primary (Expr.constant_literal l .none) fun blanks hblanks =>
    .literal h ⟨blanks, hblanks, rfl⟩

/-- A number below zero is the negation of one that is not. -/
theorem standsFor_numeral {x : Number} {w : List Char} (h : Numeral x w) :
    StandsFor (.num x) w := by
  cases h with
  | plain hw hx =>
    rw [← hx]
    exact standsFor_literal (.num hw)
  | minus hw hx =>
    obtain ⟨e, he, hwritten⟩ := standsFor_literal (.num hw)
    rw [← hx]
    refine ⟨_, he.neg .none, fun blanks hblanks => ?_⟩
    have hsign : Token (prefixSpelling .neg).toList ['-'] := ⟨[], blanks_nil, rfl⟩
    have hnegation := Written.prefixed hsign (hwritten blanks hblanks)
    exact hnegation

/-- A text in quotation marks stands for that text: the escapes that are written are read again. -/
theorem standsFor_quote (s : String) : StandsFor (.str s) (Json.quote s).toList := by
  have h := standsFor_literal (.str (isString_quote s))
  rwa [unescape_flatMap_escapeChar, String.ofList_toList] at h

/-- The name of a member in quotation marks is a key of a property with this name. -/
theorem spellsKey_quote (s : String) : SpellsKey s (Json.quote s).toList := by
  have h := SpellsKey.str (isString_quote s)
  rwa [unescape_flatMap_escapeChar, String.ofList_toList] at h

/-! ## Arrays -/

/-- The texts of items with commas between are written as a list of constant expressions. -/
theorem exists_items_compress {items : List Json} (hne : items ≠ [])
    (h : ∀ item ∈ items, StandsFor (.ofJson item) item.compress.toList) :
    ∃ es, List.Forall₂ Expr.Constant es (Value.ofJsonAll items) ∧
      Written (.items es) (Json.compressItems items).toList := by
  induction items with
  | nil => exact absurd rfl hne
  | cons item items ih =>
    -- No blank follows an item: after it come a comma or the end.
    obtain ⟨⟨e, he, hwritten⟩, hitems⟩ := List.forall_mem_cons.mp h
    have hitem := (hwritten [] blanks_nil).ternary_of_unary
    rw [List.append_nil] at hitem
    cases items with
    | nil => exact ⟨[e], .cons he .nil, .oneItem hitem⟩
    | cons next items =>
      obtain ⟨es, hes, hrest⟩ := ih (List.cons_ne_nil _ _) hitems
      have hcomma : Token [','] [','] := ⟨[], blanks_nil, rfl⟩
      refine ⟨e :: es, .cons he hes, ?_⟩
      have hmore := Written.moreItems hitem hcomma hrest
      simpa [Json.compressItems] using hmore

/-- An array stands for the list of its items. -/
theorem standsFor_arr {items : List Json}
    (h : ∀ item ∈ items, StandsFor (.ofJson item) item.compress.toList) :
    StandsFor (.ofJson (.arr items)) (Json.arr items).compress.toList := by
  -- An empty list has no items to be written.
  obtain ⟨es, hes, hwritten⟩ : ∃ es, List.Forall₂ Expr.Constant es (Value.ofJsonAll items) ∧
      Written (.elements es) (Json.compressItems items).toList := by
    by_cases hne : items = []
    · subst hne
      exact ⟨[], .nil, .noElements⟩
    · obtain ⟨es, hes, hwritten⟩ := exists_items_compress hne h
      have helements := Written.elements hwritten (.inl rfl)
      rw [List.append_nil] at helements
      exact ⟨es, hes, helements⟩
  refine standsFor_of_primary (Expr.constant_list hes .none) fun blanks hblanks => ?_
  have hopen : Token ['['] ['['] := ⟨[], blanks_nil, rfl⟩
  have hlist := Written.list hopen hwritten ⟨blanks, hblanks, rfl⟩
  simpa [Json.compress] using hlist

/-! ## Objects -/

/-- The texts of members with commas between are written as a list of constant properties. -/
theorem exists_properties_compress {members : List (String × Json)} (hne : members ≠ [])
    (h : ∀ m ∈ members, StandsFor (.ofJson m.2) m.2.compress.toList) :
    ∃ ps, List.Forall₂ Expr.ConstantProperty ps (Value.ofJsonMembers members) ∧
      Written (.properties ps) (Json.compressMembers members).toList := by
  induction members with
  | nil => exact absurd rfl hne
  | cons m members ih =>
    obtain ⟨name, value⟩ := m
    obtain ⟨⟨e, he, hwritten⟩, hmembers⟩ := List.forall_mem_cons.mp h
    -- No blank stands around a name or a value.
    have hvalue := (hwritten [] blanks_nil).ternary_of_unary
    rw [List.append_nil] at hvalue
    have hname : Token (Json.quote name).toList (Json.quote name).toList :=
      ⟨[], blanks_nil, (List.append_nil _).symm⟩
    have hcolon : Token [':'] [':'] := ⟨[], blanks_nil, rfl⟩
    have hproperty := Written.keyed (spellsKey_quote name) hname hcolon hvalue
    cases members with
    | nil =>
      refine ⟨[(name, .none, e)], .cons ⟨rfl, he⟩ .nil, ?_⟩
      have hone := Written.oneProperty hproperty
      simpa [Json.compressMembers] using hone
    | cons next members =>
      obtain ⟨ps, hps, hrest⟩ := ih (List.cons_ne_nil _ _) hmembers
      have hcomma : Token [','] [','] := ⟨[], blanks_nil, rfl⟩
      refine ⟨(name, .none, e) :: ps, .cons ⟨rfl, he⟩ hps, ?_⟩
      have hmore := Written.moreProperties hproperty hcomma hrest
      simpa [Json.compressMembers] using hmore

/-- The properties of an object are put into it one after the other, which changes nothing if they
are in order. -/
theorem standsFor_obj {members : Dictionary Json} (hsorted : members.Sorted)
    (h : ∀ m ∈ members, StandsFor (.ofJson m.2) m.2.compress.toList) :
    StandsFor (.ofJson (.obj members)) (Json.obj members).compress.toList := by
  -- An empty object has no properties to be written.
  obtain ⟨ps, hps, hwritten⟩ :
      ∃ ps, List.Forall₂ Expr.ConstantProperty ps (Value.ofJsonMembers members) ∧
        Written (.members ps) (Json.compressMembers members).toList := by
    by_cases hne : members = []
    · subst hne
      exact ⟨[], .nil, .noMembers⟩
    · obtain ⟨ps, hps, hwritten⟩ := exists_properties_compress hne h
      have hmembers := Written.members hwritten (.inl rfl)
      rw [List.append_nil] at hmembers
      exact ⟨ps, hps, hmembers⟩
  have hobject := Expr.constant_object hps .none
  rw [(Value.sorted_ofJsonMembers hsorted).ofList_eq] at hobject
  refine standsFor_of_primary hobject fun blanks hblanks => ?_
  have hopen : Token ['\x7b'] ['\x7b'] := ⟨[], blanks_nil, rfl⟩
  have hwhole := Written.object hopen hwritten ⟨blanks, hblanks, rfl⟩
  simpa [Json.compress] using hwhole

/-! ## Main result -/

/-- The compact text of data is a source of a constant expression with the value of the data. -/
theorem standsFor_compress {data : Json} (hdata : data.WellFormed) (hfinite : data.FiniteNumbers) :
    StandsFor (.ofJson data) data.compress.toList := by
  induction hdata with
  | null => exact standsFor_literal .null
  | bool b =>
    cases b with
    | true => exact standsFor_literal .true
    | false => exact standsFor_literal .false
  | num n => exact standsFor_numeral (numeral_numberText (Json.finiteNumbers_num.mp hfinite))
  | str s => exact standsFor_quote s
  | arr _ ih =>
    rw [Json.finiteNumbers_arr] at hfinite
    exact standsFor_arr fun item hitem => ih item hitem (hfinite item hitem)
  | obj hsorted _ ih =>
    rw [Json.finiteNumbers_obj] at hfinite
    exact standsFor_obj hsorted fun m hm => ih m hm (hfinite m hm)

end Syntax

end TemplateFlow
