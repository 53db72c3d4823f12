import Mathlib.Data.String.Basic
import TemplateFlow.Proofs.Syntax.Reading

/-!
# Places in a source text

What it means for positions and spans to belong to a text (`Position.Placed`, `Span.Placed`), stated
on the bytes of the text and without the cursors that read it: the offset of a position is the
boundary of a character, and its line and column are those that a walk over the characters before
that offset comes to (`lineColumn`). A cursor that has come through the text from its start
(`Cursor.In`) is at such a position, and what it reads is the text between two of them.

`Rule.Lands` says where a rule that is tried at one place ends, with a law for every combinator. The
laws hand the place on: what follows in a sequence is looked at from where the part before it ended.

## Main definitions

* `lineColumn`: the line and the column of a byte offset.
* `Position.Placed`, `Span.Placed`: positions and spans of a text.
* `InOrder`: spans that lie between two places, none of them before the end of another one.
* `Rule.Lands`: where a rule ends, and with what.
-/

namespace TemplateFlow

/-! ## Lines and columns -/

/-- The line and the column that a walk over characters comes to, which stops at the first character
that does not start before the given offset. -/
def lineColumnFrom (offset : Nat) : List Char → Nat → Nat × Nat → Nat × Nat
  | [], _, (line, column) => (line, column)
  | c :: rest, here, (line, column) =>
    if offset ≤ here then (line, column)
    else lineColumnFrom offset rest (here + c.utf8Size)
      (if c = '\n' then (line + 1, 0) else (line, column + 1))

/-- The line and the column of a byte offset in a text, both counted from zero. -/
def lineColumn (source : String) (offset : Nat) : Nat × Nat :=
  lineColumnFrom offset source.toList 0 (0, 0)

/-! ## Positions -/

namespace Position

/-- A character takes up its bytes, and only a line feed begins a line. -/
theorem advance_eq (p : Position) (c : Char) :
    p.advance c = ⟨p.offset + c.utf8Size,
      (if c = '\n' then (p.line + 1, 0) else (p.line, p.column + 1)).1,
      (if c = '\n' then (p.line + 1, 0) else (p.line, p.column + 1)).2⟩ := by
  rw [advance]
  split <;> rfl

/-- The offset counts the bytes of the text. -/
theorem offset_advanceBy (p : Position) (s : List Char) :
    (p.advanceBy s).offset = p.offset + String.utf8Len s := by
  induction s generalizing p with
  | nil => rfl
  | cons c s ih =>
    rw [advanceBy_cons, ih, advance_eq, String.utf8Len_cons]
    simp only
    omega

/-- A walk as far as a position that was come to by the same characters gives the line and the
column of that position. -/
theorem lineColumnFrom_advanceBy (p : Position) (before rest : List Char) :
    lineColumnFrom (p.advanceBy before).offset (before ++ rest) p.offset (p.line, p.column) =
      ((p.advanceBy before).line, (p.advanceBy before).column) := by
  induction before generalizing p with
  | nil => cases rest <;> simp [lineColumnFrom]
  | cons c before ih =>
    -- The position is not reached yet, since a character takes up at least one byte.
    have hlt : ¬ (p.advanceBy (c :: before)).offset ≤ p.offset := by
      rw [offset_advanceBy, String.utf8Len_cons]
      have := c.utf8Size_pos
      omega
    have hstep := ih (p.advance c)
    rw [List.cons_append, lineColumnFrom, if_neg hlt, advanceBy_cons, ← hstep, advance_eq]

/-- A position of a text: its offset is the boundary of a character, and its line and its column are
those of that offset. -/
structure Placed (source : String) (p : Position) : Prop where
  boundary : (⟨p.offset⟩ : String.Pos.Raw).IsValid source
  lineColumn_eq : (p.line, p.column) = lineColumn source p.offset

/-- The position after some characters with which the text starts is a position of the text. -/
theorem placed_advanceBy {source : String} {before rest : List Char}
    (h : source.toList = before ++ rest) : Placed source (advanceBy {} before) where
  boundary := by
    rw [String.Pos.Raw.isValid_iff_exists_append]
    refine ⟨String.ofList before, String.ofList rest, ?_, ?_⟩
    · rw [← String.ofList_append, ← h, String.ofList_toList]
    · rw [String.rawEndPos_ofList, offset_advanceBy, Nat.zero_add]
  lineColumn_eq := by
    rw [lineColumn, h]
    exact (lineColumnFrom_advanceBy {} before rest).symm

end Position

/-! ## Spans -/

namespace Span

/-- A span of a text: it starts and ends at positions of the text, and is not empty. -/
structure Placed (source : String) (s : Span) : Prop where
  first_placed : s.first.Placed source
  last_placed : s.last.Placed source
  first_lt_last : s.first.offset < s.last.offset

/-- The part of a text that a span covers. -/
def cut (source : String) (s : Span) : String :=
  String.Pos.Raw.extract source ⟨s.first.offset⟩ ⟨s.last.offset⟩

/-- A span covers all of another one. -/
def Contains (s t : Span) : Prop :=
  s.first.offset ≤ t.first.offset ∧ t.last.offset ≤ s.last.offset

/-- A span ends where another one has not started yet. -/
def Before (s t : Span) : Prop := s.last.offset ≤ t.first.offset

/-- The merge of two spans, of which one is before the other. -/
theorem merge_of_before {source : String} {a b : Span} (ha : a.Placed source)
    (hb : b.Placed source) (h : a.Before b) : a.merge b = ⟨a.first, b.last⟩ := by
  have hlt := ha.first_lt_last
  have hlt' := hb.first_lt_last
  rw [Before] at h
  rw [merge, if_pos (by omega), if_neg (by omega)]

/-- What starts at the start of one span and ends at the end of a later one is a span of the text,
too. -/
theorem Placed.hull {source : String} {a b : Span} (ha : a.Placed source) (hb : b.Placed source)
    (h : a.Before b) : (⟨a.first, b.last⟩ : Span).Placed source where
  first_placed := ha.first_placed
  last_placed := hb.last_placed
  first_lt_last := by
    have hlt := ha.first_lt_last
    have hlt' := hb.first_lt_last
    rw [Before] at h
    simp only
    omega

end Span

/-- The spans lie one after the other between two places. -/
def InOrder (p : Position) : List Span → Position → Prop
  | [], q => p.offset ≤ q.offset
  | s :: rest, q => p.offset ≤ s.first.offset ∧ InOrder s.last rest q

namespace InOrder

/-- What lies in order within a stretch does so within a longer one. -/
theorem widen {p p' q q' : Position} {spans : List Span} (h : InOrder p spans q)
    (hp : p'.offset ≤ p.offset) (hq : q.offset ≤ q'.offset) : InOrder p' spans q' := by
  induction spans generalizing p p' with
  | nil => exact (hp.trans h).trans hq
  | cons s rest ih => exact ⟨hp.trans h.1, ih h.2 le_rfl⟩

/-- What lies in order behind what lies in order does so as a whole. -/
theorem append {p q r : Position} {spans more : List Span} (h : InOrder p spans q)
    (hmore : InOrder q more r) : InOrder p (spans ++ more) r := by
  induction spans generalizing p with
  | nil => exact hmore.widen h le_rfl
  | cons s rest ih => exact ⟨h.1, ih h.2⟩

/-- Spans that are not empty and lie one after the other are within the two places, and each is
before all later ones. -/
theorem bounds_pairwise {p q : Position} {spans : List Span} (h : InOrder p spans q)
    (hne : ∀ s ∈ spans, s.first.offset < s.last.offset) :
    (∀ s ∈ spans, p.offset ≤ s.first.offset ∧ s.last.offset ≤ q.offset) ∧
      spans.Pairwise Span.Before ∧ p.offset ≤ q.offset := by
  induction spans generalizing p with
  | nil => exact ⟨by simp, .nil, h⟩
  | cons s rest ih =>
    obtain ⟨hin, hpairs, hle⟩ := ih h.2 fun t ht => hne t (List.mem_cons_of_mem s ht)
    have hs := hne s List.mem_cons_self
    have hp := h.1
    refine ⟨fun t ht => ?_, .cons (fun t ht => (hin t ht).1) hpairs, by omega⟩
    rcases List.mem_cons.mp ht with rfl | ht
    · exact ⟨hp, hle⟩
    · have := hin t ht
      omega

end InOrder

namespace Syntax

/-! ## Cursors -/

namespace Cursor

/-- The cursor has come through the text from its start. -/
def In (source : String) (c : Cursor) : Prop :=
  ∃ before, source.toList = before ++ c.rest ∧ c.pos = Position.advanceBy {} before

/-- The start of a text is a place in it. -/
theorem in_start (source : String) : (start source.toList).In source := ⟨[], rfl, rfl⟩

/-- The position of a place in the text is one of the text. -/
theorem In.placed {source : String} {c : Cursor} (h : c.In source) : c.pos.Placed source := by
  obtain ⟨before, htext, hpos⟩ := h
  rw [hpos]
  exact Position.placed_advanceBy htext

/-- Skipping characters stays in the text. -/
theorem In.skip {source : String} {c : Cursor} (h : c.In source) (n : Nat) :
    (c.skip n).In source := by
  obtain ⟨before, htext, hpos⟩ := h
  refine ⟨before ++ c.rest.take n, ?_, ?_⟩
  · rw [List.append_assoc, htext]
    exact congrArg _ (List.take_append_drop n c.rest).symm
  · rw [Position.advanceBy_append, ← hpos]
    rfl

/-- Skipping characters does not go back. -/
theorem offset_le_skip (c : Cursor) (n : Nat) : c.pos.offset ≤ (c.skip n).pos.offset := by
  rw [skip, Position.offset_advanceBy]
  omega

/-- The position after a word that stands at a cursor. -/
theorem pos_skip_of_isPrefix {c : Cursor} {word : List Char} (hpre : word <+: c.rest) :
    (c.skip word.length).pos = c.pos.advanceBy word := by
  obtain ⟨rest, hrest⟩ := hpre
  rw [skip, ← hrest, List.take_left]

/-- A cursor that skips a word is after it. -/
theorem offset_lt_skip {c : Cursor} {word : List Char} (hpre : word <+: c.rest) (hne : word ≠ []) :
    c.pos.offset < (c.skip word.length).pos.offset := by
  have hlen : String.utf8Len word ≠ 0 := by rwa [Ne, String.utf8Len_eq_zero]
  rw [pos_skip_of_isPrefix hpre, Position.offset_advanceBy]
  omega

/-- The word that a cursor skips is what the text has between the places before and after. -/
theorem In.cut_skip {source : String} {c : Cursor} {word : List Char} (h : c.In source)
    (hpre : word <+: c.rest) :
    Span.cut source ⟨c.pos, (c.skip word.length).pos⟩ = String.ofList word := by
  obtain ⟨before, htext, hpos⟩ := h
  rw [pos_skip_of_isPrefix hpre, hpos]
  obtain ⟨rest, hrest⟩ := hpre
  have hsource : source = String.ofList (before ++ word ++ rest) := by
    rw [List.append_assoc, hrest, ← htext, String.ofList_toList]
  rw [Span.cut, Position.offset_advanceBy, Position.offset_advanceBy, Position.offset_advanceBy,
    hsource]
  simpa only [Nat.zero_add] using String.extract_of_valid before word rest

end Cursor

/-! ## Where rules end -/

namespace Rule

variable {source : String} {α β : Type}

/-- Tried at the position `p` of the text, the rule ends at a position of the text that is no
earlier, and what it finds and this position are related. -/
def Lands (source : String) (p : Position) (r : Rule α) (Q : α → Position → Prop) : Prop :=
  ∀ ⦃c : Cursor⦄ ⦃a : α⦄ ⦃c' : Cursor⦄, c.In source → c.pos = p → (r c).found = some (a, c') →
    c'.In source ∧ p.offset ≤ c'.pos.offset ∧ Q a c'.pos

namespace Lands

variable {p : Position} {r s : Rule α}

/-- A value by itself ends where it begins. -/
theorem pure {a : α} {Q : α → Position → Prop} (h : Q a p) : Lands source p (Pure.pure a) Q := by
  rintro c b c' hc rfl hf
  change some (a, c) = some (b, c') at hf
  cases hf
  exact ⟨hc, le_rfl, h⟩

/-- The second part of a sequence begins where the first one ends. -/
theorem bind {f : α → Rule β} {P : α → Position → Prop} {Q : β → Position → Prop}
    (hr : Lands source p r P)
    (hf : ∀ a q, p.offset ≤ q.offset → q.Placed source → P a q → Lands source q (f a) Q) :
    Lands source p (r >>= f) Q := by
  intro c b c' hc hp h
  rw [found_bind, Option.bind_eq_some_iff] at h
  obtain ⟨⟨a, c₁⟩, ha, hb⟩ := h
  obtain ⟨hc₁, hle, hP⟩ := hr hc hp ha
  obtain ⟨hc', hle', hQ⟩ := hf a c₁.pos hle hc₁.placed hP hc₁ rfl hb
  exact ⟨hc', hle.trans hle', hQ⟩

/-- What is known of the end may be weakened, by what holds of all ends. -/
theorem mono {P Q : α → Position → Prop} (hr : Lands source p r P)
    (h : ∀ a q, p.offset ≤ q.offset → q.Placed source → P a q → Q a q) : Lands source p r Q := by
  intro c a c' hc hp hf
  obtain ⟨hc', hle, hP⟩ := hr hc hp hf
  exact ⟨hc', hle, h a c'.pos hle hc'.placed hP⟩

theorem map {g : α → β} {Q : β → Position → Prop} (hr : Lands source p r fun a => Q (g a)) :
    Lands source p (g <$> r) Q :=
  hr.bind fun _ _ _ _ hQ => .pure hQ

/-- An alternative ends where one of its rules does. -/
theorem orElse {Q : α → Position → Prop} (hr : Lands source p r Q) (hs : Lands source p s Q) :
    Lands source p (orElse r s) Q := by
  intro c a c' hc hp h
  rw [found_orElse] at h
  cases hf : (r c).found with
  | none =>
    rw [hf, Option.none_or] at h
    exact hs hc hp h
  | some x =>
    rw [hf, Option.some_or] at h
    exact hr hc hp (hf.trans h)

/-- Several rules end where one of them does. -/
theorem firstOf {rules : List (Rule α)} {Q : α → Position → Prop}
    (h : ∀ r ∈ rules, Lands source p r Q) : Lands source p (firstOf rules) Q := by
  induction rules with
  | nil =>
    intro c a c' _ _ hf
    cases hf
  | cons r rest ih => exact (h r (by simp)).orElse (ih fun q hq => h q (by simp [hq]))

theorem named {Q : α → Position → Prop} (hr : Lands source p r Q) :
    Lands source p (named r) Q := by
  intro c a c' hc hp h
  rw [found_named] at h
  exact hr hc hp h

/-- An option ends where its rule does, or where it begins. -/
theorem optional {Q : Option α → Position → Prop} (hr : Lands source p r fun a => Q (some a))
    (hnone : Q none p) : Lands source p (optional r) Q :=
  (map hr).orElse (.pure hnone)

/-- A look ahead does not move. -/
theorem guard {ahead : List Char → Bool} {Q : Unit → Position → Prop} (h : Q () p) :
    Lands source p (guard ahead) Q := by
  rintro c a c' hc rfl hf
  unfold Rule.guard at hf
  split at hf
  · cases hf
    exact ⟨hc, le_rfl, h⟩
  · cases hf

/-- A rule is tried at a position of the text. -/
theorem of_placed {Q : α → Position → Prop} (h : p.Placed source → Lands source p r Q) :
    Lands source p r Q := by
  rintro c a c' hc rfl hf
  exact h hc.placed hc rfl hf

/-- What looks up the position goes on with the position at hand. -/
theorem after_position {f : Position → Rule β} {Q : β → Position → Prop}
    (h : p.Placed source → Lands source p (f p) Q) : Lands source p (Rule.position >>= f) Q := by
  rintro c b c' hc rfl hf
  rw [found_bind] at hf
  exact h hc.placed hc rfl hf

/-- A repetition ends where the last of its findings does, each of which starts where the one before
it ended. -/
theorem many {P : Position → α → Position → Prop} {Q : Position → List α → Position → Prop}
    (hr : ∀ p, Lands source p r (P p)) (hnil : ∀ p, p.Placed source → Q p [] p)
    (hcons : ∀ p a q as q', p.offset ≤ q.offset → q.offset ≤ q'.offset → P p a q → Q q as q' →
      Q p (a :: as) q') (p : Position) :
    Lands source p (many r) (Q p) := by
  -- The bound on the turns does not matter here.
  have hupTo : ∀ n p, Lands source p (manyUpTo r n) (Q p) := by
    intro n
    induction n with
    | zero => exact fun p => of_placed fun hp => .pure (hnil p hp)
    | succ n ih =>
      intro p
      refine of_placed fun hp => orElse ?_ (.pure (hnil p hp))
      refine (hr p).bind fun a q hle _ hP => ?_
      have hrest : Lands source q (manyUpTo r n) fun as q' =>
          q.offset ≤ q'.offset ∧ Q q as q' := (ih q).mono fun as q' hle' _ hQ => ⟨hle', hQ⟩
      exact hrest.bind fun as q' _ _ hQ => .pure (hcons p a q as q' hle hQ.1 hP hQ.2)
  intro c as c' hc hp h
  exact hupTo (c.rest.length + 1) p hc hp h

/-- A lexeme covers what the scanner cuts off; the rule ends after it and the blanks behind it. -/
theorem lexeme {scan : List Char → Option (List Char)} {W : List Char → Prop}
    (hscan : ∀ text word, scan text = some word → word <+: text ∧ W word)
    (hne : ∀ word, W word → word ≠ []) :
    Lands source p (lexeme scan) fun found q => W found.1 ∧ found.2.Placed source ∧
      InOrder p [found.2] q ∧ found.2.cut source = String.ofList found.1 := by
  rintro c found c' hc rfl h
  rw [found_lexeme] at h
  obtain ⟨word, hw, heq⟩ := Option.map_eq_some_iff.mp h
  obtain ⟨rfl, rfl⟩ := Prod.mk.inj heq
  obtain ⟨hpre, hword⟩ := hscan _ _ hw
  -- The span ends with the word, and the blanks behind it are skipped.
  have hin := hc.skip word.length
  have hlt := Cursor.offset_lt_skip hpre (hne word hword)
  have hblanks : (c.skip word.length).pos.offset ≤
      (c.skip word.length).skipBlanks.pos.offset := Cursor.offset_le_skip _ _
  exact ⟨hin.skip _, by omega, hword, ⟨hc.placed, hin.placed, hlt⟩, ⟨le_rfl, hblanks⟩,
    hc.cut_skip hpre⟩

/-- A symbol ends at a position of the text, at which the blanks behind it start. -/
theorem symbol {expected : String} (hne : expected ≠ "") :
    Lands source p (symbol expected) fun last q =>
      last.Placed source ∧ p.offset < last.offset ∧ last.offset ≤ q.offset := by
  -- A word that is not empty moves the place.
  have hword : ∀ word, word = expected.toList → word ≠ [] := by
    rintro word rfl h
    exact hne (String.toList_eq_nil_iff.mp h)
  refine map ((lexeme (fun _ _ => scanText_eq_some_iff.mp) hword).mono ?_)
  rintro ⟨word, span⟩ q - - ⟨-, hplaced, ⟨hfirst, hlast⟩, -⟩
  exact ⟨hplaced.last_placed, lt_of_le_of_lt hfirst hplaced.first_lt_last, hlast⟩

end Lands

end Rule

end Syntax

end TemplateFlow
