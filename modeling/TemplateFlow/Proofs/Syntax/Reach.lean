import TemplateFlow.Proofs.Syntax.Reading

/-!
# How far rules reach

A rule reports the furthest place at which a named rule was tried and not found, whether it finds
something itself or not. Every place that is reported lies behind some text that has been read, from
the place where the rule was tried (`Cursor.Behind`). `Reaches r V` says that this text always has
the property `V`, and there is a law for every combinator.

The laws do not ask which of several places is the furthest, since `V` holds of the text before each
of them. In a sequence the text before a place that a later part reports begins with what the
earlier parts have read; `Reads` says what that may be. So `V` is a property of the whole text from
where the sequence was tried, and it is handed on from part to part as in the laws of `Reads`.
-/

namespace TemplateFlow

namespace Syntax

/-! ## Places behind others -/

namespace Cursor

/-- One place lies behind another, with a text between them. -/
structure Passes (c : Cursor) (text : List Char) (c' : Cursor) : Prop where
  rest_eq : c.rest = text ++ c'.rest
  pos_eq : c'.pos = c.pos.advanceBy text

/-- From place to place the texts between are put together. -/
theorem Passes.trans {c c₁ c₂ : Cursor} {s t : List Char} (h : c.Passes s c₁)
    (h' : c₁.Passes t c₂) : c.Passes (s ++ t) c₂ where
  rest_eq := by rw [h.rest_eq, h'.rest_eq, List.append_assoc]
  pos_eq := by rw [h'.pos_eq, h.pos_eq, Position.advanceBy_append]

/-- Skipping characters passes over just these. -/
theorem passes_skip (c : Cursor) (n : Nat) : c.Passes (c.rest.take n) (c.skip n) where
  rest_eq := (List.take_append_drop n c.rest).symm
  pos_eq := rfl

/-- Blanks lie between a place and that of the next character that is none. -/
theorem exists_passes_skipBlanks (c : Cursor) :
    ∃ blanks, Blanks blanks ∧ c.Passes blanks c.skipBlanks := by
  obtain ⟨blanks, hblanks, hrest⟩ := exists_blanks_skipBlanks c
  have hskip := c.passes_skip (c.rest.takeWhile isBlank).length
  -- There is only one text between two places.
  obtain rfl := List.append_cancel_right (hrest.symm.trans hskip.rest_eq)
  exact ⟨_, hblanks, hskip⟩

/-- A position is none, as the position at the start of all, or it lies behind a text with a
property. -/
def Behind (c : Cursor) (V : List Char → Prop) (p : Position) : Prop :=
  p = {} ∨ ∃ text, text <+: c.rest ∧ p = c.pos.advanceBy text ∧ V text

/-- What lies behind a text with a property lies behind one with every weaker property. -/
theorem Behind.mono {c : Cursor} {V W : List Char → Prop} {p : Position} (hp : c.Behind V p)
    (h : ∀ s, V s → W s) : c.Behind W p := by
  obtain rfl | ⟨text, hpre, hpos, hV⟩ := hp
  · exact .inl rfl
  · exact .inr ⟨text, hpre, hpos, h text hV⟩

/-- Of two places that lie behind such texts, so does the later one. -/
theorem Behind.latest {c : Cursor} {V : List Char → Prop} {p q : Position} (hp : c.Behind V p)
    (hq : c.Behind V q) : c.Behind V (p.latest q) := by
  unfold Position.latest
  split
  · exact hq
  · exact hp

/-- What lies behind a later place lies behind the earlier one too. -/
theorem Passes.behind {c c' : Cursor} {s : List Char} {V : List Char → Prop} {p : Position}
    (h : c.Passes s c') (hp : c'.Behind (fun t => V (s ++ t)) p) : c.Behind V p := by
  obtain rfl | ⟨text, hpre, rfl, hV⟩ := hp
  · exact .inl rfl
  · refine .inr ⟨s ++ text, ?_, ?_, hV⟩
    · rw [h.rest_eq]
      exact (List.prefix_append_right_inj s).mpr hpre
    · rw [h.pos_eq, Position.advanceBy_append]

end Cursor

/-! ## Reported places -/

namespace Rule

variable {α β : Type}

/-- The rule moves over what it reads, and the place that it reports, if it reports any, lies behind
a text with a property. -/
structure Reaches (r : Rule α) (V : List Char → Prop) : Prop where
  passes : ∀ ⦃c : Cursor⦄ ⦃a : α⦄ ⦃c' : Cursor⦄, (r c).found = some (a, c') →
    ∃ text, c.Passes text c'
  behind : ∀ c : Cursor, c.Behind V (r c).reach

namespace Reaches

variable {r s : Rule α} {f : α → Rule β} {V W : List Char → Prop}

/-- The property may be weakened. -/
theorem mono (hr : Reaches r V) (h : ∀ t, V t → W t) : Reaches r W :=
  ⟨hr.passes, fun c => (hr.behind c).mono h⟩

/-- A value by itself reports no place. -/
theorem pure {a : α} : Reaches (Pure.pure a) V := by
  refine ⟨fun c b c' h => ?_, fun c => .inl rfl⟩
  change some (a, c) = some (b, c') at h
  cases h
  exact ⟨[], rfl, rfl⟩

/-- The rule that finds nothing reports no place either. -/
theorem never : Reaches (Rule.never : Rule α) V :=
  ⟨fun _ _ _ h => (nomatch h), fun _ => .inl rfl⟩

/-- In a sequence, what the second part reports lies behind all that both have read. -/
theorem bind {P : α → List Char → Prop} (hr : Reaches r V) (hreads : Reads r P)
    (hf : ∀ a s, P a s → Reaches (f a) fun t => V (s ++ t)) : Reaches (r >>= f) V := by
  have hpart : ∀ ⦃c : Cursor⦄ ⦃a : α⦄ ⦃c' : Cursor⦄, (r c).found = some (a, c') →
      ∃ s, c.Passes s c' ∧ P a s := by
    intro c a c' h
    obtain ⟨s, hs⟩ := hr.passes h
    obtain ⟨t, ht, hP⟩ := hreads h
    -- What is passed is what is read.
    obtain rfl := List.append_cancel_right (ht.symm.trans hs.rest_eq)
    exact ⟨t, hs, hP⟩
  constructor
  · intro c b c' h
    rw [found_bind, Option.bind_eq_some_iff] at h
    obtain ⟨⟨a, c₁⟩, ha, hb⟩ := h
    obtain ⟨s, hs, hP⟩ := hpart ha
    obtain ⟨t, ht⟩ := (hf a s hP).passes hb
    exact ⟨s ++ t, hs.trans ht⟩
  · intro c
    change c.Behind V (Rule.bind r f c).reach
    unfold Rule.bind
    cases h : (r c).found with
    | none =>
      simp only [h]
      exact hr.behind c
    | some x =>
      obtain ⟨s, hs, hP⟩ := hpart h
      simp only [h]
      exact (hr.behind c).latest (hs.behind ((hf x.1 s hP).behind x.2))

/-- A sequence whose second part reports nothing of its own, whatever is found before it. -/
theorem bind_left (hr : Reaches r V) (hf : ∀ a, Reaches (f a) fun _ => False) :
    Reaches (r >>= f) V := by
  have hreads : Reads r fun _ _ => True := by
    intro c a c' h
    obtain ⟨text, htext⟩ := hr.passes h
    exact ⟨text, htext.rest_eq, trivial⟩
  exact hr.bind hreads fun a _ _ => (hf a).mono fun _ => False.elim

theorem map {g : α → β} (hr : Reaches r V) : Reaches (g <$> r) V :=
  hr.bind_left fun _ => pure

/-- An alternative reports what one of its two rules reports. -/
theorem orElse (hr : Reaches r V) (hs : Reaches s V) : Reaches (orElse r s) V := by
  constructor
  · intro c a c' h
    rw [found_orElse] at h
    cases hf : (r c).found with
    | none =>
      rw [hf, Option.none_or] at h
      exact hs.passes h
    | some x =>
      rw [hf, Option.some_or] at h
      exact hr.passes (hf.trans h)
  · intro c
    unfold Rule.orElse
    cases hf : (r c).found with
    | none =>
      -- Both rules have been tried, so the later of the two places is reported.
      simp only [hf]
      exact (hr.behind c).latest (hs.behind c)
    | some x =>
      simp only [hf]
      exact hr.behind c

/-- Several rules report what one of them reports. -/
theorem firstOf {rules : List (Rule α)} (h : ∀ r ∈ rules, Reaches r V) :
    Reaches (firstOf rules) V := by
  induction rules with
  | nil => exact never
  | cons r rules ih => exact (h r (by simp)).orElse (ih fun q hq => h q (by simp [hq]))

/-- A named rule reports the place where it was tried, behind no text at all. -/
theorem named (hr : Reaches r V) (h : V []) : Reaches (named r) V := by
  constructor
  · intro c a c' hf
    rw [found_named] at hf
    exact hr.passes hf
  · intro c
    unfold Rule.named
    cases hf : (r c).found with
    | none =>
      simp only [hf]
      exact (hr.behind c).latest (.inr ⟨[], List.nil_prefix, rfl, h⟩)
    | some x =>
      simp only [hf]
      exact hr.behind c

theorem optional (hr : Reaches r V) : Reaches (optional r) V :=
  (map hr).orElse pure

/-- A look ahead has no name, so it reports no place. -/
theorem guard {ahead : List Char → Bool} : Reaches (guard ahead) V := by
  constructor
  · intro c a c' h
    unfold Rule.guard at h
    split at h
    · cases h
      exact ⟨[], rfl, rfl⟩
    · cases h
  · intro c
    unfold Rule.guard
    split <;> exact .inl rfl

/-- Looking up the position reports no place. -/
theorem after_position {f : Position → Rule β} (h : ∀ p, Reaches (f p) V) :
    Reaches (Rule.position >>= f) V := by
  have hposition : Reaches Rule.position V := by
    refine ⟨fun c p c' hf => ?_, fun c => .inl rfl⟩
    cases hf
    exact ⟨[], rfl, rfl⟩
  have hreads : Reads Rule.position fun _ s => s = [] := by
    intro c p c' hf
    cases hf
    exact ⟨[], rfl, rfl⟩
  refine hposition.bind hreads ?_
  rintro p s rfl
  exact h p

/-- A repetition reports a place behind some of its findings, in the next attempt. -/
theorem many {P : α → List Char → Prop} (hr : Reaches r V) (hreads : Reads r P)
    (hfirst : ∀ t, V t → W t) (hnext : ∀ a s t, P a s → W t → W (s ++ t)) :
    Reaches (many r) W := by
  have hupTo : ∀ n, Reaches (manyUpTo r n) W := by
    intro n
    induction n with
    | zero => exact pure
    | succ n ih =>
      have hrest : ∀ a s, P a s → Reaches (manyUpTo r n) fun t => W (s ++ t) :=
        fun a s hs => ih.mono fun t => hnext a s t hs
      refine orElse ((hr.mono hfirst).bind hreads fun a s hs => ?_) pure
      exact (hrest a s hs).bind_left fun _ => pure
  exact ⟨fun c _ _ h => (hupTo (c.rest.length + 1)).passes h,
    fun c => (hupTo (c.rest.length + 1)).behind c⟩

/-- Words and symbols have no name, so nothing is reported inside of them. -/
theorem lexeme {scan : List Char → Option (List Char)} : Reaches (lexeme scan) V := by
  constructor
  · intro c a c' h
    rw [found_lexeme] at h
    obtain ⟨word, -, heq⟩ := Option.map_eq_some_iff.mp h
    obtain ⟨-, rfl⟩ := Prod.mk.inj heq
    exact ⟨_, (c.passes_skip _).trans (Cursor.passes_skip _ _)⟩
  · intro c
    unfold Rule.lexeme
    split <;> exact .inl rfl

/-- A symbol has no name, so it reports no place. -/
theorem symbol {expected : String} : Reaches (symbol expected) V :=
  map lexeme

/-- What is reported after a symbol lies behind the symbol too. -/
theorem after_symbol {expected : String} {f : Position → Rule β}
    (h : ∀ p s, Token expected.toList s → Reaches (f p) fun t => V (s ++ t)) :
    Reaches (Rule.symbol expected >>= f) V :=
  symbol.bind (Reads.symbol expected) h

/-- A word under a name is reported where it is tried and not found. -/
theorem token {scan : List Char → Option (List Char)} {g : List Char × Span → α} (h : V []) :
    Reaches (Rule.named (g <$> Rule.lexeme scan)) V :=
  named (map lexeme) h

end Reaches

end Rule

end Syntax

end TemplateFlow
