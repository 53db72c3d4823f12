import TemplateFlow.Syntax.Rule

/-!
# What rules read

Two ways to say what a rule does with a text, each with a law for every combinator.

* `Reads r P`: whenever `r` finds a value, the text it has read stands in the relation `P` to that
  value. The laws for sequences hand the relation on: after the first part of a sequence has been
  read, what remains to be shown is about the text after it.
* `Finds r text rest P`: where `text` and then `rest` stand, `r` reads exactly `text` and finds a
  value with the property `P`. Since a rule takes what it can, what `rest` begins with matters;
  `Refuses r rest` says that `r` is not found where `rest` stands.

A repetition is found as often as its rule is (`Runs`), up to where the rule is refused. `FindsMany`
is `Finds` for the list of its findings. A rule that begins with itself, as the levels of operators
that group from the left do, is one head and a repetition of steps; `Leads` follows such a rule
while it is still open whether there is one more step.
-/

namespace TemplateFlow

namespace Syntax

/-! ## Blanks -/

/-- A text of blanks only. -/
def Blanks (s : List Char) : Prop := ∀ c ∈ s, isBlank c = true

instance (s : List Char) : Decidable (Blanks s) :=
  List.decidableBAll (isBlank · = true) s

/-- A text whose first character, if it has one, fails a test. -/
def StopsAt (p : Char → Bool) (s : List Char) : Prop := ∀ c ∈ s.head?, p c = false

/-- A word and the blanks after it. -/
def Token (word s : List Char) : Prop := ∃ blanks, Blanks blanks ∧ s = word ++ blanks

theorem blanks_nil : Blanks [] := by simp [Blanks]

/-- Blanks behind blanks are blanks. -/
theorem blanks_append {s t : List Char} (hs : Blanks s) (ht : Blanks t) : Blanks (s ++ t) := by
  intro c hc
  rcases List.mem_append.mp hc with hc | hc
  · exact hs c hc
  · exact ht c hc

/-- The characters that pass a test are taken up to the first one that fails it. -/
theorem takeWhile_append_of_stopsAt {p : Char → Bool} {s rest : List Char}
    (hs : ∀ c ∈ s, p c = true) (hr : StopsAt p rest) : (s ++ rest).takeWhile p = s := by
  rw [List.takeWhile_append_of_pos hs]
  cases rest with
  | nil => simp
  | cons c rest =>
    have hc : p c = false := hr c rfl
    simp [hc]

/-- The characters that are taken pass the test. -/
theorem mem_takeWhile {p : Char → Bool} {s : List Char} {c : Char} (h : c ∈ s.takeWhile p) :
    p c = true :=
  List.all_eq_true.mp List.all_takeWhile c h

/-- Skipping blanks takes off a text of blanks. -/
theorem exists_blanks_skipBlanks (c : Cursor) :
    ∃ blanks, Blanks blanks ∧ c.rest = blanks ++ c.skipBlanks.rest := by
  -- The cursor drops as many characters as there are blanks in front, and these are the blanks.
  have hall : Blanks (c.rest.takeWhile isBlank) := fun _ h => mem_takeWhile h
  obtain ⟨t, ht⟩ := List.takeWhile_prefix isBlank (l := c.rest)
  refine ⟨c.rest.takeWhile isBlank, hall, ?_⟩
  change c.rest = c.rest.takeWhile isBlank ++ c.rest.drop (c.rest.takeWhile isBlank).length
  generalize c.rest.takeWhile isBlank = w at ht ⊢
  rw [← ht, List.drop_left]

/-- All blanks in front of a text are skipped. -/
theorem rest_skipBlanks {c : Cursor} {blanks rest : List Char} (hc : c.rest = blanks ++ rest)
    (hb : Blanks blanks) (hr : StopsAt isBlank rest) : c.skipBlanks.rest = rest := by
  change c.rest.drop (c.rest.takeWhile isBlank).length = rest
  rw [hc, takeWhile_append_of_stopsAt hb hr, List.drop_left]

namespace Rule

variable {α β : Type}

/-! ## What is found -/

/-- A sequence finds what its second part finds behind the first one. -/
theorem found_bind (r : Rule α) (f : α → Rule β) (c : Cursor) :
    ((r >>= f) c).found = (r c).found.bind fun x => (f x.1 x.2).found := by
  change (Rule.bind r f c).found = _
  unfold Rule.bind
  cases h : (r c).found <;> simp [h]

/-- An alternative is asked for only where the first rule finds nothing. -/
theorem found_orElse (r s : Rule α) (c : Cursor) :
    (orElse r s c).found = (r c).found.or (s c).found := by
  unfold orElse
  cases h : (r c).found <;> simp [h]

/-- A name changes what is reported, not what is found. -/
theorem found_named (r : Rule α) (c : Cursor) : (named r c).found = (r c).found := by
  unfold named
  cases h : (r c).found <;> simp [h]

/-- A lexeme is the word that the scanner cuts off, and the blanks behind it are skipped. -/
theorem found_lexeme (scan : List Char → Option (List Char)) (c : Cursor) :
    (lexeme scan c).found = (scan c.rest).map fun word =>
      ((word, ⟨c.pos, (c.skip word.length).pos⟩), (c.skip word.length).skipBlanks) := by
  unfold lexeme
  cases scan c.rest <;> rfl

/-- The scanner of a fixed text cuts off this text, where it stands in front. -/
theorem scanText_eq_some_iff {expected text word : List Char} :
    scanText expected text = some word ↔ word <+: text ∧ word = expected := by
  rw [scanText, Option.ite_none_right_eq_some, List.isPrefixOf_iff_prefix]
  constructor
  · rintro ⟨hpre, hword⟩
    cases hword
    exact ⟨hpre, rfl⟩
  · rintro ⟨hpre, rfl⟩
    exact ⟨hpre, rfl⟩

/-! ## Texts that are read -/

/-- Whatever the rule finds, the text it has read is related to it. -/
def Reads (r : Rule α) (P : α → List Char → Prop) : Prop :=
  ∀ ⦃c : Cursor⦄ ⦃a : α⦄ ⦃c' : Cursor⦄, (r c).found = some (a, c') →
    ∃ text, c.rest = text ++ c'.rest ∧ P a text

/-- A value by itself reads nothing. -/
theorem Reads.pure {P : α → List Char → Prop} {a : α} (h : P a []) : Reads (Pure.pure a) P := by
  intro c b c' hf
  change some (a, c) = some (b, c') at hf
  cases hf
  exact ⟨[], rfl, h⟩

/-- The text of a sequence is that of its first part and then that of its second one. -/
theorem Reads.bind {r : Rule α} {f : α → Rule β} {P : α → List Char → Prop}
    {Q : β → List Char → Prop} (hr : Reads r P)
    (hf : ∀ a s, P a s → Reads (f a) fun b t => Q b (s ++ t)) : Reads (r >>= f) Q := by
  intro c b c' h
  rw [found_bind, Option.bind_eq_some_iff] at h
  obtain ⟨⟨a, c₁⟩, ha, hb⟩ := h
  obtain ⟨s, hs, hp⟩ := hr ha
  obtain ⟨t, ht, hq⟩ := hf a s hp hb
  exact ⟨s ++ t, by rw [hs, ht, List.append_assoc], hq⟩

/-- What is read stands in every weaker relation as well. -/
theorem Reads.mono {r : Rule α} {P Q : α → List Char → Prop} (hr : Reads r P)
    (h : ∀ a s, P a s → Q a s) : Reads r Q := by
  intro c a c' hf
  obtain ⟨s, hs, hp⟩ := hr hf
  exact ⟨s, hs, h a s hp⟩

theorem Reads.map {r : Rule α} {g : α → β} {P : β → List Char → Prop}
    (hr : Reads r fun a => P (g a)) : Reads (g <$> r) P :=
  hr.bind fun _ _ hp => Reads.pure (by simpa using hp)

/-- Whichever of two rules finds something, it reads what both of them may read. -/
theorem Reads.orElse {r s : Rule α} {P : α → List Char → Prop} (hr : Reads r P)
    (hs : Reads s P) : Reads (orElse r s) P := by
  intro c a c' h
  rw [found_orElse] at h
  cases hf : (r c).found with
  | none =>
    rw [hf, Option.none_or] at h
    exact hs h
  | some x =>
    rw [hf, Option.some_or] at h
    exact hr (hf.trans h)

/-- Whichever of the rules finds something, it reads what all of them may read. -/
theorem Reads.firstOf {rules : List (Rule α)} {P : α → List Char → Prop}
    (h : ∀ r ∈ rules, Reads r P) : Reads (firstOf rules) P := by
  induction rules with
  | nil =>
    intro c a c' hf
    cases hf
  | cons r rest ih =>
    exact (h r (by simp)).orElse (ih fun q hq => h q (by simp [hq]))

theorem Reads.named {r : Rule α} {P : α → List Char → Prop} (hr : Reads r P) :
    Reads (named r) P := by
  intro c a c' h
  rw [found_named] at h
  exact hr h

/-- An option reads what its rule reads, or nothing. -/
theorem Reads.optional {r : Rule α} {P : Option α → List Char → Prop}
    (hr : Reads r fun a => P (some a)) (hnone : P none []) : Reads (optional r) P :=
  (Reads.map hr).orElse (Reads.pure hnone)

/-- Looking ahead reads nothing. -/
theorem Reads.guard {ahead : List Char → Bool} {P : Unit → List Char → Prop} (h : P () []) :
    Reads (guard ahead) P := by
  intro c a c' hf
  unfold Rule.guard at hf
  split at hf
  · cases hf
    exact ⟨[], rfl, h⟩
  · cases hf

/-- Looking up the position reads nothing. -/
theorem Reads.after_position {f : Position → Rule β} {P : β → List Char → Prop}
    (h : ∀ p, Reads (f p) P) : Reads (Rule.position >>= f) P := by
  intro c b c' hf
  rw [found_bind] at hf
  exact h c.pos hf

/-- A repetition reads the texts of its findings one after the other. -/
theorem Reads.many {r : Rule α} {P : α → List Char → Prop} {Q : List α → List Char → Prop}
    (hr : Reads r P) (hnil : Q [] [])
    (hcons : ∀ a s as t, P a s → Q as t → Q (a :: as) (s ++ t)) : Reads (many r) Q := by
  -- The bound on the turns does not matter here: with any bound only findings are read.
  have hupTo : ∀ n, Reads (manyUpTo r n) Q := by
    intro n
    induction n with
    | zero => exact Reads.pure hnil
    | succ n ih =>
      refine Reads.orElse (hr.bind fun a s hp => ih.bind fun as t hq => Reads.pure ?_)
        (Reads.pure hnil)
      simpa using hcons a s as t hp hq
  intro c as c' h
  exact hupTo (c.rest.length + 1) h

/-- A lexeme is what the scanner cuts off, which must be the front of the text, and the blanks
after it. -/
theorem Reads.lexeme {scan : List Char → Option (List Char)} {W : List Char → Prop}
    (hscan : ∀ text word, scan text = some word → word <+: text ∧ W word) :
    Reads (lexeme scan) fun found s => W found.1 ∧ Token found.1 s := by
  intro c found c' h
  rw [found_lexeme] at h
  obtain ⟨word, hw, heq⟩ := Option.map_eq_some_iff.mp h
  obtain ⟨rfl, rfl⟩ := Prod.mk.inj heq
  -- The word is the front of the text, and the blanks are the front of what is left of it.
  obtain ⟨⟨t, ht⟩, hword⟩ := hscan _ _ hw
  obtain ⟨blanks, hb, hrest⟩ := exists_blanks_skipBlanks (c.skip word.length)
  refine ⟨word ++ blanks, ?_, hword, blanks, hb, rfl⟩
  have hskip : (c.skip word.length).rest = t := by
    change c.rest.drop word.length = t
    rw [← ht, List.drop_left]
  rw [List.append_assoc, ← hrest, hskip, ht]

/-- A symbol reads its characters and the blanks behind them. -/
theorem Reads.symbol (expected : String) :
    Reads (symbol expected) fun _ s => Token expected.toList s := by
  refine Reads.map (Reads.mono (Reads.lexeme fun _ _ => scanText_eq_some_iff.mp) ?_)
  rintro ⟨word, span⟩ s ⟨rfl, ht⟩
  exact ht

/-! ## Texts that are found -/

/-- Where `text` and then `rest` stand, the rule reads `text` and finds a value with a property. -/
def Finds (r : Rule α) (text rest : List Char) (P : α → Prop) : Prop :=
  ∀ c : Cursor, c.rest = text ++ rest →
    ∃ a c', (r c).found = some (a, c') ∧ c'.rest = rest ∧ P a

/-- The rule is not found where `rest` stands. -/
def Refuses (r : Rule α) (rest : List Char) : Prop :=
  ∀ c : Cursor, c.rest = rest → (r c).found = none

/-- What is found has every weaker property as well. -/
theorem Finds.mono {r : Rule α} {text rest : List Char} {P Q : α → Prop}
    (hr : Finds r text rest P) (h : ∀ a, P a → Q a) : Finds r text rest Q := by
  intro c hc
  obtain ⟨a, c', hf, hrest, hp⟩ := hr c hc
  exact ⟨a, c', hf, hrest, h a hp⟩

/-- A value by itself is found anywhere, on no text. -/
theorem Finds.pure {rest : List Char} {P : α → Prop} {a : α} (h : P a) :
    Finds (Pure.pure a) [] rest P :=
  fun c hc => ⟨a, c, rfl, hc, h⟩

/-- A sequence is found on the texts of its parts, the first of which is followed by the second. -/
theorem Finds.bind {r : Rule α} {f : α → Rule β} {s t rest : List Char} {P : α → Prop}
    {Q : β → Prop} (hr : Finds r s (t ++ rest) P) (hf : ∀ a, P a → Finds (f a) t rest Q) :
    Finds (r >>= f) (s ++ t) rest Q := by
  intro c hc
  rw [List.append_assoc] at hc
  obtain ⟨a, c₁, ha, hrest, hp⟩ := hr c hc
  obtain ⟨b, c₂, hb, hrest', hq⟩ := hf a hp c₁ hrest
  exact ⟨b, c₂, by rw [found_bind, ha]; exact hb, hrest', hq⟩

/-- A sequence whose first part reads nothing. -/
theorem Finds.bind_nil_left {r : Rule α} {f : α → Rule β} {t rest : List Char} {P : α → Prop}
    {Q : β → Prop} (hr : Finds r [] (t ++ rest) P) (hf : ∀ a, P a → Finds (f a) t rest Q) :
    Finds (r >>= f) t rest Q :=
  Finds.bind (s := []) hr hf

/-- A sequence whose second part reads nothing. -/
theorem Finds.bind_nil_right {r : Rule α} {f : α → Rule β} {s rest : List Char} {P : α → Prop}
    {Q : β → Prop} (hr : Finds r s rest P) (hf : ∀ a, P a → Finds (f a) [] rest Q) :
    Finds (r >>= f) s rest Q := by
  rw [← List.append_nil s]
  exact Finds.bind hr hf

theorem Finds.map {r : Rule α} {g : α → β} {s rest : List Char} {P : β → Prop}
    (hr : Finds r s rest fun a => P (g a)) : Finds (g <$> r) s rest P :=
  hr.bind_nil_right fun _ hp => Finds.pure hp

/-- What the first rule finds is found, whatever the second one would find. -/
theorem Finds.orElse_left {r q : Rule α} {s rest : List Char} {P : α → Prop}
    (hr : Finds r s rest P) : Finds (orElse r q) s rest P := by
  intro c hc
  obtain ⟨a, c', hf, hrest, hp⟩ := hr c hc
  exact ⟨a, c', by rw [found_orElse, hf, Option.some_or], hrest, hp⟩

/-- The second rule is reached only where the first one is refused. -/
theorem Finds.orElse_right {r q : Rule α} {s rest : List Char} {P : α → Prop}
    (hr : Refuses r (s ++ rest)) (hq : Finds q s rest P) : Finds (orElse r q) s rest P := by
  intro c hc
  obtain ⟨a, c', hf, hrest, hp⟩ := hq c hc
  exact ⟨a, c', by rw [found_orElse, hr c hc, Option.none_or, hf], hrest, hp⟩

/-- Of several rules the first is found that is not refused. -/
theorem Finds.firstOf (before : List (Rule α)) {after : List (Rule α)} {r : Rule α}
    {s rest : List Char} {P : α → Prop} (hbefore : ∀ q ∈ before, Refuses q (s ++ rest))
    (hr : Finds r s rest P) :
    Finds (firstOf (before ++ r :: after)) s rest P := by
  induction before with
  | nil => exact hr.orElse_left
  | cons q before ih =>
    exact Finds.orElse_right (hbefore q (by simp)) (ih fun p hp => hbefore p (by simp [hp]))

theorem Finds.named {r : Rule α} {s rest : List Char} {P : α → Prop} (hr : Finds r s rest P) :
    Finds (named r) s rest P := by
  intro c hc
  rw [found_named]
  exact hr c hc

/-- An option takes what there is. -/
theorem Finds.optional {r : Rule α} {s rest : List Char} {P : Option α → Prop}
    (hr : Finds r s rest fun a => P (some a)) : Finds (optional r) s rest P :=
  (Finds.map hr).orElse_left

/-- The position can be looked up anywhere. -/
theorem Finds.position (rest : List Char) : Finds position [] rest fun _ => True :=
  fun c hc => ⟨c.pos, c, rfl, hc, trivial⟩

/-- What is found does not depend on the position, so a rule must do its part for any of them. -/
theorem Finds.after_position {f : Position → Rule β} {s rest : List Char} {P : β → Prop}
    (h : ∀ p, Finds (f p) s rest P) : Finds (Rule.position >>= f) s rest P :=
  Finds.bind_nil_left (Finds.position _) fun p _ => h p

/-- A look ahead succeeds by what follows it, since it reads nothing. -/
theorem Finds.guard {ahead : List Char → Bool} {rest : List Char} (hrest : ahead rest = true) :
    Finds (guard ahead) [] rest fun _ => True := by
  intro c hc
  rw [List.nil_append] at hc
  exact ⟨(), c, by simp [Rule.guard, hc, hrest], hc, trivial⟩

/-! ## Texts that are refused -/

/-- A sequence is refused where its first part is. -/
theorem Refuses.bind {r : Rule α} {f : α → Rule β} {rest : List Char} (hr : Refuses r rest) :
    Refuses (r >>= f) rest := by
  intro c hc
  rw [found_bind, hr c hc, Option.bind_none]

/-- A sequence is refused also behind its first part; nothing of that is kept then. -/
theorem Refuses.bind_right {r : Rule α} {f : α → Rule β} {s rest : List Char} {P : α → Prop}
    (hr : Finds r s rest P) (hf : ∀ a, P a → Refuses (f a) rest) :
    Refuses (r >>= f) (s ++ rest) := by
  intro c hc
  obtain ⟨a, c', ha, hrest, hp⟩ := hr c hc
  rw [found_bind, ha]
  exact hf a hp c' hrest

theorem Refuses.after_position {f : Position → Rule β} {rest : List Char}
    (h : ∀ p, Refuses (f p) rest) : Refuses (Rule.position >>= f) rest :=
  Refuses.bind_right (Finds.position rest) fun p _ => h p

theorem Refuses.map {r : Rule α} {g : α → β} {rest : List Char} (hr : Refuses r rest) :
    Refuses (g <$> r) rest :=
  hr.bind

/-- Two rules are refused together where each of them is. -/
theorem Refuses.orElse {r q : Rule α} {rest : List Char} (hr : Refuses r rest)
    (hq : Refuses q rest) : Refuses (orElse r q) rest := by
  intro c hc
  rw [found_orElse, hr c hc, Option.none_or, hq c hc]

/-- No rule is found where all are refused. -/
theorem Refuses.firstOf {rules : List (Rule α)} {rest : List Char}
    (h : ∀ r ∈ rules, Refuses r rest) : Refuses (firstOf rules) rest := by
  induction rules with
  | nil => exact fun c _ => rfl
  | cons r rules ih => exact (h r (by simp)).orElse (ih fun q hq => h q (by simp [hq]))

theorem Refuses.named {r : Rule α} {rest : List Char} (hr : Refuses r rest) :
    Refuses (named r) rest := by
  intro c hc
  rw [found_named]
  exact hr c hc

/-- Where its rule is refused, an option is left out. -/
theorem Refuses.optional {r : Rule α} {rest : List Char} {P : Option α → Prop}
    (hr : Refuses r rest) (h : P none) : Finds (optional r) [] rest P :=
  Finds.orElse_right (Refuses.map hr) (Finds.pure h)

/-! ## Repetitions -/

/-- The findings of a rule one after the other, each of which leaves less to read. -/
inductive Runs (r : Rule α) : Cursor → List α → Cursor → Prop where
  | nil {c : Cursor} : Runs r c [] c
  | cons {c c₁ c₂ : Cursor} {a : α} {as : List α} : (r c).found = some (a, c₁) →
      c₁.rest.length < c.rest.length → Runs r c₁ as c₂ → Runs r c (a :: as) c₂

/-- One more finding can be put behind the others. -/
theorem Runs.snoc {r : Rule α} {c c₁ c₂ : Cursor} {a : α} {as : List α} (h : Runs r c as c₁)
    (ha : (r c₁).found = some (a, c₂)) (hlt : c₂.rest.length < c₁.rest.length) :
    Runs r c (as ++ [a]) c₂ := by
  induction h with
  | nil => exact .cons ha hlt .nil
  | cons hb hlt' _ ih => exact .cons hb hlt' (ih ha hlt)

/-- A repetition goes on for as long as its rule is found; it does not run out of turns. -/
theorem found_manyUpTo {r : Rule α} {c c' : Cursor} {as : List α} (h : Runs r c as c')
    (hstop : (r c').found = none) :
    ∀ n, c.rest.length < n → (manyUpTo r n c).found = some (as, c') := by
  -- Each finding leaves less to read, so there is always a turn left for the next one.
  induction h with
  | nil =>
    intro n hn
    obtain ⟨m, rfl⟩ : ∃ m, n = m + 1 := ⟨n - 1, by omega⟩
    rw [manyUpTo, found_orElse, found_bind, hstop]
    rfl
  | cons hsome hlt _ ih =>
    intro n hn
    obtain ⟨m, rfl⟩ : ∃ m, n = m + 1 := ⟨n - 1, by omega⟩
    rw [manyUpTo, found_orElse, found_bind, hsome, Option.bind_some, found_bind,
      ih hstop m (by omega)]
    rfl

/-- A repetition has one turn more than there are characters, and that is enough. -/
theorem found_many {r : Rule α} {c c' : Cursor} {as : List α} (h : Runs r c as c')
    (hstop : (r c').found = none) : (many r c).found = some (as, c') :=
  found_manyUpTo h hstop _ (Nat.lt_succ_self _)

/-- Where `text` and then `rest` stand, the rule is found one time after the other on `text`, and
then refused. -/
def FindsMany (r : Rule α) (text rest : List Char) (P : List α → Prop) : Prop :=
  Refuses r rest ∧ ∀ c : Cursor, c.rest = text ++ rest →
    ∃ as c', Runs r c as c' ∧ c'.rest = rest ∧ P as

/-- Where the rule is refused, it is found no time at all. -/
theorem FindsMany.nil {r : Rule α} {rest : List Char} {P : List α → Prop} (hr : Refuses r rest)
    (h : P []) : FindsMany r [] rest P :=
  ⟨hr, fun c hc => ⟨[], c, .nil, hc, h⟩⟩

/-- One more finding can be put in front of the others, if it reads something. -/
theorem FindsMany.cons {r : Rule α} {s t rest : List Char} {P : α → Prop} {Q R : List α → Prop}
    (hs : s ≠ []) (hr : Finds r s (t ++ rest) P) (hmany : FindsMany r t rest Q)
    (h : ∀ a as, P a → Q as → R (a :: as)) : FindsMany r (s ++ t) rest R := by
  refine ⟨hmany.1, fun c hc => ?_⟩
  rw [List.append_assoc] at hc
  obtain ⟨a, c₁, ha, hrest, hp⟩ := hr c hc
  obtain ⟨as, c₂, has, hrest', hq⟩ := hmany.2 c₁ hrest
  -- The first finding reads something, since its text is not empty.
  refine ⟨a :: as, c₂, .cons ha ?_ has, hrest', h a as hp hq⟩
  have := List.length_pos_iff.mpr hs
  rw [hrest, hc]
  simp only [List.length_append]
  omega

/-- What a rule finds one time after the other, a repetition of it finds at once. -/
theorem FindsMany.many {r : Rule α} {text rest : List Char} {P : List α → Prop}
    (h : FindsMany r text rest P) : Finds (many r) text rest P := by
  intro c hc
  obtain ⟨as, c', has, hrest, hp⟩ := h.2 c hc
  exact ⟨as, c', found_many has (h.1 c' hrest), hrest, hp⟩

/-- Where `text` and then `rest` stand, `head` is found first and then `step` one time after the
other, on `text` as a whole, and what `apply` makes of the findings has a property. It is open
whether `step` is found once more. -/
def Leads (head : Rule α) (step : Rule β) (apply : α → β → α) (text rest : List Char)
    (P : α → Prop) : Prop :=
  ∀ c : Cursor, c.rest = text ++ rest → ∃ a c₁ bs c₂, (head c).found = some (a, c₁) ∧
    Runs step c₁ bs c₂ ∧ c₂.rest = rest ∧ P (bs.foldl apply a)

/-- The head by itself leads to where the steps begin. -/
theorem Finds.leads {head : Rule α} {step : Rule β} {apply : α → β → α} {text rest : List Char}
    {P : α → Prop} (h : Finds head text rest P) : Leads head step apply text rest P := by
  intro c hc
  obtain ⟨a, c₁, ha, hrest, hp⟩ := h c hc
  exact ⟨a, c₁, [], c₁, ha, .nil, hrest, hp⟩

/-- One more step goes on from what the steps before it have built. -/
theorem Leads.snoc {head : Rule α} {step : Rule β} {apply : α → β → α} {s t rest : List Char}
    {P Q : α → Prop} {R : β → Prop} (hs : Leads head step apply s (t ++ rest) P) (ht : t ≠ [])
    (hstep : Finds step t rest R) (h : ∀ a b, P a → R b → Q (apply a b)) :
    Leads head step apply (s ++ t) rest Q := by
  intro c hc
  rw [List.append_assoc] at hc
  obtain ⟨a, c₁, bs, c₂, ha, hbs, hrest, hp⟩ := hs c hc
  obtain ⟨b, c₃, hb, hrest', hr⟩ := hstep c₂ hrest
  refine ⟨a, c₁, bs ++ [b], c₃, ha, hbs.snoc hb ?_, hrest', ?_⟩
  · have := List.length_pos_iff.mpr ht
    rw [hrest, hrest', List.length_append]
    omega
  · rw [List.foldl_append]
    exact h _ b hp hr

/-- Where one more step is refused, the steps are all of a repetition. -/
theorem Leads.finds {head : Rule α} {step : Rule β} {apply : α → β → α} {text rest : List Char}
    {P : α → Prop} (h : Leads head step apply text rest P) (hstop : Refuses step rest) :
    Finds (do let a ← head; let bs ← many step; return bs.foldl apply a) text rest P := by
  intro c hc
  obtain ⟨a, c₁, bs, c₂, ha, hbs, hrest, hp⟩ := h c hc
  refine ⟨bs.foldl apply a, c₂, ?_, hrest, hp⟩
  rw [found_bind, ha, Option.bind_some, found_bind, found_many hbs (hstop c₂ hrest)]
  rfl

/-! ## Lexemes -/

/-- A lexeme is found where the scanner cuts off just this word. -/
theorem Finds.lexeme {scan : List Char → Option (List Char)} {word s rest : List Char}
    {P : List Char × Span → Prop} (hs : Token word s) (hscan : scan (s ++ rest) = some word)
    (hrest : StopsAt isBlank rest) (h : ∀ span, P (word, span)) :
    Finds (lexeme scan) s rest P := by
  intro c hc
  obtain ⟨blanks, hb, rfl⟩ := hs
  have hskip : (c.skip word.length).rest = blanks ++ rest := by
    change c.rest.drop word.length = blanks ++ rest
    rw [hc, List.append_assoc, List.drop_left]
  rw [← hc] at hscan
  exact ⟨_, _, by rw [Rule.lexeme, hscan], rest_skipBlanks hskip hb hrest, h _⟩

/-- A lexeme is refused where the scanner cuts nothing off. -/
theorem Refuses.lexeme {scan : List Char → Option (List Char)} {rest : List Char}
    (h : scan rest = none) : Refuses (lexeme scan) rest := by
  intro c hc
  rw [Rule.lexeme, hc, h]

/-- A symbol is found where its characters stand. -/
theorem Finds.symbol {expected : String} {s rest : List Char} (hs : Token expected.toList s)
    (hrest : StopsAt isBlank rest) : Finds (symbol expected) s rest fun _ => True := by
  refine Finds.map (Finds.lexeme hs ?_ hrest fun _ => trivial)
  obtain ⟨blanks, -, rfl⟩ := hs
  refine scanText_eq_some_iff.mpr ⟨?_, rfl⟩
  rw [List.append_assoc]
  exact List.prefix_append _ _

/-- A symbol is refused where other characters stand. -/
theorem Refuses.symbol {expected : String} {rest : List Char}
    (h : ¬ expected.toList <+: rest) : Refuses (symbol expected) rest := by
  refine Refuses.map (Refuses.lexeme (Option.eq_none_iff_forall_ne_some.mpr fun word hword => ?_))
  obtain ⟨hpre, rfl⟩ := scanText_eq_some_iff.mp hword
  exact h hpre

end Rule

end Syntax

end TemplateFlow
