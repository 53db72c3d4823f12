import TemplateFlow.Template

/-!
# The component a text refers to

A text refers to a component wherever `$('` or `$val('` opens a quotation that `')` closes on the
same line (`Reference`). There may be several such places, one place may be closed in several ways,
and an opening that is not closed on its line may have others behind it on the same line. What
counts is the reference that starts first and, of those that start there, the one with the shortest
id (`FirstReference`); it is what the search from left to right finds (`firstId?_eq_some_iff`), and
the search finds nothing only where nothing is referred to (`firstId?_eq_none_iff`).

The id of a call is put into its template as it stands. So it is found again unless it breaks the
line or holds the closing symbols itself (`componentId_callComponent_iff`).

## Main definitions

* `Reference`: the parts of a text around an id that it refers to.
* `FirstReference`: the id of the first of its references.

## Main results

* `componentId_firstReference`: the component of a text is the id of its first reference.
-/

namespace TemplateFlow

namespace Template

/-! ## References -/

/-- The openings of a call of a resolver with a quoted text. -/
def openings : List (List Char) := ["$('".toList, "$val('".toList]

/-- What closes the quoted text and the call. -/
def closing : List Char := "')".toList

/-- A text has an id on one line between an opening and a closing. -/
structure Reference (text before opening id after : List Char) : Prop where
  text_eq : text = before ++ (opening ++ (id ++ (closing ++ after)))
  opening_mem : opening ∈ openings
  newline_not_mem : '\n' ∉ id

/-- A text refers to some component. -/
def HasReference (text : List Char) : Prop :=
  ∃ before opening id after, Reference text before opening id after

/-- The id of a reference such that every other one starts later, or starts at the same place and
has no shorter id. -/
def FirstReference (text id : List Char) : Prop :=
  ∃ before opening after, Reference text before opening id after ∧
    ∀ before' opening' id' after', Reference text before' opening' id' after' →
      before.length < before'.length ∨
        before.length = before'.length ∧ id.length ≤ id'.length

theorem FirstReference.hasReference {text id : List Char} (h : FirstReference text id) :
    HasReference text := by
  obtain ⟨before, opening, after, href, -⟩ := h
  exact ⟨before, opening, id, after, href⟩

/-- The character after its dollar sign tells the two openings apart, so an opening is determined by
the text that it stands in front of. -/
theorem eq_of_openings {opening opening' rest rest' : List Char} (h : opening ∈ openings)
    (h' : opening' ∈ openings) (heq : opening ++ rest = opening' ++ rest') :
    opening = opening' ∧ rest = rest' := by
  simp only [openings, List.mem_cons, List.not_mem_nil, or_false] at h h'
  rcases h with rfl | rfl <;> rcases h' with rfl | rfl <;> simp_all

/-- There is only one first reference. -/
theorem FirstReference.unique {text id id' : List Char} (h : FirstReference text id)
    (h' : FirstReference text id') : id = id' := by
  obtain ⟨before, opening, after, href, hfirst⟩ := h
  obtain ⟨before', opening', after', href', hfirst'⟩ := h'
  have hle := hfirst _ _ _ _ href'
  have hle' := hfirst' _ _ _ _ href
  -- Each of the two comes before the other or with it, so they start at the same place.
  have hbefore : before.length = before'.length := by omega
  have hlength : id.length = id'.length := by omega
  have htext := href.text_eq.symm.trans href'.text_eq
  have hopening := (List.append_inj htext hbefore).2
  have hid := (eq_of_openings href.opening_mem href'.opening_mem hopening).2
  exact (List.append_inj hid hlength).1

/-! ## Openings and closings -/

theorem afterOpening?_eq_some_iff {text rest : List Char} :
    afterOpening? text = some rest ↔ ∃ opening ∈ openings, text = opening ++ rest := by
  simp only [openings, List.mem_cons, List.not_mem_nil, or_false, exists_eq_or_imp,
    exists_eq_left]
  unfold afterOpening?
  split <;> simp_all

/-- What is found before a closing is within a line, and a closing follows. -/
theorem exists_of_beforeClosing? {text id : List Char} (h : beforeClosing? text = some id) :
    '\n' ∉ id ∧ ∃ after, text = id ++ (closing ++ after) := by
  fun_induction beforeClosing? text generalizing id with
  | case1 => cases h
  | case2 after =>
    cases h
    exact ⟨by simp, after, rfl⟩
  | case3 => cases h
  | case4 c rest _ hc ih =>
    obtain ⟨id, hid, rfl⟩ := Option.map_eq_some_iff.mp h
    obtain ⟨hline, after, rfl⟩ := ih hid
    exact ⟨by simp [Ne.symm hc, hline], after, rfl⟩

/-- Where a closing follows on the line, something before a closing is found, and no more than what
stands before this one. -/
theorem beforeClosing?_append {id : List Char} (after : List Char) (h : '\n' ∉ id) :
    ∃ s, beforeClosing? (id ++ (closing ++ after)) = some s ∧ s.length ≤ id.length := by
  induction id with
  | nil => exact ⟨[], rfl, Nat.le_refl 0⟩
  | cons c id ih =>
    obtain ⟨hc, hid⟩ := not_or.mp (mt List.mem_cons.mpr h)
    obtain ⟨s, hs, hle⟩ := ih hid
    -- The closing may begin within the identifier, and then it ends there.
    rw [List.cons_append]
    unfold beforeClosing?
    split
    · rename_i heq
      cases heq
    · exact ⟨[], rfl, Nat.zero_le _⟩
    · rename_i heq
      obtain ⟨rfl, rfl⟩ := List.cons.inj heq
      rw [if_neg (Ne.symm hc), hs]
      exact ⟨c :: s, rfl, Nat.succ_le_succ hle⟩

/-- All of a text before a closing is found if the line does not end in it and there is no other
closing in it. -/
theorem beforeClosing?_append_eq_some_iff {id : List Char} (after : List Char) :
    beforeClosing? (id ++ (closing ++ after)) = some id ↔ '\n' ∉ id ∧ ¬ closing <:+: id := by
  constructor
  · intro h
    refine ⟨(exists_of_beforeClosing? h).1, ?_⟩
    rintro ⟨s, t, rfl⟩
    -- A closing inside would be found before the one behind.
    have hline : '\n' ∉ s := fun hs =>
      (exists_of_beforeClosing? h).1 (List.mem_append_left _ (List.mem_append_left _ hs))
    obtain ⟨u, hu, hle⟩ := beforeClosing?_append (t ++ (closing ++ after)) hline
    rw [List.append_assoc, List.append_assoc, List.append_assoc, hu] at h
    obtain rfl := Option.some.inj h
    simp only [List.length_append] at hle
    have hclosing : closing.length = 2 := rfl
    omega
  · rintro ⟨hline, hinner⟩
    obtain ⟨s, hs, hle⟩ := beforeClosing?_append after hline
    obtain ⟨-, after', heq⟩ := exists_of_beforeClosing? hs
    -- What is found is a front of the id. A closing after a proper front would be inside of the id,
    -- since the mark behind the id is no parenthesis.
    obtain ⟨u, rfl⟩ : s <+: id :=
      List.prefix_of_prefix_length_le ⟨_, heq.symm⟩ (List.prefix_append _ _) hle
    rw [List.append_assoc] at heq
    have hrest : u ++ ('\'' :: ')' :: after) = '\'' :: ')' :: after' := List.append_cancel_left heq
    match u, hrest with
    | [], _ => rw [hs, List.append_nil]
    | [_], hrest => simp at hrest
    | c :: d :: v, hrest =>
      simp only [List.cons_append, List.cons.injEq] at hrest
      obtain ⟨rfl, rfl, -⟩ := hrest
      exact absurd ⟨s, v, by simp [closing]⟩ hinner

/-! ## The search -/

/-- Where a text starts with a reference, an opening is found and something before a closing, and
this is no longer than the id. -/
theorem Reference.exists_of_nil {text opening id after : List Char}
    (h : Reference text [] opening id after) :
    ∃ s, (afterOpening? text).bind beforeClosing? = some s ∧ s.length ≤ id.length := by
  obtain ⟨s, hs, hle⟩ := beforeClosing?_append after h.newline_not_mem
  have hopening := afterOpening?_eq_some_iff.mpr ⟨opening, h.opening_mem, h.text_eq⟩
  exact ⟨s, by rw [hopening, Option.bind_some, hs], hle⟩

/-- A text starts with a reference to what is found after its opening and before a closing. -/
theorem exists_reference_of_bind {text id : List Char}
    (h : (afterOpening? text).bind beforeClosing? = some id) :
    ∃ opening after, Reference text [] opening id after := by
  obtain ⟨rest, hopening, hclosing⟩ := Option.bind_eq_some_iff.mp h
  obtain ⟨opening, hmem, rfl⟩ := afterOpening?_eq_some_iff.mp hopening
  obtain ⟨hline, after, rfl⟩ := exists_of_beforeClosing? hclosing
  exact ⟨opening, after, rfl, hmem, hline⟩

/-- Where nothing is found at the first character, all references are references of the rest. -/
theorem Reference.exists_of_cons {c : Char} {rest before opening id after : List Char}
    (h : Reference (c :: rest) before opening id after)
    (hnone : (afterOpening? (c :: rest)).bind beforeClosing? = none) :
    ∃ before', before = c :: before' ∧ Reference rest before' opening id after := by
  cases before with
  | nil =>
    obtain ⟨s, hs, -⟩ := h.exists_of_nil
    rw [hnone] at hs
    cases hs
  | cons d before =>
    obtain ⟨rfl, hrest⟩ := List.cons.inj h.text_eq
    exact ⟨before, rfl, hrest, h.opening_mem, h.newline_not_mem⟩

theorem firstReference_of_firstId? {text id : List Char} (h : firstId? text = some id) :
    FirstReference text id := by
  fun_induction firstId? text with
  | case1 => cases h
  | case2 c rest found hfound =>
    obtain rfl := Option.some.inj h
    obtain ⟨opening, after, href⟩ := exists_reference_of_bind hfound
    refine ⟨[], opening, after, href, fun before' opening' id' after' href' => ?_⟩
    -- Of the references that start with the text none is shorter; all others start later.
    cases before' with
    | nil =>
      obtain ⟨s, hs, hle⟩ := href'.exists_of_nil
      obtain rfl := Option.some.inj (hfound.symm.trans hs)
      exact .inr ⟨rfl, hle⟩
    | cons => exact .inl (Nat.succ_pos _)
  | case3 c rest hnone ih =>
    obtain ⟨before, opening, after, href, hfirst⟩ := ih h
    refine ⟨c :: before, opening, after, ⟨?_, href.opening_mem, href.newline_not_mem⟩,
      fun before' opening' id' after' href' => ?_⟩
    · rw [href.text_eq, List.cons_append]
    · obtain ⟨before', rfl, hrest⟩ := href'.exists_of_cons hnone
      simpa using hfirst _ _ _ _ hrest

/-- Nothing is found only where nothing is referred to. -/
theorem firstId?_eq_none_iff {text : List Char} : firstId? text = none ↔ ¬ HasReference text := by
  constructor
  · rintro h ⟨before, opening, id, after, href⟩
    fun_induction firstId? text generalizing before with
    | case1 =>
      have hlength := congrArg List.length href.text_eq
      simp [closing] at hlength
    | case2 => cases h
    | case3 c rest hnone ih =>
      obtain ⟨before', -, hrest⟩ := href.exists_of_cons hnone
      exact ih h before' hrest
  · intro h
    rw [Option.eq_none_iff_forall_ne_some]
    exact fun id hid => h (firstReference_of_firstId? hid).hasReference

/-- The search finds the id of the first reference. -/
theorem firstId?_eq_some_iff {text id : List Char} :
    firstId? text = some id ↔ FirstReference text id := by
  refine ⟨firstReference_of_firstId?, fun h => ?_⟩
  cases hfound : firstId? text with
  | none => exact absurd h.hasReference (firstId?_eq_none_iff.mp hfound)
  | some found => rw [(firstReference_of_firstId? hfound).unique h]

theorem componentId_eq_iff {text id : String} :
    componentId text = id ↔ (firstId? text.toList).getD [] = id.toList := by
  rw [componentId, ← String.toList_inj, String.toList_ofList]

-- The first opening has no closing on its line; the second has, and two more openings are on its
-- line, of which one is inside of the id.
example : componentId "$('a\n$val('b$('c') $('d')" = "b$('c" := by decide

/-! ## The id of a call -/

/-- The id of a call stands as it is between the first opening of its template and a closing. -/
theorem exists_toList_callComponent (id method : String) (args : List String) :
    ∃ after, (callComponent id method args).toList =
      "\x7b\x7b $('".toList ++ (id.toList ++ (closing ++ after)) := by
  refine ⟨("?." ++ method ++ "(" ++ arguments args ++ ")" ++ " \x7d\x7d").toList, ?_⟩
  simp [callComponent, ofExpression, closing]

/-- Two braces and a blank are no opening, so the search comes to the opening behind them. -/
theorem firstId?_of_beforeClosing? {text found : List Char} (h : beforeClosing? text = some found) :
    firstId? ("\x7b\x7b $('".toList ++ text) = some found := by
  simp [firstId?, afterOpening?, h]

/-- The id of a call is found again exactly if it is on one line and holds no closing itself. What
the method and the arguments hold does not matter. -/
theorem componentId_callComponent_iff (id method : String) (args : List String) :
    componentId (callComponent id method args) = id ↔
      '\n' ∉ id.toList ∧ ¬ closing <:+: id.toList := by
  obtain ⟨after, htext⟩ := exists_toList_callComponent id method args
  rw [componentId_eq_iff, ← beforeClosing?_append_eq_some_iff after]
  cases hfound : beforeClosing? (id.toList ++ (closing ++ after)) with
  | some found => rw [htext, firstId?_of_beforeClosing? hfound, Option.getD_some, Option.some_inj]
  | none =>
    -- The line ends in the id. Nothing that is found instead has the end of a line in it.
    have hline : '\n' ∈ id.toList := by
      refine Decidable.byContradiction fun hline => ?_
      obtain ⟨s, hs, -⟩ := beforeClosing?_append after hline
      rw [hfound] at hs
      cases hs
    refine iff_of_false (fun h => ?_) (by simp)
    rw [← h] at hline
    cases hsearch : firstId? (callComponent id method args).toList with
    | none => simp [hsearch] at hline
    | some found =>
      obtain ⟨before, opening, rest, href, -⟩ := firstReference_of_firstId? hsearch
      rw [hsearch] at hline
      exact href.newline_not_mem hline

/-- The component of a text is the id of its first reference, or the empty text if the text refers
to no component. So the component of a call is its id, if there is no end of a line, no quotation
mark and no backslash in the id. -/
theorem componentId_firstReference :
    (∀ text id : String, componentId text = id ↔
      FirstReference text.toList id.toList ∨ ¬ HasReference text.toList ∧ id = "") ∧
    ∀ (id method : String) (args : List String), '\n' ∉ id.toList → '\'' ∉ id.toList →
      '\\' ∉ id.toList → componentId (callComponent id method args) = id := by
  refine ⟨fun text id => ?_, fun id method args hline hquote _ => ?_⟩
  · rw [componentId_eq_iff, ← firstId?_eq_some_iff, ← firstId?_eq_none_iff]
    cases firstId? text.toList with
    | none =>
      simp only [Option.getD_none, reduceCtorEq, false_or, true_and]
      rw [eq_comm, String.toList_eq_nil_iff]
    | some found => simp
  · rw [componentId_callComponent_iff]
    refine ⟨hline, fun hinner => hquote ?_⟩
    exact hinner.subset (List.mem_cons_self : '\'' ∈ closing)

/-- A method and arguments that refer to other components do not get in the way of the id. -/
theorem componentId_firstReference_crossing :
    ('\n' ∉ "a$(b)".toList ∧ '\'' ∉ "a$(b)".toList ∧ '\\' ∉ "a$(b)".toList) ∧
      componentId (callComponent "a$(b)" "load('x')" ["$('c')", "\x7b\x7b $val('d') \x7d\x7d"]) =
        "a$(b)" := by
  have hid : '\n' ∉ "a$(b)".toList ∧ '\'' ∉ "a$(b)".toList ∧ '\\' ∉ "a$(b)".toList := by decide
  exact ⟨hid, componentId_firstReference.2 _ _ _ hid.1 hid.2.1 hid.2.2⟩

end Template

end TemplateFlow
