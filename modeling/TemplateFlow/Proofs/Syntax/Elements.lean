import Mathlib.Data.List.Forall2
import TemplateFlow.Proofs.Syntax.Completeness
import TemplateFlow.Proofs.Syntax.Nesting

/-!
# The elements of a list

A text can be divided at its outer commas, those outside of its brackets and strings
(`outerParts`). If it is what stands between the brackets of a list or the parentheses of a call,
the parts are the sources of the elements, apart from a blank part at the end, which a list may
have without a further element (`argumentParts`).

The division does not ask what the parts are. So what can stand between brackets is known from the
parts alone: each of them must be an expression (`elementsOf_iff`).

## Main definitions

* `outerParts`: the parts of a text between its outer commas.
* `argumentParts`: these parts, without a blank one at the end.
* `ElementsOf`: a text is the elements of a list.

## Main results

* `elementsOf_iff`: a text is the elements of a list if its parts are sources of them.
-/

namespace TemplateFlow

namespace Syntax

open List (Forall₂)

/-! ## Parts -/

/-- The parts between the outer commas of a text, of which some has been read. Behind a bracket that
closes nothing there are no outer commas. -/
def outerPartsFrom (n : Nesting) : List Char → List (List Char)
  | [] => [[]]
  | c :: s =>
    if n = .code [] ∧ c = ',' then [] :: outerPartsFrom n s
    else
      match n.next c with
      | some n' => (outerPartsFrom n' s).modifyHead (c :: ·)
      | none => [c :: s]

/-- The parts of a text between the commas that are outside of its brackets and strings. -/
def outerParts (s : List Char) : List (List Char) := outerPartsFrom (.code []) s

/-- The same parts, but for a blank one at the end. -/
def withoutBlankLast : List (List Char) → List (List Char)
  | [] => []
  | [last] => if Blanks last then [] else [last]
  | part :: next :: rest => part :: withoutBlankLast (next :: rest)

/-- The parts of a text that are to be the arguments of a call: those between its outer commas. A
blank part at the end is none, as behind a comma that ends the list and in an empty list. -/
def argumentParts (s : List Char) : List (List Char) := withoutBlankLast (outerParts s)

-- Neither a comma in a string nor one in brackets divides a text.
example : argumentParts "a, 'b,', [c, d], ".toList =
    ["a".toList, " 'b,'".toList, " [c, d]".toList] := by decide

section

variable {n n' : Nesting} {s t : List Char}

/-- A text that is not divided goes on in the first part of what follows it. -/
theorem outerPartsFrom_append (h : nestingAfter n s = some n')
    (hcomma : ∀ before after, s = before ++ ',' :: after →
      nestingAfter n before ≠ some (.code [])) (t : List Char) :
    outerPartsFrom n (s ++ t) = (outerPartsFrom n' t).modifyHead (s ++ ·) := by
  induction s generalizing n with
  | nil =>
    cases h
    exact (congrFun List.modifyHead_id (outerPartsFrom n' t)).symm
  | cons c s ih =>
    rw [nestingAfter_cons] at h
    obtain ⟨n₁, hnext, hs⟩ := Option.bind_eq_some_iff.mp h
    -- The first character is no outer comma, so it belongs to the first part.
    have hfirst : ¬ (n = .code [] ∧ c = ',') := by
      rintro ⟨rfl, rfl⟩
      exact hcomma [] s rfl rfl
    have hrest := ih hs fun before after heq hbefore =>
      hcomma (c :: before) after (by rw [heq]; rfl)
        (by rw [nestingAfter_cons, hnext, Option.bind_some, hbefore])
    rw [List.cons_append, outerPartsFrom, if_neg hfirst, hnext]
    simp only [hrest, List.modifyHead_modifyHead]
    rfl

/-- Even the empty text has a part. -/
theorem outerPartsFrom_ne_nil (n : Nesting) (s : List Char) : outerPartsFrom n s ≠ [] := by
  cases s with
  | nil => exact List.cons_ne_nil _ _
  | cons c s =>
    rw [outerPartsFrom]
    split
    · exact List.cons_ne_nil _ _
    · split
      · simpa using outerPartsFrom_ne_nil _ s
      · exact List.cons_ne_nil _ _

/-- Either a text has one part, or there is a comma behind its first part and the other parts are
those of the text behind this comma. -/
theorem outerPartsFrom_cases (n : Nesting) (s : List Char) :
    outerPartsFrom n s = [s] ∨
      ∃ u v, s = u ++ ',' :: v ∧ outerPartsFrom n s = u :: outerParts v := by
  induction s generalizing n with
  | nil => exact .inl rfl
  | cons c s ih =>
    rw [outerPartsFrom]
    split
    · rename_i hcomma
      obtain ⟨rfl, rfl⟩ := hcomma
      exact .inr ⟨[], s, rfl, rfl⟩
    · cases n.next c with
      | none => exact .inl rfl
      | some n' =>
        -- The character belongs to the first part of what follows it.
        rcases ih n' with hone | ⟨u, v, rfl, hmore⟩
        · refine .inl ?_
          simp only [hone]
          rfl
        · refine .inr ⟨c :: u, v, rfl, ?_⟩
          simp only [hmore]
          rfl

/-- A self-contained text is a part, up to a comma behind it. -/
theorem SelfContained.outerParts_append (hs : SelfContained s) (t : List Char) :
    outerParts (s ++ ',' :: t) = s :: outerParts t := by
  rw [outerParts, outerPartsFrom_append hs.closed hs.no_comma, outerPartsFrom, if_pos ⟨rfl, rfl⟩]
  simp [outerParts]

/-- A self-contained text has no other parts than itself. -/
theorem SelfContained.outerParts_eq (hs : SelfContained s) : outerParts s = [s] := by
  have hparts := outerPartsFrom_append hs.closed hs.no_comma []
  rw [List.append_nil] at hparts
  rw [outerParts, hparts, outerPartsFrom]
  simp

theorem withoutBlankLast_cons {parts : List (List Char)} (h : parts ≠ []) (part : List Char) :
    withoutBlankLast (part :: parts) = part :: withoutBlankLast parts := by
  obtain ⟨next, rest, rfl⟩ := List.exists_cons_of_ne_nil h
  rfl

theorem outerParts_ne_nil (s : List Char) : outerParts s ≠ [] := outerPartsFrom_ne_nil _ s

/-- The first part of a longer list is an argument in any case. -/
theorem argumentParts_of_outerParts_cons {part : List Char}
    (h : outerParts s = part :: outerParts t) :
    argumentParts s = part :: argumentParts t := by
  rw [argumentParts, h, withoutBlankLast_cons (outerParts_ne_nil t), argumentParts]

/-- A self-contained text is an argument, up to a comma behind it. -/
theorem SelfContained.argumentParts_append (hs : SelfContained s) (t : List Char) :
    argumentParts (s ++ ',' :: t) = s :: argumentParts t :=
  argumentParts_of_outerParts_cons (hs.outerParts_append t)

/-- A self-contained text by itself is an argument unless it is blank. -/
theorem SelfContained.argumentParts_eq (hs : SelfContained s) (hblanks : ¬ Blanks s) :
    argumentParts s = [s] := by
  rw [argumentParts, hs.outerParts_eq, withoutBlankLast, if_neg hblanks]

/-- Blanks are no argument. -/
theorem Blanks.argumentParts_eq (hs : Blanks s) : argumentParts s = [] := by
  rw [argumentParts, hs.selfContained.outerParts_eq, withoutBlankLast, if_pos hs]

/-! ## Elements -/

/-- The text is the elements of a list of expressions, possibly with blanks in front. -/
def ElementsOf (es : List Expr) (s : List Char) : Prop :=
  ∃ blanks t, Blanks blanks ∧ Written (.elements es) t ∧ s = blanks ++ t

/-- The elements of a list are none, or one and then possibly a comma and more. -/
theorem Written.elements_cases {es : List Expr} (h : Written (.elements es) s) :
    (es = [] ∧ s = []) ∨ ∃ e rest t, es = e :: rest ∧ Written (.phrase .ternary e) t ∧
      ((rest = [] ∧ s = t) ∨ ∃ blanks u, Blanks blanks ∧ Written (.elements rest) u ∧
        s = t ++ ',' :: (blanks ++ u)) := by
  cases h with
  | noElements => exact .inl ⟨rfl, rfl⟩
  | @elements _ s₁ s₂ hitems htrailing =>
    refine .inr ?_
    cases hitems with
    | @oneItem e _ he =>
      refine ⟨e, [], s₁, rfl, he, ?_⟩
      rcases htrailing with rfl | ⟨blanks, hblanks, rfl⟩
      · exact .inl ⟨rfl, List.append_nil _⟩
      · exact .inr ⟨blanks, [], hblanks, .noElements, by simp⟩
    | @moreItems e rest t _ u he hcomma hrest =>
      obtain ⟨blanks, hblanks, rfl⟩ := hcomma
      exact ⟨e, rest, t, rfl, he, .inr ⟨blanks, u ++ s₂, hblanks, .elements hrest htrailing,
        by simp⟩⟩

/-- A comma divides an element from the others, which there need not be. -/
theorem ElementsOf.cons {e : Expr} {es : List Expr} (hs : SourceOf e s) (ht : ElementsOf es t) :
    ElementsOf (e :: es) (s ++ ',' :: t) := by
  obtain ⟨blanks, u, hblanks, hu, rfl⟩ := hs
  obtain ⟨blanks', v, hblanks', hv, rfl⟩ := ht
  have hcomma : Token [','] (',' :: blanks') := ⟨blanks', hblanks', rfl⟩
  refine ⟨blanks, u ++ ',' :: (blanks' ++ v), hblanks, ?_, by simp⟩
  cases hv with
  | noElements =>
    have h := Written.elements (.oneItem hu) (.inr hcomma)
    simpa using h
  | elements hitems htrailing =>
    have h := Written.elements (.moreItems hu hcomma hitems) htrailing
    simpa using h

/-- A text is the elements of a list if and only if the parts between its outer commas are sources
of them, one by one, apart from a blank part at the end. -/
theorem elementsOf_iff {es : List Expr} :
    ElementsOf es s ↔ Forall₂ SourceOf es (argumentParts s) := by
  constructor
  · rintro ⟨blanks, t, hblanks, ht, rfl⟩
    -- The elements are taken off one by one, each with the comma behind it.
    induction es generalizing blanks t with
    | nil =>
      rcases ht.elements_cases with ⟨-, rfl⟩ | ⟨_, _, _, hnil, -⟩
      · rw [List.append_nil, hblanks.argumentParts_eq]
        exact .nil
      · cases hnil
    | cons e es ih =>
      rcases ht.elements_cases with ⟨hnil, -⟩ | ⟨e', es', u, hes, hu, htail⟩
      · cases hnil
      obtain ⟨rfl, rfl⟩ := List.cons.inj hes
      have hsource : SourceOf e (blanks ++ u) := ⟨blanks, u, hblanks, hu, rfl⟩
      rcases htail with ⟨rfl, rfl⟩ | ⟨blanks', v, hblanks', hv, rfl⟩
      · rw [hsource.selfContained.argumentParts_eq hsource.not_blanks]
        exact .cons hsource .nil
      · rw [← List.append_assoc, hsource.selfContained.argumentParts_append]
        exact .cons hsource (ih blanks' v hblanks' hv)
  · intro h
    induction es generalizing s with
    | nil =>
      rcases outerPartsFrom_cases (.code []) s with hone | ⟨u, v, rfl, hmore⟩
      · by_cases hblanks : Blanks s
        · exact ⟨s, [], hblanks, .noElements, (List.append_nil s).symm⟩
        · rw [argumentParts, outerParts, hone, withoutBlankLast, if_neg hblanks] at h
          cases h
      · rw [argumentParts_of_outerParts_cons hmore] at h
        cases h
    | cons e es ih =>
      rcases outerPartsFrom_cases (.code []) s with hone | ⟨u, v, rfl, hmore⟩
      · rw [argumentParts, outerParts, hone, withoutBlankLast] at h
        split at h
        · cases h
        · cases h with
          | cons he hes =>
            cases hes
            obtain ⟨blanks, t, hblanks, ht, rfl⟩ := he
            refine ⟨blanks, t, hblanks, ?_, rfl⟩
            have helements := Written.elements (.oneItem ht) (.inl rfl)
            rwa [List.append_nil] at helements
      · rw [argumentParts_of_outerParts_cons hmore] at h
        cases h with
        | cons he hes => exact .cons he (ih hes)

/-- Something can be found for each of several things if it can for each by itself. -/
theorem exists_forall₂_iff {α β : Type} {R : α → β → Prop} {bs : List β} :
    (∃ as, Forall₂ R as bs) ↔ ∀ b ∈ bs, ∃ a, R a b := by
  induction bs with
  | nil => simp
  | cons b bs ih =>
    simp only [List.forall₂_cons_right_iff, List.forall_mem_cons, ← ih]
    constructor
    · rintro ⟨_, a, as, hab, has, rfl⟩
      exact ⟨⟨a, hab⟩, as, has⟩
    · rintro ⟨⟨a, hab⟩, as, has⟩
      exact ⟨_, a, as, hab, has, rfl⟩

/-- A text is the elements of some list if and only if each of its parts is read by itself. -/
theorem exists_elementsOf_iff :
    (∃ es, ElementsOf es s) ↔ ∀ part ∈ argumentParts s, Readable part := by
  simp only [elementsOf_iff, exists_forall₂_iff, readable_iff_sourceOf]

end

end Syntax

end TemplateFlow
