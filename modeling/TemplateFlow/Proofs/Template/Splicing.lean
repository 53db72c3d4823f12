import Mathlib.Data.List.Forall2
import TemplateFlow.Proofs.Syntax.Completeness
import TemplateFlow.Proofs.Syntax.Escape
import TemplateFlow.Template

/-!
# Arguments spliced into calls

A call template is put together from texts. Each argument that is a template contributes the
expression between its braces as it stands, every other one a quoted literal. Read back, the call
has one argument for each text, and each is what that text denotes by itself (`Denotes`).

A quoted text is read as the text it was made from (`quoted_sourceOf`), whatever it contains. For
the expression of a template no text around it matters: being a source of a tree is a property of
the text alone, blanks in front of it belong to the comma or parenthesis before, and in a list of
items a source of each argument is all that is asked (`exists_items`).

## Main results

* `expression?_eq_some_iff`: the templates are the texts between two braces on either side;
* `argument_sourceOf`: a text spelled as an argument is a source of what it denotes;
* `exists_parse_callApi`: an API call is read as the call of that method with these arguments.
-/

namespace TemplateFlow

namespace Template

open Syntax

/-! ## Templates -/

/-- A text is a template if it has two braces at either end, which do not overlap. -/
theorem expression?_eq_some_iff {text inner : String} :
    expression? text = some inner ↔ text = "\x7b\x7b" ++ inner ++ "\x7d\x7d" := by
  -- The braces are taken off at the front, and at the back of the text read backwards.
  have hinner : ∀ s t : List Char,
      inner? s = some t ↔ s = ['\x7b', '\x7b'] ++ t ++ ['\x7d', '\x7d'] := by
    intro s t
    constructor
    · intro h
      unfold inner? at h
      split at h
      · rename_i rest
        split at h
        · rename_i u hu
          cases h
          have hrest : rest = u.reverse ++ ['\x7d', '\x7d'] := by
            rw [← List.reverse_reverse rest, hu]
            simp
          simp [hrest]
        · cases h
      · cases h
    · rintro rfl
      simp [inner?]
  rw [expression?, Option.map_eq_some_iff]
  constructor
  · rintro ⟨t, ht, rfl⟩
    rw [← String.toList_inj, (hinner _ _).mp ht]
    simp
  · intro h
    exact ⟨inner.toList, (hinner _ _).mpr (by rw [h]; simp), String.ofList_toList⟩

theorem expression?_ofExpression (source : String) :
    expression? (ofExpression source) = some (" " ++ source ++ " ") := by
  rw [expression?_eq_some_iff, ofExpression]
  simp [String.append_assoc, ← String.toList_inj]

/-! ## Quoted texts -/

/-- A backslash makes a quotation mark or a backslash stand for itself. -/
theorem unescape_backslash {c : Char} (h : c = '\\' ∨ c = '\'') (rest : List Char) :
    unescape ('\\' :: c :: rest) = c :: unescape rest := by
  rw [unescape_escape]
  rcases h with rfl | rfl <;> rfl

/-- Quoting is undone when the contents are read. -/
theorem unescape_flatMap_escapeQuoted (text : List Char) :
    unescape (text.flatMap escapeQuoted) = text := by
  induction text with
  | nil => rw [List.flatMap_nil, unescape]
  | cons c text ih =>
    rw [List.flatMap_cons, escapeQuoted]
    split
    · rename_i hc
      rw [List.cons_append, List.singleton_append, unescape_backslash hc, ih]
    · rename_i hc
      rw [List.singleton_append, unescape_cons (fun h => hc (.inl h)), ih]

theorem isContent_flatMap_escapeQuoted (text : List Char) :
    IsContent '\'' (text.flatMap escapeQuoted) := by
  induction text with
  | nil => exact .nil
  | cons c text ih =>
    rw [List.flatMap_cons, escapeQuoted]
    -- What is not escaped is neither a backslash nor the quotation mark.
    split
    · exact .escape ih
    · rename_i hc
      rw [not_or] at hc
      exact .plain hc.2 hc.1 ih

/-- A quoted text spells that text. -/
theorem spells_quoted (text : String) : Spells (.str text) (quoted text).toList := by
  have hstring : IsString (text.toList.flatMap escapeQuoted) (quoted text).toList := by
    refine ⟨'\'', by decide, isContent_flatMap_escapeQuoted _, ?_⟩
    simp [quoted]
  have hspells := Spells.str hstring
  rwa [unescape_flatMap_escapeQuoted, String.ofList_toList] at hspells

/-- A quoted text is a literal of that text. -/
theorem quoted_sourceOf (text : String) :
    SourceOf (.literal (.str text) .none) (quoted text).toList :=
  (spells_quoted text).sourceOf

/-! ## Arguments -/

/-- What a text denotes as an argument: a template what its expression is read as by itself, any
other text the literal of itself. -/
inductive Denotes : String → Expr → Prop where
  | template {text inner : String} {t : Expr} : expression? text = some inner →
      Expr.parse inner = .ok t → Denotes text t.bare
  | literal {text : String} : expression? text = none →
      Denotes text (.literal (.str text) .none)

/-- A text spelled as an argument is a source of what it denotes. -/
theorem argument_sourceOf {text : String} {tree : Expr} (h : Denotes text tree) :
    SourceOf tree (argument text).toList := by
  cases h with
  | template hinner hparse =>
    rw [argument, hinner]
    exact sourceOf_of_parse hparse
  | literal hnone =>
    rw [argument, hnone]
    exact quoted_sourceOf text

/-- Sources with commas between them are blanks and then a list of items. -/
theorem exists_items {texts : List String} {trees : List Expr}
    (h : List.Forall₂ (fun text tree => SourceOf tree text.toList) texts trees)
    (hne : texts ≠ []) :
    ∃ blanks s, Blanks blanks ∧ Written (.items trees) s ∧
      (Text.join ", " texts).toList = blanks ++ s := by
  induction h with
  | nil => exact absurd rfl hne
  | @cons text tree texts trees htext htexts ih =>
    obtain ⟨blanks, s, hb, hs, htext⟩ := htext
    cases htexts with
    | nil => exact ⟨blanks, s, hb, .oneItem hs, by simp [Text.join, htext]⟩
    | @cons text' tree' texts trees _ _ =>
      -- Blanks in front of the next source belong to the comma before it.
      obtain ⟨blanks', s', hb', hs', hjoin⟩ := ih (List.cons_ne_nil _ _)
      have hcomma : Token [','] (',' :: ' ' :: blanks') :=
        ⟨' ' :: blanks', blanks_append (s := [' ']) (List.all_eq_true.mp rfl) hb', rfl⟩
      refine ⟨blanks, _, hb, .moreItems hs hcomma hs', ?_⟩
      rw [Text.join, String.intercalate_cons_cons, String.toList_append, String.toList_append,
        ← Text.join, hjoin, htext]
      simp

/-- Between the parentheses of a call stand the arguments, after blanks that belong to the opening
one. -/
theorem exists_elements {texts : List String} {trees : List Expr}
    (h : List.Forall₂ Denotes texts trees) :
    ∃ blanks s, Blanks blanks ∧ Written (.elements trees) s ∧
      (arguments texts).toList = blanks ++ s := by
  cases h with
  | nil => exact ⟨[], [], blanks_nil, .noElements, rfl⟩
  | cons htext htexts =>
    have hsources := (List.Forall₂.cons htext htexts).imp fun _ _ => argument_sourceOf
    obtain ⟨blanks, s, hb, hs, hjoin⟩ := exists_items
      (List.forall₂_map_left_iff.mpr hsources) (List.cons_ne_nil _ _)
    have helements := Written.elements hs (.inl rfl)
    rw [List.append_nil] at helements
    exact ⟨blanks, s, hb, helements, hjoin⟩

/-- Every text denotes something if the expressions of templates are read. -/
theorem exists_denotes {texts : List String}
    (h : ∀ text ∈ texts, ∀ inner, expression? text = some inner → ∃ t, Expr.parse inner = .ok t) :
    ∃ trees, List.Forall₂ Denotes texts trees := by
  induction texts with
  | nil => exact ⟨[], .nil⟩
  | cons text texts ih =>
    obtain ⟨trees, htrees⟩ := ih fun x hx => h x (List.mem_cons_of_mem _ hx)
    cases hinner : expression? text with
    | none => exact ⟨_, .cons (.literal hinner) htrees⟩
    | some inner =>
      obtain ⟨t, ht⟩ := h text (by simp) inner hinner
      exact ⟨_, .cons (.template hinner ht) htrees⟩

/-! ## Calls -/

/-- A callee with the spelled arguments after it is a call of the callee. -/
theorem written_call {callee : Expr} {s trailing : List Char} {texts : List String}
    {trees : List Expr} (hcallee : Written (.phrase .chain callee) s)
    (htexts : List.Forall₂ Denotes texts trees) (htrailing : Blanks trailing) :
    Written (.phrase .chain (.call callee trees false .none))
      (s ++ '(' :: ((arguments texts).toList ++ ')' :: trailing)) := by
  obtain ⟨blanks, u, hb, hu, harguments⟩ := exists_elements htexts
  have hopen : Token ['('] ('(' :: blanks) := ⟨blanks, hb, rfl⟩
  have hclose : Token [')'] (')' :: trailing) := ⟨trailing, htrailing, rfl⟩
  have hmark : Mark false [] := rfl
  have hcall := Written.call hcallee hmark hopen hu hclose
  rw [harguments]
  simpa using hcall

/-- The method of the API object as it is spelled. -/
theorem written_apiMethod {method : String} (hmethod : IsName method.toList) :
    Written (.phrase .chain (.member (.ident "$api" .none) method .none false .none))
      ("$api." ++ method).toList := by
  have hapi : IsIdentifier "$api".toList := ⟨⟨'$', _, rfl, rfl, List.all_eq_true.mp rfl⟩, by decide⟩
  -- The callee is written as it stands, with no blanks in it.
  have hobject : Written (.phrase .chain (.ident "$api" .none)) "$api".toList :=
    .tighter (.ident hapi ⟨[], blanks_nil, rfl⟩)
  have hdot : Dot false ['.'] := ⟨[], blanks_nil, rfl⟩
  have hmember := Written.member hobject hdot hmethod
    ⟨[], blanks_nil, (List.append_nil _).symm⟩
  rw [String.ofList_toList] at hmember
  simpa using hmember

/-- The expression of an API call is a source of the call of the method of the API object. -/
theorem callApi_sourceOf {method : String} {texts : List String} {trees : List Expr}
    (hmethod : IsName method.toList) (htrees : List.Forall₂ Denotes texts trees) :
    SourceOf (.call (.member (.ident "$api" .none) method .none false .none) trees false .none)
      (" " ++ ("$api." ++ method ++ "(" ++ arguments texts ++ ")") ++ " ").toList := by
  have htrailing : Blanks [' '] := List.all_eq_true.mp rfl
  have hcall := written_call (written_apiMethod hmethod) htrees htrailing
  -- The blank after the opening braces comes before the source, the other one ends the call.
  refine ⟨[' '], _, htrailing, hcall.ternary_of_chain, ?_⟩
  simp

/-- An API call is read as a call of the method of the API object with one argument for each text,
which is what the text denotes. -/
theorem exists_parse_callApi {method : String} {texts : List String}
    (hmethod : IsName method.toList) (htexts : ∀ text ∈ texts, ∀ inner,
      expression? text = some inner → ∃ t, Expr.parse inner = .ok t) :
    ∃ inner t trees, expression? (callApi method texts) = some inner ∧
      Expr.parse inner = .ok t ∧ List.Forall₂ Denotes texts trees ∧
      t.bare =
        .call (.member (.ident "$api" .none) method .none false .none) trees false .none := by
  obtain ⟨trees, htrees⟩ := exists_denotes htexts
  obtain ⟨t, ht, hbare⟩ := parse_of_sourceOf (callApi_sourceOf hmethod htrees)
  refine ⟨_, t, trees, ?_, ht, htrees, hbare⟩
  rw [callApi, expression?_ofExpression]

/-- A template, and a text with a quotation mark, a backslash, braces and a line break in it. -/
theorem exists_parse_callApi_send :
    ∃ inner t trees,
      expression? (callApi "send" ["\x7b\x7b x \x7d\x7d", "it's \\ \x7b\x7d\n"]) = some inner ∧
      Expr.parse inner = .ok t ∧
      List.Forall₂ Denotes ["\x7b\x7b x \x7d\x7d", "it's \\ \x7b\x7d\n"] trees ∧
      t.bare =
        .call (.member (.ident "$api" .none) "send" .none false .none) trees false .none := by
  have hsend : IsName "send".toList := ⟨'s', _, rfl, rfl, List.all_eq_true.mp rfl⟩
  refine exists_parse_callApi hsend fun text htext inner hinner => ?_
  simp only [List.mem_cons, List.not_mem_nil, or_false] at htext
  rcases htext with rfl | rfl
  · have htemplate : expression? "\x7b\x7b x \x7d\x7d" = some " x " := by decide
    rw [htemplate] at hinner
    cases hinner
    have hblank : Blanks [' '] := List.all_eq_true.mp rfl
    have hname : IsIdentifier ['x'] := ⟨⟨'x', [], rfl, rfl, List.all_eq_true.mp rfl⟩, by decide⟩
    have hident : Written (.phrase .chain (.ident "x" .none)) "x ".toList :=
      .tighter (.ident hname ⟨[' '], hblank, rfl⟩)
    obtain ⟨t, ht, -⟩ := parse_of_sourceOf ⟨[' '], _, hblank, hident.ternary_of_chain, rfl⟩
    exact ⟨t, ht⟩
  · have hnone : expression? "it's \\ \x7b\x7d\n" = none := by decide
    rw [hnone] at hinner
    cases hinner

end Template

end TemplateFlow
