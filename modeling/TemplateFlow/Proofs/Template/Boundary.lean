import TemplateFlow.Proofs.Flow.Builtin
import TemplateFlow.Proofs.Flow.Job
import TemplateFlow.Proofs.Syntax.Call
import TemplateFlow.Proofs.Template.Splicing

/-!
# Arguments that keep to their places

The expression of a template argument is put into a call as it stands, whether it can be read by
itself or not. It may have a comma in it and become two arguments, or be blank and become none; what
it leaves open the next argument may close; and it may close the parenthesis of the call.

Nothing of this depends on which argument a character comes from. The call ends at the parenthesis
that closes the one behind the method, and what stands before that is divided at its outer commas.
Each of these parts has to be an expression by itself, and what follows the call has to be able to
follow it (`readable_callApi_iff`). If all arguments together close what they open, it is the last
parenthesis that ends the call, and what is read is a call of the method with these parts. If each
of them does so by itself and has no outer comma, the parts are the arguments.

A call that can not be read does not reach any API; all that its step reports is the call and that
it is unreadable.

## Main definitions

* `Separable`: texts whose expressions are one argument each.

## Main results

* `readable_callApi_iff`: which calls can be read.
* `exists_call_of_parse_callApi`: what is read is a call of the method with the parts as arguments.
* `callApi_closed`: which calls can be read, what is read, and what their steps do.
* `callApi_not_separable`: calls that can be read although an argument can not.
-/

namespace TemplateFlow

namespace Template

open Syntax
open List (Forall₂)

variable {text method : String} {texts : List String}

/-! ## Arguments -/

/-- Whether a text can be read can be computed. -/
theorem readable_iff_isOk {source : String} :
    Readable source.toList ↔ (Expr.parse source).isOk = true := by
  rw [Readable, Expr.parse]
  cases Syntax.parse source.toList with
  | ok t => exact iff_of_true ⟨t, rfl⟩ rfl
  | error err => exact iff_of_false (fun ⟨_, ht⟩ => nomatch ht) Bool.false_ne_true

/-- A text is a source of one tree only. -/
theorem sourceOf_unique {s : List Char} {e e' : Expr} (h : SourceOf e s) (h' : SourceOf e' s) :
    e = e' := by
  obtain ⟨t, ht, hbare⟩ := parse_of_sourceOf h
  obtain ⟨t', ht', hbare'⟩ := parse_of_sourceOf h'
  obtain rfl := Except.ok.inj (ht.symm.trans ht')
  rw [← hbare, hbare']

/-- A text spelled as an argument is a source of nothing but what it denotes. -/
theorem denotes_of_sourceOf {tree : Expr} (h : SourceOf tree (argument text).toList) :
    Denotes text tree := by
  cases hinner : expression? text with
  | some inner =>
    rw [argument, hinner, Option.getD_some] at h
    obtain ⟨t, ht, rfl⟩ := parse_of_sourceOf h
    exact .template hinner ht
  | none =>
    rw [argument, hinner, Option.getD_none] at h
    rw [sourceOf_unique h (quoted_sourceOf text)]
    exact .literal hinner

/-- A text that is no template can be read as an argument in any case. -/
theorem readable_argument_iff :
    Readable (argument text).toList ↔
      ∀ inner, expression? text = some inner → Readable inner.toList := by
  cases hinner : expression? text with
  | some inner =>
    rw [argument, hinner, Option.getD_some]
    simp
  | none =>
    rw [argument, hinner, Option.getD_none]
    exact iff_of_true (readable_iff_sourceOf.mpr ⟨_, quoted_sourceOf text⟩) (by simp)

/-- Blanks in front of a text make no difference. -/
theorem readable_blanks_append_iff {blanks s : List Char} (h : Blanks blanks) :
    Readable (blanks ++ s) ↔ Readable s := by
  simp only [readable_iff_sourceOf]
  exact exists_congr fun e => ⟨.of_blanks_append h, .blanks_append h⟩

theorem toList_arguments (texts : List String) :
    (arguments texts).toList =
      List.intercalate [',', ' '] (texts.map fun text => (argument text).toList) := by
  rw [arguments, Text.join, String.toList_intercalate, List.map_map]
  rfl

/-- A comma and a blank divide the first argument from the others. -/
theorem toList_arguments_cons {rest : List String} (text : String) (h : rest ≠ []) :
    (arguments (text :: rest)).toList =
      (argument text).toList ++ ',' :: ' ' :: (arguments rest).toList := by
  obtain ⟨text', rest, rfl⟩ := List.exists_cons_of_ne_nil h
  rw [toList_arguments, toList_arguments, List.map_cons, List.map_cons,
    List.intercalate_cons_cons]
  simp

/-- A part of a call is the text of an argument with blanks in front. -/
def IsArgument (text : String) (part : List Char) : Prop :=
  ∃ blanks, Blanks blanks ∧ part = blanks ++ (argument text).toList

/-- A part can be read if its argument can. -/
theorem IsArgument.readable_iff {part : List Char} (h : IsArgument text part) :
    Readable part ↔ ∀ inner, expression? text = some inner → Readable inner.toList := by
  obtain ⟨blanks, hblanks, rfl⟩ := h
  rw [readable_blanks_append_iff hblanks, readable_argument_iff]

/-- What a part is a source of is what its argument denotes. -/
theorem IsArgument.denotes {part : List Char} {tree : Expr} (h : IsArgument text part)
    (htree : SourceOf tree part) : Denotes text tree := by
  obtain ⟨blanks, hblanks, rfl⟩ := h
  exact denotes_of_sourceOf (htree.of_blanks_append hblanks)

/-! ## Separable arguments -/

/-- The expressions of the templates among the texts keep to their places in a call: each closes
what it opens and has no outer comma, and the last is not blank. -/
structure Separable (texts : List String) : Prop where
  selfContained : ∀ text ∈ texts, ∀ inner, expression? text = some inner →
    SelfContained inner.toList
  last : ∀ text ∈ texts.getLast?, ∀ inner, expression? text = some inner → ¬ Blanks inner.toList

/-- Both conditions are about finitely many expressions. -/
theorem separable_iff (texts : List String) :
    Separable texts ↔
      (∀ text ∈ texts, ∀ inner ∈ expression? text, SelfContained inner.toList) ∧
        ∀ text ∈ texts.getLast?, ∀ inner ∈ expression? text, ¬ Blanks inner.toList :=
  ⟨fun h => ⟨h.selfContained, h.last⟩, fun h => ⟨h.1, h.2⟩⟩

instance (texts : List String) : Decidable (Separable texts) :=
  decidable_of_iff _ (separable_iff texts).symm

namespace Separable

/-- Without the first one the texts are still separable. -/
theorem tail {rest : List String} (h : Separable (text :: rest)) : Separable rest := by
  refine ⟨fun x hx => h.selfContained x (List.mem_cons_of_mem _ hx), fun x hx => h.last x ?_⟩
  rw [Option.mem_def] at hx ⊢
  rw [List.getLast?_cons, hx]
  rfl

/-- Texts that are no templates are put in as strings, which are self-contained. -/
theorem selfContained_argument (h : Separable texts) (htext : text ∈ texts) :
    SelfContained (argument text).toList := by
  cases hinner : expression? text with
  | some inner =>
    rw [argument, hinner]
    exact h.selfContained text htext inner hinner
  | none =>
    rw [argument, hinner]
    exact (quoted_sourceOf text).selfContained

/-- The last argument is not blank, since a string is not. -/
theorem not_blanks_argument (h : Separable [text]) : ¬ Blanks (argument text).toList := by
  cases hinner : expression? text with
  | some inner =>
    rw [argument, hinner]
    exact h.last text rfl inner hinner
  | none =>
    rw [argument, hinner]
    exact (quoted_sourceOf text).not_blanks

/-- The parts of all arguments together are the arguments, with blanks in front of them. All of it
is closed. -/
theorem argumentParts_eq (h : Separable texts) {lead : List Char} (hlead : Blanks lead) :
    Closed (lead ++ (arguments texts).toList) ∧
      Forall₂ IsArgument texts (argumentParts (lead ++ (arguments texts).toList)) := by
  -- The blank behind a comma stands in front of the next argument.
  induction texts generalizing lead with
  | nil =>
    rw [show (arguments []).toList = [] from rfl, List.append_nil, hlead.argumentParts_eq]
    exact ⟨hlead.selfContained.closed, .nil⟩
  | cons text rest ih =>
    have hfirst : SelfContained (lead ++ (argument text).toList) :=
      hlead.selfContained.append (h.selfContained_argument List.mem_cons_self)
    by_cases hrest : rest = []
    · subst hrest
      have hnot : ¬ Blanks (lead ++ (argument text).toList) := fun hblanks =>
        h.not_blanks_argument fun c hc => hblanks c (List.mem_append_right _ hc)
      have hone : (arguments [text]).toList = (argument text).toList := by simp [toList_arguments]
      rw [hone, hfirst.argumentParts_eq hnot]
      exact ⟨hfirst.closed, .cons ⟨lead, hlead, rfl⟩ .nil⟩
    · obtain ⟨hclosed, hparts⟩ := ih h.tail (List.all_eq_true.mp rfl : Blanks [' '])
      have hcomma : Closed [','] := by decide
      have heq : lead ++ (arguments (text :: rest)).toList =
          (lead ++ (argument text).toList) ++ ',' :: ([' '] ++ (arguments rest).toList) := by
        rw [toList_arguments_cons text hrest]
        simp
      rw [heq, hfirst.argumentParts_append]
      exact ⟨hfirst.closed.append (hcomma.append hclosed), .cons ⟨lead, hlead, rfl⟩ hparts⟩

end Separable

/-! ## Calls -/

/-- The expression of an API call. -/
theorem expression?_callApi (method : String) (texts : List String) :
    expression? (callApi method texts) =
      some (" " ++ ("$api." ++ method ++ "(" ++ arguments texts ++ ")") ++ " ") := by
  rw [callApi, expression?_ofExpression]

/-- What stands in front of the arguments is a name with a member. -/
theorem isHead_api (h : IsName method.toList) : IsHead ("$api." ++ method).toList := by
  refine ⟨⟨'$', "api.".toList ++ method.toList, by simp, rfl⟩, fun c hc => ?_⟩
  rw [String.toList_append] at hc
  rcases List.mem_append.mp hc with hc | hc
  · have hapi : ∀ d ∈ "$api.".toList, (isNamePart d || d == '.') = true :=
      List.all_eq_true.mp rfl
    simpa using hapi c hc
  · exact .inl (h.forall_isNamePart c hc)

/-- The text of a call, up to the parenthesis that ends it, and what is behind that. -/
theorem toList_callApi {inside rest : List Char}
    (h : (arguments texts).toList ++ ") ".toList = inside ++ ')' :: rest) :
    (" " ++ ("$api." ++ method ++ "(" ++ arguments texts ++ ")") ++ " ").toList =
      [' '] ++ callText ("$api." ++ method).toList inside rest := by
  rw [callText, ← h]
  simp

/-- A call can be read if and only if there is a parenthesis that closes the one behind the method,
each part of what is between them can be read by itself, and what is behind them can follow the
call. -/
theorem readable_callApi_iff (hmethod : IsName method.toList) (texts : List String) :
    Readable (" " ++ ("$api." ++ method ++ "(" ++ arguments texts ++ ")") ++ " ").toList ↔
      ∃ inside rest, (arguments texts).toList ++ ") ".toList = inside ++ ')' :: rest ∧
        Closed inside ∧ (∀ part ∈ argumentParts inside, Readable part) ∧
        Readable ((" $api." ++ method ++ "()").toList ++ rest) := by
  have hblank : Blanks [' '] := List.all_eq_true.mp rfl
  have hhead := isHead_api hmethod
  have hempty (rest : List Char) : (" $api." ++ method ++ "()").toList ++ rest =
      [' '] ++ callText ("$api." ++ method).toList [] rest := by
    simp [callText]
  constructor
  · intro h
    obtain ⟨e, he⟩ := readable_iff_sourceOf.mp h
    -- The call is closed, and so there is what closes its parenthesis.
    have hparenthesis : Closed ('(' :: ((arguments texts).toList ++ ") ".toList)) := by
      have hsource := he.selfContained.closed
      have heq : (" " ++ ("$api." ++ method ++ "(" ++ arguments texts ++ ")") ++ " ").toList =
          ([' '] ++ ("$api." ++ method).toList) ++
            '(' :: ((arguments texts).toList ++ ") ".toList) := by
        simp
      rw [heq] at hsource
      exact (hblank.plain.append hhead.plain).selfContained.closed.of_append hsource
    obtain ⟨inside, rest, heq, hinside, -⟩ := hparenthesis.exists_bracketed rfl
    rw [toList_callApi heq] at he
    obtain ⟨hargs, hrest⟩ := (exists_sourceOf_callText_iff hhead hinside hblank).mp ⟨e, he⟩
    rw [← hempty] at hrest
    exact ⟨inside, rest, heq, hinside, exists_elementsOf_iff.mp hargs,
      readable_iff_sourceOf.mpr hrest⟩
  · rintro ⟨inside, rest, heq, hinside, hparts, hrest⟩
    rw [hempty, readable_iff_sourceOf] at hrest
    rw [toList_callApi heq, readable_iff_sourceOf]
    exact (exists_sourceOf_callText_iff hhead hinside hblank).mpr
      ⟨exists_elementsOf_iff.mpr hparts, hrest⟩

/-- If the arguments close what they open, it is the last parenthesis that ends the call. -/
theorem readable_callApi_iff_of_closed (hmethod : IsName method.toList)
    (hclosed : Closed (arguments texts).toList) :
    Readable (" " ++ ("$api." ++ method ++ "(" ++ arguments texts ++ ")") ++ " ").toList ↔
      ∀ part ∈ argumentParts (arguments texts).toList, Readable part := by
  rw [readable_callApi_iff hmethod]
  constructor
  · -- Only one closed text ends in front of a closing parenthesis, and that is the arguments.
    rintro ⟨inside, rest, heq, hinside, hparts, -⟩
    obtain rfl := hclosed.closing_inj hinside rfl heq
    exact hparts
  · intro hparts
    have hempty :
        Readable (" " ++ ("$api." ++ method ++ "(" ++ arguments [] ++ ")") ++ " ").toList :=
      readable_iff_sourceOf.mpr ⟨_, callApi_sourceOf hmethod .nil⟩
    refine ⟨_, [' '], rfl, hclosed, hparts, ?_⟩
    simpa [arguments, Text.join] using hempty

/-- What is read is then a call of the method, and each part is an argument of it. -/
theorem exists_call_of_parse_callApi {t : Expr} (hmethod : IsName method.toList)
    (hclosed : Closed (arguments texts).toList)
    (h : Expr.parse (" " ++ ("$api." ++ method ++ "(" ++ arguments texts ++ ")") ++ " ") = .ok t) :
    ∃ trees,
      t.bare = .call (.member (.ident "$api" .none) method .none false .none) trees false .none ∧
        Forall₂ SourceOf trees (argumentParts (arguments texts).toList) := by
  have hblank : Blanks [' '] := List.all_eq_true.mp rfl
  have hsource := sourceOf_of_parse h
  rw [toList_callApi rfl] at hsource
  obtain ⟨trees, htrees, hcall⟩ :=
    (hsource.callWritten (isHead_api hmethod) hclosed hblank).arguments
  obtain ⟨f, hbare, hf⟩ := hcall hblank
  -- The callee is written as what it was put together from, and that has one tree.
  have hcallee : f = .member (.ident "$api" .none) method .none false .none :=
    sourceOf_unique ⟨[], _, blanks_nil, hf.ternary_of_chain, rfl⟩
      ⟨[], _, blanks_nil, (written_apiMethod hmethod).ternary_of_chain, rfl⟩
  rw [hcallee] at hbare
  exact ⟨trees, hbare, elementsOf_iff.mp htrees⟩

/-- Where the parts are the arguments, all of them are read if all templates are, and they are what
the texts denote. -/
theorem forall₂_denotes {parts : List (List Char)} (hparts : Forall₂ IsArgument texts parts) :
    ((∀ part ∈ parts, Readable part) ↔
        ∀ text ∈ texts, ∀ inner, expression? text = some inner → Readable inner.toList) ∧
      ∀ trees, Forall₂ SourceOf trees parts → Forall₂ Denotes texts trees := by
  induction hparts with
  | nil =>
    refine ⟨by simp, fun trees htrees => ?_⟩
    cases htrees
    exact .nil
  | cons hpart _ ih =>
    refine ⟨?_, fun trees htrees => ?_⟩
    · rw [List.forall_mem_cons, List.forall_mem_cons, hpart.readable_iff, ih.1]
    · cases htrees with
      | cons htree htrees => exact .cons (hpart.denotes htree) (ih.2 _ htrees)

/-- A template that can not be read has the empty text for its value. -/
theorem render_of_unreadable {host : Host} {scope : Bindings} {site : Site} {source : String}
    (hsource : expression? text = some source) (hparse : ∀ t, Expr.parse source ≠ .ok t) :
    render host scope site text = .absent (.templateParseFailed source) [] := by
  rw [render, hsource]
  simp only
  split
  · rfl
  · rename_i t ht
    exact absurd ht (hparse t)

/-- The step of a call that can not be read calls nothing. -/
theorem run_callApi_of_unreadable {source : String}
    (hsource : expression? (callApi method texts) = some source)
    (hparse : ∀ t, Expr.parse source ≠ .ok t) (name : Option String) (context : Context)
    (perform : Performer (Step.weight ⟨.callApi method texts, name⟩)) (c : Catalog) :
    (Builtin.callApi ⟨.callApi method texts, name⟩ context perform).run c =
      { result := .ok (.str ""), catalog := c, calls := [],
        events := [.apiCalled (callApi method texts), .templateParseFailed source] } := by
  simp only [Builtin.callApi, Job.run_bind, Context.render,
    render_of_unreadable hsource hparse, Job.run_ofRendering]
  rfl

/-- What can become of a call whose arguments are put in as they stand.

The call can be read exactly if there is a parenthesis that closes the one behind the method, each
part of the text between them can be read by itself, and what is behind them can follow the call. If
all arguments together close what they open, and nothing else, that is the last parenthesis: then
the call can be read exactly if each part of the arguments can, and what is read is a call of the
method with these parts as its arguments. If the arguments are separable, the call can be read
exactly if all templates among them can, and each argument is what its text denotes. The step of a
call that can not be read has the empty text and calls nothing. -/
theorem callApi_closed (hmethod : IsName method.toList) (texts : List String) :
    ∃ source, expression? (callApi method texts) = some source ∧
      (Readable source.toList ↔
        ∃ inside rest, (arguments texts).toList ++ ") ".toList = inside ++ ')' :: rest ∧
          Closed inside ∧ (∀ part ∈ argumentParts inside, Readable part) ∧
          Readable ((" $api." ++ method ++ "()").toList ++ rest)) ∧
      (¬ Closed source.toList → ¬ Readable source.toList) ∧
      (Closed (arguments texts).toList →
        (Readable source.toList ↔
          ∀ part ∈ argumentParts (arguments texts).toList, Readable part) ∧
        ∀ t, Expr.parse source = .ok t → ∃ trees,
          t.bare =
              .call (.member (.ident "$api" .none) method .none false .none) trees false .none ∧
            Forall₂ SourceOf trees (argumentParts (arguments texts).toList)) ∧
      (Separable texts →
        (Readable source.toList ↔
          ∀ text ∈ texts, ∀ inner, expression? text = some inner → Readable inner.toList) ∧
        ∀ t, Expr.parse source = .ok t → ∃ trees,
          t.bare =
              .call (.member (.ident "$api" .none) method .none false .none) trees false .none ∧
            Forall₂ Denotes texts trees) ∧
      (¬ Readable source.toList → ∀ name context perform c,
        (Builtin.callApi ⟨.callApi method texts, name⟩ context perform).run c =
          { result := .ok (.str ""), catalog := c, calls := [],
            events := [.apiCalled (callApi method texts), .templateParseFailed source] }) := by
  have hsource := expression?_callApi method texts
  refine ⟨_, hsource, readable_callApi_iff hmethod texts, fun hopen h => ?_, fun hclosed => ?_,
    fun hseparable => ?_, fun h => ?_⟩
  · obtain ⟨e, he⟩ := readable_iff_sourceOf.mp h
    exact hopen he.selfContained.closed
  · exact ⟨readable_callApi_iff_of_closed hmethod hclosed,
      fun t ht => exists_call_of_parse_callApi hmethod hclosed ht⟩
  · -- Separable arguments close what they open, and their parts are the arguments themselves.
    obtain ⟨hclosed, hparts⟩ := hseparable.argumentParts_eq blanks_nil
    obtain ⟨hread, hdenotes⟩ := forall₂_denotes hparts
    refine ⟨(readable_callApi_iff_of_closed hmethod hclosed).trans hread, fun t ht => ?_⟩
    obtain ⟨trees, hbare, htrees⟩ := exists_call_of_parse_callApi hmethod hclosed ht
    exact ⟨trees, hbare, hdenotes trees htrees⟩
  · exact run_callApi_of_unreadable hsource fun t ht => h ⟨t, ht⟩

/-- Three arguments that close what they open together, of which the first ends with an operator;
two brackets of different kinds; an argument that ends the call and goes on behind it; and separable
arguments, of which one ends with an operator and one, which is no template, has a parenthesis in
it. -/
theorem callApi_closed_together :
    let apart := ["\x7b\x7b 1 + \x7d\x7d", "\x7b\x7b [ \x7d\x7d", "\x7b\x7b ] \x7d\x7d"]
    let separable := ["\x7b\x7b f(1, 2) \x7d\x7d", "\x7b\x7b a + \x7d\x7d", "c)"]
    IsName "send".toList ∧
      (Closed (arguments apart).toList ∧
        argumentParts (arguments apart).toList = [" 1 + ".toList, "  [ ,  ] ".toList] ∧
        (∀ name context perform c,
          (Builtin.callApi ⟨.callApi "send" apart, name⟩ context perform).run c =
            { result := .ok (.str ""), catalog := c, calls := [],
              events := [.apiCalled (callApi "send" apart),
                .templateParseFailed " $api.send( 1 + ,  [ ,  ] ) "] })) ∧
      ¬ Readable " $api.send( [1 ,  2) ) ".toList ∧
      Readable " $api.send( 1) + (2 ) ".toList ∧
      (Separable separable ∧ ¬ Readable " $api.send( f(1, 2) ,  a + , 'c)') ".toList) := by
  intro apart separable
  have hsend : IsName "send".toList := ⟨'s', _, rfl, rfl, List.all_eq_true.mp rfl⟩
  have hseparable : Separable separable := by decide
  refine ⟨hsend, ⟨by decide, by decide, ?_⟩, ?_, ?_, hseparable, ?_⟩
  · obtain ⟨source, hsource, -, -, hclosed, -, hstep⟩ := callApi_closed hsend apart
    rw [expression?_callApi] at hsource
    obtain rfl := Option.some.inj hsource
    refine hstep fun h => ?_
    have hparts := (hclosed (by decide)).1.mp h
    have hbad : ¬ Readable " 1 + ".toList := mt readable_iff_isOk.mp (by decide +kernel)
    exact hbad (hparts _ (by decide))
  · obtain ⟨source, hsource, -, hopen, -⟩ :=
      callApi_closed hsend ["\x7b\x7b [1 \x7d\x7d", "\x7b\x7b 2) \x7d\x7d"]
    rw [expression?_callApi] at hsource
    obtain rfl := Option.some.inj hsource
    exact hopen (by decide)
  · obtain ⟨source, hsource, hread, -⟩ := callApi_closed hsend ["\x7b\x7b 1) + (2 \x7d\x7d"]
    rw [expression?_callApi] at hsource
    obtain rfl := Option.some.inj hsource
    have hone : Readable " 1".toList := readable_iff_isOk.mpr (by decide +kernel)
    refine hread.mpr ⟨" 1".toList, " + (2 ) ".toList, rfl, by decide, ?_, ?_⟩
    · rw [show argumentParts " 1".toList = [" 1".toList] by decide]
      exact List.forall_mem_singleton.mpr hone
    · have hrest : (" $api." ++ "send" ++ "()").toList ++ " + (2 ) ".toList =
          " $api.send() + (2 ) ".toList := by decide
      rw [hrest]
      exact readable_iff_isOk.mpr (by decide +kernel)
  · obtain ⟨source, hsource, -, -, -, hall, -⟩ := callApi_closed hsend separable
    rw [expression?_callApi] at hsource
    obtain rfl := Option.some.inj hsource
    have hbad : ¬ Readable " a + ".toList := mt readable_iff_isOk.mp (by decide +kernel)
    exact fun h => hbad ((hall hseparable).1.mp h "\x7b\x7b a + \x7d\x7d" (by simp [separable]) _
      (by decide))

/-- The number of arguments of a call. -/
def argumentCount? : Expr → Option Nat
  | .call _ args _ _ => some args.length
  | _ => none

/-- A template argument can not be read by itself, but the call can, with some number of
arguments. -/
structure SharesCall (method : String) (texts : List String) (count : Nat) : Prop where
  unreadable : ∃ text ∈ texts, ∃ inner, expression? text = some inner ∧
    ∀ t, Expr.parse inner ≠ .ok t
  readable : ∃ source t, expression? (callApi method texts) = some source ∧
    Expr.parse source = .ok t ∧ argumentCount? t = some count

/-- What is to be computed for a call that is read although an argument is not. -/
theorem sharesCall_of_argumentCount? {inner source : String} {count : Nat}
    (hinner : expression? text = some inner) (hbad : (Expr.parse inner).isOk = false)
    (hsource : expression? (callApi method (text :: texts)) = some source)
    (hcount : (Expr.parse source).toOption.bind argumentCount? = some count) :
    SharesCall method (text :: texts) count := by
  refine ⟨⟨text, List.mem_cons_self, inner, hinner, fun t ht => ?_⟩, ?_⟩
  · rw [ht] at hbad
    cases hbad
  -- What has a number of arguments has been read.
  obtain ⟨t, ht, hcount⟩ := Option.bind_eq_some_iff.mp hcount
  refine ⟨source, t, hsource, ?_, hcount⟩
  cases hparse : Expr.parse source with
  | ok t' =>
    rw [hparse] at ht
    cases ht
    rfl
  | error err =>
    rw [hparse] at ht
    cases ht

/-- Arguments that are not separable: one with a comma outside, two that share a bracket, two that
share a string, and a blank one. The calls can be read, with more or fewer arguments than texts. -/
theorem callApi_not_separable :
    IsName "send".toList ∧ SharesCall "send" ["\x7b\x7b 1, 2 \x7d\x7d"] 2 ∧
      SharesCall "send" ["\x7b\x7b [1 \x7d\x7d", "\x7b\x7b 2] \x7d\x7d"] 1 ∧
      SharesCall "send" ["\x7b\x7b 'a \x7d\x7d", "\x7b\x7b b' \x7d\x7d"] 1 ∧
      SharesCall "send" ["\x7b\x7b \x7d\x7d"] 0 := by
  refine ⟨⟨'s', _, rfl, rfl, List.all_eq_true.mp rfl⟩, ?_, ?_, ?_, ?_⟩
  · exact sharesCall_of_argumentCount? (by decide : _ = some " 1, 2 ") (by decide +kernel)
      (expression?_callApi _ _) (by decide +kernel)
  · exact sharesCall_of_argumentCount? (by decide : _ = some " [1 ") (by decide +kernel)
      (expression?_callApi _ _) (by decide +kernel)
  · exact sharesCall_of_argumentCount? (by decide : _ = some " 'a ") (by decide +kernel)
      (expression?_callApi _ _) (by decide +kernel)
  · exact sharesCall_of_argumentCount? (by decide : _ = some " ") (by decide +kernel)
      (expression?_callApi _ _) (by decide +kernel)

end Template

end TemplateFlow
