import TemplateFlow.Flow.Builtin
import TemplateFlow.Proofs.Dictionary
import TemplateFlow.Proofs.Expr.Bare
import TemplateFlow.Proofs.Flow.Job
import TemplateFlow.Proofs.Syntax.Contents
import TemplateFlow.Proofs.Syntax.Elements
import TemplateFlow.Proofs.Template.Splicing

/-!
# The component that a call names

The call of a component puts its id between quotation marks as it stands, without the backslashes
that a quoted argument has. What is read back is the id only if there is nothing in it to escape
(`Unmarked`): a quotation mark ends the string too early, or not at all, and a backslash stands for
something else together with what follows it. For all other ids the step asks the resolver for
exactly the component that it names, and before it calls anything else.

## Main definitions

* `Expr.StartsFrom`: the callee or object that a chain of links starts from.
* `Unmarked`: ids with nothing in them to escape.

## Main results

* `exists_content_of_written`: what the beginning of a chain says about the text between the marks.
* `callComponent_addresses`: the ids that are read back, and what is asked for them.
-/

namespace TemplateFlow

/-! ## Chains -/

/-- A chain of links starts from an expression. -/
inductive Expr.StartsFrom (base : Expr) : Expr → Prop where
  | base : StartsFrom base base
  | member {o : Expr} (name : String) (nameSpan : Span) (optional : Bool) (span : Span)
    (h : StartsFrom base o) : StartsFrom base (.member o name nameSpan optional span)
  | index {o : Expr} (i : Expr) (optional : Bool) (span : Span) (h : StartsFrom base o) :
    StartsFrom base (.index o i optional span)
  | call {f : Expr} (args : List Expr) (optional : Bool) (span : Span) (h : StartsFrom base f) :
    StartsFrom base (.call f args optional span)

namespace Syntax

/-- How a writing of a word or a chain begins, if it is not in parentheses. -/
def BeginsAs : Expr → List Char → Prop
  | .literal v _, s => ∃ w, Spells v w ∧ Token w s
  | .ident name _, s => Token name.toList s
  | .member o _ _ _ _, s => ∃ t rest, Written (.phrase .chain o) t ∧ s = t ++ rest
  | .index o _ _ _, s => ∃ t rest, Written (.phrase .chain o) t ∧ s = t ++ rest
  | .call f args optional _, s =>
    ∃ t mark blanks u rest, Written (.phrase .chain f) t ∧ Mark optional mark ∧ Blanks blanks ∧
      Written (.elements args) u ∧ s = t ++ (mark ++ '(' :: (blanks ++ (u ++ rest)))
  | _, _ => True

/-- What is said of the beginning of an expression, and of nothing else. -/
def Form.Begins : Form → List Char → Prop
  | .phrase _ e, s => BeginsAs e s ∨ ∃ rest, s = '(' :: rest
  | _, _ => True

theorem Written.begins {f : Form} {s : List Char} (h : Written f s) : f.Begins s := by
  -- What is nested further in is no beginning, so one level is enough, but for parentheses.
  induction h with
  | literal hv ht => exact .inl ⟨_, hv, ht⟩
  | ident _ ht =>
    refine .inl ?_
    rw [BeginsAs, String.toList_ofList]
    exact ht
  | parenthesized h₁ _ _ =>
    obtain ⟨blanks, -, rfl⟩ := h₁
    exact .inr ⟨_, rfl⟩
  | member ho _ _ _ => exact .inl ⟨_, _, ho, rfl⟩
  | index ho _ _ _ _ => exact .inl ⟨_, _, ho, rfl⟩
  | call hf hmark h₁ hargs _ =>
    obtain ⟨blanks, hblanks, rfl⟩ := h₁
    exact .inl ⟨_, _, blanks, _, _, hf, hmark, hblanks, hargs, rfl⟩
  | @operation op _ _ _ _ _ _ _ _ => exact .inl (by cases op <;> trivial)
  | tighter _ ih => exact ih
  | list _ _ _ | object _ _ _ | prefixed _ _ | ternary _ _ _ _ _ => exact .inl trivial
  | _ => trivial

/-- An expression that begins with another character than a parenthesis is not in parentheses. -/
theorem Written.beginsAs {p : Precedence} {e : Expr} {c : Char} {s : List Char}
    (h : Written (.phrase p e) (c :: s)) (hc : c ≠ '(') : BeginsAs e (c :: s) := by
  rcases h.begins with h | ⟨rest, h⟩
  · exact h
  · exact absurd (List.cons.inj h).1 hc

/-- A writing is not empty, so a text that begins with it has its first character. -/
theorem Written.exists_eq_cons {p : Precedence} {e : Expr} {c : Char} {s t rest : List Char}
    (h : Written (.phrase p e) t) (heq : c :: s = t ++ rest) :
    ∃ u, t = c :: u ∧ s = u ++ rest := by
  cases t with
  | nil => exact absurd rfl h.starts.ne_nil
  | cons d u =>
    obtain ⟨rfl, rfl⟩ := List.cons.inj heq
    exact ⟨u, rfl, rfl⟩

/-- What is written as a chain begins with a writing of what the chain starts from. -/
theorem exists_written_of_startsFrom {base e : Expr} (h : base.StartsFrom e) {p : Precedence}
    {c : Char} {s : List Char} (hwritten : Written (.phrase p e) (c :: s)) (hc : c ≠ '(') :
    ∃ q t rest, Written (.phrase q base) (c :: t) ∧ s = t ++ rest := by
  -- Each link is taken off at the end, and what is in front of it begins with the same character.
  induction h generalizing p s with
  | base => exact ⟨p, s, [], hwritten, (List.append_nil _).symm⟩
  | member _ _ _ _ _ ih =>
    obtain ⟨_, rest, ho, heq⟩ := hwritten.beginsAs hc
    obtain ⟨u, rfl, rfl⟩ := ho.exists_eq_cons heq
    obtain ⟨q, t, rest', ht, rfl⟩ := ih ho
    exact ⟨q, t, rest' ++ rest, ht, List.append_assoc _ _ _⟩
  | index _ _ _ _ ih =>
    obtain ⟨_, rest, ho, heq⟩ := hwritten.beginsAs hc
    obtain ⟨u, rfl, rfl⟩ := ho.exists_eq_cons heq
    obtain ⟨q, t, rest', ht, rfl⟩ := ih ho
    exact ⟨q, t, rest' ++ rest, ht, List.append_assoc _ _ _⟩
  | call _ _ _ _ ih =>
    obtain ⟨_, _, _, _, _, ho, -, -, -, heq⟩ := hwritten.beginsAs hc
    obtain ⟨u, rfl, rfl⟩ := ho.exists_eq_cons heq
    obtain ⟨q, t, rest', ht, rfl⟩ := ih ho
    exact ⟨q, t, rest' ++ _, ht, List.append_assoc _ _ _⟩

end Syntax

namespace Template

open Syntax

variable {id method : String} {texts : List String}

/-- The call of the resolver of components with an id. -/
def resolverCall (id : String) : Expr :=
  .call (.ident Callable.componentName .none) [.literal (.str id) .none] false .none

/-- Nothing in the id needs a backslash between single quotation marks. -/
def Unmarked (id : String) : Prop := '\'' ∉ id.toList ∧ '\\' ∉ id.toList

instance (id : String) : Decidable (Unmarked id) :=
  inferInstanceAs (Decidable (_ ∧ _))

/-! ## What is read back -/

/-- No blanks come before a character that is none. -/
theorem eq_of_blanks_append {blanks s t : List Char} {c : Char} (h : Blanks blanks)
    (hc : isBlank c = false) (heq : c :: s = blanks ++ t) : blanks = [] := by
  cases blanks with
  | nil => rfl
  | cons d blanks =>
    obtain ⟨rfl, -⟩ := List.cons.inj heq
    rw [h c List.mem_cons_self] at hc
    cases hc

/-- A string literal that begins with a single quotation mark has contents up to the next one. -/
theorem exists_content_of_literal {p : Precedence} {s : List Char}
    (h : Written (.phrase p (.literal (.str id) .none)) ('\'' :: s)) :
    ∃ content behind, IsContent '\'' content ∧ unescape content = id.toList ∧
      s = content ++ '\'' :: behind := by
  obtain ⟨w, hw, blanks, -, heq⟩ := h.beginsAs (by decide)
  generalize hv : Literal.str id = v at hw
  cases hw with
  | @str content _ hstring =>
    obtain ⟨quote, -, hcontent, rfl⟩ := hstring
    obtain ⟨rfl, hs⟩ := List.cons.inj heq
    refine ⟨content, blanks, hcontent, ?_, ?_⟩
    · rw [Literal.str.inj hv, String.toList_ofList]
    · simpa using hs
  | _ => cases hv

/-- A chain that starts from the call of the resolver with an id, and with a quotation mark behind
the parenthesis, begins with contents that stand for the id. -/
theorem exists_content_of_written {p : Precedence} {e : Expr} {rest : List Char}
    (h : Written (.phrase p e) ('$' :: '(' :: '\'' :: rest))
    (hstarts : (resolverCall id).StartsFrom e) :
    ∃ content behind, IsContent '\'' content ∧ unescape content = id.toList ∧
      rest = content ++ '\'' :: behind := by
  obtain ⟨q, t, rest', ht, heq⟩ := exists_written_of_startsFrom hstarts h (by decide)
  obtain ⟨callee, mark, blanks, args, behind, hcallee, rfl, hblanks, hargs, ht'⟩ :=
    ht.beginsAs (by decide)
  -- The callee is the dollar sign alone, and no blanks come before the quotation mark.
  obtain ⟨u, rfl, rfl⟩ := hcallee.exists_eq_cons ht'
  obtain ⟨blanks', hblanks', hcallee⟩ := hcallee.beginsAs (by decide)
  obtain rfl : u = blanks' := (List.cons.inj hcallee).2
  rw [List.append_assoc] at heq
  obtain rfl := eq_of_blanks_append hblanks' rfl heq
  have hinside : '\'' :: rest = blanks ++ (args ++ behind ++ rest') := by simpa using heq
  obtain rfl := eq_of_blanks_append hblanks rfl hinside
  -- The only argument is the literal.
  rcases hargs.elements_cases with ⟨hnil, -⟩ | ⟨e, es, v, hes, hv, hargs⟩
  · cases hnil
  · obtain ⟨rfl, -⟩ := List.cons.inj hes
    obtain ⟨more, hmore⟩ : ∃ more, '\'' :: rest = v ++ more := by
      rcases hargs with ⟨-, rfl⟩ | ⟨_, _, -, -, rfl⟩
      · exact ⟨_, by simpa using hinside⟩
      · exact ⟨_, by simpa using hinside⟩
    obtain ⟨v, rfl, rfl⟩ := hv.exists_eq_cons hmore
    obtain ⟨content, behind', hcontent, hunescape, rfl⟩ := exists_content_of_literal hv
    exact ⟨content, behind' ++ more, hcontent, hunescape, by simp⟩

/-! ## The expression of a call -/

/-- The expression of a call of a component. -/
theorem expression?_callComponent (id method : String) (texts : List String) :
    expression? (callComponent id method texts) =
      some (" " ++ ("$('" ++ id ++ "')?." ++ method ++ "(" ++ arguments texts ++ ")") ++ " ") := by
  rw [callComponent, expression?_ofExpression]

/-- Only an unmarked id is read back. -/
theorem unmarked_of_startsFrom {t : Expr}
    (h : Expr.parse
      (" " ++ ("$('" ++ id ++ "')?." ++ method ++ "(" ++ arguments texts ++ ")") ++ " ") = .ok t)
    (hstarts : (resolverCall id).StartsFrom t.bare) : Unmarked id := by
  have hblank : Blanks [' '] := List.all_eq_true.mp rfl
  obtain ⟨rest, hrest⟩ : ∃ rest,
      (" " ++ ("$('" ++ id ++ "')?." ++ method ++ "(" ++ arguments texts ++ ")") ++ " ").toList =
        [' '] ++ '$' :: '(' :: '\'' :: (id.toList ++ '\'' :: rest) := ⟨_, by simp; rfl⟩
  -- In front of the quotation mark nothing depends on the id.
  have hsource := sourceOf_of_parse h
  rw [hrest] at hsource
  have hwritten := (hsource.of_blanks_append hblank).written rfl
  obtain ⟨content, behind, hcontent, hunescape, heq⟩ := exists_content_of_written hwritten hstarts
  exact hcontent.not_mem_of_unescape hunescape heq.symm

/-- An unmarked id between quotation marks is a literal of that id. -/
theorem spells_of_unmarked (h : Unmarked id) :
    Spells (.str id) ('\'' :: (id.toList ++ ['\''])) := by
  have hstring : IsString id.toList ('\'' :: (id.toList ++ ['\''])) :=
    ⟨'\'', by decide, isContent_of_not_mem h.1 h.2, rfl⟩
  have hspells := Spells.str hstring
  rwa [unescape_of_not_mem h.2, String.ofList_toList] at hspells

/-- The call of the resolver as it is spelled. -/
theorem written_resolverCall (h : Unmarked id) :
    Written (.phrase .chain (resolverCall id)) ("$('" ++ id ++ "')").toList := by
  have hname : IsIdentifier Callable.componentName.toList :=
    ⟨⟨'$', _, rfl, rfl, fun _ h => absurd h List.not_mem_nil⟩, by decide⟩
  -- The dollar sign is a name.
  have hresolver : Written (.phrase .chain (.ident Callable.componentName .none)) ['$'] :=
    .tighter (.ident hname ⟨[], blanks_nil, rfl⟩)
  have hliteral : Written (.phrase .chain (.literal (.str id) .none))
      ('\'' :: (id.toList ++ ['\''])) :=
    .tighter (.literal (spells_of_unmarked h) ⟨[], blanks_nil, (List.append_nil _).symm⟩)
  have hargs := Written.elements (.oneItem hliteral.ternary_of_chain) (.inl rfl)
  have hopen : Token ['('] ['('] := ⟨[], blanks_nil, rfl⟩
  have hclose : Token [')'] [')'] := ⟨[], blanks_nil, rfl⟩
  have hmark : Mark false [] := rfl
  have hcall := Written.call hresolver hmark hopen hargs hclose
  rw [resolverCall]
  simpa using hcall

/-- The expression of a call of an unmarked component is a source of the call of its method. -/
theorem callComponent_sourceOf {trees : List Expr} (hid : Unmarked id)
    (hmethod : IsName method.toList) (htrees : List.Forall₂ Denotes texts trees) :
    SourceOf (.call (.member (resolverCall id) method .none true .none) trees false .none)
      (" " ++ ("$('" ++ id ++ "')?." ++ method ++ "(" ++ arguments texts ++ ")") ++
        " ").toList := by
  have hdot : Dot true ['?', '.'] := ⟨[], blanks_nil, rfl⟩
  have hmember := Written.member (written_resolverCall hid) hdot hmethod
    ⟨[], blanks_nil, (List.append_nil _).symm⟩
  rw [String.ofList_toList] at hmember
  have hblank : Blanks [' '] := List.all_eq_true.mp rfl
  have hcall := written_call hmember htrees hblank
  refine ⟨[' '], _, hblank, hcall.ternary_of_chain, ?_⟩
  simp

/-! ## What is asked for -/

/-- The calls of a first evaluation come first. -/
theorem exists_calls_bind {α β : Type} (first : Eval α) (next : α → Eval β) :
    ∃ more, (first >>= next).calls = first.calls ++ more := by
  change ∃ more, (first.bind next).calls = first.calls ++ more
  rw [Eval.bind]
  cases first.result with
  | ok a => exact ⟨_, rfl⟩
  | error err => exact ⟨[], (List.append_nil _).symm⟩

variable {host : Host} {env : Bindings} {site s : Site} {e : Expr}

/-- Before anything else in a chain, what it starts from is evaluated. -/
theorem calls_evalChain_of_startsFrom (h : (resolverCall id).StartsFrom e)
    (henv : Dictionary.get? env Callable.componentName = some (.func (.component s) [])) :
    ∃ more, (e.evalChain host env site).calls = .component id :: more := by
  have hlink {o : Expr} {next : Option Value → Eval (Option Value)} {site : Site}
      (ih : ∃ more, (o.evalChain host env site).calls = .component id :: more) :
      ∃ more, (o.evalChain host env site >>= next).calls = .component id :: more := by
    obtain ⟨more, hmore⟩ := ih
    obtain ⟨more', hcalls⟩ := exists_calls_bind (o.evalChain host env site) next
    exact ⟨more ++ more', by rw [hcalls, hmore, List.cons_append]⟩
  -- A link is evaluated after what it is taken of.
  induction h generalizing site with
  | base =>
    refine ⟨[], ?_⟩
    simp only [resolverCall, Expr.evalChain, henv]
    rfl
  | member _ _ _ _ _ ih =>
    rw [Expr.evalChain]
    exact hlink ih
  | index _ _ _ _ ih =>
    rw [Expr.evalChain]
    exact hlink ih
  | call _ _ _ _ ih =>
    rw [Expr.evalChain]
    exact hlink ih

/-- The resolver of components is bound, unless an output has its name. -/
theorem get?_scope_componentName {context : Context}
    (h : Callable.componentName ∉ Dictionary.keys context.outputs.values) :
    Dictionary.get? (context.scope []) Callable.componentName =
      some (.func (.component context.outputs.site) []) := by
  have houtputs : Dictionary.get? (Dictionary.ofList context.outputs.values)
      Callable.componentName = none :=
    Dictionary.get?_ofList_eq_none fun x hx heq => h (heq ▸ List.mem_map_of_mem hx)
  -- The resolvers come after the outputs and before the globals.
  rw [Context.scope, scope, Dictionary.get?_overlay, Dictionary.get?_overlay, houtputs,
    Context.base, Dictionary.get?_overlay, Dictionary.get?_ofList_cons,
    Dictionary.get?_ofList_cons, if_pos rfl, if_neg (by decide)]
  rfl

theorem calls_ofEval (expression : String) (e : Eval Value) :
    (Rendering.ofEval expression e).calls = e.calls := by
  rw [Rendering.ofEval]
  cases e.result <;> rfl

/-- A template that passes validation makes the calls of its expression. -/
theorem calls_render {text source : String} {t : Expr} (hsource : expression? text = some source)
    (hparse : Expr.parse source = .ok t)
    (hvalid : Validation.validate (Dictionary.keys env) t = []) :
    (render host env site text).calls = (t.eval host env site).calls := by
  rw [render, hsource]
  simp only [hparse, hvalid]
  exact calls_ofEval source _

/-- The step of a call that passes validation asks for the component before it calls anything. -/
theorem calls_run_call {source : String} {t : Expr} {context : Context}
    (hsource : expression? (callComponent id method texts) = some source)
    (hparse : Expr.parse source = .ok t) (hstarts : (resolverCall id).StartsFrom t.bare)
    (hname : Callable.componentName ∉ Dictionary.keys context.outputs.values)
    (hvalid : Validation.validate (Dictionary.keys (context.scope [])) t = [])
    (name : Option String)
    (perform : Performer (Step.weight ⟨.call id method texts, name⟩)) (c : Catalog) :
    ∃ more, ((Builtin.call ⟨.call id method texts, name⟩ context perform).run c).calls =
      .component id :: more := by
  have hrun : ((Builtin.call ⟨.call id method texts, name⟩ context perform).run c).calls =
      (context.render (callComponent id method texts)).calls := by
    simp only [Builtin.call, Job.run_log_bind, Job.run_ofRendering]
    rfl
  have hasks : ∃ more,
      (t.bare.evalChain context.host (context.scope []) context.outputs.site).calls =
        .component id :: more :=
    calls_evalChain_of_startsFrom hstarts (get?_scope_componentName hname)
  -- The chain begins with the call of the resolver, and what follows comes behind it.
  obtain ⟨more, hmore⟩ := hasks
  rw [Expr.evalChain_bare] at hmore
  obtain ⟨more', hcalls⟩ := exists_calls_bind
    (t.evalChain context.host (context.scope []) context.outputs.site)
    (fun v => pure (Expr.settleChain v))
  rw [hrun, Context.render, calls_render hsource hparse hvalid]
  exact ⟨more ++ more', hcalls.trans (by rw [hmore, List.cons_append])⟩

/-- With arguments that can be read, the call of a component is read as a chain that starts from the
call of the resolver with the id exactly for ids without quotation marks and backslashes. For these
it is the call of the method of that component, if there is one, with what the texts denote, and the
step asks for the component before it calls anything else. -/
theorem callComponent_addresses (hmethod : IsName method.toList)
    (htexts : ∀ text ∈ texts, ∀ inner, expression? text = some inner →
      ∃ t, Expr.parse inner = .ok t) :
    ((∃ source t, expression? (callComponent id method texts) = some source ∧
        Expr.parse source = .ok t ∧ (resolverCall id).StartsFrom t.bare) ↔ Unmarked id) ∧
      (Unmarked id → ∃ source t trees, expression? (callComponent id method texts) = some source ∧
        Expr.parse source = .ok t ∧ List.Forall₂ Denotes texts trees ∧
        t.bare =
          .call (.member (resolverCall id) method .none true .none) trees false .none ∧
        ∀ (context : Context) name perform c,
          Callable.componentName ∉ Dictionary.keys context.outputs.values →
          Validation.validate (Dictionary.keys (context.scope [])) t = [] →
          ∃ more, ((Builtin.call ⟨.call id method texts, name⟩ context perform).run c).calls =
            .component id :: more) := by
  have hread (hid : Unmarked id) : ∃ source t trees,
      expression? (callComponent id method texts) = some source ∧ Expr.parse source = .ok t ∧
        List.Forall₂ Denotes texts trees ∧ t.bare =
          .call (.member (resolverCall id) method .none true .none) trees false .none := by
    obtain ⟨trees, htrees⟩ := exists_denotes htexts
    obtain ⟨t, ht, hbare⟩ := parse_of_sourceOf (callComponent_sourceOf hid hmethod htrees)
    exact ⟨_, t, trees, expression?_callComponent id method texts, ht, htrees, hbare⟩
  have hstarts {t : Expr} {trees : List Expr} (hbare : t.bare =
      .call (.member (resolverCall id) method .none true .none) trees false .none) :
      (resolverCall id).StartsFrom t.bare := by
    rw [hbare]
    exact .call _ _ _ (.member _ _ _ _ .base)
  -- What is spliced in is the id as it stands, so what is read shows whether it is unmarked.
  refine ⟨⟨?_, fun hid => ?_⟩, fun hid => ?_⟩
  · rintro ⟨source, t, hsource, ht, hbase⟩
    rw [expression?_callComponent] at hsource
    obtain rfl := Option.some.inj hsource
    exact unmarked_of_startsFrom ht hbase
  · obtain ⟨source, t, trees, hsource, ht, -, hbare⟩ := hread hid
    exact ⟨source, t, hsource, ht, hstarts hbare⟩
  · obtain ⟨source, t, trees, hsource, ht, htrees, hbare⟩ := hread hid
    exact ⟨source, t, trees, hsource, ht, htrees, hbare, fun context name perform c hname hvalid =>
      calls_run_call hsource ht (hstarts hbare) hname hvalid name perform c⟩

/-- A double quotation mark in the id is read back, a single one and a backslash are not. Where the
names in the arguments are bound, the component is asked for. -/
theorem callComponent_addresses_reload :
    let texts := ["\x7b\x7b x \x7d\x7d", "it's"]
    let addresses (id : String) := ∃ source t,
      expression? (callComponent id "reload" texts) = some source ∧
        Expr.parse source = .ok t ∧ (resolverCall id).StartsFrom t.bare
    let context : Context := { outputs := { values := [("x", .str "a")] } }
    (addresses "a\"b" ∧ ¬ addresses "it's" ∧ ¬ addresses "a\\b") ∧
      ∀ name perform c, ∃ more,
        ((Builtin.call ⟨.call "a\"b" "reload" texts, name⟩ context perform).run c).calls =
          .component "a\"b" :: more := by
  intro texts addresses context
  have hreload : IsName "reload".toList := ⟨'r', _, rfl, rfl, List.all_eq_true.mp rfl⟩
  have htexts : ∀ text ∈ texts, ∀ inner, expression? text = some inner →
      ∃ t, Expr.parse inner = .ok t := by
    intro text htext inner hinner
    simp only [texts, List.mem_cons, List.not_mem_nil, or_false] at htext
    rcases htext with rfl | rfl
    · have htemplate : expression? "\x7b\x7b x \x7d\x7d" = some " x " := by decide
      obtain rfl := Option.some.inj (htemplate.symm.trans hinner)
      have hok : (Expr.parse " x ").isOk = true := by decide +kernel
      cases hparse : Expr.parse " x " with
      | ok t => exact ⟨t, rfl⟩
      | error err =>
        rw [hparse] at hok
        cases hok
    · have hnone : expression? "it's" = none := by decide
      exact nomatch hnone.symm.trans hinner
  refine ⟨⟨(callComponent_addresses hreload htexts).1.mpr (by decide), fun h => ?_,
    fun h => ?_⟩, ?_⟩
  · exact absurd ((callComponent_addresses hreload htexts).1.mp h) (by decide)
  · exact absurd ((callComponent_addresses hreload htexts).1.mp h) (by decide)
  · -- The check on the names is computed from the text that was put together.
    obtain ⟨source, t, -, hsource, hparse, -, -, hcalls⟩ :=
      (@callComponent_addresses "a\"b" _ _ hreload htexts).2 (by decide)
    have hvalid : (Expr.parse source).toOption.all
        (fun t => (Validation.validate (Dictionary.keys (context.scope [])) t).isEmpty) = true := by
      rw [expression?_callComponent] at hsource
      obtain rfl := Option.some.inj hsource
      decide +kernel
    rw [hparse] at hvalid
    exact fun name perform c => hcalls context name perform c (by decide +kernel)
      (List.isEmpty_iff.mp hvalid)

end Template

end TemplateFlow
