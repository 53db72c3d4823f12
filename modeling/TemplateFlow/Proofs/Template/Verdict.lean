import TemplateFlow.Proofs.Expr.Findings
import TemplateFlow.Proofs.Template.Splicing

/-!
# The verdict on a text

A text that is rendered falls in exactly one case. It is no template; or its expression cannot be
read, or refers to a name that is not bound, or calls a literal, or fails, or has a value. The cases
are described here by what the text and the scope are like, each with the one rendering that belongs
to it (`Falls`), and without the way in which a rendering is computed.

The empty text is the value of a template that has none, and may be the value of one that has. What
tells the two apart is the warning that the former comes with.

## Main definitions

* `Verdict`: the cases.
* `Judged`: the cases of an expression that could be read, with their renderings.
* `Falls`: the cases of a text, with their renderings.

## Main results

* `Falls.unique`: a text falls in one case only, and has one rendering in it.
* `render_falls`: its rendering is the one of a case that it falls in, and all it reports is a
  warning.
-/

namespace TemplateFlow

namespace Template

open Validation

/-- What becomes of a text. -/
inductive Verdict where
  /-- The text is no template. -/
  | literal
  /-- The expression of the template cannot be read. -/
  | unreadable
  /-- The expression refers to a name that is not bound. -/
  | unbound
  /-- The expression calls a literal. -/
  | rejected
  /-- The evaluation of the expression fails. -/
  | failed
  /-- The expression has a value. -/
  | evaluated
  deriving DecidableEq, Inhabited

/-- The text is the template of a source. -/
def IsTemplateOf (text source : String) : Prop := text = "\x7b\x7b" ++ source ++ "\x7d\x7d"

/-- The cases of an expression that was read from a source, with what is rendered in each. Of the
cases that keep the expression from being evaluated, the first one that applies counts; any node of
the expression matters to them, evaluated or not. -/
inductive Judged (host : Host) (scope : Bindings) (site : Site) (source : String) (e : Expr) :
    Verdict → Rendering → Prop where
  /-- The names are reported once each, in the order of the source. -/
  | unbound {names : List String} (hnodes : unboundNodes (Dictionary.keys scope) e ≠ [])
      (hnames : FirstAppearances ((unboundNodes (Dictionary.keys scope) e).map Prod.fst) names) :
      Judged host scope site source e .unbound
        { value := .str "", calls := [], events := [.unknownIdentifiers source names] }
  /-- The first call of a literal is reported. -/
  | rejected {span : Span} {spans : List Span}
      (hnodes : unboundNodes (Dictionary.keys scope) e = [])
      (hcalls : literalCallNodes e = span :: spans) :
      Judged host scope site source e .rejected
        { value := .str "", calls := [],
          events := [.templateRejected source (Finding.text ⟨.nonCallableCall, span, none⟩)] }
  | failed {err : EvalError} (hnodes : unboundNodes (Dictionary.keys scope) e = [])
      (hcalls : literalCallNodes e = []) (heval : (e.eval host scope site).result = .error err) :
      Judged host scope site source e .failed
        { value := .str "", calls := (e.eval host scope site).calls,
          events := [.evaluationFailed source err.message] }
  | evaluated {v : Value} (hnodes : unboundNodes (Dictionary.keys scope) e = [])
      (hcalls : literalCallNodes e = []) (heval : (e.eval host scope site).result = .ok v) :
      Judged host scope site source e .evaluated
        { value := v, calls := (e.eval host scope site).calls, events := [] }

/-- The cases of a text, with what is rendered in each. -/
inductive Falls (host : Host) (scope : Bindings) (site : Site) (text : String) :
    Verdict → Rendering → Prop where
  | literal (htext : ∀ source, ¬ IsTemplateOf text source) :
      Falls host scope site text .literal { value := .str text, calls := [], events := [] }
  | unreadable {source : String} (htext : IsTemplateOf text source)
      (hparse : ∀ e, Expr.parse source ≠ .ok e) :
      Falls host scope site text .unreadable
        { value := .str "", calls := [], events := [.templateParseFailed source] }
  | read {source : String} {e : Expr} {verdict : Verdict} {r : Rendering}
      (htext : IsTemplateOf text source) (hparse : Expr.parse source = .ok e)
      (h : Judged host scope site source e verdict r) : Falls host scope site text verdict r

variable {host : Host} {scope : Bindings} {site : Site} {text source : String} {e : Expr}
  {verdict verdict' : Verdict} {r r' : Rendering}

/-! ## One case only -/

theorem IsTemplateOf.unique {source' : String} (h : IsTemplateOf text source)
    (h' : IsTemplateOf text source') : source = source' := by
  have hsome := expression?_eq_some_iff.mpr h
  rw [expression?_eq_some_iff.mpr h'] at hsome
  exact (Option.some.inj hsome).symm

theorem Judged.unique (h : Judged host scope site source e verdict r)
    (h' : Judged host scope site source e verdict' r') : verdict = verdict' ∧ r = r' := by
  -- What a case asks for is refused by each of the others.
  cases h with
  | unbound hnodes hnames =>
    cases h' with
    | unbound _ hnames' => exact ⟨rfl, by rw [hnames.unique hnames']⟩
    | rejected hnodes' | failed hnodes' | evaluated hnodes' => exact absurd hnodes' hnodes
  | rejected hnodes hcalls =>
    cases h' with
    | unbound hnodes' => exact absurd hnodes hnodes'
    | rejected _ hcalls' =>
      obtain ⟨rfl, -⟩ := List.cons.inj (hcalls.symm.trans hcalls')
      exact ⟨rfl, rfl⟩
    | failed _ hcalls' | evaluated _ hcalls' => exact nomatch hcalls.symm.trans hcalls'
  | failed hnodes hcalls heval =>
    cases h' with
    | unbound hnodes' => exact absurd hnodes hnodes'
    | rejected _ hcalls' => exact nomatch hcalls.symm.trans hcalls'
    | failed _ _ heval' =>
      obtain rfl := Except.error.inj (heval.symm.trans heval')
      exact ⟨rfl, rfl⟩
    | evaluated _ _ heval' => exact nomatch heval.symm.trans heval'
  | evaluated hnodes hcalls heval =>
    cases h' with
    | unbound hnodes' => exact absurd hnodes hnodes'
    | rejected _ hcalls' => exact nomatch hcalls.symm.trans hcalls'
    | failed _ _ heval' => exact nomatch heval.symm.trans heval'
    | evaluated _ _ heval' =>
      obtain rfl := Except.ok.inj (heval.symm.trans heval')
      exact ⟨rfl, rfl⟩

/-- A text falls in one case only, and has one rendering in it. -/
theorem Falls.unique (h : Falls host scope site text verdict r)
    (h' : Falls host scope site text verdict' r') : verdict = verdict' ∧ r = r' := by
  cases h with
  | literal htext =>
    cases h' with
    | literal => exact ⟨rfl, rfl⟩
    | unreadable htext' | read htext' => exact absurd htext' (htext _)
  | unreadable htext hparse =>
    cases h' with
    | literal htext' => exact absurd htext (htext' _)
    | unreadable htext' =>
      rw [htext.unique htext']
      exact ⟨rfl, rfl⟩
    | read htext' hparse' =>
      rw [← htext.unique htext'] at hparse'
      exact absurd hparse' (hparse _)
  | read htext hparse h =>
    cases h' with
    | literal htext' => exact absurd htext (htext' _)
    | unreadable htext' hparse' =>
      rw [htext.unique htext'] at hparse
      exact absurd hparse (hparse' _)
    | read htext' hparse' h' =>
      -- The text has one source, and this is read as one expression.
      obtain rfl := htext.unique htext'
      rw [hparse] at hparse'
      cases hparse'
      exact h.unique h'

/-! ## The case of a rendering -/

/-- Unknown names are objected to before anything else. -/
theorem objection?_of_unknown {findings : List Finding} (h : unknownIdentifiers findings ≠ []) :
    objection? source findings =
      some (.unknownIdentifiers source (unknownIdentifiers findings)) := by
  unfold objection?
  split
  · rename_i hnil
    exact absurd hnil h
  · rename_i hnil
    exact absurd hnil h
  · rfl

/-- If there are none, the first finding is what is objected to. -/
theorem objection?_of_known {findings : List Finding} (h : unknownIdentifiers findings = []) :
    objection? source findings = findings.head?.map fun f => .templateRejected source f.text := by
  unfold objection?
  rw [h]
  cases findings <;> rfl

/-- What validation objects to, and what an evaluation comes to, decides the case. -/
theorem judged_render (hsource : expression? text = some source)
    (hparse : Expr.parse source = .ok e) :
    ∃ verdict, Judged host scope site source e verdict (render host scope site text) := by
  have hunknown := unknownIdentifiers_eq_nil_iff (Dictionary.keys scope) e
  rw [render, hsource]
  simp only [hparse]
  by_cases hnodes : unboundNodes (Dictionary.keys scope) e = []
  · -- Every name is bound, so the findings that are left are the calls of literals.
    have hfindings := validate_eq (Dictionary.keys scope) e
    rw [hnodes, List.map_nil, List.nil_append] at hfindings
    rw [objection?_of_known (hunknown.mpr hnodes), hfindings]
    cases hcalls : literalCallNodes e with
    | cons span spans => exact ⟨.rejected, .rejected hnodes hcalls⟩
    | nil =>
      simp only [List.map_nil, List.head?_nil, Option.map_none, Rendering.ofEval]
      cases heval : (e.eval host scope site).result with
      | ok v => exact ⟨.evaluated, .evaluated hnodes hcalls heval⟩
      | error err => exact ⟨.failed, .failed hnodes hcalls heval⟩
  · -- A name that is not bound comes before anything else that there is to object to.
    have hnames := firstAppearances_firstOccurrences
      ((unboundNodes (Dictionary.keys scope) e).map Prod.fst)
    rw [← unknownIdentifiers_validate] at hnames
    rw [objection?_of_unknown fun h => hnodes (hunknown.mp h)]
    exact ⟨.unbound, .unbound hnodes hnames⟩

/-- The rendering of a text is the one of a case that the text falls in. -/
theorem exists_falls (host : Host) (scope : Bindings) (site : Site) (text : String) :
    ∃ verdict, Falls host scope site text verdict (render host scope site text) := by
  -- The text is looked at in the order in which the renderer does.
  cases hsource : expression? text with
  | none =>
    have htext : ∀ source, ¬ IsTemplateOf text source := by
      intro source htext
      rw [expression?_eq_some_iff.mpr htext] at hsource
      cases hsource
    rw [render, hsource]
    exact ⟨.literal, .literal htext⟩
  | some source =>
    have htext : IsTemplateOf text source := expression?_eq_some_iff.mp hsource
    cases hparse : Expr.parse source with
    | error err =>
      rw [render, hsource]
      simp only [hparse]
      exact ⟨.unreadable, .unreadable htext fun e he => nomatch hparse.symm.trans he⟩
    | ok e =>
      obtain ⟨verdict, h⟩ := judged_render hsource hparse
      exact ⟨verdict, .read htext hparse h⟩

/-- All that is ever reported is a warning. -/
theorem Falls.level_eq_warn (h : Falls host scope site text verdict r) :
    ∀ event ∈ r.events, event.level = .warn := by
  cases h with
  | literal => simp
  | unreadable => simp [Event.level]
  | read _ _ h => cases h <;> simp [Event.level]

/-- A text about which something is reported stands for the empty text. -/
theorem Falls.value_of_events_ne_nil (h : Falls host scope site text verdict r)
    (hevents : r.events ≠ []) : r.value = .str "" := by
  cases h with
  | literal => exact absurd rfl hevents
  | unreadable => rfl
  | read _ _ h =>
    cases h with
    | evaluated => exact absurd rfl hevents
    | _ => rfl

/-- Every text falls in exactly one case, its rendering is the one that belongs to the case, and all
that is ever reported is a warning. -/
theorem render_falls (host : Host) (scope : Bindings) (site : Site) (text : String) :
    ∃ verdict, Falls host scope site text verdict (render host scope site text) ∧
      (∀ verdict' r, Falls host scope site text verdict' r →
        verdict' = verdict ∧ r = render host scope site text) ∧
      ∀ event ∈ (render host scope site text).events, event.level = .warn := by
  obtain ⟨verdict, h⟩ := exists_falls host scope site text
  exact ⟨verdict, h, fun verdict' r h' => h'.unique h, h.level_eq_warn⟩

end Template

end TemplateFlow
