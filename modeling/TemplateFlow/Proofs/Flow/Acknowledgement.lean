import TemplateFlow.Proofs.Flow.Builtin
import TemplateFlow.Proofs.Json.Expression
import TemplateFlow.Proofs.Template.Splicing

/-!
# The acknowledgement of settings

A step that gives settings to the catalog yields the value of a template that is put together from
the JSON text of the default parameters. The template is an object of two texts and these
parameters, all of them constant, so it is the same value wherever it is rendered and rendering it
reports nothing (`render_acknowledgement`). The step changes the catalog, reports that it did, and
never fails (`Runner.dispatch_initApi_eq`).

## Main definitions

* `Builtin.acknowledged`: the object that the step yields.
-/

namespace TemplateFlow

open Syntax

namespace Builtin

/-- The default parameters of settings, which are empty if they are left out. -/
def givenParams (config : ApiConfig) : Json := .obj (config.defaultParams.getD [])

/-- The object that acknowledges settings. -/
def acknowledged (config : ApiConfig) : Value :=
  .obj (Dictionary.ofList
    [("status", .str "success"), ("message", .str "API initialized"),
     ("params", .ofJson (givenParams config))])

/-- A name, a colon and a blank before the source of a value are a property. -/
theorem written_named (name : String) {e : Expr} {s : List Char} (hname : IsName name.toList)
    (h : Written (.phrase .unary e) s) :
    Written (.property name e) (name.toList ++ ([':', ' '] ++ s)) := by
  have hkey := SpellsKey.name hname
  rw [String.ofList_toList] at hkey
  have hcolon : Token [':'] [':', ' '] := ⟨[' '], List.all_eq_true.mp rfl, rfl⟩
  exact .keyed hkey ⟨[], blanks_nil, (List.append_nil _).symm⟩ hcolon h.ternary_of_unary

/-- The object between the braces of the acknowledgement, around the text of a value. -/
theorem standsFor_acknowledgement {v : Value} {text : String} (h : StandsFor v text.toList) :
    StandsFor
      (.obj (Dictionary.ofList
        [("status", .str "success"), ("message", .str "API initialized"), ("params", v)]))
      ("\x7b status: 'success', message: 'API initialized', params: " ++ text ++
        " \x7d").toList := by
  obtain ⟨status, hstatus, hstatusText⟩ := standsFor_literal (Template.spells_quoted "success")
  obtain ⟨message, hmessage, hmessageText⟩ :=
    standsFor_literal (Template.spells_quoted "API initialized")
  obtain ⟨params, hparams, hparamsText⟩ := h
  have hblank : Blanks [' '] := List.all_eq_true.mp rfl
  have hopen : Token ['\x7b'] ['\x7b', ' '] := ⟨[' '], hblank, rfl⟩
  have hcomma : Token [','] [',', ' '] := ⟨[' '], hblank, rfl⟩
  -- The blank before the closing brace belongs to the text of the value.
  have hfirst := written_named "status" ⟨'s', _, rfl, rfl, List.all_eq_true.mp rfl⟩
    (hstatusText [] blanks_nil)
  have hsecond := written_named "message" ⟨'m', _, rfl, rfl, List.all_eq_true.mp rfl⟩
    (hmessageText [] blanks_nil)
  have hthird := written_named "params" ⟨'p', _, rfl, rfl, List.all_eq_true.mp rfl⟩
    (hparamsText [' '] hblank)
  have hmembers := Written.members
    (.moreProperties hfirst hcomma (.moreProperties hsecond hcomma (.oneProperty hthird)))
    (.inl rfl)
  have hproperties : List.Forall₂ Expr.ConstantProperty
      [("status", .none, status), ("message", .none, message), ("params", .none, params)]
      [("status", .str "success"), ("message", .str "API initialized"), ("params", v)] :=
    .cons ⟨rfl, hstatus⟩ (.cons ⟨rfl, hmessage⟩ (.cons ⟨rfl, hparams⟩ .nil))
  refine standsFor_of_primary (Expr.constant_object hproperties .none) fun blanks hblanks => ?_
  have hobject := Written.object hopen hmembers ⟨blanks, hblanks, rfl⟩
  simpa [Template.quoted, Template.escapeQuoted] using hobject

/-- The acknowledgement of settings is the object, wherever it is rendered. -/
theorem render_acknowledgement {config : ApiConfig} (hparams : (givenParams config).WellFormed)
    (hfinite : (givenParams config).FiniteNumbers) (host : Host) (scope : Bindings)
    (site : Site) :
    Template.render host scope site (acknowledgement config) =
      { value := acknowledged config } := by
  obtain ⟨tree, htree, hwritten⟩ := standsFor_acknowledgement (standsFor_compress hparams hfinite)
  -- The expression of the template has a blank at either end.
  have hblank : Blanks [' '] := List.all_eq_true.mp rfl
  have hsource : SourceOf tree (" " ++
      ("\x7b status: 'success', message: 'API initialized', params: " ++
        (givenParams config).compress ++ " \x7d") ++ " ").toList := by
    refine ⟨[' '], _, hblank, (hwritten [' '] hblank).ternary_of_unary, ?_⟩
    simp
  obtain ⟨e, hparse, rfl⟩ := parse_of_sourceOf hsource
  exact Template.render_constant (Template.expression?_ofExpression _) hparse htree.of_bare host
    scope site

end Builtin

namespace Runner

variable {r : Runner}

/-- A step that gives settings changes the catalog and yields the object. -/
theorem dispatch_initApi_eq
    (hhandler : Dictionary.get? r.registry.handlers Action.initApiKind = some Builtin.initApi)
    {config : ApiConfig} (hparams : (Builtin.givenParams config).WellFormed)
    (hfinite : (Builtin.givenParams config).FiniteNumbers) (output : Option String)
    (context : Context) :
    r.dispatch ⟨.initApi config, output⟩ context =
      .configure config (.invoke [] (pure (Builtin.acknowledged config))) := by
  rw [@dispatch_of_get? r ⟨.initApi config, output⟩ _ hhandler]
  simp only [Builtin.initApi, Context.render,
    Builtin.render_acknowledgement hparams hfinite, Job.ofRendering, List.foldr_nil]

/-- The acknowledgement of settings is rendered without calls and reports, and a step that gives
settings yields its value: an object of the status, a message and the default parameters as they
are given, or of an empty object for them. Beyond the change of the catalog it reports nothing. -/
theorem dispatch_initApi_acknowledges
    (hhandler : Dictionary.get? r.registry.handlers Action.initApiKind = some Builtin.initApi)
    {config : ApiConfig} (hparams : (Builtin.givenParams config).WellFormed)
    (hfinite : (Builtin.givenParams config).FiniteNumbers) (output : Option String)
    (context : Context) (c : Catalog) :
    Context.empty.render (Builtin.acknowledgement config) =
        { value := Builtin.acknowledged config } ∧
      (r.dispatch ⟨.initApi config, output⟩ context).run c =
        { result := .ok (Builtin.acknowledged config), catalog := c.configure config,
          events := [(c.configure config).initializedEvent] } := by
  refine ⟨Builtin.render_acknowledgement hparams hfinite _ _ _, ?_⟩
  rw [dispatch_initApi_eq hhandler hparams hfinite]
  rfl

/-- Settings with a control character, an accent and both characters that JSON escapes in a text,
with numbers below zero inside an array, and with a name that is not in ASCII. -/
def nestedConfig : ApiConfig where
  defaultParams := some
    [("note", .str "a\u0001b\u00e9\"\\\n"),
     ("retry", .obj
       [("limits", .arr [.num (.int (-3)), .num (.float (.ofRatio true 3 2)), .null])]),
     ("\u00fcber \u2603", .bool true)]

theorem dispatch_initApi_acknowledges_nested :
    (Builtin.givenParams nestedConfig).WellFormed ∧
      (Builtin.givenParams nestedConfig).FiniteNumbers ∧
      Context.empty.render (Builtin.acknowledgement nestedConfig) =
        { value := Builtin.acknowledged nestedConfig } ∧
      ((⟨Builtin.registry, "temp"⟩ : Runner).dispatch ⟨.initApi nestedConfig, none⟩ .empty).run {} =
        { result := .ok (Builtin.acknowledged nestedConfig),
          catalog := ({} : Catalog).configure nestedConfig,
          events := [(({} : Catalog).configure nestedConfig).initializedEvent] } := by
  have hhandler : Dictionary.get? Builtin.registry.handlers Action.initApiKind =
      some Builtin.initApi := by rw [Builtin.get?_registry, if_pos rfl]
  have hparams : (Builtin.givenParams nestedConfig).WellFormed := by
    refine .obj (by decide) ?_
    simp only [nestedConfig, Option.getD_some, List.forall_mem_cons]
    refine ⟨.str _, .obj (by decide) ?_, .bool _, nofun⟩
    simp only [List.forall_mem_cons]
    refine ⟨.arr ?_, nofun⟩
    simp only [List.forall_mem_cons]
    exact ⟨.num _, .num _, .null, nofun⟩
  have hthreeHalves : (Number.ofRatio true 3 2).isFinite = true := by decide +kernel
  have hfinite : (Builtin.givenParams nestedConfig).FiniteNumbers := by
    simp [Builtin.givenParams, nestedConfig, hthreeHalves]
  exact ⟨hparams, hfinite,
    dispatch_initApi_acknowledges hhandler hparams hfinite none .empty {}⟩

end Runner

end TemplateFlow
