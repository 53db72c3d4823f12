import TemplateFlow.Evaluation
import TemplateFlow.Expr.Data
import TemplateFlow.Proofs.Expr.Unknown
import TemplateFlow.Proofs.Json.Decode

/-!
# Expressions written as data and read back

A tree is written node by node, each as an object that names its form, without the spans that are
empty. Reading finds every node by the name of its form, takes an empty span where none is given,
and reads the operands in the same way, so a tree is read back with all its spans. A number that is
not finite is written as `null`, which is no number; trees without such numbers (`FiniteNumbers`)
are read back as themselves.

## Main results

* `Expr.read_toJson_of_children`: a node is read back if its operands are.
* `Expr.read_toJson`: a tree of finite numbers is read back.
* `Expr.ofJson_toJson_eval`: what is read has the value of the tree, in any scope.
-/

namespace TemplateFlow

/-! ## Spans and operators -/

/-- A span is read back from its data. -/
theorem Span.ofJson_toJson (s : Span) : ofJson s.toJson = .ok s := by
  obtain ⟨⟨offset, line, column⟩, ⟨lastOffset, lastLine, lastColumn⟩⟩ := s
  simp only [toJson, Json.ofMembers, ofJson, Fields.of, bind, Except.bind, Fields.read?_ofMembers]
  simp [fieldNames, Fields.check_eq_ok]

/-- A logical operator is read back from its name. -/
@[simp]
theorem LogicalOp.namedValueOfJson_name (op : LogicalOp) :
    namedValueOfJson named (.str op.name) = .ok op := by
  cases op <;> rfl

/-- A binary operator is read back from its name. -/
@[simp]
theorem BinaryOp.namedValueOfJson_name (op : BinaryOp) :
    namedValueOfJson named (.str op.name) = .ok op := by
  cases op <;> rfl

/-- A prefix operator is read back from its name. -/
@[simp]
theorem UnaryOp.namedValueOfJson_name (op : UnaryOp) :
    namedValueOfJson named (.str op.name) = .ok op := by
  cases op <;> rfl

namespace Expr

/-! ## The members of a node -/

/-- What stands in a node for a span: nothing if it is empty. -/
def spanField (s : Span) : Option Json := if s = .none then none else some s.toJson

/-- The member of a span is there unless the span is none. -/
@[simp]
theorem get?_ofList_spanMember (name other : String) (s : Span) :
    Dictionary.get? (Dictionary.ofList (spanMember name s)) other =
      if other = name then spanField s else none := by
  rw [spanMember, spanField]
  split
  · simp
  · rw [Dictionary.get?_ofList_cons, Dictionary.get?_ofList_nil]
    rfl

/-- The member of a span is never what the reading fails on. -/
@[simp]
theorem failure?_spanField (s : Span) :
    Fields.failure? ((spanField s).map Span.ofJson) = none := by
  rw [spanField]
  split
  · rfl
  · rw [Option.map_some, Span.ofJson_toJson]
    rfl

/-- A span that is left out is read as the empty one. -/
@[simp]
theorem orElse_spanField (s : Span) :
    Fields.orElse Span.none ((spanField s).map Span.ofJson) = .ok s := by
  rw [spanField]
  split
  · rename_i h
    rw [h]
    rfl
  · rw [Option.map_some, Span.ofJson_toJson]
    rfl

/-- The fields of an object with the name of a form are those of the form. -/
theorem formAndFields_of_get? {members : Dictionary Json} {form : String} {names : List String}
    (numbered : Bool) (ht : Dictionary.get? members "t" = some (.str form))
    (hform : forms.lookup form = some names) :
    formAndFields numbered (.obj members) = .ok (form, .ofMembers names members) := by
  simp only [formAndFields, ht, formOf, namedValue, hform]
  rfl

/-! ## Lists -/

/-- The data of items is that of each item. -/
theorem toJsonAll_eq_map (es : List Expr) : toJsonAll es = es.map toJson := by
  induction es with
  | nil => rfl
  | cons e es ih => rw [toJsonAll, ih, List.map_cons]

/-- The data of a property. -/
def propertyToJson (p : String × Span × Expr) : Json :=
  .arr [.str p.1, p.2.1.toJson, p.2.2.toJson]

/-- The data of properties is that of each property. -/
theorem toJsonProperties_eq_map (ps : List (String × Span × Expr)) :
    toJsonProperties ps = ps.map propertyToJson := by
  induction ps with
  | nil => rfl
  | cons p ps ih =>
    obtain ⟨k, s, e⟩ := p
    rw [toJsonProperties, ih, List.map_cons]
    rfl

/-- Expressions that are read back one by one are read back as a list. -/
theorem mapM_toJsonAll {es : List Expr} (h : ∀ e ∈ es, Expr.read true e.toJson = .ok e) :
    (toJsonAll es).mapM (Expr.read true) = .ok es := by
  rw [toJsonAll_eq_map]
  exact mapM_map_eq_ok h

/-- Properties are read back, with their keys and spans, if their values are. -/
theorem mapM_toJsonProperties {ps : List (String × Span × Expr)}
    (h : ∀ e ∈ ps.map (·.2.2), Expr.read true e.toJson = .ok e) :
    (toJsonProperties ps).mapM
      (fun item => propertyOfJson item fun part _ => Expr.read true part) = .ok ps := by
  rw [toJsonProperties_eq_map]
  refine mapM_map_eq_ok fun p hp => ?_
  obtain ⟨k, s, e⟩ := p
  simp only [propertyToJson, propertyOfJson, Json.toText, Span.ofJson_toJson,
    h e (List.mem_map_of_mem hp), bind, Except.bind]
  rfl

/-! ## Nodes -/

/-- A number is finite if the node is a number. -/
def HasFiniteNumber : Expr → Prop
  | .literal (.num n) _ => n.isFinite = true
  | _ => True

/-- A literal is read back if it is no number, or a finite one. -/
theorem read_toJson_literal {v : Literal} {s : Span} (hv : (literal v s).HasFiniteNumber)
    (numbered : Bool) : Expr.read numbered (literal v s).toJson = .ok (.literal v s) := by
  cases v
  all_goals
    -- The object has the name of the form, so reading goes on with the fields of that form.
    simp only [toJson, node, Json.ofMembers]
    rw [Expr.read, formAndFields_of_get? numbered (by simp; rfl) rfl]
    simp only [bind, Except.bind, Fields.read?_ofMembers]
  case num n =>
    have hdata : Json.float n = .num (.float n) := if_pos hv
    simp [Fields.check_eq_ok, hdata, Json.toNumber, JsonNumber.toNumber]
  case bool b => simp [Fields.check_eq_ok, Json.toBool]
  case str t => simp [Fields.check_eq_ok, Json.toText]
  case null => simp
  case undefined => simp

/-- A node is read back if its operands are. -/
theorem read_toJson_of_children {e : Expr} (he : e.HasFiniteNumber)
    (h : ∀ c ∈ e.children, Expr.read true c.toJson = .ok c) (numbered : Bool) :
    Expr.read numbered e.toJson = .ok e := by
  cases e
  case literal v s => exact read_toJson_literal he numbered
  -- Every other form is recognised by its name, and then its fields are read one by one.
  all_goals
    simp only [toJson, node, Json.ofMembers]
    rw [Expr.read, formAndFields_of_get? numbered (by simp; rfl) rfl]
    simp only [bind, Except.bind, Fields.read?_ofMembers]
    simp only [children, List.forall_mem_cons] at h
  case list es s =>
    simp [Fields.check_eq_ok, Json.toListWith_arr, mapM_toJsonAll h]
  case object ps s =>
    simp [Fields.check_eq_ok, Json.toListWith_arr, mapM_toJsonProperties h]
  case ident n s => simp [Fields.check_eq_ok, Json.toText]
  case member o p ps q s =>
    obtain ⟨ho, -⟩ := h
    simp [Fields.check_eq_ok, Json.toText, Json.toBool, ho]
  case index o i q s =>
    obtain ⟨ho, hi, -⟩ := h
    simp [Fields.check_eq_ok, Json.toBool, ho, hi]
  case call f as q s =>
    obtain ⟨hf, has⟩ := h
    simp [Fields.check_eq_ok, Json.toBool, Json.toListWith_arr, hf, mapM_toJsonAll has]
  case unary op o s =>
    obtain ⟨ho, -⟩ := h
    simp [Fields.check_eq_ok, ho]
  case binary op l r s =>
    obtain ⟨hl, hr, -⟩ := h
    simp [Fields.check_eq_ok, hl, hr]
  case logical op l r s =>
    obtain ⟨hl, hr, -⟩ := h
    simp [Fields.check_eq_ok, hl, hr]
  case ternary c t e s =>
    obtain ⟨hc, ht, he', -⟩ := h
    simp [Fields.check_eq_ok, hc, ht, he']

/-! ## Trees -/

/-- Every number in the tree is finite. -/
def FiniteNumbers (e : Expr) : Prop := ∀ x ∈ e.subexpressions, x.HasFiniteNumber

/-- What is in a child is in the node. -/
theorem mem_subexpressions_of_mem_children {e c x : Expr} (hc : c ∈ e.children)
    (hx : x ∈ c.subexpressions) : x ∈ e.subexpressions := by
  rw [subexpressions_eq]
  exact List.mem_cons_of_mem _ (List.mem_flatMap.mpr ⟨c, hc, hx⟩)

/-- A tree of finite numbers is read back. -/
theorem read_toJson (e : Expr) (h : e.FiniteNumbers) (numbered : Bool) :
    Expr.read numbered e.toJson = .ok e := by
  induction e using subexpressions.induct generalizing numbered with
  | case1 e ih =>
    have he : e.HasFiniteNumber := h e (by rw [subexpressions_eq]; exact List.mem_cons_self)
    refine read_toJson_of_children he (fun c hc => ?_) numbered
    exact ih ⟨c, hc⟩ (fun x hx => h x (mem_subexpressions_of_mem_children hc hx)) true

/-! ## The data of a node -/

/-- The name of the form of a node. -/
def form : Expr → String
  | .literal (.bool _) _ => "LitBool"
  | .literal (.num _) _ => "LitNum"
  | .literal (.str _) _ => "LitStr"
  | .literal .null _ => "LitNull"
  | .literal .undefined _ => "LitUndefined"
  | .list _ _ => "LitList"
  | .object _ _ => "LitObj"
  | .ident _ _ => "Ident"
  | .member _ _ _ _ _ => "Member"
  | .index _ _ _ _ => "Index"
  | .call _ _ _ _ => "Call"
  | .unary _ _ _ => "Unary"
  | .binary _ _ _ _ => "Binary"
  | .logical _ _ _ _ => "Logical"
  | .ternary _ _ _ _ => "Ternary"

/-- Data that is laid out as that of a node: it names the form, has no span that is empty, and has
the properties of an object as triples. -/
structure LaidOut (e : Expr) (data : Json) : Prop where
  form : data.get? "t" = some (.str e.form)
  span : data.get? "span" = spanField e.span
  propertySpan : ∀ o p ps q s, e = .member o p ps q s →
    data.get? "property_span" = spanField ps
  properties : ∀ ps s, e = .object ps s →
    data.get? "properties" = some (.arr (ps.map propertyToJson))

/-- The data of a node has the members that its kind asks for. -/
theorem laidOut_toJson (e : Expr) : e.LaidOut e.toJson := by
  refine ⟨?_, ?_, ?_, ?_⟩
  · cases e
    case literal v s => cases v <;> simp [toJson, node, Json.ofMembers, Json.get?, form]
    all_goals simp [toJson, node, Json.ofMembers, Json.get?, form]
  · cases e
    case literal v s => cases v <;> simp [toJson, node, Json.ofMembers, Json.get?, span]
    all_goals simp [toJson, node, Json.ofMembers, Json.get?, span]
  · rintro o p ps q s rfl
    simp [toJson, node, Json.ofMembers, Json.get?]
  · rintro ps s rfl
    simp [toJson, node, Json.ofMembers, Json.get?, toJsonProperties_eq_map]

/-! ## Main result -/

/-- A tree is written as an object that names its form and leaves out an empty span, with properties
as triples. If its numbers are finite it is read back from that as it is, spans included, and what
is read has the value of the tree in every scope. -/
theorem ofJson_toJson_eval (e : Expr) (h : e.FiniteNumbers) :
    e.LaidOut e.toJson ∧ ofJson e.toJson = .ok e ∧
      ∀ t, ofJson e.toJson = .ok t → ∀ (host : Host) (env : Bindings) (site : Site),
        t.eval host env site = e.eval host env site := by
  have hread : ofJson e.toJson = .ok e := read_toJson e h false
  refine ⟨laidOut_toJson e, hread, fun t ht host env site => ?_⟩
  rw [hread] at ht
  cases ht
  rfl

/-- The tree of a shorthand property beside an optional call, with spans on the first only, and with
a negative zero among its arguments. -/
def sampleTree : Expr :=
  let name : Span := ⟨⟨1, 0, 1⟩, ⟨2, 0, 2⟩⟩
  .object
    [("a", name, .ident "a" name),
     ("b", .none, .call (.member (.ident "f" .none) "g" .none true .none)
       [.literal (.num (.zero true)) .none, .list [.literal .undefined .none] .none] true .none)]
    ⟨{}, ⟨20, 0, 20⟩⟩

/-- A tree that comes back from its data as it is. -/
theorem ofJson_toJson_eval_sampleTree :
    sampleTree.FiniteNumbers ∧ ofJson sampleTree.toJson = .ok sampleTree := by
  have h : sampleTree.FiniteNumbers := by
    simp [FiniteNumbers, sampleTree, subexpressions_eq, children, HasFiniteNumber, Number.zero,
      Number.isFinite]
  exact ⟨h, (ofJson_toJson_eval sampleTree h).2.1⟩

end Expr

end TemplateFlow
