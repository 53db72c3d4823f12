import TemplateFlow.Evaluation
import TemplateFlow.Proofs.Dictionary
import TemplateFlow.Proofs.Expr.Unknown

/-!
# Validated expressions have no unknown names

Validation looks at the whole of an expression, evaluation only at the parts that values lead it to.
Both find the same names, so an expression in which validation finds every name bound never fails
for want of one. It can fail in two ways only, on a property of `null` or `undefined` and on a call
of something that is no function, unless a function that it calls fails (`settles_evalChain`).

Functions can be handed on by other functions, so what is asked of them is asked of a set
(`Host.Reliable`): a function of the set, called with values that hold functions of the set only,
never fails and returns such a value. Evaluation then stays among such values (`Value.Within`).
-/

namespace TemplateFlow

/-! ## Functions in values -/

/-- A function occurs in a value, at any depth. -/
inductive Value.Holds : Value → Callable → Prop where
  | func {c : Callable} {trailing : List Value} : Holds (.func c trailing) c
  | trailing {c d : Callable} {trailing : List Value} {v : Value} : v ∈ trailing → Holds v c →
      Holds (.func d trailing) c
  | item {c : Callable} {items : List Value} {v : Value} : v ∈ items → Holds v c →
      Holds (.list items) c
  | field {c : Callable} {fields : Bindings} {k : String} {v : Value} : (k, v) ∈ fields →
      Holds v c → Holds (.obj fields) c
  | resolved {c : Callable} {task : Option Site} {v : Value} : Holds v c →
      Holds (.resolved task v) c

/-- Every function in a value is of a set. -/
def Value.Within (good : Callable → Prop) (v : Value) : Prop := ∀ c, v.Holds c → good c

/-- The functions of a set never fail on values within the set, and return values within it. -/
def Host.Reliable (host : Host) (good : Callable → Prop) : Prop :=
  ∀ (c : Callable) (site : Site) (args : List Value), good c → (∀ a ∈ args, a.Within good) →
    ∃ v, (c.invoke host site args).result = .ok v ∧ v.Within good

/-- The functions of the host are reliable, and the bindings hold no others. -/
structure ReliableScope (host : Host) (env : Bindings) (good : Callable → Prop) : Prop where
  host : host.Reliable good
  bindings : ∀ name v, Dictionary.get? env name = some v → v.Within good

/-- The errors that an expression makes by itself. -/
def EvalError.Harmless : EvalError → Prop
  | .nullishBase _ _ => True
  | .notCallable _ => True
  | .raised _ _ => False

/-- An evaluation that yields a value with a property, or fails with an error of the expression's
own. -/
def Eval.Settles {α : Type} (e : Eval α) (P : α → Prop) : Prop :=
  match e.result with
  | .ok a => P a
  | .error err => err.Harmless

namespace Eval

variable {α β : Type}

/-- A value by itself has its properties. -/
theorem Settles.pure {P : α → Prop} {a : α} (h : P a) : (Pure.pure a : Eval α).Settles P := h

/-- A value has every weaker property as well. -/
theorem Settles.mono {e : Eval α} {P Q : α → Prop} (he : e.Settles P) (h : ∀ a, P a → Q a) :
    e.Settles Q := by
  unfold Settles at he ⊢
  split at he
  · exact h _ he
  · exact he

/-- What the first part of a computation yields is what the second part may rely on. -/
theorem Settles.bind {e : Eval α} {f : α → Eval β} {P : α → Prop} {Q : β → Prop}
    (he : e.Settles P) (hf : ∀ a, P a → (f a).Settles Q) : (e >>= f).Settles Q := by
  change (Eval.bind e f).Settles Q
  unfold Eval.bind
  unfold Settles at he
  split at he
  · rename_i a ha
    rw [ha]
    exact hf a he
  · rename_i err herr
    rw [herr]
    exact he

/-- A computation whose value is changed settles if the changed value is as wanted. -/
theorem Settles.map {e : Eval α} {f : α → β} {P : β → Prop} (h : e.Settles fun a => P (f a)) :
    (f <$> e).Settles P :=
  h.bind fun _ ha => Settles.pure ha

end Eval

namespace Value

variable {good : Callable → Prop}

/-! ## Values that hold functions of a set only -/

/-- The functions in a list are those in its items. -/
theorem within_list {items : List Value} :
    (Value.list items).Within good ↔ ∀ v ∈ items, v.Within good := by
  constructor
  · exact fun h v hv c hc => h c (.item hv hc)
  · rintro h c ⟨⟩
    rename_i v hv hc
    exact h v hv c hc

/-- The functions in an object are those in its fields. -/
theorem within_obj {fields : Bindings} :
    (Value.obj fields).Within good ↔ ∀ x ∈ fields, x.2.Within good := by
  constructor
  · exact fun h x hx c hc => h c (.field hx hc)
  · rintro h c ⟨⟩
    rename_i k v hv hc
    exact h (k, v) hv c hc

/-- The functions in a function are itself and those in the arguments that it carries. -/
theorem within_func {c : Callable} {trailing : List Value} :
    (Value.func c trailing).Within good ↔ good c ∧ ∀ v ∈ trailing, v.Within good := by
  constructor
  · exact fun h => ⟨h c .func, fun v hv d hd => h d (.trailing hv hd)⟩
  · rintro ⟨hc, htrailing⟩ d hd
    cases hd with
    | func => exact hc
    | trailing hv hd => exact htrailing _ hv d hd

/-- Literals hold no functions. -/
theorem within_toValue (v : Literal) : v.toValue.Within good := by
  cases v <;> exact fun _ h => nomatch h

/-- The operators make new values without functions. -/
theorem within_unary (op : UnaryOp) (a : Value) : (op.apply a).Within good := by
  cases op <;> exact fun _ h => nomatch h

/-- Nor do the operators with two operands keep a function. -/
theorem within_binary (op : BinaryOp) (a b : Value) : (op.apply a b).Within good := by
  cases op with
  | add =>
    rw [BinaryOp.apply, Value.add]
    split <;> exact fun _ h => nomatch h
  | _ => exact fun _ h => nomatch h

/-- The properties of a text are numbers and texts. -/
theorem within_textProperty (s name : String) : (textProperty s name).Within good := by
  rw [textProperty]
  split
  · exact fun _ h => nomatch h
  · split <;> exact fun _ h => nomatch h

/-- The properties of a list are its length and its items. -/
theorem within_listProperty {items : List Value} (h : ∀ v ∈ items, v.Within good)
    (name : String) : (listProperty items name).Within good := by
  rw [listProperty]
  split
  · exact fun _ h => nomatch h
  · cases hitem : (placeOf? name).bind (items[·]?) with
    | none => exact fun _ h => nomatch h
    | some v =>
      obtain ⟨i, -, hi⟩ := Option.bind_eq_some_iff.mp hitem
      exact h v (List.mem_of_getElem? hi)

/-- Reading a property yields a part of the value, or fails on `null` and `undefined`. -/
theorem settles_property {base : Value} (h : base.Within good) (name : String) :
    (Eval.ofExcept (base.property name)).Settles fun v => v.Within good := by
  cases base with
  | undefined => trivial
  | null => trivial
  | obj fields =>
    change ((Dictionary.get? fields name).getD .undefined).Within good
    cases hfield : Dictionary.get? fields name with
    | none => exact fun _ h => nomatch h
    | some v => exact within_obj.mp h (name, v) (Dictionary.mem_of_get? hfield)
  | list items => exact within_listProperty (within_list.mp h) name
  | str s => exact within_textProperty s name
  -- Other values have no properties, which is no failure.
  | _ => exact fun _ h => nomatch h

/-- A call of a value fails only if the value is no function. -/
theorem settles_call {host : Host} (hhost : host.Reliable good) {target : Value}
    (htarget : target.Within good) {args : List Value} (hargs : ∀ a ∈ args, a.Within good)
    (site : Site) (callee : String) :
    (target.call host site callee args).Settles fun v => v.Within good := by
  cases target with
  | func c trailing =>
    -- A function is called with the arguments of the call and then its own.
    obtain ⟨hc, htrailing⟩ := within_func.mp htarget
    obtain ⟨v, hv, hwithin⟩ := hhost c site (args ++ trailing) hc fun a ha => by
      rcases List.mem_append.mp ha with ha | ha
      · exact hargs a ha
      · exact htrailing a ha
    change (c.invoke host site (args ++ trailing)).Settles fun v => v.Within good
    rw [Eval.Settles, hv]
    exact hwithin
  | _ => trivial

end Value

namespace Expr

variable {host : Host} {good : Callable → Prop} {env : Bindings}

/-! ## Evaluation -/

/-- The value of a chain, if it has not ended early, holds functions of the set only. -/
def WithinChain (good : Callable → Prop) (outcome : Option Value) : Prop :=
  ∀ v ∈ outcome, v.Within good

/-- A chain that has ended early is undefined, which holds no function. -/
theorem within_settleChain {outcome : Option Value} (h : WithinChain good outcome) :
    (settleChain outcome).Within good := by
  cases outcome with
  | none => exact fun _ h => nomatch h
  | some v => exact h v rfl

/-- A chain that has not ended early has the value that it has come to. -/
theorem withinChain_some {v : Value} (h : v.Within good) : WithinChain good (some v) := by
  rintro w ⟨⟩
  exact h

/-- The operand that an expression comes down to is a chain of its own. -/
theorem settles_branch {e : Eval (Option Value)} (h : e.Settles (WithinChain good)) :
    (do return some (settleChain (← e))).Settles (WithinChain good) :=
  h.bind fun _ ho => Eval.Settles.pure (withinChain_some (within_settleChain ho))

/-- A link is followed only if the chain has not ended early, and then its own value counts. -/
theorem settles_followLink {base : Option Value} (hbase : WithinChain good base) (q : Bool)
    {next : Value → Eval Value}
    (hnext : ∀ v, v.Within good → (next v).Settles fun w => w.Within good) :
    (followLink base q next).Settles (WithinChain good) := by
  cases base with
  | none => exact Eval.Settles.pure fun _ h => nomatch h
  | some v =>
    rw [followLink]
    split
    · exact Eval.Settles.pure fun _ h => nomatch h
    · exact .map ((hnext v (hbase v rfl)).mono fun _ => withinChain_some)

mutual

/-- An expression whose identifiers are all bound never fails for want of a name, whatever parts of
it are evaluated. -/
theorem settles_evalChain (hscope : ReliableScope host env good) (e : Expr)
    (hbound : ∀ x ∈ e.identifiers, (Dictionary.get? env x.1).isSome) (site : Site) :
    (evalChain host env site e).Settles (WithinChain good) := by
  match e with
  | .literal v _ => exact Eval.Settles.pure (withinChain_some (Value.within_toValue v))
  | .list es _ =>
    exact .map ((settles_evalAll hscope es hbound site 0).mono fun vs hvs =>
      withinChain_some (Value.within_list.mpr hvs))
  | .object ps _ =>
    -- Properties are put over the ones before them, of which there are none at first.
    refine .map ((settles_evalProperties hscope ps hbound site 0 [] ?_).mono fun fs hfs =>
      withinChain_some (Value.within_obj.mpr hfs))
    exact fun _ h => nomatch h
  | .ident name s =>
    -- The only place where a name is looked up.
    obtain ⟨v, hv⟩ := Option.isSome_iff_exists.mp (hbound (name, s) (by simp [identifiers]))
    rw [evalChain, hv]
    exact Eval.Settles.pure (withinChain_some (hscope.bindings name v hv))
  | .member o p _ q _ =>
    exact (settles_evalChain hscope o hbound _).bind fun base hbase =>
      settles_followLink hbase q fun v hv => Value.settles_property hv p
  | .index o i q _ =>
    -- The key is evaluated only if the object is there, but its names are bound in any case.
    refine (settles_evalChain hscope o (fun x hx => hbound x ?_) _).bind fun base hbase =>
      settles_followLink hbase q fun v hv =>
      (settles_evalChain hscope i (fun x hx => hbound x ?_) _).bind fun key _ =>
      Value.settles_property hv _
    · exact List.mem_append_left _ hx
    · exact List.mem_append_right _ hx
  | .call f as q _ =>
    refine (settles_evalChain hscope f (fun x hx => hbound x ?_) _).bind fun target htarget =>
      settles_followLink htarget q fun v hv =>
      (settles_evalAll hscope as (fun x hx => hbound x ?_) site 1).bind fun args hargs =>
      Value.settles_call hscope.host hv hargs site _
    · exact List.mem_append_left _ hx
    · exact List.mem_append_right _ hx
  | .unary op e _ =>
    exact (settles_evalChain hscope e hbound _).bind fun v _ =>
      Eval.Settles.pure (withinChain_some (Value.within_unary op _))
  | .binary op l r _ =>
    refine (settles_evalChain hscope l (fun x hx => hbound x ?_) _).bind fun a _ =>
      (settles_evalChain hscope r (fun x hx => hbound x ?_) _).bind fun b _ =>
      Eval.Settles.pure (withinChain_some (Value.within_binary op _ _))
    · exact List.mem_append_left _ hx
    · exact List.mem_append_right _ hx
  | .logical op l r _ =>
    refine (settles_evalChain hscope l (fun x hx => hbound x ?_) _).bind fun a ha => ?_
    · exact List.mem_append_left _ hx
    · -- The left operand decides whether it is the value itself.
      dsimp only
      split
      · exact Eval.Settles.pure (withinChain_some (within_settleChain ha))
      · refine settles_branch (settles_evalChain hscope r (fun x hx => hbound x ?_) _)
        exact List.mem_append_right _ hx
  | .ternary c t e _ =>
    refine (settles_evalChain hscope c (fun x hx => hbound x ?_) _).bind fun v _ => ?_
    · exact List.mem_append_left _ (List.mem_append_left _ hx)
    · -- Only one of the branches is evaluated.
      dsimp only
      split
      · refine settles_branch (settles_evalChain hscope t (fun x hx => hbound x ?_) _)
        exact List.mem_append_left _ (List.mem_append_right _ hx)
      · refine settles_branch (settles_evalChain hscope e (fun x hx => hbound x ?_) _)
        exact List.mem_append_right _ hx

/-- The same for the items of a list or the arguments of a call. -/
theorem settles_evalAll (hscope : ReliableScope host env good) (es : List Expr)
    (hbound : ∀ x ∈ identifiersAll es, (Dictionary.get? env x.1).isSome) (site : Site)
    (index : Nat) :
    (evalAll host env site index es).Settles fun vs => ∀ v ∈ vs, v.Within good := by
  match es with
  | [] => exact Eval.Settles.pure fun _ h => nomatch h
  | e :: es =>
    refine (settles_evalChain hscope e (fun x hx => hbound x ?_) _).bind fun v hv =>
      (settles_evalAll hscope es (fun x hx => hbound x ?_) site (index + 1)).bind fun vs hvs =>
      Eval.Settles.pure (List.forall_mem_cons.mpr ⟨within_settleChain hv, hvs⟩)
    · exact List.mem_append_left _ hx
    · exact List.mem_append_right _ hx

/-- The same for the properties of an object, which are put into what is there already. -/
theorem settles_evalProperties (hscope : ReliableScope host env good)
    (ps : List (String × Span × Expr))
    (hbound : ∀ x ∈ identifiersProperties ps, (Dictionary.get? env x.1).isSome) (site : Site)
    (index : Nat) (fields : Bindings) (hfields : ∀ x ∈ fields, x.2.Within good) :
    (evalProperties host env site index fields ps).Settles fun fs =>
      ∀ x ∈ fs, x.2.Within good := by
  match ps with
  | [] => exact Eval.Settles.pure hfields
  | (k, _, e) :: ps =>
    refine (settles_evalChain hscope e (fun x hx => hbound x ?_) _).bind fun v hv =>
      settles_evalProperties hscope ps (fun x hx => hbound x ?_) site (index + 1) _ fun x hx => ?_
    · exact List.mem_append_left _ hx
    · exact List.mem_append_right _ hx
    · rcases Dictionary.mem_insert hx with rfl | hx
      · exact within_settleChain hv
      · exact hfields x hx

end

end Expr

namespace Validation

/-- Each name has a first occurrence, so without occurrences there are no names. -/
theorem firstOccurrences_eq_nil {names : List String} (h : firstOccurrences names = []) :
    names = [] := by
  cases names with
  | nil => rfl
  | cons name names => cases h

/-- If no name is reported as unknown, every identifier of the expression is bound. -/
theorem isSome_get?_of_unknownIdentifiers_eq_nil {env : Bindings} {e : Expr}
    (h : unknownIdentifiers (validate (Dictionary.keys env) e) = []) :
    ∀ x ∈ e.identifiers, (Dictionary.get? env x.1).isSome := by
  intro x hx
  rw [unknownIdentifiers_validate] at h
  have hnone := List.map_eq_nil_iff.mp (firstOccurrences_eq_nil h)
  rw [unboundNodes, ← Expr.identifiers_eq_filterMap, List.filter_eq_nil_iff] at hnone
  have hmem : x.1 ∈ Dictionary.keys env := by simpa using hnone x hx
  exact Dictionary.isSome_get?_of_mem_keys hmem

/-- The findings on unbound names are the identifier nodes of the expression whose name is not
bound, from left to right, and their names are reported once each in the order of first appearance.
If the bound names are those of bindings with reliable functions and none is reported, an evaluation
yields a value or fails on a property of `null` or `undefined` or on a call of something that is no
function, and never on a name that is not bound. -/
theorem validate_unbound_exact (bound : List String) (e : Expr) :
    (validate bound e).filter (·.rule = .undefinedIdentifier) =
        (unboundNodes bound e).map (fun x => ⟨.undefinedIdentifier, x.2, some x.1⟩) ∧
      FirstAppearances ((unboundNodes bound e).map Prod.fst)
        (unknownIdentifiers (validate bound e)) ∧
      ∀ (host : Host) (env : Bindings) (good : Callable → Prop) (site : Site),
        ReliableScope host env good → bound = Dictionary.keys env →
        unknownIdentifiers (validate bound e) = [] →
        ((∃ v, (e.eval host env site).result = .ok v) ∨
          (∃ property isNull,
            (e.eval host env site).result = .error (.nullishBase property isNull)) ∨
          ∃ callee, (e.eval host env site).result = .error (.notCallable callee)) ∧
        ∀ name, (e.eval host env site).result ≠ .error (.unbound name) := by
  refine ⟨filter_validate bound e, ?_, fun host env good site hscope hbound hnone => ?_⟩
  · rw [unknownIdentifiers_validate]
    exact firstAppearances_firstOccurrences _
  · subst hbound
    have hsettles : (e.eval host env site).Settles fun v => v.Within good :=
      .map ((Expr.settles_evalChain hscope e (isSome_get?_of_unknownIdentifiers_eq_nil hnone)
        site).mono fun _ => Expr.within_settleChain)
    unfold Eval.Settles at hsettles
    split at hsettles
    · rename_i v hv
      rw [hv]
      exact ⟨.inl ⟨v, rfl⟩, fun _ h => nomatch h⟩
    · rename_i err herr
      rw [herr]
      -- An unbound name and an error of a function are not among the errors of its own.
      cases err with
      | nullishBase property isNull =>
        exact ⟨.inr (.inl ⟨property, isNull, rfl⟩), fun _ h => nomatch h⟩
      | notCallable callee => exact ⟨.inr (.inr ⟨callee, rfl⟩), fun _ h => nomatch h⟩
      | raised name message => exact hsettles.elim

/-- A function that answers with its arguments, called with itself. -/
theorem eval_call_ne_unbound :
    let f : Value := .func (.host [] "f" .null) []
    let e : Expr := .call (.ident "f" .none) [.ident "f" .none] false .none
    ((∃ v, (e.eval .none [("f", f)] []).result = .ok v) ∨
      (∃ property isNull,
        (e.eval .none [("f", f)] []).result = .error (.nullishBase property isNull)) ∨
      ∃ callee, (e.eval .none [("f", f)] []).result = .error (.notCallable callee)) ∧
    ∀ name, (e.eval .none [("f", f)] []).result ≠ .error (.unbound name) := by
  intro f e
  refine (validate_unbound_exact ["f"] e).2.2 .none [("f", f)]
    (fun c => ∃ site name description, c = .host site name description) [] ⟨?_, ?_⟩ rfl rfl
  · rintro c site args ⟨s, name, description, rfl⟩ hargs
    exact ⟨.list args, rfl, Value.within_list.mpr hargs⟩
  · intro name v hv
    rw [Dictionary.get?_cons] at hv
    split at hv
    · cases hv
      exact Value.within_func.mpr ⟨⟨_, _, _, rfl⟩, fun _ h => nomatch h⟩
    · cases hv

end Validation

end TemplateFlow
