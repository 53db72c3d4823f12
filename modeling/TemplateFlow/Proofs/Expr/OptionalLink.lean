import TemplateFlow.Evaluation

/-!
# Optional links

An optional link differs from a plain one on `null` and `undefined` only. There a plain link fails
whatever comes of its index or its arguments, and an optional one ends its chain. So an expression
that has a value when all of its links are made plain (`Expr.plain`) has that value as it stands,
and makes the same calls for it: nowhere on the way to the value has a link been tried on `null` or
`undefined`.

Where an optional link does end its chain, the rest of the chain is passed over. A chain is given by
what it starts from and the list of its links (`Expr.Link`, `Expr.followedBy`), so the rest can be
any list of links. What a chain of `n` links starts from is evaluated in the place that is `n`
operands further in (`Expr.innermost`).

## Main definitions

* `Eval.LessDefined`: one evaluation is another wherever it yields a value.
* `Expr.plain`: the expression without optional links.
* `Expr.followedBy`: a chain with more links.

## Main results

* `Expr.lessDefined_evalChain_plain`: to make links plain can only take values away.
* `Expr.evalChain_followedBy_of_ended`: a chain that has ended makes no more calls.
* `Expr.eval_optionalLinks`: both halves of what optional links do.
-/

namespace TemplateFlow

/-! ## Evaluations that yield less -/

namespace Eval

variable {α β : Type}

/-- Wherever the first evaluation yields a value, the second is the same: it makes the same calls
and yields the same value. -/
def LessDefined (e e' : Eval α) : Prop := ∀ v, e.result = .ok v → e' = e

/-- The evaluation ends in an error. -/
def Fails (e : Eval α) : Prop := ∃ err, e.result = .error err

/-- Behind a value the computation goes on with it, and its calls come first. -/
theorem bind_of_ok {e : Eval α} {a : α} (h : e.result = .ok a) (f : α → Eval β) :
    e >>= f = ⟨e.calls ++ (f a).calls, (f a).result⟩ := by
  show Eval.bind e f = _
  rw [Eval.bind, h]

/-- Behind an error nothing is computed any more, but the calls before it have been made. -/
theorem bind_of_error {e : Eval α} {err : EvalError} (h : e.result = .error err)
    (f : α → Eval β) : e >>= f = ⟨e.calls, .error err⟩ := by
  show Eval.bind e f = _
  rw [Eval.bind, h]

theorem map_eq (f : α → β) (e : Eval α) : f <$> e = ⟨e.calls, e.result.map f⟩ := by
  show (e >>= fun a => pure (f a)) = _
  cases he : e.result with
  | error err => rw [bind_of_error he]; rfl
  | ok a => rw [bind_of_ok he]; simp [pure, Eval.pure, Except.map]

/-- An evaluation in two parts fails if the second part does, whatever the first part yields. -/
theorem Fails.bind (e : Eval α) {f : α → Eval β} (h : ∀ a, (f a).Fails) : (e >>= f).Fails := by
  cases he : e.result with
  | error err => exact ⟨err, by rw [bind_of_error he]⟩
  | ok a =>
    obtain ⟨err, herr⟩ := h a
    exact ⟨err, by rw [bind_of_ok he, herr]⟩

/-- What fails yields nothing that could be changed. -/
theorem Fails.map (f : α → β) {e : Eval α} (h : e.Fails) : (f <$> e).Fails := by
  obtain ⟨err, herr⟩ := h
  exact ⟨err, by rw [map_eq, herr]; rfl⟩

theorem LessDefined.refl (e : Eval α) : e.LessDefined e := fun _ _ => rfl

/-- A failure is less defined than anything. -/
theorem Fails.lessDefined {e : Eval α} (h : e.Fails) (e' : Eval α) : e.LessDefined e' := by
  obtain ⟨err, herr⟩ := h
  intro v hv
  rw [herr] at hv
  cases hv

/-- Parts that yield less make up a sequence that yields less. -/
theorem LessDefined.bind {e e' : Eval α} {f f' : α → Eval β} (he : e.LessDefined e')
    (hf : ∀ a, (f a).LessDefined (f' a)) : (e >>= f).LessDefined (e' >>= f') := by
  intro v hv
  cases hresult : e.result with
  | error err =>
    rw [bind_of_error hresult] at hv
    cases hv
  | ok a =>
    rw [bind_of_ok hresult] at hv
    rw [he a hresult, bind_of_ok hresult, bind_of_ok hresult, hf a v hv]

theorem LessDefined.map {e e' : Eval α} (f : α → β) (h : e.LessDefined e') :
    (f <$> e).LessDefined (f <$> e') :=
  h.bind fun _ => .refl _

end Eval

open Eval

namespace Value

/-! ## Plain links on `null` and `undefined` -/

variable {v : Value}

/-- A property of `null` or `undefined` can not be read. -/
theorem fails_property (h : v.isNullish = true) (name : String) :
    (ofExcept (v.property name)).Fails := by
  cases v with
  | undefined => exact ⟨_, rfl⟩
  | null => exact ⟨_, rfl⟩
  | _ => cases h

/-- Neither `null` nor `undefined` can be called. -/
theorem fails_call (h : v.isNullish = true) (host : Host) (site : Site) (callee : String)
    (args : List Value) : (v.call host site callee args).Fails := by
  cases v with
  | undefined => exact ⟨_, rfl⟩
  | null => exact ⟨_, rfl⟩
  | _ => cases h

end Value

namespace Expr

/-! ## Making links plain -/

mutual

/-- The expression with a plain link of the same kind in place of every optional one. -/
def plain : Expr → Expr
  | .literal v s => .literal v s
  | .list es s => .list (plainAll es) s
  | .object ps s => .object (plainProperties ps) s
  | .ident n s => .ident n s
  | .member o p ps _ s => .member (plain o) p ps false s
  | .index o i _ s => .index (plain o) (plain i) false s
  | .call f as _ s => .call (plain f) (plainAll as) false s
  | .unary op e s => .unary op (plain e) s
  | .binary op l r s => .binary op (plain l) (plain r) s
  | .logical op l r s => .logical op (plain l) (plain r) s
  | .ternary c t e s => .ternary (plain c) (plain t) (plain e) s

/-- Every expression of a list with its links made plain. -/
def plainAll : List Expr → List Expr
  | [] => []
  | e :: es => plain e :: plainAll es

/-- The properties of an object with all links made plain. -/
def plainProperties : List (String × Span × Expr) → List (String × Span × Expr)
  | [] => []
  | (k, s, e) :: ps => (k, s, plain e) :: plainProperties ps

end

/-- The name under which a callee is reported does not tell optional links from others. -/
@[simp]
theorem calleeText_plain (e : Expr) : e.plain.calleeText = e.calleeText := by
  match e with
  | .member o _ _ _ _ => rw [plain, calleeText, calleeText, calleeText_plain o]
  | .index o _ _ _ => rw [plain, calleeText, calleeText, calleeText_plain o]
  | .call f _ _ _ => rw [plain, calleeText, calleeText, calleeText_plain f]
  | .literal _ _ | .list _ _ | .object _ _ | .ident _ _ | .unary _ _ _ | .binary _ _ _ _
  | .logical _ _ _ _ | .ternary _ _ _ _ => rfl

/-- A plain link is less defined than an optional one if it fails where the optional one ends the
chain. -/
theorem lessDefined_followLink {next next' : Value → Eval Value} (base : Option Value)
    (optional : Bool) (hnext : ∀ v, (next v).LessDefined (next' v))
    (hnullish : ∀ v, v.isNullish = true → (next v).Fails) :
    (followLink base false next).LessDefined (followLink base optional next') := by
  cases base with
  | none => exact .refl _
  | some v =>
    by_cases hends : (optional && v.isNullish) = true
    · rw [Bool.and_eq_true] at hends
      exact ((hnullish v hends.2).map some).lessDefined _
    · rw [followLink, followLink, if_neg hends]
      exact (hnext v).map some

section

variable {host : Host} {env : Bindings}

mutual

/-- What an expression yields with its links made plain it yields as it stands. -/
theorem lessDefined_evalChain_plain (e : Expr) (site : Site) :
    (evalChain host env site e.plain).LessDefined (evalChain host env site e) := by
  match e with
  | .literal _ _ => exact .refl _
  | .list es _ => exact (lessDefined_evalAll_plain es site 0).map _
  | .object ps _ => exact (lessDefined_evalProperties_plain ps site 0 []).map _
  | .ident _ _ => exact .refl _
  | .member o p _ q _ =>
    refine (lessDefined_evalChain_plain o _).bind fun base => ?_
    exact lessDefined_followLink base q (fun _ => .refl _) fun v hv => v.fails_property hv p
  | .index o i q _ =>
    refine (lessDefined_evalChain_plain o _).bind fun base => ?_
    refine lessDefined_followLink base q (fun v => ?_) fun v hv => ?_
    · exact (lessDefined_evalChain_plain i _).bind fun key => .refl _
    · -- The index may have a value, but nothing is there to be indexed.
      exact Fails.bind _ fun key => v.fails_property hv _
  | .call f as q _ =>
    refine (lessDefined_evalChain_plain f _).bind fun base => ?_
    rw [calleeText_plain]
    refine lessDefined_followLink base q (fun v => ?_) fun v hv => ?_
    · exact (lessDefined_evalAll_plain as site 1).bind fun args => .refl _
    · exact Fails.bind _ fun args => v.fails_call hv host site _ args
  | .unary _ e _ => exact (lessDefined_evalChain_plain e _).bind fun _ => .refl _
  | .binary _ l r _ =>
    refine (lessDefined_evalChain_plain l _).bind fun _ => ?_
    exact (lessDefined_evalChain_plain r _).bind fun _ => .refl _
  | .logical op l r _ =>
    refine (lessDefined_evalChain_plain l _).bind fun left => ?_
    -- The left operand decides in both evaluations whether the right one is evaluated.
    by_cases hdecides : op.decides (settleChain left) = true
    · simp only [hdecides, if_true]
      exact .refl _
    · simp only [hdecides]
      exact (lessDefined_evalChain_plain r _).bind fun _ => .refl _
  | .ternary c t e _ =>
    refine (lessDefined_evalChain_plain c _).bind fun condition => ?_
    by_cases htruthy : (settleChain condition).isTruthy = true
    · simp only [htruthy, if_true]
      exact (lessDefined_evalChain_plain t _).bind fun _ => .refl _
    · simp only [htruthy]
      exact (lessDefined_evalChain_plain e _).bind fun _ => .refl _

/-- The same for the items of a list or the arguments of a call. -/
theorem lessDefined_evalAll_plain (es : List Expr) (site : Site) (index : Nat) :
    (evalAll host env site index (plainAll es)).LessDefined (evalAll host env site index es) := by
  match es with
  | [] => exact .refl _
  | e :: es =>
    refine (lessDefined_evalChain_plain e _).bind fun _ => ?_
    exact (lessDefined_evalAll_plain es site (index + 1)).bind fun _ => .refl _

/-- The same for the properties of an object. -/
theorem lessDefined_evalProperties_plain (ps : List (String × Span × Expr)) (site : Site)
    (index : Nat) (fields : Bindings) :
    (evalProperties host env site index fields (plainProperties ps)).LessDefined
      (evalProperties host env site index fields ps) := by
  match ps with
  | [] => exact .refl _
  | (_, _, e) :: ps =>
    refine (lessDefined_evalChain_plain e _).bind fun _ => ?_
    exact lessDefined_evalProperties_plain ps site (index + 1) _

end

end

/-! ## Chains -/

/-- A link of a chain, without what stands before it. -/
inductive Link where
  | member (property : String) (propertySpan : Span) (optional : Bool) (span : Span)
  | index (index : Expr) (optional : Bool) (span : Span)
  | call (args : List Expr) (optional : Bool) (span : Span)

namespace Link

/-- Whether the link ends its chain on `null` and `undefined`. -/
def isOptional : Link → Bool
  | .member _ _ q _ | .index _ q _ | .call _ q _ => q

/-- The expression that the link makes of the one before it. -/
def on (base : Expr) : Link → Expr
  | .member p ps q s => .member base p ps q s
  | .index i q s => .index base i q s
  | .call as q s => .call base as q s

/-- What the link makes of the value before it; `callee` names that value in errors. -/
def ofValue (host : Host) (env : Bindings) (site : Site) (callee : String) (v : Value) :
    Link → Eval Value
  | .member p _ _ _ => .ofExcept (v.property p)
  | .index i _ _ => do
    let key := settleChain (← evalChain host env (.operand 1 :: site) i)
    .ofExcept (v.index key)
  | .call as _ _ => do
    let args ← evalAll host env site 1 as
    v.call host site callee args

end Link

/-- The chain with more links at its end. -/
def followedBy (base : Expr) (links : List Link) : Expr := links.foldl Link.on base

/-- The place of what a chain of `n` links in a place starts from. -/
def innermost (site : Site) (n : Nat) : Site := List.replicate n (.operand 0) ++ site

section

variable {host : Host} {env : Bindings} {site : Site} {base : Expr} {calls : List Invocation}

/-- A link is tried on the outcome of the chain before it. -/
theorem evalChain_on (l : Link) :
    evalChain host env site (l.on base) = (do
      let outcome ← evalChain host env (.operand 0 :: site) base
      followLink outcome l.isOptional (l.ofValue host env site base.calleeText)) := by
  cases l with
  | member p ps q s => rw [Link.on, evalChain]; rfl
  | index i q s => rw [Link.on, evalChain]; rfl
  | call as q s => rw [Link.on, evalChain]; rfl

/-- A chain that has ended has ended with one more link, too. -/
theorem evalChain_on_of_ended (l : Link)
    (h : evalChain host env (.operand 0 :: site) base = ⟨calls, .ok none⟩) :
    evalChain host env site (l.on base) = ⟨calls, .ok none⟩ := by
  rw [evalChain_on, h, bind_of_ok rfl]
  simp [followLink, pure, Eval.pure]

/-- An optional link on `null` or `undefined` ends its chain. -/
theorem evalChain_on_of_nullish {l : Link} {v : Value} (hoptional : l.isOptional = true)
    (hv : v.isNullish = true)
    (h : evalChain host env (.operand 0 :: site) base = ⟨calls, .ok (some v)⟩) :
    evalChain host env site (l.on base) = ⟨calls, .ok none⟩ := by
  rw [evalChain_on, h, bind_of_ok rfl]
  simp [followLink, hoptional, hv, pure, Eval.pure]

/-- Whatever links follow, a chain that has ended makes no more calls. -/
theorem evalChain_followedBy_of_ended (links : List Link)
    (h : evalChain host env (innermost site links.length) base = ⟨calls, .ok none⟩) :
    evalChain host env site (base.followedBy links) = ⟨calls, .ok none⟩ := by
  induction links generalizing base with
  | nil => exact h
  | cons l links ih => exact ih (evalChain_on_of_ended l h)

/-- An optional link ends its chain if the chain before it has the value `null` or `undefined`, be
it that this is the value of a link or that the chain has ended before. -/
theorem evalChain_on_of_eval {l : Link} {v : Value} (hoptional : l.isOptional = true)
    (hv : v.isNullish = true) (h : (base.eval host env (.operand 0 :: site)).result = .ok v) :
    evalChain host env site (l.on base) =
      ⟨(base.eval host env (.operand 0 :: site)).calls, .ok none⟩ := by
  rw [eval, map_eq] at h ⊢
  -- The base has a value either because its own chain has ended or because it has come to one.
  cases hresult : (evalChain host env (.operand 0 :: site) base).result with
  | error err =>
    rw [hresult] at h
    cases h
  | ok outcome =>
    have hchain : evalChain host env (.operand 0 :: site) base =
        ⟨(evalChain host env (.operand 0 :: site) base).calls, .ok outcome⟩ := by rw [← hresult]
    rw [hresult] at h
    cases outcome with
    | none => exact evalChain_on_of_ended l hchain
    | some w =>
      have hw : w = v := Except.ok.inj h
      rw [← hw] at hv
      exact evalChain_on_of_nullish hoptional hv hchain

end

/-- An expression that has a value with all of its links made plain has the same value as it stands,
and makes the same calls in the same order. And if in a chain the value before an optional link is
`null` or `undefined`, the whole chain is `undefined`, whatever links follow, and makes no calls but
those for that value. -/
theorem eval_optionalLinks (host : Host) (env : Bindings) (site : Site) (e : Expr) :
    (∀ v, (e.plain.eval host env site).result = .ok v →
      e.eval host env site = ⟨(e.plain.eval host env site).calls, .ok v⟩) ∧
    ∀ (base : Expr) (l : Link) (links : List Link) (v : Value),
      e = (l.on base).followedBy links → l.isOptional = true →
      (base.eval host env (innermost site (links.length + 1))).result = .ok v →
      v.isNullish = true →
      e.eval host env site =
        ⟨(base.eval host env (innermost site (links.length + 1))).calls, .ok .undefined⟩ := by
  constructor
  · intro v hv
    have hless : (e.plain.eval host env site).LessDefined (e.eval host env site) :=
      (lessDefined_evalChain_plain e site).map settleChain
    rw [hless v hv, ← hv]
  · rintro base l links v rfl hoptional hbase hv
    -- The base stands at the inner end of the links, and each link behind it is one operand further
    -- out.
    have hplace : innermost site (links.length + 1) =
        .operand 0 :: innermost site links.length := by
      rw [innermost, List.replicate_succ, List.cons_append, innermost]
    rw [hplace] at hbase ⊢
    have hended := evalChain_followedBy_of_ended links (evalChain_on_of_eval hoptional hv hbase)
    rw [eval, map_eq, hended]
    rfl

/-- A function that answers with its arguments, called and read through optional links, and a
component that is not there: of what would be read and called on it nothing is evaluated. -/
theorem eval_optionalLinks_missing :
    let env : Bindings := [("$", .func (.component []) []), ("f", .func (.host [] "f" .null) [])]
    let f : Expr := .ident "f" .none
    let present : Expr := .member (.call f [.literal (.str "a") .none] true .none) "length" .none
      true .none
    let absent : Expr := .call (.ident "$" .none) [.literal (.str "x") .none] false .none
    let links : List Link := [.index (.call f [] false .none) false .none,
      .call [.call f [] false .none] false .none, .member "b" .none false .none]
    present.eval .none env [] =
        ⟨[.function "f" [.str "a"]], .ok (.num (Number.ofNat 1))⟩ ∧
      (((Link.member "load" .none true .none).on absent).followedBy links).eval .none env [] =
        ⟨[.component "x"], .ok .undefined⟩ := by
  intro env f present absent links
  exact ⟨(eval_optionalLinks .none env [] present).1 _ rfl,
    (eval_optionalLinks .none env [] _).2 absent (.member "load" .none true .none) links .undefined
      rfl rfl rfl rfl⟩

end Expr

end TemplateFlow
