import TemplateFlow.Flow.Data
import TemplateFlow.Proofs.Json.Decode
import TemplateFlow.Proofs.Json.WellFormed

/-!
# Steps written and read back

Steps are written and read by separate functions. A custom step can be told from the others by its
data if its kind is not built in, and neither the kind nor the name of the result is among its own
members; a step is ordinary if all custom steps in it are so, inside conditions too. Every ordinary
step is read back as itself, and every step that is read is ordinary.

## Main definitions

* `Step.Ordinary`: the step can be told by its data, with the steps inside it.
* `HoldsFieldsOf`: the members of a step that belong to its action are those of the action.

## Main results

* `Step.ofJson_toJson`: an ordinary step is read back as it was written.
* `ordinary_of_wellFormed`: every step that is read from well-formed data is ordinary.
* `Step.toJson_roundTrip`: both in one, with what becomes of the data of a custom step.
-/

namespace TemplateFlow

/-! ## Ordinary steps -/

mutual

/-- A custom action can be told from the built-in ones by its kind, and its data from the other
members of its step; the same holds inside conditions. -/
def Action.Ordinary : Action → Prop
  | .condition _ onTrue onFalse => BranchOrdinary onTrue ∧ BranchOrdinary onFalse
  | .custom kind payload => kind ∉ Action.builtinKinds ∧ payload.Sorted ∧
      "action" ∉ Dictionary.keys payload ∧ "outputVar" ∉ Dictionary.keys payload
  | _ => True

/-- The action of the step is ordinary. -/
def Step.Ordinary : Step → Prop
  | ⟨action, _⟩ => action.Ordinary

/-- All steps of a flow are ordinary. -/
def FlowOrdinary : List Step → Prop
  | [] => True
  | s :: flow => s.Ordinary ∧ FlowOrdinary flow

/-- The flow of a branch is ordinary, if there is one. -/
def BranchOrdinary : Option (List Step) → Prop
  | none => True
  | some flow => FlowOrdinary flow

end

/-- The action of an ordinary step is ordinary. -/
theorem Step.Ordinary.action {s : Step} (h : s.Ordinary) : s.action.Ordinary := by
  obtain ⟨action, outputVar⟩ := s
  exact h

/-! ## Members -/

/-- A member that may be left out is there if it has a value. -/
@[simp]
theorem get?_ofList_optionalMember {α : Type} (name other : String) (write : α → Json)
    (value : Option α) :
    Dictionary.get? (Dictionary.ofList (optionalMember name write value)) other =
      if other = name then value.map write else none := by
  cases value with
  | none =>
    rw [optionalMember, Dictionary.get?_ofList_nil]
    split <;> rfl
  | some v =>
    rw [optionalMember, Dictionary.get?_ofList_cons, Dictionary.get?_ofList_nil]
    rfl

/-! ## Lists -/

/-- A list of texts is read back from its data. -/
theorem toList_toText (texts : List String) :
    (Json.arr (texts.map .str)).toList Json.toText = .ok texts :=
  mapM_map_eq_ok fun _ _ => rfl

/-- A text that may be left out is read back from its member. -/
theorem toOption_str (value : Option String) :
    Fields.orElse none ((value.map Json.str).map fun v => v.toOption Json.toText) = .ok value := by
  cases value <;> rfl

/-! ## Actions -/

/-- The members of a step that belong to its action are those of the action. -/
def HoldsFieldsOf (members : Dictionary Json) (a : Action) : Prop :=
  ∀ name, name ≠ "action" → name ≠ "outputVar" →
    Dictionary.get? members name = Dictionary.get? (Dictionary.ofList a.members) name

/-- A member that the list of an action's members has, and the same for one that it has not. -/
theorem HoldsFieldsOf.get? {members : Dictionary Json} {a : Action} (h : HoldsFieldsOf members a)
    {name : String} (hname : name ∉ ["action", "outputVar"]) {value : Option Json}
    (hvalue : Dictionary.get? (Dictionary.ofList a.members) name = value) :
    Dictionary.get? members name = value := by
  simp only [List.mem_cons, List.not_mem_nil, or_false, not_or] at hname
  rw [h name hname.1 hname.2, hvalue]

/-- A declared field is read back from its data. -/
theorem DeclaredField.ofJson_toJson (f : DeclaredField) : ofJson f.toJson = .ok f := by
  obtain ⟨component, name, value⟩ := f
  let members := optionalMember "compId" Json.str component ++
    [("name", .str name), ("value", .str value)]
  have hcomponent : Dictionary.get? (Dictionary.ofList members) "compId" = component.map .str := by
    simp [members]
  have hname : Dictionary.get? (Dictionary.ofList members) "name" = some (.str name) := by
    simp [members]
  have hvalue : Dictionary.get? (Dictionary.ofList members) "value" = some (.str value) := by
    simp [members]
  change ofJson (.obj (Dictionary.ofList members)) = _
  simp only [ofJson, Fields.of, bind, Except.bind, Fields.read?_ofMembers, hcomponent, hname,
    hvalue, toOption_str]
  rfl

/-- The members of a declaration are read back in both of its forms. -/
theorem Declaration.ofMembers_eq_ok {declaration : Declaration} {members : Dictionary Json}
    (h : HoldsFieldsOf members (.declare declaration)) :
    ofMembers members = .ok declaration := by
  cases declaration with
  | fields fs =>
    have hfields : Dictionary.get? members "fields" = some (.arr (fs.map DeclaredField.toJson)) :=
      h.get? (by decide) (by simp [Action.members, Declaration.members])
    have hread : fieldsOf? members = some (.fields fs) := by
      have hlist : (Json.arr (fs.map DeclaredField.toJson)).toList DeclaredField.ofJson = .ok fs :=
        mapM_map_eq_ok fun f _ => f.ofJson_toJson
      simp only [fieldsOf?, hfields, bind, Option.bind, hlist]
    rw [ofMembers, hread]
  | value component text =>
    have hfields : Dictionary.get? members "fields" = none :=
      h.get? (by decide) (by simp [Action.members, Declaration.members])
    have hvalue : Dictionary.get? members "value" = some (.str text) :=
      h.get? (by decide) (by simp [Action.members, Declaration.members])
    have hcomponent : Dictionary.get? members "compId" = component.map .str :=
      h.get? (by decide) (by simp [Action.members, Declaration.members])
    have hread : valueOf? members = some (.value component text) := by
      simp only [valueOf?, hvalue, hcomponent]
      cases component <;> rfl
    -- A declaration of fields is tried first, and there are none.
    have hnone : fieldsOf? members = none := by
      simp only [fieldsOf?, hfields]
      rfl
    rw [ofMembers, hnone, hread]

/-- The settings of an API are read back from their members. -/
theorem ApiConfig.ofJson_eq_ok {config : ApiConfig} {members : Dictionary Json}
    (h : HoldsFieldsOf members (.initApi config)) : ofJson (.obj members) = .ok config := by
  have hurl : Dictionary.get? members "baseURL" = config.baseUrl.map .str :=
    h.get? (by decide) (by simp [Action.members, ApiConfig.members])
  have hparams : Dictionary.get? members "defaultParams" = config.defaultParams.map .obj :=
    h.get? (by decide) (by simp [Action.members, ApiConfig.members])
  obtain ⟨baseUrl, defaultParams⟩ := config
  have hread : Fields.orElse none ((defaultParams.map Json.obj).map fun v =>
      v.toOption Json.toMembers) = .ok defaultParams := by
    cases defaultParams <;> rfl
  simp only [ofJson, Fields.of, bind, Except.bind, Fields.read?_alone, Fields.read?_ofMembers, hurl,
    hparams, toOption_str, hread]
  -- No field has failed, so the check lets all of them pass.
  rw [Fields.check_eq_ok ?_]
  · rfl
  · cases baseUrl <;> cases defaultParams <;> simp [Fields.failure?, Json.toOption, Json.toText,
      Json.toMembers, Except.map]

namespace Action

theorem branchMember_eq (name : String) (branch : Option (List Step)) :
    branchMember name branch =
      optionalMember name (fun flow => Json.arr (flowItems flow)) branch := by
  cases branch <;> simp only [branchMember, optionalMember]

/-- A branch is read as it was written if its flow is. -/
theorem map_branchOfJson {branch : Option (List Step)}
    (h : ∀ flow ∈ branch, flowOfJson (.arr (flowItems flow)) = .ok flow) :
    (branch.map fun flow => Json.arr (flowItems flow)).map branchOfJson =
      branch.map fun flow => .ok (some flow) := by
  cases branch with
  | none => rfl
  | some flow =>
    rw [Option.map_some, Option.map_some, Option.map_some, branchOfJson, h flow rfl]
    · rfl
    · intro h
      cases h

/-- A call of a component is read back from its members. -/
theorem callOfMembers_eq_ok {component method : String} {args : List String}
    {members : Dictionary Json} (h : HoldsFieldsOf members (.call component method args)) :
    callOfMembers members = .ok (.call component method args) := by
  have hcomponent : Dictionary.get? members "compId" = some (.str component) :=
    h.get? (by decide) (by simp [Action.members])
  have hmethod : Dictionary.get? members "methodName" = some (.str method) :=
    h.get? (by decide) (by simp [Action.members])
  have hargs : Dictionary.get? members "args" = some (.arr (args.map .str)) :=
    h.get? (by decide) (by simp [Action.members])
  simp only [callOfMembers, Fields.read?_ofMembers, hcomponent, hmethod, hargs, Option.map_some,
    Json.toText, toList_toText]
  rw [Fields.check_eq_ok (by simp [Fields.failure?])]
  rfl

/-- A call of an API is read back from its members. -/
theorem callApiOfMembers_eq_ok {method : String} {args : List String} {members : Dictionary Json}
    (h : HoldsFieldsOf members (.callApi method args)) :
    callApiOfMembers members = .ok (.callApi method args) := by
  have hmethod : Dictionary.get? members "methodName" = some (.str method) :=
    h.get? (by decide) (by simp [Action.members])
  have hargs : Dictionary.get? members "args" = some (.arr (args.map .str)) :=
    h.get? (by decide) (by simp [Action.members])
  simp only [callApiOfMembers, Fields.read?_ofMembers, hmethod, hargs, Option.map_some,
    Json.toText, toList_toText]
  rw [Fields.check_eq_ok (by simp [Fields.failure?])]
  rfl

/-- A condition is read back from its members if its branches are. -/
theorem conditionOfMembers_eq_ok {condition : String} {onTrue onFalse : Option (List Step)}
    {members : Dictionary Json} (h : HoldsFieldsOf members (.condition condition onTrue onFalse))
    (hTrue : ∀ flow ∈ onTrue, flowOfJson (.arr (flowItems flow)) = .ok flow)
    (hFalse : ∀ flow ∈ onFalse, flowOfJson (.arr (flowItems flow)) = .ok flow) :
    conditionOfMembers members (fun value _ => branchOfJson value) =
      .ok (.condition condition onTrue onFalse) := by
  have hcondition : Dictionary.get? members "condition" = some (.str condition) :=
    h.get? (by decide) (by simp [Action.members, branchMember_eq])
  have hthen : Dictionary.get? members "then" = onTrue.map fun flow => .arr (flowItems flow) :=
    h.get? (by decide) (by simp [Action.members, branchMember_eq])
  have hels : Dictionary.get? members "els" = onFalse.map fun flow => .arr (flowItems flow) :=
    h.get? (by decide) (by simp [Action.members, branchMember_eq])
  simp only [conditionOfMembers, Fields.read?_ofMembers, hcondition, hthen, hels, Option.map_some,
    Json.toText, map_branchOfJson hTrue, map_branchOfJson hFalse]
  -- No field has failed, so the check lets all of them pass.
  rw [Fields.check_eq_ok ?_]
  · cases onTrue <;> cases onFalse <;> rfl
  · cases onTrue <;> cases onFalse <;> simp [Fields.failure?]

/-- The data of a custom action is what its step has beside the kind and the name of the result. -/
theorem erase_erase_eq {kind : String} {payload members : Dictionary Json}
    (h : HoldsFieldsOf members (.custom kind payload)) (hmembers : members.Sorted)
    (hpayload : payload.Sorted) (haction : "action" ∉ Dictionary.keys payload)
    (houtput : "outputVar" ∉ Dictionary.keys payload) :
    Dictionary.erase (Dictionary.erase members "action") "outputVar" = payload := by
  refine Dictionary.eq_of_get?_eq ((hmembers.erase _).erase _) hpayload fun name => ?_
  rw [Dictionary.get?_erase, Dictionary.get?_erase]
  -- The two names that are taken away are not among the data either.
  split
  · rename_i hname
    rw [hname, Dictionary.get?_eq_none_of_not_mem_keys houtput]
  · split
    · rename_i hname
      rw [hname, Dictionary.get?_eq_none_of_not_mem_keys haction]
    · rename_i hne hne'
      rw [h name hne' hne, Action.members, hpayload.ofList_eq]

/-- A kind that is not built in is kept, with the members that are not the kind or the name of the
result. -/
theorem ofMembers_of_not_mem_builtinKinds {kind : String} (h : kind ∉ builtinKinds)
    (members : Dictionary Json) (decode : (value : Json) → value.size < (Json.obj members).size →
      Decoded (Option (List Step))) :
    ofMembers kind members decode =
      .ok (.custom kind (Dictionary.erase (Dictionary.erase members "action") "outputVar")) := by
  simp only [builtinKinds, List.mem_cons, List.not_mem_nil, or_false, not_or] at h
  obtain ⟨h₁, h₂, h₃, h₄, h₅⟩ := h
  rw [ofMembers, if_neg h₁, if_neg h₂, if_neg h₃, if_neg h₄, if_neg h₅]

/-- An action is read back from the members of its step if the flows in it are. -/
theorem ofMembers_eq_ok {a : Action} {members : Dictionary Json} (h : HoldsFieldsOf members a)
    (hmembers : members.Sorted) (ha : a.Ordinary)
    (hflows : ∀ c onTrue onFalse, a = .condition c onTrue onFalse →
      (∀ flow ∈ onTrue, flowOfJson (.arr (flowItems flow)) = .ok flow) ∧
      ∀ flow ∈ onFalse, flowOfJson (.arr (flowItems flow)) = .ok flow) :
    Action.ofMembers a.kind members (fun value _ => branchOfJson value) = .ok a := by
  -- One case for each kind; what is kept of a custom step is what is left without the two names
  -- that every step has.
  cases a with
  | condition c onTrue onFalse =>
    obtain ⟨hTrue, hFalse⟩ := hflows c onTrue onFalse rfl
    exact conditionOfMembers_eq_ok h hTrue hFalse
  | call component method args => exact callOfMembers_eq_ok h
  | callApi method args => exact callApiOfMembers_eq_ok h
  | declare declaration =>
    change Action.declare <$> Declaration.ofMembers members = _
    rw [Declaration.ofMembers_eq_ok h]
    rfl
  | initApi config =>
    change Action.initApi <$> ApiConfig.ofJson (.obj members) = _
    rw [ApiConfig.ofJson_eq_ok h]
    rfl
  | custom kind payload =>
    obtain ⟨hkind, hpayload, haction, houtput⟩ := ha
    rw [Action.kind, ofMembers_of_not_mem_builtinKinds hkind,
      erase_erase_eq h hmembers hpayload haction houtput]

end Action

/-! ## Steps -/

/-- The members of a step. -/
def Step.members (s : Step) : Dictionary Json :=
  Dictionary.ofList (s.action.members ++ ("action", .str s.action.kind) ::
    optionalMember "outputVar" Json.str s.outputVar)

theorem Step.toJson_eq (s : Step) : s.toJson = .obj s.members := by
  obtain ⟨action, outputVar⟩ := s
  rw [Step.toJson]
  rfl

/-- The data of a step has all that its action is read from. -/
theorem Step.holdsFieldsOf (s : Step) : HoldsFieldsOf s.members s.action := by
  intro name haction houtput
  simp [Step.members, haction, houtput]

/-- The kind of the action is kept under its own name. -/
theorem Step.get?_members_action (s : Step) :
    Dictionary.get? s.members "action" = some (.str s.action.kind) := by
  simp [Step.members]

/-- The kind of the action is read back. -/
theorem kindOfMembers_members (s : Step) : kindOfMembers s.members = .ok s.action.kind := by
  rw [kindOfMembers, s.get?_members_action]

/-- No ordinary action has a member of the name under which the name of the result stands. -/
theorem Action.get?_outputVar {a : Action} (h : a.Ordinary) :
    Dictionary.get? (Dictionary.ofList a.members) "outputVar" = none := by
  cases a with
  | custom kind payload =>
    obtain ⟨-, hpayload, -, houtput⟩ := h
    rw [Action.members, hpayload.ofList_eq, Dictionary.get?_eq_none_of_not_mem_keys houtput]
  | declare declaration =>
    cases declaration <;> simp [Action.members, Declaration.members]
  | _ =>
    simp [Action.members, ApiConfig.members, branchMember_eq]

/-- The output of a step is kept under its own name, which no field of an ordinary action has. -/
theorem Step.get?_members_outputVar {s : Step} (h : s.action.Ordinary) :
    Dictionary.get? s.members "outputVar" = s.outputVar.map .str := by
  simp [Step.members, Action.get?_outputVar h]

/-- The output of a step is read back. -/
theorem outputVarOfMembers_members {s : Step} (h : s.action.Ordinary) :
    outputVarOfMembers s.members = .ok s.outputVar := by
  rw [outputVarOfMembers, Step.get?_members_outputVar h]
  cases s.outputVar <;> rfl

/-- A step is read back if the flows in its action are. -/
theorem Step.ofJson_toJson_of_flows {s : Step} (h : s.action.Ordinary)
    (hflows : ∀ c onTrue onFalse, s.action = .condition c onTrue onFalse →
      (∀ flow ∈ onTrue, flowOfJson (.arr (flowItems flow)) = .ok flow) ∧
      ∀ flow ∈ onFalse, flowOfJson (.arr (flowItems flow)) = .ok flow) :
    Step.ofJson s.toJson = .ok s := by
  have haction := Action.ofMembers_eq_ok s.holdsFieldsOf (Dictionary.sorted_ofList _) h hflows
  rw [Step.toJson_eq, Step.ofJson, kindOfMembers_members, outputVarOfMembers_members h]
  simp only [bind, Except.bind, haction]
  obtain ⟨action, outputVar⟩ := s
  rfl

/-- A flow is read step by step. -/
theorem flowOfJson_arr (items : List Json) :
    flowOfJson (.arr items) = items.mapM Step.ofJson := by
  rw [flowOfJson, Json.mapItems, List.mapM_subtype fun _ _ => rfl, List.unattach_attach]

-- The recursion is that of the definitions of `Ordinary`, with the flows of a condition in between.
mutual

/-- The flows in an ordinary action are read back as they were written. -/
theorem Action.flowOfJson_flowItems (a : Action) (h : a.Ordinary) (c : String)
    (onTrue onFalse : Option (List Step)) (ha : a = .condition c onTrue onFalse) :
    (∀ flow ∈ onTrue, flowOfJson (.arr (flowItems flow)) = .ok flow) ∧
      ∀ flow ∈ onFalse, flowOfJson (.arr (flowItems flow)) = .ok flow := by
  cases a with
  | condition c' onTrue' onFalse' =>
    obtain ⟨rfl, rfl, rfl⟩ := Action.condition.inj ha
    exact ⟨flowOfJson_of_mem_branch _ h.1, flowOfJson_of_mem_branch _ h.2⟩
  | _ => cases ha

/-- An ordinary step is read back as it was written. -/
theorem Step.ofJson_toJson (s : Step) (h : s.Ordinary) : Step.ofJson s.toJson = .ok s := by
  obtain ⟨action, outputVar⟩ := s
  exact Step.ofJson_toJson_of_flows h (Action.flowOfJson_flowItems action h)

/-- An ordinary flow is read back step by step. -/
theorem mapM_flowItems (flow : List Step) (h : FlowOrdinary flow) :
    (flowItems flow).mapM Step.ofJson = .ok flow := by
  match flow, h with
  | [], _ => rfl
  | s :: flow, h =>
    rw [flowItems, List.mapM_cons, Step.ofJson_toJson s h.1, mapM_flowItems flow h.2]
    rfl

/-- A branch is read back if it is there. -/
theorem flowOfJson_of_mem_branch (branch : Option (List Step)) (h : BranchOrdinary branch) :
    ∀ flow ∈ branch, flowOfJson (.arr (flowItems flow)) = .ok flow := by
  match branch, h with
  | none, _ =>
    intro flow hflow
    cases hflow
  | some flow, h =>
    rintro _ ⟨⟩
    rw [flowOfJson_arr]
    exact mapM_flowItems flow h

end

/-! ## Steps that are read are ordinary -/

namespace Fields

variable {α : Type}

/-- A member that is read well stands in the object. -/
theorem read?_ofMembers_eq_ok {declared : List String} {members : Dictionary Json} {name : String}
    {decode : (value : Json) → value.size < (Json.obj members).size → Decoded α} {r : α}
    (h : (ofMembers declared members).read? name decode = some (.ok r)) :
    ∃ value lt, Dictionary.get? members name = some value ∧ decode value lt = .ok r := by
  simp only [read?, ofMembers] at h
  split at h
  · rename_i value hvalue
    exact ⟨value, Json.size_lt_of_get? hvalue, hvalue, Option.some.inj h⟩
  · cases h

end Fields

/-- A branch is ordinary if it is left out, or if whatever is read from its member is. -/
theorem branchOrdinary_of_orElse {declared : List String} {members : Dictionary Json}
    {name : String} {decode : (value : Json) → value.size < (Json.obj members).size →
      Decoded (Option (List Step))} {branch : Option (List Step)}
    (hd : ∀ value lt branch, Dictionary.get? members name = some value →
      decode value lt = .ok branch → BranchOrdinary branch)
    (h : Fields.orElse none ((Fields.ofMembers declared members).read? name decode) = .ok branch) :
    BranchOrdinary branch := by
  -- An absent branch is ordinary, and a present one has been decoded.
  cases hr : (Fields.ofMembers declared members).read? name decode with
  | none =>
    rw [hr] at h
    cases h
    trivial
  | some r =>
    rw [hr, Fields.orElse] at h
    rw [h] at hr
    obtain ⟨value, lt, hvalue, hv⟩ := Fields.read?_ofMembers_eq_ok hr
    exact hd value lt branch hvalue hv

namespace Action

/-- What is read as a condition is one, with branches that have been read or are absent. -/
theorem exists_condition_of_conditionOfMembers {members : Dictionary Json}
    {decode : (value : Json) → value.size < (Json.obj members).size →
      Decoded (Option (List Step))} {a : Action} (h : conditionOfMembers members decode = .ok a) :
    ∃ condition onTrue onFalse, a = .condition condition onTrue onFalse ∧
      Fields.orElse none ((Fields.ofMembers ["condition", "then", "els"] members).read? "then"
        decode) = .ok onTrue ∧
      Fields.orElse none ((Fields.ofMembers ["condition", "then", "els"] members).read? "els"
        decode) = .ok onFalse := by
  simp only [conditionOfMembers, bind, Except.bind, pure, Except.pure] at h
  split at h
  · cases h
  split at h
  · cases h
  split at h
  · cases h
  -- What is left is the case in which the check and both branches succeed.
  rename_i hTrue
  split at h
  · cases h
  rename_i hFalse
  cases h
  exact ⟨_, _, _, rfl, hTrue, hFalse⟩

/-- What is read as a call of a component is one. -/
theorem exists_call_of_callOfMembers {members : Dictionary Json} {a : Action}
    (h : callOfMembers members = .ok a) :
    ∃ component method args, a = .call component method args := by
  simp only [callOfMembers, bind, Except.bind, pure, Except.pure] at h
  repeat' split at h
  all_goals cases h
  exact ⟨_, _, _, rfl⟩

/-- What is read as a call of an API is one. -/
theorem exists_callApi_of_callApiOfMembers {members : Dictionary Json} {a : Action}
    (h : callApiOfMembers members = .ok a) : ∃ method args, a = .callApi method args := by
  simp only [callApiOfMembers, bind, Except.bind, pure, Except.pure] at h
  repeat' split at h
  all_goals cases h
  exact ⟨_, _, rfl⟩

/-- What is read of a kind: the action that is built in under it, or a custom one of the members
that are not the kind or the name of the result. -/
theorem ofMembers_cases {kind : String} {members : Dictionary Json}
    {decode : (value : Json) → value.size < (Json.obj members).size →
      Decoded (Option (List Step))} {a : Action} (h : ofMembers kind members decode = .ok a) :
    (kind = conditionKind ∧ conditionOfMembers members decode = .ok a) ∨
    (kind = callKind ∧ ∃ component method args, a = .call component method args) ∨
    (kind = callApiKind ∧ ∃ method args, a = .callApi method args) ∨
    (kind = declareKind ∧ ∃ declaration, a = .declare declaration) ∨
    (kind = initApiKind ∧ ∃ config, a = .initApi config) ∨
    (kind ∉ builtinKinds ∧
      a = .custom kind (Dictionary.erase (Dictionary.erase members "action") "outputVar")) := by
  rw [ofMembers] at h
  split at h
  · rename_i hkind
    exact .inl ⟨hkind, h⟩
  rename_i h₁
  split at h
  · rename_i hkind
    exact .inr (.inl ⟨hkind, exists_call_of_callOfMembers h⟩)
  rename_i h₂
  split at h
  · rename_i hkind
    exact .inr (.inr (.inl ⟨hkind, exists_callApi_of_callApiOfMembers h⟩))
  rename_i h₃
  split at h
  · rename_i hkind
    cases hm : Declaration.ofMembers members with
    | error e => rw [hm] at h; cases h
    | ok declaration =>
      rw [hm] at h
      cases h
      exact .inr (.inr (.inr (.inl ⟨hkind, _, rfl⟩)))
  rename_i h₄
  split at h
  · rename_i hkind
    cases hm : ApiConfig.ofJson (.obj members) with
    | error e => rw [hm] at h; cases h
    | ok config =>
      rw [hm] at h
      cases h
      exact .inr (.inr (.inr (.inr (.inl ⟨hkind, _, rfl⟩))))
  -- None of the kinds that are built in.
  rename_i h₅
  cases h
  exact .inr (.inr (.inr (.inr (.inr ⟨by simp [builtinKinds, h₁, h₂, h₃, h₄, h₅], rfl⟩))))

/-- An action has the kind that it is read as. -/
theorem kind_of_ofMembers {kind : String} {members : Dictionary Json}
    {decode : (value : Json) → value.size < (Json.obj members).size →
      Decoded (Option (List Step))} {a : Action}
    (h : ofMembers kind members decode = .ok a) : a.kind = kind := by
  rcases ofMembers_cases h with ⟨rfl, h⟩ | ⟨rfl, _, _, _, rfl⟩ | ⟨rfl, _, _, rfl⟩ | ⟨rfl, _, rfl⟩ |
    ⟨rfl, _, rfl⟩ | ⟨-, rfl⟩
  · obtain ⟨_, _, _, rfl, -, -⟩ := exists_condition_of_conditionOfMembers h
    rfl
  all_goals rfl

/-- An action that is read is ordinary if the branches read inside it are. -/
theorem ordinary_of_ofMembers {kind : String} {members : Dictionary Json}
    {decode : (value : Json) → value.size < (Json.obj members).size →
      Decoded (Option (List Step))} {a : Action} (hmembers : members.Sorted)
    (hd : ∀ name value lt branch, Dictionary.get? members name = some value →
      decode value lt = .ok branch → BranchOrdinary branch)
    (h : ofMembers kind members decode = .ok a) : a.Ordinary := by
  -- Only conditions and custom steps have anything to show.
  rcases ofMembers_cases h with ⟨-, h⟩ | ⟨-, _, _, _, rfl⟩ | ⟨-, _, _, rfl⟩ | ⟨-, _, rfl⟩ |
    ⟨-, _, rfl⟩ | ⟨hkind, rfl⟩
  · obtain ⟨_, _, _, rfl, hTrue, hFalse⟩ := exists_condition_of_conditionOfMembers h
    exact ⟨branchOrdinary_of_orElse (hd _) hTrue, branchOrdinary_of_orElse (hd _) hFalse⟩
  · trivial
  · trivial
  · trivial
  · trivial
  · exact ⟨hkind, (hmembers.erase _).erase _,
      Dictionary.not_mem_keys_of_get?_eq_none (by simp [Dictionary.get?_erase]),
      Dictionary.not_mem_keys_of_get?_eq_none (by simp [Dictionary.get?_erase])⟩

end Action

/-- A step of members is read from a kind, a name of the result and an action. -/
theorem Step.ofJson_obj_cases {members : Dictionary Json} {s : Step}
    (h : Step.ofJson (.obj members) = .ok s) :
    ∃ kind, kindOfMembers members = .ok kind ∧ outputVarOfMembers members = .ok s.outputVar ∧
      Action.ofMembers kind members (fun value _ => branchOfJson value) = .ok s.action := by
  rw [Step.ofJson] at h
  simp only [bind, Except.bind, pure, Except.pure] at h
  split at h
  · cases h
  rename_i hkind
  split at h
  · cases h
  rename_i houtput
  split at h
  · cases h
  rename_i haction
  cases h
  exact ⟨_, hkind, houtput, haction⟩

/-- A flow that is read step by step is ordinary if its steps are. -/
theorem flowOrdinary_of_mapM {items : List Json}
    (h : ∀ item ∈ items, ∀ s, Step.ofJson item = .ok s → s.Ordinary) {flow : List Step}
    (hflow : items.mapM Step.ofJson = .ok flow) : FlowOrdinary flow := by
  induction items generalizing flow with
  | nil =>
    cases hflow
    trivial
  | cons item items ih =>
    -- Both the first step and the others have been read, or the flow would not have been.
    rw [List.mapM_cons] at hflow
    simp only [bind, Except.bind, pure, Except.pure] at hflow
    split at hflow
    · cases hflow
    rename_i s hs
    split at hflow
    · cases hflow
    rename_i rest hrest
    cases hflow
    exact ⟨h item List.mem_cons_self s hs,
      ih (fun item hitem => h item (List.mem_cons_of_mem _ hitem)) hrest⟩

/-- A branch that is read is ordinary if flows that are read are. -/
theorem branchOrdinary_of_branchOfJson {data : Json}
    (h : ∀ flow, flowOfJson data = .ok flow → FlowOrdinary flow) {branch : Option (List Step)}
    (hbranch : branchOfJson data = .ok branch) : BranchOrdinary branch := by
  rw [branchOfJson.eq_def] at hbranch
  split at hbranch
  · cases hbranch
    trivial
  · cases hf : flowOfJson data with
    | error e => rw [hf] at hbranch; cases hbranch
    | ok flow =>
      rw [hf] at hbranch
      cases hbranch
      exact h flow hf

/-- A step is read from an object only, and a flow from an array only. -/
theorem Step.exists_obj_of_ofJson {data : Json} {s : Step} (h : Step.ofJson data = .ok s) :
    ∃ members, data = .obj members := by
  rw [Step.ofJson.eq_def] at h
  split at h
  · exact ⟨_, rfl⟩
  · cases h

/-- Flows are read from lists only. -/
theorem exists_arr_of_flowOfJson {data : Json} {flow : List Step}
    (h : flowOfJson data = .ok flow) : ∃ items, data = .arr items := by
  rw [flowOfJson.eq_def] at h
  split at h
  · exact ⟨_, rfl⟩
  · cases h

/-- Every step and every flow that is read from well-formed data is ordinary. -/
theorem ordinary_of_wellFormed {data : Json} (h : data.WellFormed) :
    (∀ s, Step.ofJson data = .ok s → s.Ordinary) ∧
      ∀ flow, flowOfJson data = .ok flow → FlowOrdinary flow := by
  induction h with
  | arr _ ih =>
    refine ⟨fun s hs => ?_, fun flow hflow => ?_⟩
    · obtain ⟨_, hdata⟩ := Step.exists_obj_of_ofJson hs
      cases hdata
    · rw [flowOfJson_arr] at hflow
      exact flowOrdinary_of_mapM (fun item hitem => (ih item hitem).1) hflow
  | obj hmembers _ ih =>
    refine ⟨fun s hs => ?_, fun flow hflow => ?_⟩
    · obtain ⟨kind, -, -, haction⟩ := Step.ofJson_obj_cases hs
      obtain ⟨action, outputVar⟩ := s
      refine Action.ordinary_of_ofMembers hmembers (fun name value _ branch hvalue hbranch => ?_)
        haction
      exact branchOrdinary_of_branchOfJson (ih _ (Dictionary.mem_of_get? hvalue)).2 hbranch
    · obtain ⟨_, hdata⟩ := exists_arr_of_flowOfJson hflow
      cases hdata
  -- Data without parts is neither a step nor a flow.
  | _ =>
    refine ⟨fun s hs => ?_, fun flow hflow => ?_⟩
    · obtain ⟨_, hdata⟩ := Step.exists_obj_of_ofJson hs
      cases hdata
    · obtain ⟨_, hdata⟩ := exists_arr_of_flowOfJson hflow
      cases hdata

/-! ## The data of custom steps -/

/-- The kind that is read is the text under its name. -/
theorem get?_of_kindOfMembers {members : Dictionary Json} {kind : String}
    (h : kindOfMembers members = .ok kind) :
    Dictionary.get? members "action" = some (.str kind) := by
  rw [kindOfMembers] at h
  split at h
  · rename_i hkind
    cases h
    exact hkind
  · cases h
  · cases h

/-- The name of the result stands in the data as it is read, unless it is null there. -/
theorem get?_of_outputVarOfMembers {members : Dictionary Json} {outputVar : Option String}
    (h : outputVarOfMembers members = .ok outputVar)
    (hne : Dictionary.get? members "outputVar" ≠ some .null) :
    Dictionary.get? members "outputVar" = outputVar.map .str := by
  rw [outputVarOfMembers] at h
  split at h
  · rename_i hnone
    cases h
    exact hnone
  · rename_i hnull
    exact absurd hnull hne
  · rename_i hname
    cases h
    exact hname
  · cases h

/-- A null in the place of the output is read as none. -/
theorem eq_none_of_outputVarOfMembers {members : Dictionary Json} {outputVar : Option String}
    (h : outputVarOfMembers members = .ok outputVar)
    (hnull : Dictionary.get? members "outputVar" = some .null) : outputVar = none := by
  rw [outputVarOfMembers, hnull] at h
  cases h
  rfl

/-- A step of a kind that is not built in is read with all members of its data but the kind and the
name of the result. -/
theorem Step.action_eq_custom {members : Dictionary Json} {s : Step}
    (h : Step.ofJson (.obj members) = .ok s) (hkind : s.kind ∉ Action.builtinKinds) :
    s.action =
      .custom s.kind (Dictionary.erase (Dictionary.erase members "action") "outputVar") := by
  obtain ⟨kind, -, -, haction⟩ := Step.ofJson_obj_cases h
  have hk : s.kind = kind := Action.kind_of_ofMembers haction
  rw [← hk, Action.ofMembers_of_not_mem_builtinKinds hkind] at haction
  exact (Except.ok.inj haction).symm

/-- A step of a kind that is not built in is written with every member of its data, but for the
name of the result. -/
theorem Step.get?_members_of_ofJson {members : Dictionary Json} {s : Step}
    (hmembers : members.Sorted) (h : Step.ofJson (.obj members) = .ok s)
    (hkind : s.kind ∉ Action.builtinKinds) {name : String} (hname : name ≠ "outputVar") :
    Dictionary.get? s.members name = Dictionary.get? members name := by
  obtain ⟨kind, hread, -, haction⟩ := Step.ofJson_obj_cases h
  -- The kind is no member of a custom action: the step writes it by itself.
  by_cases hact : name = "action"
  · have hk : s.action.kind = kind := Action.kind_of_ofMembers haction
    rw [hact, s.get?_members_action, get?_of_kindOfMembers hread, hk]
  · rw [s.holdsFieldsOf name hact hname, Step.action_eq_custom h hkind, Action.members,
      ((hmembers.erase _).erase _).ofList_eq, Dictionary.get?_erase, if_neg hname,
      Dictionary.get?_erase, if_neg hact]

/-- The data of a step of a kind that is not built in is written as it was read, unless it gives
null as the name of the result. -/
theorem Step.toJson_of_ne_null {members : Dictionary Json} {s : Step}
    (hdata : (Json.obj members).WellFormed) (h : Step.ofJson (.obj members) = .ok s)
    (hkind : s.kind ∉ Action.builtinKinds)
    (hne : Dictionary.get? members "outputVar" ≠ some .null) : s.toJson = .obj members := by
  rw [s.toJson_eq]
  congr 1
  refine Dictionary.eq_of_get?_eq (Dictionary.sorted_ofList _) hdata.sorted fun name => ?_
  by_cases hname : name = "outputVar"
  · obtain ⟨_, -, houtput, -⟩ := Step.ofJson_obj_cases h
    rw [hname, Step.get?_members_outputVar ((ordinary_of_wellFormed hdata).1 s h).action,
      get?_of_outputVarOfMembers houtput hne]
  · exact Step.get?_members_of_ofJson hdata.sorted h hkind hname

/-- If it gives null as the name of the result, that is left out and nothing else. -/
theorem Step.toJson_of_eq_null {members : Dictionary Json} {s : Step}
    (hdata : (Json.obj members).WellFormed) (h : Step.ofJson (.obj members) = .ok s)
    (hkind : s.kind ∉ Action.builtinKinds)
    (hnull : Dictionary.get? members "outputVar" = some .null) :
    s.toJson = .obj (Dictionary.erase members "outputVar") := by
  rw [s.toJson_eq]
  congr 1
  -- Both are in order, so it is enough that every name is found with the same data.
  refine Dictionary.eq_of_get?_eq (Dictionary.sorted_ofList _) (hdata.sorted.erase _)
    fun name => ?_
  rw [Dictionary.get?_erase]
  split
  · rename_i hname
    obtain ⟨_, -, houtput, -⟩ := Step.ofJson_obj_cases h
    rw [hname, Step.get?_members_outputVar ((ordinary_of_wellFormed hdata).1 s h).action,
      eq_none_of_outputVarOfMembers houtput hnull]
    rfl
  · rename_i hname
    exact Step.get?_members_of_ofJson hdata.sorted h hkind hname

/-! ## Main result -/

/-- A step that was read from a text is read back from its data as it is written. -/
theorem Step.ofJson_toJson_of_parse? {text : String} {data : Json} {s : Step}
    (hdata : Json.parse? text = some data) (h : Step.ofJson data = .ok s) :
    Step.ofJson s.toJson = .ok s :=
  s.ofJson_toJson ((ordinary_of_wellFormed (Json.wellFormed_of_parse? hdata)).1 s h)

/-- A step that was read is read back from its data as it is written, and so is every ordinary step.
The data of a step of a kind that is not built in is written as it was read, but for a null as the
name of the result. -/
theorem Step.toJson_roundTrip :
    (∀ data s, Json.WellFormed data → Step.ofJson data = .ok s → Step.ofJson s.toJson = .ok s) ∧
    (∀ s : Step, s.Ordinary → Step.ofJson s.toJson = .ok s) ∧
    ∀ data s, Json.WellFormed data → Step.ofJson data = .ok s → s.kind ∉ Action.builtinKinds →
      ∃ members, data = .obj members ∧
        (Dictionary.get? members "outputVar" ≠ some .null → s.toJson = data) ∧
        (Dictionary.get? members "outputVar" = some .null →
          s.toJson = .obj (Dictionary.erase members "outputVar")) := by
  refine ⟨fun data s hdata h => ?_, fun s hs => s.ofJson_toJson hs, fun data s hdata h hkind => ?_⟩
  · exact s.ofJson_toJson ((ordinary_of_wellFormed hdata).1 s h)
  · obtain ⟨members, rfl⟩ := Step.exists_obj_of_ofJson h
    exact ⟨members, rfl, Step.toJson_of_ne_null hdata h hkind,
      Step.toJson_of_eq_null hdata h hkind⟩

/-- The data of a custom step that gives null as the name of its result. -/
def logData : Dictionary Json :=
  [("action", .str "log"), ("level", .nat 1), ("outputVar", .null)]

/-- The step of `logData`. -/
def logStep : Step := ⟨.custom "log" [("level", .nat 1)], none⟩

/-- The data is as a reader would give it. -/
theorem wellFormed_logData : (Json.obj logData).WellFormed := by
  refine .obj (by decide) ?_
  simp only [logData, List.forall_mem_cons]
  exact ⟨.str _, .num _, .null, fun _ h => absurd h List.not_mem_nil⟩

/-- The custom step of `logData`, read, written, and inside a condition. -/
theorem Step.toJson_roundTrip_log :
    ((Json.obj logData).WellFormed ∧ Step.ofJson (.obj logData) = .ok logStep ∧
      logStep.kind ∉ Action.builtinKinds) ∧
    Step.ofJson logStep.toJson = .ok logStep ∧
    Step.ofJson (Step.mk (.condition "yes" (some [logStep]) none) (some "x")).toJson =
      .ok ⟨.condition "yes" (some [logStep]) none, some "x"⟩ ∧
    logStep.toJson = .obj [("action", .str "log"), ("level", .nat 1)] := by
  have hlog : Step.ofJson (.obj logData) = .ok logStep := by
    rw [Step.ofJson]
    rfl
  have hkind : logStep.kind ∉ Action.builtinKinds := by decide
  have hordinary : logStep.Ordinary := ⟨hkind, by decide, by decide, by decide⟩
  obtain ⟨hread, hstep, hdata⟩ := Step.toJson_roundTrip
  refine ⟨⟨wellFormed_logData, hlog, hkind⟩, hread _ _ wellFormed_logData hlog,
    hstep _ ⟨⟨hordinary, trivial⟩, trivial⟩, ?_⟩
  obtain ⟨members, hmembers, -, hnull⟩ := hdata _ _ wellFormed_logData hlog hkind
  obtain rfl := Json.obj.inj hmembers
  exact hnull rfl

end TemplateFlow
