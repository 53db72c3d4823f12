import TemplateFlow.Flow.Data

/-!
# The weight of steps that are read

A flow that is read from data weighs less than the data (`flowWeight_lt_size`), and each of its
steps no more than its part of the data.
-/

namespace TemplateFlow

/-! ## Parts of the data -/

/-- No data is without size. -/
theorem Json.size_pos (j : Json) : 0 < j.size := by
  cases j <;> simp only [Json.size] <;> omega

/-- Dropping members does not add to the size. -/
theorem Json.sizeMembers_filter_le (p : String × Json → Bool) (members : List (String × Json)) :
    Json.sizeMembers (members.filter p) ≤ Json.sizeMembers members := by
  induction members with
  | nil => simp
  | cons e rest ih =>
    obtain ⟨k, v⟩ := e
    by_cases h : p (k, v) = true
    · simp only [List.filter_cons_of_pos h, Json.sizeMembers]
      omega
    · simp only [List.filter_cons_of_neg h, Json.sizeMembers]
      omega

/-- Steps that weigh no more than the items they are read from. -/
theorem flowWeight_le_of_mapM {items : List Json} {l : List { item : Json // item ∈ items }}
    {decode : { item : Json // item ∈ items } → Decoded Step} {flow : List Step}
    (hd : ∀ item s, decode item = .ok s → s.weight ≤ item.1.size)
    (h : l.mapM decode = .ok flow) : flowWeight flow ≤ Json.sizeItems (l.map (·.1)) := by
  induction l generalizing flow with
  | nil =>
    simp only [List.mapM_nil, pure, Except.pure] at h
    cases h
    simp [flowWeight]
  | cons item rest ih =>
    rw [List.mapM_cons] at h
    cases hs : decode item with
    | error e => simp [hs, bind, Except.bind] at h
    | ok s =>
      cases hr : rest.mapM decode with
      | error e => simp [hs, hr, bind, Except.bind] at h
      | ok steps =>
        simp only [hs, hr, bind, Except.bind, pure, Except.pure] at h
        cases h
        have h1 := hd item s hs
        have h2 := ih hr
        simp only [flowWeight, List.map_cons, Json.sizeItems]
        omega

/-- A field that has been read was decoded from some member. -/
theorem read?_eq_some_ok {α : Type} {bound : Nat} {fields : Fields bound} {name : String}
    {decode : (value : Json) → value.size < bound → Decoded α} {a : α}
    (h : fields.read? name decode = some (.ok a)) : ∃ value lt, decode value lt = .ok a := by
  simp only [Fields.read?, Option.map_eq_some_iff] at h
  obtain ⟨⟨value, lt⟩, _, hv⟩ := h
  exact ⟨value, lt, hv⟩

/-- A branch that is read or left out. -/
theorem branchWeight_le_of_orElse {bound : Nat} {fields : Fields bound} {name : String}
    {decode : (value : Json) → value.size < bound → Decoded (Option (List Step))}
    {branch : Option (List Step)} (hb : 0 < bound)
    (hd : ∀ value lt branch, decode value lt = .ok branch → branchWeight branch ≤ value.size)
    (h : Fields.orElse none (fields.read? name decode) = .ok branch) :
    branchWeight branch < bound := by
  cases hr : fields.read? name decode with
  | none =>
    rw [hr] at h
    cases h
    simpa [branchWeight] using hb
  | some r =>
    rw [hr] at h
    simp only [Fields.orElse] at h
    subst h
    obtain ⟨value, lt, hv⟩ := read?_eq_some_ok hr
    have := hd value lt branch hv
    omega

/-! ## Actions and steps -/

/-- A condition weighs no more than the members it is read from. -/
theorem Action.weight_le_of_conditionOfMembers {members : Dictionary Json}
    {decode : (value : Json) → value.size < (Json.obj members).size →
      Decoded (Option (List Step))} {a : Action}
    (hd : ∀ value lt branch, decode value lt = .ok branch → branchWeight branch ≤ value.size)
    (h : conditionOfMembers members decode = .ok a) : a.weight ≤ (Json.obj members).size := by
  simp only [conditionOfMembers, bind, Except.bind, pure, Except.pure] at h
  split at h
  · cases h
  split at h
  · cases h
  split at h
  · cases h
  -- The condition and both branches have been read, so only the last case is left.
  rename_i hTrue
  split at h
  · cases h
  rename_i hFalse
  cases h
  have h1 := branchWeight_le_of_orElse (Json.size_pos _) hd hTrue
  have h2 := branchWeight_le_of_orElse (Json.size_pos _) hd hFalse
  simp only [Action.weight]
  omega

/-- An action weighs no more than the members it is read from. -/
theorem Action.weight_le_of_ofMembers {kind : String} {members : Dictionary Json}
    {decode : (value : Json) → value.size < (Json.obj members).size →
      Decoded (Option (List Step))} {a : Action}
    (hd : ∀ value lt branch, decode value lt = .ok branch → branchWeight branch ≤ value.size)
    (h : ofMembers kind members decode = .ok a) : a.weight ≤ (Json.obj members).size := by
  -- Only conditions and custom steps carry data of any size; the other actions weigh one.
  unfold ofMembers at h
  split at h
  · exact weight_le_of_conditionOfMembers hd h
  · have hp := Json.size_pos (.obj members)
    split at h
    · simp only [callOfMembers, bind, Except.bind, pure, Except.pure] at h
      repeat' split at h
      all_goals cases h
      exact hp
    · split at h
      · simp only [callApiOfMembers, bind, Except.bind, pure, Except.pure] at h
        repeat' split at h
        all_goals cases h
        exact hp
      · split at h
        · cases hm : Declaration.ofMembers members <;> simp [hm, Functor.map, Except.map] at h
          subst h
          exact hp
        · split at h
          · cases hm : ApiConfig.ofJson (.obj members) <;>
              simp [hm, Functor.map, Except.map] at h
            subst h
            exact hp
          · cases h
            have h1 := Json.sizeMembers_filter_le (·.1 != "outputVar")
              (Dictionary.erase members "action")
            have h2 := Json.sizeMembers_filter_le (·.1 != "action") members
            simp only [Action.weight, Json.size, Dictionary.erase] at *
            omega

/-- Steps, flows and branches weigh no more than the data that they are read from, by induction on
its size. -/
theorem weight_le_size_of_size_lt (n : Nat) :
    (∀ data s, Json.size data < n → Step.ofJson data = .ok s → s.weight ≤ data.size) ∧
    (∀ data flow, Json.size data < n → flowOfJson data = .ok flow → flowWeight flow < data.size) ∧
    (∀ data branch, Json.size data < n → branchOfJson data = .ok branch →
      branchWeight branch ≤ data.size) := by
  induction n with
  | zero => simp
  | succ n ih =>
    -- Steps are read from the items of a flow, flows from the data of a branch, and branches from
    -- the members of a step, and at each turn the data gets smaller.
    obtain ⟨ihStep, ihFlow, ihBranch⟩ := ih
    have hStep : ∀ data s, Json.size data < n + 1 → Step.ofJson data = .ok s →
        s.weight ≤ data.size := by
      intro data s hn h
      unfold Step.ofJson at h
      split at h
      · rename_i members
        simp only [bind, Except.bind, pure, Except.pure] at h
        split at h
        · cases h
        split at h
        · cases h
        split at h
        · cases h
        rename_i action ha
        cases h
        exact Action.weight_le_of_ofMembers
          (fun value lt branch hv => ihBranch value branch (by omega) hv) ha
      · cases h
    have hFlow : ∀ data flow, Json.size data < n + 1 → flowOfJson data = .ok flow →
        flowWeight flow < data.size := by
      intro data flow hn h
      unfold flowOfJson at h
      split at h
      · rename_i items
        have := flowWeight_le_of_mapM (fun item s hs =>
          ihStep item.1 s (by have := Json.size_lt_of_mem item.2; omega) hs) h
        simp only [List.attach_map_subtype_val] at this
        simp only [Json.size]
        omega
      · cases h
    refine ⟨hStep, hFlow, ?_⟩
    intro data branch hn h
    unfold branchOfJson at h
    split at h
    · cases h
      simp [branchWeight]
    · cases hf : flowOfJson data with
      | error e => simp [hf, Functor.map, Except.map] at h
      | ok flow =>
        simp [hf, Functor.map, Except.map] at h
        subst h
        have := hFlow data flow hn hf
        simp only [branchWeight]
        omega

/-- A flow that was read weighs less than its data. -/
theorem flowWeight_lt_size {data : Json} {flow : List Step} (h : flowOfJson data = .ok flow) :
    flowWeight flow < data.size :=
  (weight_le_size_of_size_lt (data.size + 1)).2.1 data flow (Nat.lt_succ_self _) h

end TemplateFlow
