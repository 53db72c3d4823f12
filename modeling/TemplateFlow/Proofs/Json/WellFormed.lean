import TemplateFlow.Json.Reader
import TemplateFlow.Proofs.Dictionary

/-!
# Well-formed JSON data

The members of an object stand in the order of their names, each name once. The type of JSON data
does not say so, since an object holds a list of members; `Json.WellFormed` does, for every object
inside the data.

## Main results

* `Json.WellFormed.ofMembers`: an object of a list of members is well-formed if the members are.
* `Json.wellFormed_of_parse?`: whatever is read from a text is well-formed.
-/

namespace TemplateFlow.Json

/-- The members of every object in the data are a dictionary. -/
inductive WellFormed : Json → Prop where
  | null : WellFormed .null
  | bool (b : Bool) : WellFormed (.bool b)
  | num (n : JsonNumber) : WellFormed (.num n)
  | str (s : String) : WellFormed (.str s)
  | arr {items : List Json} : (∀ item ∈ items, WellFormed item) → WellFormed (.arr items)
  | obj {members : Dictionary Json} : members.Sorted → (∀ m ∈ members, WellFormed m.2) →
      WellFormed (.obj members)

/-- The members of an object are in the order of their names. -/
theorem WellFormed.sorted {members : Dictionary Json} (h : (Json.obj members).WellFormed) :
    members.Sorted := by
  cases h with
  | obj hmembers _ => exact hmembers

/-- The entries of a dictionary of data are well-formed, and in order. -/
def WellFormedMembers (members : Dictionary Json) : Prop :=
  members.Sorted ∧ ∀ m ∈ members, m.2.WellFormed

/-- No members at all are well-formed. -/
theorem wellFormedMembers_nil : WellFormedMembers [] :=
  ⟨List.Pairwise.nil, fun _ h => absurd h List.not_mem_nil⟩

/-- Members stay well-formed when one is put over them. -/
theorem WellFormedMembers.insert {members : Dictionary Json} (h : WellFormedMembers members)
    (name : String) {value : Json} (hvalue : value.WellFormed) :
    WellFormedMembers (Dictionary.insert members name value) := by
  refine ⟨h.1.insert name value, fun m hm => ?_⟩
  rcases Dictionary.mem_insert hm with rfl | hm
  · exact hvalue
  · exact h.2 m hm

/-- An object of well-formed members is well-formed, in whatever order they are given. -/
theorem WellFormed.ofMembers {members : List (String × Json)}
    (h : ∀ m ∈ members, m.2.WellFormed) : (Json.ofMembers members).WellFormed := by
  suffices H : ∀ d, WellFormedMembers d →
      WellFormedMembers (members.foldl (fun d e => Dictionary.insert d e.1 e.2) d) from
    have := H [] wellFormedMembers_nil
    .obj this.1 this.2
  induction members with
  | nil => exact fun d hd => hd
  | cons m members ih =>
    intro d hd
    exact ih (fun m' hm' => h m' (List.mem_cons_of_mem _ hm')) _
      (hd.insert m.1 (h m List.mem_cons_self))

/-! ## Data that is read from a text -/

/-- A reserved word is read as the data that it stands for. -/
theorem wellFormed_of_readKeyword? {keyword text rest : List Char} {value data : Json}
    (hvalue : value.WellFormed) (h : readKeyword? keyword value text = some (data, rest)) :
    data.WellFormed := by
  rw [readKeyword?] at h
  split at h
  · cases h
    exact hvalue
  · cases h

/-- What the readers with this much fuel find in a text is well-formed. -/
structure ReadsWellFormed (fuel : Nat) : Prop where
  value : ∀ depth text data rest, readValue? fuel depth text = some (data, rest) → data.WellFormed
  items : ∀ depth text items rest, readItems? fuel depth text = some (items, rest) →
    ∀ item ∈ items, item.WellFormed
  members : ∀ depth members text found rest, WellFormedMembers members →
    readMembers? fuel depth members text = some (found, rest) → WellFormedMembers found

namespace ReadsWellFormed

variable {fuel depth : Nat} {text rest : List Char}

/-- A value is well-formed if what is nested in it is. -/
theorem value_succ (ih : ReadsWellFormed fuel) {data : Json}
    (h : readValue? (fuel + 1) depth text = some (data, rest)) : data.WellFormed := by
  rw [readValue?] at h
  split at h
  · obtain ⟨⟨s, r⟩, -, hdata⟩ := Option.map_eq_some_iff.1 h
    cases hdata
    exact .str s
  · -- An array, which may be empty.
    split at h
    · cases h
    · split at h
      · cases h
        exact .arr fun _ h => absurd h List.not_mem_nil
      · obtain ⟨⟨items, r⟩, hitems, hdata⟩ := Option.map_eq_some_iff.1 h
        cases hdata
        exact .arr (ih.items _ _ _ _ hitems)
  · -- An object, whose members are put into an empty dictionary one after the other.
    split at h
    · cases h
    · split at h
      · cases h
        exact .obj wellFormedMembers_nil.1 wellFormedMembers_nil.2
      · obtain ⟨⟨members, r⟩, hread, hdata⟩ := Option.map_eq_some_iff.1 h
        cases hdata
        obtain ⟨hsorted, hmembers⟩ := ih.members _ _ _ _ _ wellFormedMembers_nil hread
        exact .obj hsorted hmembers
  · exact wellFormed_of_readKeyword? .null h
  · exact wellFormed_of_readKeyword? (.bool true) h
  · exact wellFormed_of_readKeyword? (.bool false) h
  · obtain ⟨⟨n, r⟩, -, hdata⟩ := Option.map_eq_some_iff.1 h
    cases hdata
    exact .num n

/-- Items are well-formed one by one, up to the closing bracket. -/
theorem items_succ (ih : ReadsWellFormed fuel) {items : List Json}
    (h : readItems? (fuel + 1) depth text = some (items, rest)) :
    ∀ item ∈ items, item.WellFormed := by
  rw [readItems?] at h
  obtain ⟨⟨first, r⟩, hfirst, h⟩ := Option.bind_eq_some_iff.1 h
  have hfirst := ih.value _ _ _ _ hfirst
  simp only at h
  split at h
  · obtain ⟨⟨more, r'⟩, hmore, hdata⟩ := Option.map_eq_some_iff.1 h
    cases hdata
    exact List.forall_mem_cons.2 ⟨hfirst, ih.items _ _ _ _ hmore⟩
  · cases h
    exact List.forall_mem_singleton.2 hfirst
  · cases h

/-- Members are put in one by one, in order, up to the closing brace. -/
theorem members_succ (ih : ReadsWellFormed fuel) {members found : Dictionary Json}
    (hmembers : WellFormedMembers members)
    (h : readMembers? (fuel + 1) depth members text = some (found, rest)) :
    WellFormedMembers found := by
  rw [readMembers?] at h
  split at h
  · obtain ⟨⟨name, r⟩, -, h⟩ := Option.bind_eq_some_iff.1 h
    simp only at h
    split at h
    · obtain ⟨⟨value, r'⟩, hvalue, h⟩ := Option.bind_eq_some_iff.1 h
      -- The member has been put in before the reader looks for a comma or a brace.
      have hinsert := hmembers.insert name (ih.value _ _ _ _ hvalue)
      simp only at h
      split at h
      · exact ih.members _ _ _ _ _ hinsert h
      · cases h
        exact hinsert
      · cases h
    · cases h
  · cases h

end ReadsWellFormed

/-- The three readers call each other with less fuel. -/
theorem readsWellFormed (fuel : Nat) : ReadsWellFormed fuel := by
  induction fuel with
  | zero =>
    constructor
    · simp [readValue?]
    · simp [readItems?]
    · simp [readMembers?]
  | succ fuel ih =>
    exact ⟨fun _ _ _ _ => ih.value_succ, fun _ _ _ _ => ih.items_succ,
      fun _ _ _ _ _ hmembers => ih.members_succ hmembers⟩

/-- Whatever is read from a text is well-formed. -/
theorem wellFormed_of_parse? {text : String} {data : Json} (h : parse? text = some data) :
    data.WellFormed := by
  simp only [parse?] at h
  split at h
  · rename_i hread
    split at h
    · cases h
      exact (readsWellFormed _).value _ _ _ _ hread
    · cases h
  · cases h

end TemplateFlow.Json
