import Mathlib.Data.List.Perm.Subperm
import TemplateFlow.Dictionary

/-!
# Laws of dictionaries

What a dictionary holds, how it is read after it has been put together, and that its entries alone
decide it: the names of a dictionary are in increasing order (`Sorted`), every operation keeps them
so, and two dictionaries in which every name has the same entry are equal (`eq_of_get?_eq`).
-/

namespace TemplateFlow

namespace Dictionary

variable {α : Type}

/-! ## Entries -/

/-- What is found under a name is an entry of that name. -/
theorem mem_of_get? {d : Dictionary α} {name : String} {v : α} (h : get? d name = some v) :
    (name, v) ∈ d := by
  induction d with
  | nil => cases h
  | cons x d ih =>
    obtain ⟨k, w⟩ := x
    rw [get?_cons] at h
    split at h
    · cases h
      rename_i hk
      rw [hk]
      exact List.mem_cons_self
    · exact List.mem_cons_of_mem _ (ih h)

/-- Under each of its names something is found. -/
theorem isSome_get?_of_mem_keys {d : Dictionary α} {name : String} (h : name ∈ keys d) :
    (get? d name).isSome := by
  induction d with
  | nil => cases h
  | cons x d ih =>
    obtain ⟨k, w⟩ := x
    rw [get?_cons]
    split
    · rfl
    · rename_i hne
      rcases List.mem_cons.mp h with h | h
      · exact absurd h hne
      · exact ih h

/-- An insertion leaves no other entries than those that were there and its own. -/
theorem mem_insert {d : Dictionary α} {name : String} {v : α} {x : String × α}
    (h : x ∈ insert d name v) : x = (name, v) ∨ x ∈ d := by
  induction d with
  | nil => exact .inl (List.mem_singleton.mp h)
  | cons y d ih =>
    -- The entry comes before the first one, replaces it, or goes further back.
    obtain ⟨k, w⟩ := y
    rw [insert] at h
    split at h
    · rcases List.mem_cons.mp h with h | h
      · exact .inl h
      · exact .inr h
    · split at h
      · rcases List.mem_cons.mp h with h | h
        · exact .inl h
        · exact .inr (List.mem_cons_of_mem _ h)
      · rcases List.mem_cons.mp h with h | h
        · rw [h]
          exact .inr List.mem_cons_self
        · exact (ih h).imp_right (List.mem_cons_of_mem _)

/-- Recursion over the entries of a dictionary comes to an end. -/
theorem sizeOf_snd_lt_of_mem [SizeOf α] {d : Dictionary α} {x : String × α} (h : x ∈ d) :
    sizeOf x.2 < sizeOf d := by
  have hmem := List.sizeOf_lt_of_mem h
  obtain ⟨k, v⟩ := x
  simp only [Prod.mk.sizeOf_spec] at hmem
  show sizeOf v < sizeOf d
  omega

/-! ## Reading -/

/-- The first entry is found under its name. -/
theorem get?_cons_self (k : String) (v : α) (d : Dictionary α) : get? ((k, v) :: d) k = some v := by
  rw [get?_cons, if_pos rfl]

/-- Nothing is found under a name that no entry has. -/
theorem get?_eq_none_of_forall_ne {d : Dictionary α} {name : String} (h : ∀ x ∈ d, x.1 ≠ name) :
    get? d name = none := by
  induction d with
  | nil => rfl
  | cons x d ih =>
    obtain ⟨k, v⟩ := x
    rw [get?_cons, if_neg (h (k, v) List.mem_cons_self).symm]
    exact ih fun y hy => h y (List.mem_cons_of_mem _ hy)

/-- The same in terms of the names. -/
theorem get?_eq_none_of_not_mem_keys {d : Dictionary α} {name : String} (h : name ∉ keys d) :
    get? d name = none := by
  refine get?_eq_none_of_forall_ne fun x hx heq => h ?_
  rw [← heq]
  exact List.mem_map_of_mem hx

/-- A name under which nothing is found is none of the names. -/
theorem not_mem_keys_of_get?_eq_none {d : Dictionary α} {name : String} (h : get? d name = none) :
    name ∉ keys d := by
  intro hname
  have hsome := isSome_get?_of_mem_keys hname
  rw [h] at hsome
  cases hsome

/-- Entries that are added come before those that were there. -/
theorem get?_foldl_insert (entries : List (String × α)) (d : Dictionary α) (name : String) :
    get? (entries.foldl (fun d e => insert d e.1 e.2) d) name =
      (get? (ofList entries) name).or (get? d name) := by
  induction entries generalizing d with
  | nil => rfl
  | cons e entries ih =>
    have hcons : ofList (e :: entries) =
        entries.foldl (fun d e => insert d e.1 e.2) (insert [] e.1 e.2) := rfl
    -- An entry of the list is found before one of the dictionary, in both readings.
    rw [List.foldl_cons, ih, hcons, ih, get?_insert, get?_insert, get?_nil]
    cases get? (ofList entries) name with
    | some v => rfl
    | none =>
      split <;> rfl

/-- Of two lists of entries the second is put over the first. -/
@[simp]
theorem get?_ofList_append (entries more : List (String × α)) (name : String) :
    get? (ofList (entries ++ more)) name =
      (get? (ofList more) name).or (get? (ofList entries) name) := by
  rw [ofList, List.foldl_append]
  exact get?_foldl_insert more _ name

/-- An entry counts unless a later one has its name. -/
@[simp]
theorem get?_ofList_cons (k : String) (v : α) (entries : List (String × α)) (name : String) :
    get? (ofList ((k, v) :: entries)) name =
      (get? (ofList entries) name).or (if name = k then some v else none) := by
  rw [ofList, List.foldl_cons, get?_foldl_insert, get?_insert]
  rfl

@[simp]
theorem get?_ofList_nil (name : String) : get? (ofList ([] : List (String × α))) name = none := rfl

/-- Nothing is found under a name that none of the entries has. -/
theorem get?_ofList_eq_none {entries : List (String × α)} {name : String}
    (h : ∀ x ∈ entries, x.1 ≠ name) : get? (ofList entries) name = none := by
  induction entries with
  | nil => rfl
  | cons e entries ih =>
    rw [List.forall_mem_cons] at h
    rw [get?_ofList_cons, ih h.2, if_neg h.1.symm]
    rfl

/-- Of the entries of one name the last is kept. -/
theorem get?_ofList_of_last {entries : List (String × α)} {name : String} {v : α} {i : Nat}
    (h : entries[i]? = some (name, v))
    (hlast : ∀ j x, i < j → entries[j]? = some x → x.1 ≠ name) :
    get? (ofList entries) name = some v := by
  obtain ⟨hi, hget⟩ := List.getElem?_eq_some_iff.mp h
  have hrest : get? (ofList (entries.drop (i + 1))) name = none := by
    refine get?_ofList_eq_none fun x hx => ?_
    obtain ⟨j, hj⟩ := List.mem_iff_getElem?.mp hx
    rw [List.getElem?_drop] at hj
    exact hlast (i + 1 + j) x (by omega) hj
  rw [← List.take_append_drop i entries, List.drop_eq_getElem_cons hi, hget, get?_ofList_append,
    get?_ofList_cons, hrest, if_pos rfl]
  rfl

/-- The entries put over a dictionary hide its own. -/
theorem get?_overlay (base : Dictionary α) (top : List (String × α)) (name : String) :
    get? (overlay base top) name = (get? (ofList top) name).or (get? base name) :=
  get?_foldl_insert top base name

/-- Changing the values does not change where they are found. -/
theorem get?_mapValues {β : Type} (f : α → β) (d : Dictionary α) (name : String) :
    get? (mapValues f d) name = (get? d name).map f := by
  induction d with
  | nil => rfl
  | cons x d ih =>
    obtain ⟨k, v⟩ := x
    rw [mapValues] at ih ⊢
    rw [List.map_cons, get?_cons, get?_cons, ih]
    split <;> rfl

/-- Of a dictionary that is filtered by name, the entries of the other names are gone. -/
theorem get?_filter (p : String → Bool) (d : Dictionary α) (name : String) :
    get? (d.filter fun x => p x.1) name = if p name then get? d name else none := by
  induction d with
  | nil => simp
  | cons x d ih =>
    obtain ⟨k, v⟩ := x
    by_cases hk : p k = true
    · rw [List.filter_cons_of_pos (by simpa using hk), get?_cons, ih, get?_cons]
      by_cases hname : name = k
      · rw [if_pos hname, if_pos hname, hname, if_pos hk]
      · rw [if_neg hname, if_neg hname]
    · rw [List.filter_cons_of_neg (by simpa using hk), ih, get?_cons]
      by_cases hname : name = k
      · rw [hname, if_neg hk, if_neg hk]
      · rw [if_neg hname]

/-- Only the entry of the name is gone. -/
theorem get?_erase (d : Dictionary α) (name other : String) :
    get? (erase d name) other = if other = name then none else get? d other := by
  rw [erase, get?_filter (· != name)]
  by_cases h : other = name <;> simp [h]

/-! ## Order -/

instance (d : Dictionary α) : Decidable d.Sorted :=
  inferInstanceAs (Decidable (d.Pairwise (·.1 < ·.1)))

/-- An entry is put in its place. -/
theorem Sorted.insert {d : Dictionary α} (h : d.Sorted) (name : String) (value : α) :
    (insert d name value).Sorted := by
  induction d with
  | nil => exact List.pairwise_singleton _ _
  | cons x d ih =>
    -- The entry comes before the first one, replaces it, or goes further back.
    obtain ⟨k, v⟩ := x
    obtain ⟨hk, hd⟩ := List.pairwise_cons.mp h
    rw [Dictionary.insert]
    split
    · rename_i hlt
      refine List.pairwise_cons.mpr ⟨fun y hy => ?_, h⟩
      rcases List.mem_cons.mp hy with rfl | hy
      · exact hlt
      · exact String.lt_trans hlt (hk y hy)
    · rename_i hge
      split
      · rename_i heq
        subst heq
        exact List.pairwise_cons.mpr ⟨hk, hd⟩
      · rename_i hne
        refine List.pairwise_cons.mpr ⟨fun y hy => ?_, ih hd⟩
        rcases mem_insert hy with rfl | hy
        · rw [← String.not_le]
          exact fun hle => hne (String.le_antisymm hle (String.not_lt.mp hge))
        · exact hk y hy

/-- Entries that are put in one by one end up in order. -/
theorem sorted_ofList (entries : List (String × α)) : (ofList entries).Sorted := by
  have hfold : ∀ d : Dictionary α, d.Sorted →
      (entries.foldl (fun d e => Dictionary.insert d e.1 e.2) d).Sorted := by
    induction entries with
    | nil => exact fun d hd => hd
    | cons e entries ih => exact fun d hd => ih _ (hd.insert e.1 e.2)
  exact hfold [] .nil

/-- Leaving an entry out keeps the others in order. -/
theorem Sorted.erase {d : Dictionary α} (h : d.Sorted) (name : String) : (erase d name).Sorted :=
  h.filter _

/-- The first name of a dictionary is the least. -/
theorem Sorted.le_of_get?_eq_some {k name : String} {v w : α} {d : Dictionary α}
    (h : Sorted ((k, v) :: d)) (hget : get? ((k, v) :: d) name = some w) : k ≤ name := by
  rcases List.mem_cons.mp (mem_of_get? hget) with heq | hmem
  · cases heq
    exact String.le_refl _
  · rw [← String.not_lt]
    exact String.lt_asymm ((List.pairwise_cons.mp h).1 _ hmem)

/-- The first name does not occur again. -/
theorem Sorted.get?_tail_eq_none {k : String} {v : α} {d : Dictionary α}
    (h : Sorted ((k, v) :: d)) : get? d k = none :=
  get?_eq_none_of_forall_ne fun x hx =>
    (String.ne_of_lt ((List.pairwise_cons.mp h).1 x hx)).symm

/-- Every entry is the one that its name reads. -/
theorem Sorted.get?_of_mem {d : Dictionary α} (h : d.Sorted) {name : String} {v : α}
    (hmem : (name, v) ∈ d) : get? d name = some v := by
  induction d with
  | nil => cases hmem
  | cons x d ih =>
    obtain ⟨hx, hd⟩ := List.pairwise_cons.mp h
    rcases List.mem_cons.mp hmem with rfl | hmem
    · exact get?_cons_self name v d
    · rw [get?_cons, if_neg (String.ne_of_lt (hx _ hmem)).symm]
      exact ih hd hmem

/-- Names in order do not come twice, so there is no room for others in a dictionary of the same
size. -/
theorem Sorted.keys_eq {d d' : Dictionary α} (h : d.Sorted) (h' : d'.Sorted)
    (hlength : d.length = d'.length) (hsub : keys d ⊆ keys d') : keys d = keys d' := by
  have hkeys : (keys d).Pairwise (· < ·) := List.pairwise_map.mpr h
  have hkeys' : (keys d').Pairwise (· < ·) := List.pairwise_map.mpr h'
  have hnodup : (keys d).Nodup := hkeys.imp String.ne_of_lt
  have hperm : (keys d).Perm (keys d') :=
    (List.subperm_of_subset hnodup hsub).perm_of_length_le (by simp [keys, hlength])
  exact hperm.eq_of_pairwise (fun _ _ _ _ hlt hgt => absurd hgt (String.lt_asymm hlt)) hkeys hkeys'

/-- Dictionaries with the same entry for every name are equal. -/
theorem eq_of_get?_eq {d d' : Dictionary α} (h : d.Sorted) (h' : d'.Sorted)
    (heq : ∀ name, get? d name = get? d' name) : d = d' := by
  induction d generalizing d' with
  | nil =>
    cases d' with
    | nil => rfl
    | cons y d' =>
      have hy := heq y.1
      rw [get?_cons_self] at hy
      cases hy
  | cons x d ih =>
    obtain ⟨k, v⟩ := x
    cases d' with
    | nil =>
      have hx := heq k
      rw [get?_cons_self] at hx
      cases hx
    | cons y d' =>
      obtain ⟨l, w⟩ := y
      -- Each first name has an entry in the other dictionary, so neither is less.
      have hkl : k = l := by
        refine String.le_antisymm (h.le_of_get?_eq_some (w := w) ?_)
          (h'.le_of_get?_eq_some (w := v) ?_)
        · rw [heq, get?_cons_self]
        · rw [← heq, get?_cons_self]
      subst hkl
      have hv := heq k
      rw [get?_cons_self, get?_cons_self] at hv
      cases hv
      rw [ih (List.pairwise_cons.mp h).2 (List.pairwise_cons.mp h').2 fun name => ?_]
      -- Behind the first entry its name does not come again.
      by_cases hname : name = k
      · rw [hname, h.get?_tail_eq_none, h'.get?_tail_eq_none]
      · have := heq name
        rwa [get?_cons, get?_cons, if_neg hname, if_neg hname] at this

/-- The entries of a dictionary make it up again. -/
theorem Sorted.ofList_eq {d : Dictionary α} (h : d.Sorted) : ofList d = d := by
  refine eq_of_get?_eq (sorted_ofList d) h fun name => ?_
  induction d with
  | nil => rfl
  | cons x d ih =>
    obtain ⟨k, v⟩ := x
    rw [get?_ofList_cons, ih (List.pairwise_cons.mp h).2, get?_cons]
    split
    · rename_i hname
      rw [hname, h.get?_tail_eq_none]
      rfl
    · exact Option.or_none

end Dictionary

end TemplateFlow
