/-!
# Dictionaries

Named entries in increasing order of their names, each name once: bindings, object values, data
objects, catalogs. Because the order is fixed by the names, two dictionaries with the same entries
are equal, and every listing of names comes out sorted without further work.

The names are compared by code point. The main facts are the reading laws of `insert`:
`get?_insert_self`, `get?_insert_of_ne`, and both in one as `get?_insert`.
-/

namespace TemplateFlow

/-- Entries by name, in the order of their names. -/
abbrev Dictionary (α : Type) := List (String × α)

namespace Dictionary

variable {α β : Type}

/-- The names are strictly increasing. -/
def Sorted (d : Dictionary α) : Prop := d.Pairwise (·.1 < ·.1)

/-- The entry of a name. -/
def get? (d : Dictionary α) (name : String) : Option α :=
  List.lookup name d

/-- Adds an entry in its place, replacing one of the same name. -/
def insert : Dictionary α → String → α → Dictionary α
  | [], name, value => [(name, value)]
  | (k, v) :: rest, name, value =>
    if name < k then (name, value) :: (k, v) :: rest
    else if name = k then (name, value) :: rest
    else (k, v) :: insert rest name value

/-- The dictionary without one name. -/
def erase (d : Dictionary α) (name : String) : Dictionary α :=
  d.filter (·.1 != name)

/-- Whether a name has an entry. -/
def contains (d : Dictionary α) (name : String) : Bool :=
  (d.get? name).isSome

/-- The names, in order. -/
def keys (d : Dictionary α) : List String :=
  d.map (·.1)

/-- The dictionary of a list of entries, of which the last of a name is kept. -/
def ofList (entries : List (String × α)) : Dictionary α :=
  entries.foldl (fun d e => insert d e.1 e.2) []

/-- `base` with every entry of `top` put over it. -/
def overlay (base top : Dictionary α) : Dictionary α :=
  top.foldl (fun d e => insert d e.1 e.2) base

/-- The entries with a function applied to their values. -/
def mapValues (f : α → β) (d : Dictionary α) : Dictionary β :=
  d.map fun (name, value) => (name, f value)

/-! ## Reading laws -/

@[simp]
theorem get?_nil (name : String) : get? ([] : Dictionary α) name = none := rfl

theorem get?_cons (k name : String) (v : α) (rest : Dictionary α) :
    get? ((k, v) :: rest) name = if name = k then some v else get? rest name := by
  rw [get?, List.lookup_cons]
  by_cases h : name = k
  · simp [h]
  · have hb : (name == k) = false := by simp [h]
    simp [get?, h, hb]

/-- An inserted entry is read back. -/
@[simp]
theorem get?_insert_self (d : Dictionary α) (name : String) (value : α) :
    get? (insert d name value) name = some value := by
  induction d with
  | nil => simp [insert, get?_cons]
  | cons e rest ih =>
    obtain ⟨k, v⟩ := e
    simp only [insert]
    split
    · simp [get?_cons]
    · split
      · simp [get?_cons]
      · rename_i hne
        simp [get?_cons, hne, ih]

/-- Inserting one name leaves the entries of the others. -/
theorem get?_insert_of_ne (d : Dictionary α) {name other : String} (value : α)
    (h : other ≠ name) : get? (insert d name value) other = get? d other := by
  induction d with
  | nil => simp [insert, get?_cons, h]
  | cons e rest ih =>
    obtain ⟨k, v⟩ := e
    simp only [insert]
    split
    · simp [get?_cons, h]
    · split
      · rename_i heq
        subst heq
        simp [get?_cons, h]
      · simp [get?_cons, ih]

/-- The entry of any name after one insertion. -/
theorem get?_insert (d : Dictionary α) (name other : String) (value : α) :
    get? (insert d name value) other = if other = name then some value else get? d other := by
  by_cases h : other = name
  · subst h
    simp
  · simp [h, get?_insert_of_ne]

end Dictionary

end TemplateFlow
