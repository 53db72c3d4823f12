import TemplateFlow.Json.Decode
import TemplateFlow.Proofs.Dictionary

/-!
# Laws of reading domain values

The fields of a record that is an object are its members (`Fields.read?_ofMembers`), and where all
of them are read well the record is (`Fields.check_eq_ok`). A list is read item by item
(`Json.toListWith_arr`), so one that was written item by item is read back if its items are
(`mapM_map_eq_ok`).
-/

namespace TemplateFlow

/-! ## Fields -/

namespace Fields

variable {α : Type} {bound : Nat}

/-- A field is read from the member of its name. -/
theorem read?_ofMembers (declared : List String) (members : Dictionary Json) (name : String)
    (decode : Json → Decoded α) :
    (ofMembers declared members).read? name (fun value _ => decode value) =
      (Dictionary.get? members name).map decode := by
  simp only [read?, ofMembers]
  split
  · rename_i v hv
    simp [hv]
  · rename_i hv
    simp [hv]

/-- Whether fields stand alone does not change what is in them. -/
theorem read?_alone (fields : Fields bound) (name : String)
    (decode : (value : Json) → value.size < bound → Decoded α) :
    fields.alone.read? name decode = fields.read? name decode := rfl

/-- Fields that are all read well pass the check. -/
theorem check_eq_ok {fields : Fields bound} {failures : List (String × Option DecodeError)}
    (h : ∀ x ∈ failures, x.2 = none) : fields.check failures = .ok () := by
  have hnone : fields.order.findSome? (fun name => (failures.lookup name).join) = none := by
    rw [List.findSome?_eq_none_iff]
    intro name _
    cases hl : failures.lookup name with
    | none => rfl
    | some failure => exact h _ (Dictionary.mem_of_get? hl)
  rw [check, hnone]

@[simp]
theorem failure?_some_ok (a : α) : failure? (some (.ok a : Decoded α)) = none := rfl

@[simp]
theorem require_some (fields : Fields bound) (name : String) (read : Decoded α) :
    fields.require name (some read) = read := rfl

/-- An object may have more members than there are fields. -/
@[simp]
theorem finish_ofMembers (declared : List String) (members : Dictionary Json) (value : α) :
    (ofMembers declared members).finish value = .ok value := rfl

end Fields

/-! ## Scalars and lists -/

@[simp]
theorem Json.toNat64_nat (n : Nat) : (Json.nat n).toNat64 = .ok n := by
  rw [Json.nat, Json.toNat64, if_pos (Int.natCast_nonneg n)]
  rfl

/-- A list whose items are read alike, wherever they stand, is read item by item. -/
theorem Json.toListWith_arr {α : Type} (items : List Json) (decode : Json → Decoded α) :
    (Json.arr items).toListWith (fun item _ => decode item) = items.mapM decode := by
  rw [toListWith, mapItems, List.mapM_subtype fun _ _ => rfl, List.unattach_attach]

/-- What is written item by item is read back item by item. -/
theorem mapM_map_eq_ok {α : Type} {encode : α → Json} {decode : Json → Decoded α} {l : List α}
    (h : ∀ a ∈ l, decode (encode a) = .ok a) : (l.map encode).mapM decode = .ok l := by
  induction l with
  | nil => rfl
  | cons a l ih =>
    rw [List.map_cons, List.mapM_cons, h a List.mem_cons_self,
      ih fun b hb => h b (List.mem_cons_of_mem _ hb)]
    rfl

end TemplateFlow
