import TemplateFlow.Proofs.Number.Integral
import TemplateFlow.Proofs.Value.Equality

/-!
# The data form of a value

A value that has become data and then a value again is the value that it was, with `null` in place
of everything in it that is no data: `undefined`, functions, promises and the numbers that are not
finite (`Value.dataOnly`). Nothing else is changed but the sign of zero, which is not to be seen. So
the second time it has the same data form.

An integral number below `2 ^ 53` becomes an integer, and the number made of that integer is equal
to it since integers of that size are not rounded. Every other finite number stays what it is.

## Main results

* `ofJson_toJson_dataOnly`: what is left of a value in its data form.
-/

namespace TemplateFlow

/-- A finite number is equal to the number that its data form stands for. -/
theorem Number.exists_ofJson_toJson {x : Number} (h : x.isFinite = true) :
    ∃ y, Value.ofJson x.toJson = .num y ∧ y.eq x = true := by
  rw [toJson]
  cases hsmall : x.toSmallInt? with
  | some n => exact ⟨.ofInt n, rfl, ofInt_eq_of_toSmallInt? hsmall⟩
  | none =>
    refine ⟨x, ?_, eq_self_iff.mpr ?_⟩
    · simp only [Json.float, if_pos h]
      rfl
    · rintro rfl
      cases h

/-- Numbers that are not finite become `null`. -/
theorem Number.toJson_of_not_finite {x : Number} (h : x.isFinite = false) : x.toJson = .null := by
  cases x with
  | nan | infinity s => rfl
  | finite s m e hc => cases h

namespace Value

mutual

/-- The value with `null` in place of everything in it, at any depth, that is no data. -/
def dataOnly : Value → Value
  | .undefined | .func _ _ | .resolved _ _ | .rejected _ _ => .null
  | .num x => if x.isFinite then .num x else .null
  | .list items => .list (dataOnlyAll items)
  | .obj fields => .obj (dataOnlyFields fields)
  | .null => .null
  | .bool b => .bool b
  | .str s => .str s

/-- Every value of a list with its data only. -/
def dataOnlyAll : List Value → List Value
  | [] => []
  | item :: rest => dataOnly item :: dataOnlyAll rest

/-- The fields of an object with their data only. -/
def dataOnlyFields : List (String × Value) → List (String × Value)
  | [] => []
  | (name, value) :: rest => (name, dataOnly value) :: dataOnlyFields rest

end

/-! ## The data of a value as a value -/

mutual

/-- The data of a value, read back, is strictly equal to what is left of the value as data. -/
theorem strictEq_ofJson_toJson : ∀ v : Value, (ofJson v.toJson).strictEq v.dataOnly = true
  | .undefined | .null | .func _ _ | .resolved _ _ | .rejected _ _ => rfl
  | .bool b => beq_self_eq_true b
  | .num x => by
    rw [toJson, dataOnly]
    cases hfinite : x.isFinite with
    | true =>
      obtain ⟨y, hy, heq⟩ := Number.exists_ofJson_toJson hfinite
      rw [hy]
      exact heq
    | false =>
      rw [Number.toJson_of_not_finite hfinite]
      rfl
  | .str s => beq_self_eq_true s
  | .list items => strictEqAll_ofJson_toJson items
  | .obj fields => strictEqFields_ofJson_toJson fields

/-- The same for the items of a list. -/
theorem strictEqAll_ofJson_toJson :
    ∀ items : List Value, strictEqAll (ofJsonAll (toJsonAll items)) (dataOnlyAll items) = true
  | [] => rfl
  | item :: rest => by
    rw [toJsonAll, ofJsonAll, dataOnlyAll, strictEqAll, strictEq_ofJson_toJson item,
      strictEqAll_ofJson_toJson rest]
    rfl

/-- The same for the fields of an object. -/
theorem strictEqFields_ofJson_toJson :
    ∀ fields : Dictionary Value,
      strictEqFields (ofJsonMembers (toJsonFields fields)) (dataOnlyFields fields) = true
  | [] => rfl
  | (name, value) :: rest => by
    rw [toJsonFields, ofJsonMembers, dataOnlyFields, strictEqFields, strictEq_ofJson_toJson value,
      strictEqFields_ofJson_toJson rest, beq_self_eq_true]
    rfl

end

/-! ## The data form of what is left -/

mutual

/-- What is left of a value as data has the data form of the value. -/
theorem toJson_dataOnly : ∀ v : Value, v.dataOnly.toJson = v.toJson
  | .undefined | .null | .func _ _ | .resolved _ _ | .rejected _ _ => rfl
  | .bool b => rfl
  | .num x => by
    rw [dataOnly]
    cases hfinite : x.isFinite with
    | true => rfl
    | false => exact (Number.toJson_of_not_finite hfinite).symm
  | .str s => rfl
  | .list items => congrArg Json.arr (toJsonAll_dataOnlyAll items)
  | .obj fields => congrArg Json.obj (toJsonFields_dataOnlyFields fields)

/-- The same for the items of a list. -/
theorem toJsonAll_dataOnlyAll :
    ∀ items : List Value, toJsonAll (dataOnlyAll items) = toJsonAll items
  | [] => rfl
  | item :: rest => by
    rw [dataOnlyAll, toJsonAll, toJsonAll, toJson_dataOnly item, toJsonAll_dataOnlyAll rest]

/-- The same for the fields of an object. -/
theorem toJsonFields_dataOnlyFields :
    ∀ fields : Dictionary Value, toJsonFields (dataOnlyFields fields) = toJsonFields fields
  | [] => rfl
  | (name, value) :: rest => by
    rw [dataOnlyFields, toJsonFields, toJsonFields, toJson_dataOnly value,
      toJsonFields_dataOnlyFields rest]

end

/-- A value that has become data is read back as what is data in it, and that has the same data form
again. -/
theorem ofJson_toJson_dataOnly (v : Value) :
    (ofJson v.toJson).strictEq v.dataOnly = true ∧ (ofJson v.toJson).toJson = v.toJson := by
  have heq := strictEq_ofJson_toJson v
  have hforms : SameForms (ofJson v.toJson) v.dataOnly := strictEq_induction Matches.sameForms heq
  exact ⟨heq, hforms.data.trans (toJson_dataOnly v)⟩

end Value

end TemplateFlow
