import Mathlib.Data.List.Forall2
import TemplateFlow.Proofs.Dictionary
import TemplateFlow.Proofs.Number.Equality
import TemplateFlow.Value.Data
import TemplateFlow.Value.Text

/-!
# The equalities of values

Strict equality looks at two values one level at a time: it asks for the same kind, for the same
primitive and for equal parts (`strictEq_iff_matches`), where the parts of objects are found by name
(`strictEq_obj_iff`). So what one level hands on from the parts to the values holds of all equal
values (`strictEq_induction`), and the laws follow level by level.

## Main results

* `equality_laws`: strict equality is symmetric and transitive, equal values have the same text,
  truth value and data form and are loosely equal, and loose equality is symmetric. Equal to
  themselves are the values without not-a-number and promises in them. Objects are compared by size
  and by looking up the names of one of them in the other.
-/

namespace TemplateFlow

open List (Forall₂)

namespace Callable

variable {f g h : Callable}

/-- Every function is the same as itself. -/
theorem same_self (f : Callable) : f.same f = true := by
  cases f <;> simp [same]

/-- It does not matter which of two functions is compared with which. -/
theorem same_comm (f g : Callable) : f.same g = g.same f := by
  cases f <;> cases g <;> simp [same, Bool.beq_comm]

/-- Functions that are the same as a third one are the same. -/
theorem same_trans (hfg : f.same g = true) (hgh : g.same h = true) : f.same h = true := by
  cases f <;> cases g <;> cases h <;> simp_all [same]

/-- Functions that are the same are shown under one name. -/
theorem name_eq_of_same (h : f.same g = true) : f.name = g.name := by
  cases f <;> cases g <;> simp_all [same, name]

end Callable

namespace Value

variable {a b c : Value}

/-! ## One level -/

/-- One level of strict equality, in which a relation stands for the equality of the parts. The
arguments that a function appends are no part of it. -/
inductive Matches (R : Value → Value → Prop) : Value → Value → Prop where
  | undefined : Matches R .undefined .undefined
  | null : Matches R .null .null
  | bool (b : Bool) : Matches R (.bool b) (.bool b)
  | num {x y : Number} (h : x.eq y = true) : Matches R (.num x) (.num y)
  | str (s : String) : Matches R (.str s) (.str s)
  | list {as bs : List Value} (h : Forall₂ R as bs) : Matches R (.list as) (.list bs)
  | obj {as bs : Dictionary Value} (h : Forall₂ (fun x y => x.1 = y.1 ∧ R x.2 y.2) as bs) :
      Matches R (.obj as) (.obj bs)
  | func {f g : Callable} (h : f.same g = true) (as bs : List Value) :
      Matches R (.func f as) (.func g bs)

/-- Lists are equal if they are of one length and equal place by place. -/
theorem strictEqAll_iff {as bs : List Value} :
    strictEqAll as bs = true ↔ Forall₂ (fun x y => x.strictEq y = true) as bs := by
  induction as generalizing bs with
  | nil => cases bs <;> simp [strictEqAll]
  | cons a as ih => cases bs <;> simp [strictEqAll, ih]

/-- The fields of objects stand in the order of their names, so they are compared place by place. -/
theorem strictEqFields_iff {as bs : Dictionary Value} :
    strictEqFields as bs = true ↔
      Forall₂ (fun x y => x.1 = y.1 ∧ x.2.strictEq y.2 = true) as bs := by
  induction as generalizing bs with
  | nil => cases bs <;> simp [strictEqFields]
  | cons x as ih => cases bs <;> simp [strictEqFields, ih, and_assoc]

/-- Strict equality is one level of comparison, with strict equality for the parts. -/
theorem strictEq_iff_matches :
    a.strictEq b = true ↔ Matches (fun x y => x.strictEq y = true) a b := by
  constructor
  · intro h
    fun_cases strictEq a b with
    | case1 => exact .undefined
    | case2 => exact .null
    | case3 x y =>
      obtain rfl : x = y := by simpa [strictEq] using h
      exact .bool x
    | case4 x y => exact .num (by simpa [strictEq] using h)
    | case5 s t =>
      obtain rfl : s = t := by simpa [strictEq] using h
      exact .str s
    | case6 as bs => exact .list (strictEqAll_iff.mp (by simpa [strictEq] using h))
    | case7 as bs => exact .obj (strictEqFields_iff.mp (by simpa [strictEq] using h))
    | case8 f as g bs => exact .func (by simpa [strictEq] using h) as bs
    | case9 =>
      -- Values of two kinds are not equal, and neither are promises.
      simp_all [strictEq]
  · rintro (_ | _ | b | h | s | h | h | ⟨h, as, bs⟩)
    · simp [strictEq]
    · simp [strictEq]
    · simp [strictEq]
    · simpa [strictEq] using h
    · simp [strictEq]
    · simpa [strictEq] using strictEqAll_iff.mpr h
    · simpa [strictEq] using strictEqFields_iff.mpr h
    · simpa [strictEq] using h

mutual

/-- What one level hands on from the parts to the values holds of all equal values. -/
theorem strictEq_induction {R : Value → Value → Prop} (step : ∀ {a b}, Matches R a b → R a b) :
    ∀ {a b : Value}, a.strictEq b = true → R a b := by
  intro a b h
  refine step ?_
  cases strictEq_iff_matches.mp h with
  | undefined => exact .undefined
  | null => exact .null
  | bool x => exact .bool x
  | num hxy => exact .num hxy
  | str s => exact .str s
  | list hitems => exact .list (strictEqAll_induction step (strictEqAll_iff.mpr hitems))
  | obj hfields => exact .obj (strictEqFields_induction step (strictEqFields_iff.mpr hfields))
  | func hfg as bs => exact .func hfg as bs
termination_by a => sizeOf a

/-- The same for the items of two lists. -/
theorem strictEqAll_induction {R : Value → Value → Prop} (step : ∀ {a b}, Matches R a b → R a b) :
    ∀ {as bs : List Value}, strictEqAll as bs = true → Forall₂ R as bs
  | [], [], _ => .nil
  | _ :: _, _ :: _, h => by
    simp only [strictEqAll, Bool.and_eq_true] at h
    exact .cons (strictEq_induction step h.1) (strictEqAll_induction step h.2)
termination_by as => sizeOf as

/-- The same for the fields of two objects. -/
theorem strictEqFields_induction {R : Value → Value → Prop}
    (step : ∀ {a b}, Matches R a b → R a b) :
    ∀ {as bs : Dictionary Value}, strictEqFields as bs = true →
      Forall₂ (fun x y => x.1 = y.1 ∧ R x.2 y.2) as bs
  | [], [], _ => .nil
  | (_, _) :: _, (_, _) :: _, h => by
    simp only [strictEqFields, Bool.and_eq_true, beq_iff_eq] at h
    exact .cons ⟨h.1.1, strictEq_induction step h.1.2⟩ (strictEqFields_induction step h.2)
termination_by as => sizeOf as

end

/-! ## An equivalence, but for two kinds of values -/

/-- One level of comparison can be turned around, if the comparison of the parts is. -/
theorem Matches.symm {R : Value → Value → Prop} (h : Matches R a b) :
    Matches (fun x y => R y x) b a := by
  cases h with
  | undefined | null | bool x | str s => constructor
  | num h => exact .num (by rwa [Number.eq_comm])
  | list h => exact .list h.flip
  | obj h => exact .obj (Forall₂.flip (h.imp fun _ _ hxy => ⟨hxy.1.symm, hxy.2⟩))
  | func h as bs => exact .func (by rwa [Callable.same_comm]) bs as

/-- Relations between lists are composed place by place. -/
theorem forall₂_trans {α : Type} {R S T : α → α → Prop} {as bs cs : List α}
    (htrans : ∀ x y z, R x y → S y z → T x z) (hab : Forall₂ R as bs) (hbc : Forall₂ S bs cs) :
    Forall₂ T as cs := by
  induction hab generalizing cs with
  | nil =>
    cases hbc
    exact .nil
  | cons hxy _ ih =>
    cases hbc with
    | cons hyz hbc => exact .cons (htrans _ _ _ hxy hyz) (ih hbc)

/-- Two levels of comparison make one, if the comparisons of the parts do. -/
theorem Matches.trans {R S T : Value → Value → Prop} (htrans : ∀ x y z, R x y → S y z → T x z)
    (hab : Matches R a b) (hbc : Matches S b c) : Matches T a c := by
  cases hab with
  | undefined | null | bool x | str s =>
    cases hbc
    constructor
  | num h =>
    cases hbc with
    | num h' => exact .num (Number.eq_trans h h')
  | list h =>
    cases hbc with
    | list h' => exact .list (forall₂_trans htrans h h')
  | obj h =>
    cases hbc with
    | obj h' =>
      refine .obj (forall₂_trans (fun x y z hxy hyz => ?_) h h')
      exact ⟨hxy.1.trans hyz.1, htrans _ _ _ hxy.2 hyz.2⟩
  | func h as bs =>
    cases hbc with
    | func h' _ cs => exact .func (Callable.same_trans h h') as cs

/-- Strict equality does not depend on the order of the values. -/
theorem strictEq_symm (h : a.strictEq b = true) : b.strictEq a = true := by
  have step : ∀ {a b : Value}, Matches (fun x y => y.strictEq x = true) a b →
      b.strictEq a = true := fun h => strictEq_iff_matches.mpr h.symm
  exact strictEq_induction step h

/-- The two orders of comparison give the same answer. -/
theorem strictEq_comm (a b : Value) : a.strictEq b = b.strictEq a :=
  Bool.eq_iff_iff.mpr ⟨strictEq_symm, strictEq_symm⟩

/-- Values that are equal to one value are equal to each other. -/
theorem strictEq_trans (hab : a.strictEq b = true) (hbc : b.strictEq c = true) :
    a.strictEq c = true := by
  -- The third value changes from level to level, so the induction is for all of them.
  have step : ∀ {a b : Value},
      Matches (fun x y => ∀ z, y.strictEq z = true → x.strictEq z = true) a b →
      ∀ c, b.strictEq c = true → a.strictEq c = true := by
    intro a b h c hbc
    have hbc' := strictEq_iff_matches.mp hbc
    exact strictEq_iff_matches.mpr (h.trans (fun _ _ z hxy hyz => hxy z hyz) hbc')
  exact strictEq_induction step hab c hbc

/-- The value itself and the values in its lists and objects, at any depth. What a function or a
promise keeps is not to be seen. -/
inductive HasPart : Value → Value → Prop where
  | self (v : Value) : HasPart v v
  | item {items : List Value} {x w : Value} (hx : x ∈ items) (hw : HasPart x w) :
      HasPart (.list items) w
  | field {fields : Dictionary Value} {x : String × Value} {w : Value} (hx : x ∈ fields)
      (hw : HasPart x.2 w) : HasPart (.obj fields) w

/-- Not-a-number, or a promise. -/
inductive EqualsNothing : Value → Prop where
  | nan : EqualsNothing (.num .nan)
  | resolved (task : Option Site) (v : Value) : EqualsNothing (.resolved task v)
  | rejected (task : Option Site) (message : String) : EqualsNothing (.rejected task message)

/-- Not-a-number and promises are not equal to anything, themselves included. -/
theorem EqualsNothing.strictEq (h : a.EqualsNothing) (b : Value) : a.strictEq b = false := by
  cases h <;> cases b <;> rfl

/-- A list is equal to itself if its items are. -/
theorem strictEq_self_list {items : List Value} :
    (list items).strictEq (list items) = true ↔ ∀ x ∈ items, x.strictEq x = true := by
  rw [strictEq, strictEqAll_iff, List.forall₂_same]

/-- An object is equal to itself if its fields are. -/
theorem strictEq_self_obj {fields : Dictionary Value} :
    (obj fields).strictEq (obj fields) = true ↔ ∀ x ∈ fields, x.2.strictEq x.2 = true := by
  rw [strictEq, strictEqFields_iff, List.forall₂_same]
  simp

/-- If a value is equal to itself, so is every part of it. -/
theorem HasPart.strictEq_self {w : Value} (hw : a.HasPart w) (h : a.strictEq a = true) :
    w.strictEq w = true := by
  induction hw with
  | self v => exact h
  | item hx _ ih => exact ih (strictEq_self_list.mp h _ hx)
  | field hx _ ih => exact ih (strictEq_self_obj.mp h _ hx)

/-- A value is equal to itself if nothing in it is equal to nothing. -/
theorem strictEq_self_of_parts :
    ∀ {a : Value}, (∀ w, a.HasPart w → ¬ w.EqualsNothing) → a.strictEq a = true
  | .undefined, _ => rfl
  | .null, _ => rfl
  | .bool b, _ => by simp [strictEq]
  | .num x, h => by
    rw [strictEq, Number.eq_self_iff]
    rintro rfl
    exact h _ (.self _) .nan
  | .str s, _ => by simp [strictEq]
  | .list items, h =>
    strictEq_self_list.mpr fun x hx => strictEq_self_of_parts fun w hw => h w (.item hx hw)
  | .obj fields, h => by
    refine strictEq_self_obj.mpr fun x hx => ?_
    have := Dictionary.sizeOf_snd_lt_of_mem hx
    exact strictEq_self_of_parts fun w hw => h w (.field hx hw)
  | .func f trailing, _ => by rw [strictEq, Callable.same_self]
  | .resolved task v, h => absurd (.resolved task v) (h _ (.self _))
  | .rejected task message, h => absurd (.rejected task message) (h _ (.self _))

/-- Equal to themselves are the values that are put together without not-a-number and promises. -/
theorem strictEq_self_iff :
    a.strictEq a = true ↔ ∀ w, a.HasPart w → ¬ w.EqualsNothing := by
  refine ⟨fun h w hw hnothing => ?_, strictEq_self_of_parts⟩
  have hself := hw.strictEq_self h
  rw [hnothing.strictEq w] at hself
  cases hself

/-! ## Objects -/

/-- Objects are equal if they are of one size and every field of the one is found, with an equal
value, in the other. The sizes then rule out further fields of the other. -/
theorem strictEq_obj_iff {as bs : Dictionary Value} (has : as.Sorted) (hbs : bs.Sorted) :
    (obj as).strictEq (obj bs) = true ↔ as.length = bs.length ∧
      ∀ x ∈ as, ∃ v, bs.get? x.1 = some v ∧ x.2.strictEq v = true := by
  rw [strictEq, strictEqFields_iff]
  constructor
  · intro h
    refine ⟨h.length_eq, fun x hx => ?_⟩
    -- The field of the other object stands in the same place.
    obtain ⟨i, hi, rfl⟩ := List.getElem_of_mem hx
    have hi' : i < bs.length := h.length_eq ▸ hi
    obtain ⟨hname, heq⟩ := h.get hi hi'
    refine ⟨bs[i].2, ?_, heq⟩
    show bs.get? (as.get ⟨i, hi⟩).1 = some bs[i].2
    rw [hname]
    exact hbs.get?_of_mem (List.getElem_mem hi')
  · rintro ⟨hlength, h⟩
    have hnames : as.keys = bs.keys := by
      refine Dictionary.Sorted.keys_eq has hbs hlength fun name hname => ?_
      obtain ⟨x, hx, rfl⟩ := List.mem_map.mp hname
      obtain ⟨v, hv, -⟩ := h x hx
      exact List.mem_map.mpr ⟨_, Dictionary.mem_of_get? hv, rfl⟩
    -- In both objects the names stand in order, so equal fields stand in one place.
    refine List.forall₂_iff_get.mpr ⟨hlength, fun i hi hi' => ?_⟩
    have hname : as[i].1 = bs[i].1 := by
      have := List.getElem_of_eq hnames (i := i) (by simpa [Dictionary.keys] using hi)
      simpa [Dictionary.keys] using this
    obtain ⟨v, hv, heq⟩ := h as[i] (List.getElem_mem hi)
    have hfound : bs.get? bs[i].1 = some bs[i].2 := hbs.get?_of_mem (List.getElem_mem hi')
    rw [hname, hfound] at hv
    cases hv
    exact ⟨hname, heq⟩

/-! ## Equal values in use -/

/-- Two values have the same text, truth value and data form, and both or neither of them are
`null` or `undefined`. -/
structure SameForms (a b : Value) : Prop where
  text : a.toText = b.toText
  truthy : a.isTruthy = b.isTruthy
  nullish : a.isNullish = b.isNullish
  data : a.toJson = b.toJson

/-- Items with the same forms have the same texts in a list, also those shown as nothing. -/
theorem itemTexts_congr {as bs : List Value} (h : Forall₂ SameForms as bs) :
    itemTexts as = itemTexts bs := by
  induction h with
  | nil => rfl
  | cons hxy _ ih => rw [itemTexts, itemTexts, hxy.nullish, hxy.text, ih]

/-- Items with the same forms have the same data forms. -/
theorem toJsonAll_congr {as bs : List Value} (h : Forall₂ SameForms as bs) :
    toJsonAll as = toJsonAll bs := by
  induction h with
  | nil => rfl
  | cons hxy _ ih => rw [toJsonAll, toJsonAll, hxy.data, ih]

/-- Fields with the same forms have the same data forms. -/
theorem toJsonFields_congr {as bs : Dictionary Value}
    (h : Forall₂ (fun x y => x.1 = y.1 ∧ SameForms x.2 y.2) as bs) :
    toJsonFields as = toJsonFields bs := by
  induction h with
  | nil => rfl
  | cons hxy _ ih => rw [toJsonFields, toJsonFields, hxy.1, hxy.2.data, ih]

/-- Values whose parts have the same forms have the same forms themselves, and so do both zeros. -/
theorem Matches.sameForms (h : Matches SameForms a b) : SameForms a b := by
  cases h with
  | undefined | null | bool x | str s => exact ⟨rfl, rfl, rfl, rfl⟩
  | num h =>
    refine ⟨?_, ?_, rfl, ?_⟩
    · exact Number.toText_congr h
    · exact Number.truth_congr h
    · exact Number.toJson_congr h
  | list h =>
    refine ⟨?_, rfl, rfl, ?_⟩
    · rw [toText, toText, itemTexts_congr h]
    · rw [toJson, toJson, toJsonAll_congr h]
  | obj h =>
    refine ⟨rfl, rfl, rfl, ?_⟩
    rw [toJson, toJson, toJsonFields_congr h]
  | func h as bs =>
    refine ⟨?_, rfl, rfl, rfl⟩
    rw [toText, toText, Callable.name_eq_of_same h]

/-! ## Loose equality -/

/-- Whether two values are compared as numbers does not depend on their order. -/
theorem comparedAsNumbers_comm (a b : Value) : comparedAsNumbers a b = comparedAsNumbers b a := by
  cases a <;> cases b <;> rfl

/-- Loose equality does not depend on the order of the values. -/
theorem looseEq_comm (a b : Value) : a.looseEq b = b.looseEq a := by
  rw [looseEq, looseEq, Bool.or_comm, Bool.and_comm, comparedAsNumbers_comm, Number.eq_comm,
    strictEq_comm]

/-- A truth value is a number other than not-a-number. -/
theorem toNumber_bool_eq_self (x : Bool) : (bool x).toNumber.eq (bool x).toNumber = true := by
  rw [Number.eq_self_iff]
  cases x <;> decide

/-- Values of one kind are compared strictly, unless they are truth values. -/
theorem looseEq_of_strictEq (h : a.strictEq b = true) : a.looseEq b = true := by
  cases strictEq_iff_matches.mp h with
  | undefined | null => rfl
  | bool x => exact toNumber_bool_eq_self x
  | num h | str s | list h | obj h | func h as bs => exact h

/-! ## The laws -/

/-- Strict equality is symmetric and transitive, and a value equals itself if neither not-a-number
nor a promise is in it. Equal values are loosely equal and have the same text, truth value and data
form, and are nullish or not alike. Loose equality is symmetric.

Two objects, whose fields are in the order of their names, are equal exactly if they are of one size
and each field of the first is found with an equal value in the second. So the laws are laws of this
comparison, which looks at the names of one object only. -/
theorem equality_laws (a b c : Value) :
    a.strictEq b = b.strictEq a ∧
      (a.strictEq b = true → b.strictEq c = true → a.strictEq c = true) ∧
      (a.strictEq a = true ↔ ∀ w, a.HasPart w → ¬ w.EqualsNothing) ∧
      (a.strictEq b = true → a.looseEq b = true) ∧
      a.looseEq b = b.looseEq a ∧
      (a.strictEq b = true → SameForms a b) ∧
      ∀ as bs : Dictionary Value, as.Sorted → bs.Sorted →
        ((obj as).strictEq (obj bs) = true ↔ as.length = bs.length ∧
          ∀ x ∈ as, ∃ v, bs.get? x.1 = some v ∧ x.2.strictEq v = true) :=
  ⟨strictEq_comm a b, strictEq_trans, strictEq_self_iff, looseEq_of_strictEq, looseEq_comm a b,
    strictEq_induction Matches.sameForms, fun _ _ => strictEq_obj_iff⟩

/-- A zero of either sign in a list, and a null. -/
def sampleFields (negative : Bool) : Dictionary Value :=
  [("at", .list [.num (Number.zero negative), .str "x"]), ("by", .null)]

/-- The sign of zero is not to be seen, whatever surrounds it. -/
theorem equality_laws_sampleFields :
    ((sampleFields true).Sorted ∧ (sampleFields false).Sorted) ∧
      (obj (sampleFields true)).strictEq (obj (sampleFields false)) = true ∧
      (obj (sampleFields true)).looseEq (obj (sampleFields false)) = true ∧
      SameForms (obj (sampleFields true)) (obj (sampleFields false)) ∧
      ∀ x ∈ sampleFields true,
        ∃ v, (sampleFields false).get? x.1 = some v ∧ x.2.strictEq v = true := by
  have hsorted : ∀ negative, (sampleFields negative).Sorted := fun _ =>
    List.pairwise_pair.mpr (show "at" < "by" by decide)
  have h : (obj (sampleFields true)).strictEq (obj (sampleFields false)) = true := by decide
  obtain ⟨-, -, -, hloose, -, hforms, hobj⟩ :=
    equality_laws (obj (sampleFields true)) (obj (sampleFields false)) (obj (sampleFields true))
  have hfields := (hobj _ _ (hsorted true) (hsorted false)).mp h
  exact ⟨⟨hsorted true, hsorted false⟩, h, hloose h, hforms h, hfields.2⟩

end Value

end TemplateFlow
