import Mathlib.Data.List.Nodup
import OpCycle.Plan.Basic

/-! # Finding the fields of a plan
A name finds a field exactly if some field has it, and among distinct names it finds the only one. So each
name is that of a fixed field, or of a bound one, or of none. -/

namespace OpCycle.Plan

variable {p : Plan} {name : Text}

/-- A field that is found is one of the fields and has the name: `f ∈ p.fields ∧ f.name = name`. -/
theorem mem_of_field? {f : Field} (found : p.field? name = some f) : f ∈ p.fields ∧ f.name = name := by
  have mem := List.mem_of_find?_eq_some found
  have named := List.find?_some found
  exact ⟨List.mem_reverse.1 mem, of_decide_eq_true named⟩

/-- No field is found exactly under a name that no field has: `p.field? name = none ↔ name ∉ p.names`. -/
theorem field?_eq_none_iff : p.field? name = none ↔ name ∉ p.names := by
  simp [field?, names]

/-- A name is defined exactly if some field has it: `p.isDefined name ↔ name ∈ p.names`. -/
theorem isDefined_iff : p.isDefined name ↔ name ∈ p.names := by
  rw [isDefined, Option.isSome_iff_ne_none, Ne, field?_eq_none_iff, not_not]

/-- Among distinct names, a field is found under its own: `p.field? f.name = some f`. -/
theorem field?_of_mem (distinct : p.names.Nodup) {f : Field} (mem : f ∈ p.fields) :
    p.field? f.name = some f := by
  cases found : p.field? f.name with
  | none => exact absurd (List.mem_map_of_mem mem) (field?_eq_none_iff.1 found)
  | some g =>
    obtain ⟨memFound, same⟩ := mem_of_field? found
    rw [List.inj_on_of_nodup_map distinct memFound mem same]

/-- Among distinct names, a field is found exactly under its own:
`p.field? name = some f ↔ f ∈ p.fields ∧ f.name = name`. -/
theorem field?_eq_some_iff (distinct : p.names.Nodup) {f : Field} :
    p.field? name = some f ↔ f ∈ p.fields ∧ f.name = name := by
  refine ⟨mem_of_field?, ?_⟩
  rintro ⟨mem, rfl⟩
  exact field?_of_mem distinct mem

/-- The value of a fixed field is found under a name exactly if the field found there is fixed to it:
`p.fixed? name = some v ↔ p.field? name = some ⟨name, .fixed v⟩`. -/
theorem fixed?_eq_some_iff {v : Value} :
    p.fixed? name = some v ↔ p.field? name = some ⟨name, .fixed v⟩ := by
  unfold fixed?
  cases found : p.field? name with
  | none => simp
  | some f =>
    obtain ⟨-, rfl⟩ := mem_of_field? found
    obtain ⟨name, body⟩ := f
    cases body <;> simp

/-- The function of a bound field is found under a name exactly if the field found there is bound to it:
`p.bound? name = some function ↔ p.field? name = some ⟨name, .bound function⟩`. -/
theorem bound?_eq_some_iff {function : CycleFunction} :
    p.bound? name = some function ↔ p.field? name = some ⟨name, .bound function⟩ := by
  unfold bound?
  cases found : p.field? name with
  | none => simp
  | some f =>
    obtain ⟨-, rfl⟩ := mem_of_field? found
    obtain ⟨name, body⟩ := f
    cases body <;> simp

/-- A name is fixed exactly if the field found under it is:
`p.isFixed name ↔ ∃ v, p.field? name = some ⟨name, .fixed v⟩`. -/
theorem isFixed_iff : p.isFixed name ↔ ∃ v, p.field? name = some ⟨name, .fixed v⟩ := by
  rw [isFixed, Option.isSome_iff_exists]
  simp only [fixed?_eq_some_iff]

/-- A name is bound exactly if the field found under it is:
`p.isBound name ↔ ∃ function, p.field? name = some ⟨name, .bound function⟩`. -/
theorem isBound_iff : p.isBound name ↔ ∃ function, p.field? name = some ⟨name, .bound function⟩ := by
  rw [isBound, Option.isSome_iff_exists]
  simp only [bound?_eq_some_iff]

/-- A name has a fixed field, a bound field or no field: `(∃ v, p.field? name = some ⟨name, .fixed v⟩) ∨ (∃ function,
p.field? name = some ⟨name, .bound function⟩) ∨ p.field? name = none`. -/
theorem field?_cases (p : Plan) (name : Text) :
    (∃ v, p.field? name = some ⟨name, .fixed v⟩) ∨
      (∃ function, p.field? name = some ⟨name, .bound function⟩) ∨ p.field? name = none := by
  cases found : p.field? name with
  | none => exact .inr (.inr rfl)
  | some f =>
    obtain ⟨-, rfl⟩ := mem_of_field? found
    obtain ⟨name, body⟩ := f
    cases body with
    | fixed v => exact .inl ⟨v, rfl⟩
    | bound function => exact .inr (.inl ⟨function, rfl⟩)

end OpCycle.Plan
