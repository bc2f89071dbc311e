import OpCycle.Proofs.Binary64.Content

/-! # Comparing sums and products of floats
Comparisons with the float that is no number are false, and so are those below zero of what has no minus. A zero and
the float that is no number leave no trace in a comparison with a sum but these, and a sum is finite only if its terms
are. -/

namespace OpCycle.Binary64

open Float.Model (Format UnpackedFloat)
open Float.Model.UnpackedFloat (Sign packComponents unpackMantissa_packComponents unpackExponent_packComponents
  unpackSign_packComponents)

variable {x y w : Float}

/-- The content of the float zero is the positive zero: `content 0 = .zero .positive`. -/
theorem content_zero : content 0 = .zero .positive := rfl

/-! ## Comparisons -/

/-- The content has no minus, a zero's aside. -/
inductive IsUnsigned : UnpackedFloat → Prop
  /-- No number. -/
  | notANumber : IsUnsigned .notANumber
  /-- Positive infinity. -/
  | infinity : IsUnsigned (.infinity .positive)
  /-- A zero. -/
  | zero (s) : IsUnsigned (.zero s)
  /-- A positive number. -/
  | finite (m e pos) : IsUnsigned (.finite .positive m e pos)

/-- A float is not below zero if it has no minus: `¬ x < 0 ↔ IsUnsigned (content x)`. -/
theorem not_lt_zero_iff : ¬ x < 0 ↔ IsUnsigned (content x) := by
  rw [lt_iff, content_zero]
  cases content x with
  | notANumber => exact ⟨fun _ => .notANumber, fun _ => nofun⟩
  | infinity s =>
    cases s with
    | positive => exact ⟨fun _ => .infinity, fun _ => nofun⟩
    | negative => exact ⟨fun h => absurd rfl h, nofun⟩
  | zero s => exact ⟨fun _ => .zero s, fun _ => nofun⟩
  | finite s m e pos =>
    cases s with
    | positive => exact ⟨fun _ => .finite m e pos, fun _ => nofun⟩
    | negative => exact ⟨fun h => absurd rfl h, nofun⟩

/-- A float without a minus that is a number other than zero is above zero: `0 < x`. -/
theorem lt_of_isUnsigned (unsigned : IsUnsigned (content x)) (number : content x ≠ .notANumber)
    (nonzero : ∀ s, content x ≠ .zero s) : 0 < x := by
  rw [lt_iff, content_zero]
  generalize content x = u at *
  cases unsigned with
  | notANumber => exact absurd rfl number
  | infinity => rfl
  | zero s => exact absurd rfl (nonzero s)
  | finite m e pos => rfl

/-- A finite float without a minus is at least zero: `0 ≤ x`. -/
theorem le_of_isUnsigned (unsigned : IsUnsigned (content x)) (finite : x.isFinite = true) : 0 ≤ x := by
  rw [le_iff, content_zero]
  rw [isFinite_eq] at finite
  generalize content x = u at *
  cases unsigned with
  | notANumber => cases finite
  | infinity => cases finite
  | zero s => exact .inr rfl
  | finite m e pos => exact .inl rfl

/-- What is not at most zero has no minus and is no zero: `IsUnsigned (content x) ∧ ∀ s, content x ≠ .zero s`. -/
theorem isUnsigned_of_not_le (h : ¬ x ≤ 0) : IsUnsigned (content x) ∧ ∀ s, content x ≠ .zero s := by
  rw [le_iff, content_zero] at h
  generalize content x = u at *
  cases u with
  | notANumber => exact ⟨.notANumber, nofun⟩
  | infinity s =>
    cases s with
    | positive => exact ⟨.infinity, nofun⟩
    | negative => exact absurd (.inl rfl) h
  | zero s => exact absurd (.inr rfl) h
  | finite s m e pos =>
    cases s with
    | positive => exact ⟨.finite m e pos, nofun⟩
    | negative => exact absurd (.inl rfl) h

/-- Nothing is below the float that is no number: `¬ x < y`. -/
theorem not_lt_notANumber (h : content y = .notANumber) : ¬ x < y := by
  rw [lt_iff, h]
  cases content x <;> nofun

/-- The sign of a zero does not count in a comparison: `u.compare (.zero s) = u.compare (.zero t)`. -/
theorem compare_zero (u : UnpackedFloat) (s t : Sign) : u.compare (.zero s) = u.compare (.zero t) := by
  cases u with
  | notANumber => rfl
  | infinity r => cases r <;> rfl
  | zero r => rfl
  | finite r m e pos => cases r <;> rfl

/-! ## Sums -/

/-- The float that is no number makes a sum none: `content (y + w) = .notANumber`. -/
theorem content_add_notANumber (h : content w = .notANumber) : content (y + w) = .notANumber := by
  have none : UnpackedFloat.add .binary64 (content y) .notANumber = .notANumber := by
    cases content y <;> rfl
  rw [content_add, h, none, stored_notANumber]

/-- A zero changes no sum, as far as comparisons go: `x < y + w ↔ x < y`. -/
theorem lt_add_zero_iff {s : Sign} (h : content w = .zero s) : x < y + w ↔ x < y := by
  have same := stored_content y
  rw [lt_iff, lt_iff, content_add, h]
  generalize content y = u at *
  cases u with
  | notANumber =>
    show (content x).compare (stored .notANumber) = _ ↔ _
    rw [same]
  | infinity r =>
    show (content x).compare (stored (.infinity r)) = _ ↔ _
    rw [same]
  | zero r =>
    show (content x).compare (stored (if (r == s) = true then .zero r else .zero .positive)) = _ ↔ _
    split
    · rw [stored_zero]
    · rw [stored_zero, compare_zero _ .positive r]
  | finite r m e pos =>
    show (content x).compare (stored (.finite r m e pos)) = _ ↔ _
    rw [same]

/-- What exceeds a float only with a term on top, and the term is not below zero, is due to the term being above zero:
`0 < w`. -/
theorem pos_of_lt_add (above : x < y + w) (notYet : ¬ x < y) (unsigned : ¬ w < 0) : 0 < w := by
  refine lt_of_isUnsigned (not_lt_zero_iff.1 unsigned) (fun none => ?_) fun s zero => ?_
  · exact not_lt_notANumber (content_add_notANumber none) above
  · exact notYet ((lt_add_zero_iff zero).1 above)

/-- A sum with an infinity is the infinity or no number. -/
theorem add_infinity_left (s : Sign) (v : UnpackedFloat) :
    UnpackedFloat.add .binary64 (.infinity s) v = .notANumber ∨
      UnpackedFloat.add .binary64 (.infinity s) v = .infinity s := by
  cases v with
  | notANumber => exact .inl rfl
  | infinity t =>
    show (if (s == t) = true then _ else _) = _ ∨ (if (s == t) = true then _ else _) = _
    split
    · exact .inr rfl
    · exact .inl rfl
  | zero t => exact .inr rfl
  | finite t m e pos => exact .inr rfl

/-- A sum with an infinity is an infinity or no number. -/
theorem add_infinity_right (u : UnpackedFloat) (s : Sign) :
    UnpackedFloat.add .binary64 u (.infinity s) = .notANumber ∨
      UnpackedFloat.add .binary64 u (.infinity s) = .infinity s := by
  cases u with
  | notANumber => exact .inl rfl
  | infinity t =>
    cases s <;> cases t
    · exact .inr rfl
    · exact .inl rfl
    · exact .inl rfl
    · exact .inr rfl
  | zero t => exact .inr rfl
  | finite t m e pos => exact .inr rfl

/-- What is no number or an infinity is stored as no finite float: `(stored u).isFinite = false`. -/
theorem isFinite_stored {u : UnpackedFloat} {s : Sign} (h : u = .notANumber ∨ u = .infinity s) :
    (stored u).isFinite = false := by
  rcases h with rfl | rfl
  · rfl
  · rw [stored_infinity]
    rfl

/-- The terms of a finite sum are finite: `y.isFinite ∧ w.isFinite`. -/
theorem isFinite_of_add (h : (y + w).isFinite = true) : y.isFinite = true ∧ w.isFinite = true := by
  rw [isFinite_eq, content_add] at h
  have other : ∀ {s : Sign}, ¬ (UnpackedFloat.add .binary64 (content y) (content w) = .notANumber ∨
      UnpackedFloat.add .binary64 (content y) (content w) = .infinity s) := by
    intro s infinite
    rw [isFinite_stored infinite] at h
    cases h
  rw [isFinite_eq, isFinite_eq]
  -- Only the contents matter from here, so the cases are those of the unpacked addends.
  generalize content y = u at *
  generalize content w = v at *
  constructor
  · cases u with
    | notANumber => exact absurd (.inl rfl) (@other .positive)
    | infinity s => exact absurd (add_infinity_left s v) other
    | zero | finite => rfl
  · cases v with
    | notANumber => exact absurd (.inl (by cases u <;> rfl)) (@other .positive)
    | infinity s => exact absurd (add_infinity_right u s) other
    | zero | finite => rfl

/-! ## Products -/

/-- Fields without a sign bit are those of a float without a minus:
`IsUnsigned (UnpackedFloat.unpack .binary64 (packComponents .binary64 .positive field m))`. -/
theorem isUnsigned_unpack (field : BitVec 11) (m : BitVec 52) :
    IsUnsigned (UnpackedFloat.unpack .binary64 (packComponents .binary64 .positive field m)) := by
  unfold UnpackedFloat.unpack
  simp only [unpackMantissa_packComponents, unpackExponent_packComponents, unpackSign_packComponents,
    Sign.ofBitVec_toBitVec]
  split
  · split
    · exact .infinity
    · exact .notANumber
  split
  · split
    · exact .zero _
    · exact .finite _ _ _
  · exact .finite _ _ _

/-- What has no minus is stored without one: `IsUnsigned (stored u)`. -/
theorem isUnsigned_stored {u : UnpackedFloat} (h : IsUnsigned u) : IsUnsigned (stored u) := by
  cases h with
  | notANumber => exact .notANumber
  | infinity => exact .infinity
  | zero s =>
    rw [stored_zero]
    exact .zero s
  | finite m e pos =>
    rw [stored, UnpackedFloat.pack]
    split
    · exact isUnsigned_unpack _ _
    split
    · exact isUnsigned_unpack _ _
    · exact isUnsigned_unpack _ _

/-- A product of floats without a minus has none: `IsUnsigned (content (x * y))`. -/
theorem isUnsigned_mul (left : IsUnsigned (content x)) (right : IsUnsigned (content y)) :
    IsUnsigned (content (x * y)) := by
  rw [content_mul]
  apply isUnsigned_stored
  generalize content x = u at *
  generalize content y = v at *
  cases left with
  | notANumber => exact .notANumber
  | infinity =>
    cases right with
    | notANumber => exact .notANumber
    | infinity => exact .infinity
    | zero s => exact .notANumber
    | finite m e pos => exact .infinity
  | zero s =>
    cases right with
    | notANumber => exact .notANumber
    | infinity => exact .notANumber
    | zero t => exact .zero _
    | finite m e pos => exact .zero _
  | finite m e pos =>
    cases right with
    | notANumber => exact .notANumber
    | infinity => exact .infinity
    | zero t => exact .zero _
    | finite n f pos' =>
      show IsUnsigned (UnpackedFloat.roundWithAccuracy .binary64 .positive (m * n) (e + f) .exact)
      unfold UnpackedFloat.roundWithAccuracy
      dsimp only
      split
      · exact .zero _
      · exact .finite _ _ _

/-- The content `u` is no number or positive infinity. -/
def IsUnbounded (u : UnpackedFloat) : Prop := u = .notANumber ∨ u = .infinity .positive

/-- What has no minus is finite or not bounded: `IsUnbounded (content x)`. -/
theorem isUnbounded_of_not_isFinite (unsigned : IsUnsigned (content x)) (infinite : ¬ x.isFinite = true) :
    IsUnbounded (content x) := by
  rw [isFinite_eq] at infinite
  generalize content x = u at *
  cases unsigned with
  | notANumber => exact .inl rfl
  | infinity => exact .inr rfl
  | zero s => exact absurd rfl infinite
  | finite m e pos => exact absurd rfl infinite

/-- What is not bounded is below nothing: `¬ x < y`. -/
theorem not_lt_of_isUnbounded (h : IsUnbounded (content x)) : ¬ x < y := by
  rw [lt_iff]
  rcases h with none | infinite
  · rw [none]
    nofun
  · rw [infinite]
    generalize content y = v
    cases v with
    | notANumber => nofun
    | infinity s => cases s <;> nofun
    | zero s => nofun
    | finite s m e pos => nofun

/-- What is not bounded is stored as it is: `IsUnbounded (stored u)`. -/
theorem isUnbounded_stored {u : UnpackedFloat} (h : IsUnbounded u) : IsUnbounded (stored u) := by
  rcases h with rfl | rfl
  · exact .inl rfl
  · exact .inr rfl

/-- A product with what is not bounded is not bounded, without a minus in the other factor:
`IsUnbounded (content (x * y))`. -/
theorem isUnbounded_mul (unsigned : IsUnsigned (content x)) (h : IsUnbounded (content y)) :
    IsUnbounded (content (x * y)) := by
  rw [content_mul]
  apply isUnbounded_stored
  generalize content x = u at *
  generalize content y = v at *
  rcases h with rfl | rfl
  · left
    cases u <;> rfl
  · cases unsigned with
    | notANumber => exact .inl rfl
    | infinity => exact .inr rfl
    | zero s => exact .inl rfl
    | finite m e pos => exact .inr rfl

end OpCycle.Binary64
