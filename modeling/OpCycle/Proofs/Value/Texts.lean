import OpCycle.Proofs.Outcome
import OpCycle.Proofs.Text.Utf8
import OpCycle.Value.Conversion

/-! # Values with and without a text
`Json.dump` finds a fault exactly in the documents that `Json.render?` gives no text for, so the values without a
text are the lists and maps with a text or a key in them that is not well-formed. Converting a value fails in two
ways, which are kept apart here: `tryConvert` may find that the value does not convert, and it may have no text to
give. The second can happen for the target `.text` only (`tryConvert_eq_error_iff`); `convert` turns the first into
the `refusal` of the value (`convert_of_refused`), and `convertOr` into its default (`convertOr_of_refused`). -/

namespace OpCycle

namespace Json

mutual

/-- A tree has no fault exactly if it is well-formed: `j.fault? = none ↔ j.isWellFormed`. -/
theorem fault?_eq_none_iff : (j : Json) → (j.fault? = none ↔ j.isWellFormed = true)
  | .null | .bool _ | .signed _ | .unsigned _ | .float _ => iff_of_true rfl rfl
  | .string _ => Utf8.fault?_eq_none_iff
  | .array items => faultIn?_eq_none_iff items
  | .object ⟨members⟩ => faultInMembers?_eq_none_iff members

/-- The elements of an array have no fault exactly if they are well-formed:
`faultIn? items = none ↔ areWellFormed items`. -/
theorem faultIn?_eq_none_iff : (items : List Json) → (faultIn? items = none ↔ areWellFormed items = true)
  | [] => iff_of_true rfl rfl
  | j :: rest => by
    rw [faultIn?, Option.or_eq_none_iff, fault?_eq_none_iff j, faultIn?_eq_none_iff rest, areWellFormed,
      Bool.and_eq_true]

/-- The members of an object have no fault exactly if they are well-formed:
`faultInMembers? members = none ↔ membersAreWellFormed members`. -/
theorem faultInMembers?_eq_none_iff :
    (members : List (Text × Json)) → (faultInMembers? members = none ↔ membersAreWellFormed members = true)
  | [] => iff_of_true rfl rfl
  | (key, j) :: rest => by
    rw [faultInMembers?, Option.or_eq_none_iff, Option.or_eq_none_iff, Utf8.fault?_eq_none_iff,
      fault?_eq_none_iff j, faultInMembers?_eq_none_iff rest, membersAreWellFormed, Bool.and_eq_true,
      Bool.and_eq_true, and_assoc]

end

/-- Dumping a document is rendering it on one line: `j.dump.toOption = j.render? .compact`. -/
theorem toOption_dump (j : Json) : j.dump.toOption = j.render? .compact := by
  rw [dump, render?]
  cases found : j.fault? with
  | none => exact (if_pos ((fault?_eq_none_iff j).1 found)).symm
  | some fault =>
    have broken : ¬ j.isWellFormed = true := fun whole => by
      rw [(fault?_eq_none_iff j).2 whole] at found
      cases found
    exact (if_neg broken).symm

end Json

namespace Value

variable {target : Target} {v : Value}

/-! ## Texts -/

/-- A value other than a text has the text `s` exactly if its JSON can be written, as `s`. -/
theorem toText_eq_ok_iff (notText : v.kind ≠ .text) {s : Text} :
    v.toText = .ok s ↔ (Json.ofValue v).render? .compact = some s := by
  have written : v.toText = (Json.ofValue v).dump.mapError .illFormed := by
    cases v with
    | text t => exact absurd rfl notText
    | _ => rfl
  rw [written, Outcome.mapError_eq_ok, ← Json.toOption_dump, Outcome.toOption_eq_some]

/-- A value has a text exactly if it is one, or if every string and key in its JSON is well-formed:
`(∃ s, v.toText = .ok s) ↔ v.kind = .text ∨ (Json.ofValue v).isWellFormed`. -/
theorem exists_toText_iff :
    (∃ s, v.toText = .ok s) ↔ v.kind = .text ∨ (Json.ofValue v).isWellFormed = true := by
  by_cases isText : v.kind = .text
  · refine iff_of_true ?_ (.inl isText)
    cases v with
    | text s => exact ⟨s, rfl⟩
    | _ => cases isText
  · simp only [toText_eq_ok_iff isText, or_iff_right isText, Json.render?, Option.ite_none_right_eq_some]
    exact ⟨fun ⟨_, whole, _⟩ => whole, fun whole => ⟨_, whole, rfl⟩⟩

/-! ## Conversions -/

/-- A conversion succeeds exactly where it is defined:
`convert target v = .ok x ↔ tryConvert target v = .ok (some x)`. -/
theorem convert_eq_ok_iff {x : target.Carrier} :
    convert target v = .ok x ↔ tryConvert target v = .ok (some x) := by
  unfold convert
  cases tryConvert target v with
  | error fault => exact ⟨fun h => (by cases h), fun h => (by cases h)⟩
  | ok found =>
    cases found with
    | none => exact ⟨fun h => (by cases h), fun h => (by cases h)⟩
    | some y => exact ⟨fun h => (by cases h; rfl), fun h => (by cases h; rfl)⟩

/-- A value converts to a 64-bit integer where its reader finds one: `v.toInt64 = .ok n ↔ v.toInt64? = some n`. -/
theorem toInt64_eq_ok_iff_toInt64? {n : Int64} : v.toInt64 = .ok n ↔ v.toInt64? = some n :=
  convert_eq_ok_iff.trans Outcome.ok_inj

example : convertOr .text (.list [.text "a", .text [0x62, 0xff]]) "default" =
    .error (.illFormed (.unexpected 1 0xff)) := rfl

example : (ValueFault.illFormed (.unexpected 1 0xff)).message =
    "[json.exception.type_error.316] invalid UTF-8 byte at index 1: 0xFF" := by decide +kernel

end Value

end OpCycle
