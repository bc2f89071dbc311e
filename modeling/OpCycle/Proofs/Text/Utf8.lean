import OpCycle.Text.Utf8

/-! # Well-formed texts
Well-formed texts in a row are a well-formed text, and so is every text of ASCII characters. Replacing ASCII
characters by texts of ASCII characters keeps a text well-formed, since no longer character contains one. -/

namespace OpCycle.Utf8

/-- Bytes that follow are no ASCII characters: `0x80 ≤ least`. -/
theorem least_of_announced? {b least most : UInt8} {pending : Nat}
    (h : announced? b = some (pending, least, most)) : 0x80 ≤ least := by
  unfold announced? at h
  repeat' split at h
  all_goals cases h
  all_goals decide

/-- The text may end between characters only: `continues pending least most [] ↔ pending = 0`. -/
theorem continues_nil_iff {pending : Nat} {least most : UInt8} :
    continues pending least most [] = true ↔ pending = 0 := by
  rw [continues, beq_iff_eq]

/-- Inside a character a byte in range follows:
`continues (pending + 1) least most (b :: rest) ↔ (least ≤ b ∧ b ≤ most) ∧ continues pending 0x80 0xbf rest`. -/
theorem continues_inside_iff {pending : Nat} {b least most : UInt8} {rest : Text} :
    continues (pending + 1) least most (b :: rest) = true ↔
      (least ≤ b ∧ b ≤ most) ∧ continues pending 0x80 0xbf rest = true := by
  rw [continues, Bool.and_eq_true, Bool.and_eq_true, decide_eq_true_iff, decide_eq_true_iff]

/-- Between characters a first byte follows, and what it announces, by `announced?`. -/
theorem continues_between_iff {b least most : UInt8} {rest : Text} :
    continues 0 least most (b :: rest) = true ↔
      ∃ pending next last, announced? b = some (pending, next, last) ∧
        continues pending next last rest = true := by
  rw [continues, Option.any_eq_true]
  constructor
  · rintro ⟨⟨pending, next, last⟩, first, follows⟩
    exact ⟨pending, next, last, first, follows⟩
  · rintro ⟨pending, next, last, first, follows⟩
    exact ⟨⟨pending, next, last⟩, first, follows⟩

/-- No fault is found exactly where the text continues well:
`faultFrom index last pending least most s = none ↔ continues pending least most s`. -/
theorem faultFrom_eq_none_iff {s : Text} {index : Nat} {last : UInt8} {pending : Nat} {least most : UInt8} :
    faultFrom index last pending least most s = none ↔ continues pending least most s = true := by
  -- Both machines keep the same three numbers; `index` and `last` serve the report only.
  induction s generalizing index last pending least most with
  | nil =>
    rw [faultFrom, continues_nil_iff]
    split
    · next whole => exact iff_of_true rfl whole
    · next inside => exact iff_of_false (Option.some_ne_none _) inside
  | cons b rest ih =>
    cases pending with
    | zero =>
      rw [faultFrom, continues_between_iff]
      cases announced? b with
      | none => exact iff_of_false (Option.some_ne_none _) fun ⟨_, _, _, first, _⟩ => (by cases first)
      | some found =>
        obtain ⟨pending, next, last⟩ := found
        refine ih.trans ⟨fun follows => ⟨pending, next, last, rfl, follows⟩, ?_⟩
        rintro ⟨_, _, _, first, follows⟩
        cases first
        exact follows
    | succ pending =>
      rw [faultFrom, continues_inside_iff]
      split
      · next range => exact ih.trans (and_iff_right range).symm
      · next range => exact iff_of_false (Option.some_ne_none _) fun h => range h.1

/-- A text has no fault exactly if it is well-formed: `fault? s = none ↔ isWellFormed s`. -/
theorem fault?_eq_none_iff {s : Text} : fault? s = none ↔ isWellFormed s = true := faultFrom_eq_none_iff

/-- Between characters the bounds for the next byte do not matter: `continues 0 least most s = isWellFormed s`. -/
theorem continues_zero (least most : UInt8) (s : Text) : continues 0 least most s = isWellFormed s := by
  cases s <;> rfl

/-- A well-formed text can stand behind whatever continues well: `continues pending least most (s ++ t)`. -/
theorem continues_append {s t : Text} (whole : isWellFormed t = true) {pending : Nat} {least most : UInt8}
    (h : continues pending least most s = true) : continues pending least most (s ++ t) = true := by
  induction s generalizing pending least most with
  | nil =>
    cases continues_nil_iff.1 h
    rw [List.nil_append, continues_zero]
    exact whole
  | cons b rest ih =>
    rw [List.cons_append]
    cases pending with
    | zero =>
      obtain ⟨pending, next, last, first, follows⟩ := continues_between_iff.1 h
      exact continues_between_iff.2 ⟨pending, next, last, first, ih follows⟩
    | succ pending =>
      obtain ⟨range, follows⟩ := continues_inside_iff.1 h
      exact continues_inside_iff.2 ⟨range, ih follows⟩

/-- Well-formed texts in a row are well-formed: `isWellFormed (s ++ t)`. -/
theorem isWellFormed_append {s t : Text} (left : isWellFormed s = true) (right : isWellFormed t = true) :
    isWellFormed (s ++ t) = true := continues_append right left

/-- An ASCII character in front of a well-formed text: `isWellFormed (b :: s) = isWellFormed s`. -/
theorem isWellFormed_cons_ascii {b : UInt8} (ascii : b < 0x80) (s : Text) :
    isWellFormed (b :: s) = isWellFormed s := by
  rw [isWellFormed, continues, announced?, if_pos ascii, Option.any_some, continues_zero]

/-- A text of ASCII characters is well-formed: `isWellFormed s`. -/
theorem isWellFormed_ascii {s : Text} (ascii : ∀ b ∈ s, b < 0x80) : isWellFormed s = true := by
  induction s with
  | nil => rfl
  | cons b rest ih =>
    rw [List.forall_mem_cons] at ascii
    rw [isWellFormed_cons_ascii ascii.1, ih ascii.2]

/-- A text that starts with something else than a byte order mark has none to drop:
`dropByteOrderMark (b :: s) = b :: s`. -/
theorem dropByteOrderMark_eq_self {b : UInt8} (other : b ≠ 0xef) (s : Text) :
    dropByteOrderMark (b :: s) = b :: s := by
  unfold dropByteOrderMark
  split
  · next same =>
    cases same
    exact absurd rfl other
  · rfl

/-- Writing ASCII characters with ASCII characters, and leaving all other bytes alone, keeps a text well-formed:
`continues pending least most (s.flatMap escape)`. -/
theorem continues_flatMap {escape : UInt8 → Text} (ascii : ∀ b, b < 0x80 → ∀ c ∈ escape b, c < 0x80)
    (other : ∀ b, 0x80 ≤ b → escape b = [b]) {s : Text} {pending : Nat} {least most : UInt8}
    (bound : 0x80 ≤ least) (h : continues pending least most s = true) :
    continues pending least most (s.flatMap escape) = true := by
  induction s generalizing pending least most with
  | nil => exact h
  | cons b rest ih =>
    rw [List.flatMap_cons]
    cases pending with
    | zero =>
      -- Only between characters is there an ASCII character, and its spelling stands between characters too.
      obtain ⟨pending, next, last, first, follows⟩ := continues_between_iff.1 h
      by_cases plain : b < 0x80
      · rw [announced?, if_pos plain] at first
        cases first
        have start := isWellFormed_ascii (ascii b plain)
        rw [continues_zero]
        exact isWellFormed_append start (ih (by decide) follows)
      · rw [other b (UInt8.not_lt.1 plain)]
        exact continues_between_iff.2 ⟨pending, next, last, first, ih (least_of_announced? first) follows⟩
    | succ pending =>
      obtain ⟨range, follows⟩ := continues_inside_iff.1 h
      rw [other b (UInt8.le_trans bound range.1)]
      exact continues_inside_iff.2 ⟨range, ih (by decide) follows⟩

end OpCycle.Utf8
