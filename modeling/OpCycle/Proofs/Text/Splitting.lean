import OpCycle.Text.Basic

/-! # Splitting what was joined
Splitting a text at every occurrence of a byte gives back the parts that were joined with it, when none of
them holds it. Where no part is empty, every separator stands between two bytes that are none. -/

namespace OpCycle.Text

variable {separator : UInt8} {s : Text}

/-- A split of a text gives at least one part: `splitAll separator s ≠ []`. -/
theorem splitAll_ne_nil (separator : UInt8) (s : Text) : splitAll separator s ≠ [] := by
  cases s with
  | nil => exact List.cons_ne_nil _ _
  | cons b rest =>
    rw [splitAll]
    split
    · exact List.cons_ne_nil _ _
    · split <;> exact List.cons_ne_nil _ _

/-- A byte other than the separator belongs to the first part:
`splitAll separator (b :: s) = (b :: first) :: parts`. -/
theorem splitAll_cons_of_ne {b : UInt8} (different : b ≠ separator) {first : Text} {parts : List Text}
    (split : splitAll separator s = first :: parts) : splitAll separator (b :: s) = (b :: first) :: parts := by
  rw [splitAll, if_neg different, split]

/-- A text without the separator is its only part: `splitAll separator s = [s]`. -/
theorem splitAll_of_not_mem (absent : separator ∉ s) : splitAll separator s = [s] := by
  induction s with
  | nil => rfl
  | cons b rest ih =>
    rw [List.mem_cons, not_or] at absent
    exact splitAll_cons_of_ne (Ne.symm absent.1) (ih absent.2)

/-- The parts around a separator are those in front of it and those behind it:
`splitAll separator (before ++ separator :: after) = splitAll separator before ++ splitAll separator after`. -/
theorem splitAll_append_cons (before after : Text) :
    splitAll separator (before ++ separator :: after) =
      splitAll separator before ++ splitAll separator after := by
  induction before with
  | nil => exact if_pos rfl
  | cons b rest ih =>
    by_cases same : b = separator
    · rw [List.cons_append, splitAll, splitAll, if_pos same, if_pos same, ih, List.cons_append]
    · cases split : splitAll separator rest with
      | nil => exact absurd split (splitAll_ne_nil separator rest)
      | cons first parts =>
        rw [split, List.cons_append] at ih
        rw [splitAll_cons_of_ne same split]
        exact splitAll_cons_of_ne same ih

/-- Parts that do not hold the separator come out of splitting what joins them:
`splitAll separator (joinWith [separator] parts) = parts`. -/
theorem splitAll_joinWith {parts : List Text} (some : parts ≠ []) (absent : ∀ part ∈ parts, separator ∉ part) :
    splitAll separator (joinWith [separator] parts) = parts := by
  induction parts with
  | nil => exact absurd rfl some
  | cons first others ih =>
    have head := splitAll_of_not_mem (absent first List.mem_cons_self)
    cases others with
    | nil => rw [joinWith_singleton, head]
    | cons second rest =>
      rw [joinWith_cons_cons, List.singleton_append, splitAll_append_cons, head,
        ih (List.cons_ne_nil _ _) fun part mem => absent part (List.mem_cons_of_mem _ mem)]
      rfl

/-- No part of a split holds the separator: `separator ∉ part`. -/
theorem not_mem_of_mem_splitAll {part : Text} (mem : part ∈ splitAll separator s) : separator ∉ part := by
  induction s generalizing part with
  | nil =>
    rw [List.mem_singleton.1 mem]
    exact List.not_mem_nil
  | cons b rest ih =>
    by_cases same : b = separator
    · rw [splitAll, if_pos same, List.mem_cons] at mem
      rcases mem with rfl | mem
      · exact List.not_mem_nil
      · exact ih mem
    · cases split : splitAll separator rest with
      | nil => exact absurd split (splitAll_ne_nil separator rest)
      | cons first parts =>
        rw [split] at ih
        rw [splitAll_cons_of_ne same split, List.mem_cons] at mem
        rcases mem with rfl | mem
        · rw [List.mem_cons, not_or]
          exact ⟨Ne.symm same, ih List.mem_cons_self⟩
        · exact ih (List.mem_cons_of_mem _ mem)

/-- Joining the parts of a split gives the text back: `joinWith [separator] (splitAll separator s) = s`. -/
theorem joinWith_splitAll (separator : UInt8) (s : Text) : joinWith [separator] (splitAll separator s) = s := by
  induction s with
  | nil => exact joinWith_singleton _ _
  | cons b rest ih =>
    cases split : splitAll separator rest with
    | nil => exact absurd split (splitAll_ne_nil separator rest)
    | cons first parts =>
      rw [split] at ih
      by_cases same : b = separator
      · rw [splitAll, if_pos same, split, joinWith_cons_cons, ih, same]
        rfl
      · rw [splitAll_cons_of_ne same split]
        cases parts with
        | nil =>
          rw [joinWith_singleton] at ih ⊢
          rw [ih]
        | cons second others =>
          rw [joinWith_cons_cons] at ih ⊢
          rw [List.cons_append, ih]

/-- A text is not cut if the separator is not in it: `cutLast? separator s = none ↔ separator ∉ s`. -/
theorem cutLast?_eq_none_iff : cutLast? separator s = none ↔ separator ∉ s := by
  induction s with
  | nil => exact ⟨fun _ => List.not_mem_nil, fun _ => rfl⟩
  | cons b rest ih =>
    rw [cutLast?, List.mem_cons, not_or]
    cases later : cutLast? separator rest with
    | some parts =>
      rw [later] at ih
      exact ⟨nofun, fun absent => nomatch ih.2 absent.2⟩
    | none =>
      rw [← ih]
      dsimp only
      by_cases same : b = separator
      · rw [if_pos same]
        exact ⟨nofun, fun absent => absurd same.symm absent.1⟩
      · rw [if_neg same]
        exact ⟨fun _ => ⟨Ne.symm same, later⟩, fun _ => rfl⟩

/-- A text is cut at the separator behind which there is none:
`cutLast? separator (before ++ separator :: after) = some (before, after)`. -/
theorem cutLast?_append (before : Text) {after : Text} (absent : separator ∉ after) :
    cutLast? separator (before ++ separator :: after) = some (before, after) := by
  induction before with
  | nil =>
    rw [List.nil_append, cutLast?, cutLast?_eq_none_iff.2 absent]
    exact if_pos rfl
  | cons b before ih => rw [List.cons_append, cutLast?, ih]

/-- A text that is cut is what stands before the separator, the separator and what stands behind it:
`s = before ++ separator :: after ∧ separator ∉ after`. -/
theorem eq_append_of_cutLast? {before after : Text} (h : cutLast? separator s = some (before, after)) :
    s = before ++ separator :: after ∧ separator ∉ after := by
  induction s generalizing before with
  | nil => cases h
  | cons b rest ih =>
    rw [cutLast?] at h
    split at h
    · next later =>
      cases h
      obtain ⟨rfl, absent⟩ := ih later
      exact ⟨rfl, absent⟩
    · next later =>
      split at h
      · next same =>
        cases h
        exact ⟨by rw [same]; rfl, cutLast?_eq_none_iff.1 later⟩
      · cases h

/-- The text `s` is not empty, and every `separator` in it stands between two bytes that are none. -/
def SinglySeparated (separator : UInt8) (s : Text) : Prop :=
  s ≠ [] ∧ ∀ before after, s = before ++ separator :: after →
    (∃ front b, before = front ++ [b] ∧ b ≠ separator) ∧ ∃ b rest, after = b :: rest ∧ b ≠ separator

/-- A text without empty parts is singly separated: `SinglySeparated separator s`. -/
theorem singlySeparated_of_parts (whole : ∀ part ∈ splitAll separator s, part ≠ []) :
    SinglySeparated separator s := by
  constructor
  · rintro rfl
    exact whole [] List.mem_cons_self rfl
  rintro before after rfl
  rw [splitAll_append_cons] at whole
  constructor
  · rcases List.eq_nil_or_concat before with rfl | ⟨front, b, rfl⟩
    · exact absurd rfl (whole [] (List.mem_append_left _ List.mem_cons_self))
    · rw [List.concat_eq_append] at whole ⊢
      refine ⟨front, b, rfl, ?_⟩
      rintro rfl
      -- The part between this separator and the next would be empty.
      rw [splitAll_append_cons] at whole
      exact whole [] (List.mem_append_left _ (List.mem_append_right _ List.mem_cons_self)) rfl
  · cases after with
    | nil => exact absurd rfl (whole [] (List.mem_append_right _ List.mem_cons_self))
    | cons b rest =>
      refine ⟨b, rest, rfl, ?_⟩
      rintro rfl
      refine whole [] (List.mem_append_right _ ?_) rfl
      rw [splitAll, if_pos rfl]
      exact List.mem_cons_self

end OpCycle.Text
