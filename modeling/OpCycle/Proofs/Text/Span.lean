import OpCycle.Proofs.Text.Bytes

/-! # Spans of bytes
A scanner that takes the bytes of a class from the front of a text takes exactly a given text when all of
that text is in the class and what follows does not go on in it. White space is one such class. -/

namespace OpCycle.Text

variable {p : UInt8 → Bool} {s rest : Text}

/-- The text `s` does not start with a byte of the class `p`. -/
def StartsOutside (p : UInt8 → Bool) (s : Text) : Prop := ∀ b, s.head? = some b → p b = false

/-- Nothing starts outside of every set of bytes: `StartsOutside p []`. -/
@[simp] theorem startsOutside_nil : StartsOutside p [] := by
  intro b h
  cases h

/-- A text starts outside of a set of bytes if its first byte is not in the set:
`StartsOutside p (b :: rest) ↔ p b = false`. -/
@[simp] theorem startsOutside_cons {b : UInt8} : StartsOutside p (b :: rest) ↔ p b = false := by
  constructor
  · intro h
    exact h b rfl
  · intro h c hc
    rw [List.head?_cons, Option.some.injEq] at hc
    exact hc ▸ h

/-- What a text starts with does not depend on what follows it: `StartsOutside p (s ++ rest)`. -/
theorem StartsOutside.append (h : StartsOutside p s) (nonempty : s ≠ []) (rest : Text) :
    StartsOutside p (s ++ rest) := by
  cases s with
  | nil => exact absurd rfl nonempty
  | cons b after => exact startsOutside_cons.2 (startsOutside_cons.1 h)

/-- What is left of a text without the bytes of a class at its start does not start with one:
`StartsOutside p (s.dropWhile p)`. -/
theorem startsOutside_dropWhile (p : UInt8 → Bool) (s : Text) : StartsOutside p (s.dropWhile p) := by
  intro b head
  have outside := List.head?_dropWhile_not p s
  rw [head] at outside
  exact outside

/-- Outside of the larger class is outside of the smaller one: `StartsOutside q s`. -/
theorem StartsOutside.mono {q : UInt8 → Bool} (h : StartsOutside p s)
    (sub : ∀ b, q b = true → p b = true) : StartsOutside q s := by
  intro b hb
  have outside := h b hb
  cases hq : q b with
  | false => rfl
  | true => rw [sub b hq] at outside; cases outside

/-- All bytes taken are in the class: `p b`. -/
theorem of_mem_takeWhile {b : UInt8} (mem : b ∈ s.takeWhile p) : p b = true :=
  List.all_eq_true.1 List.all_takeWhile b mem

/-- Nothing is taken from a text that starts outside: `rest.takeWhile p = []`. -/
theorem takeWhile_eq_nil (stop : StartsOutside p rest) : rest.takeWhile p = [] := by
  cases rest with
  | nil => rfl
  | cons b after => rw [List.takeWhile_cons, startsOutside_cons.1 stop]; rfl

/-- Nothing is dropped from a text that starts outside: `rest.dropWhile p = rest`. -/
theorem dropWhile_eq_self (stop : StartsOutside p rest) : rest.dropWhile p = rest := by
  cases rest with
  | nil => rfl
  | cons b after => rw [List.dropWhile_cons, startsOutside_cons.1 stop]; rfl

/-- Taking the bytes of a class takes a text of that class, up to where the rest starts outside:
`(s ++ rest).takeWhile p = s`. -/
theorem takeWhile_append_stop (all : ∀ b ∈ s, p b = true) (stop : StartsOutside p rest) :
    (s ++ rest).takeWhile p = s := by
  rw [List.takeWhile_append_of_pos all, takeWhile_eq_nil stop, List.append_nil]

/-- Dropping the bytes of a class drops a text of that class, up to where the rest starts outside:
`(s ++ rest).dropWhile p = rest`. -/
theorem dropWhile_append_stop (all : ∀ b ∈ s, p b = true) (stop : StartsOutside p rest) :
    (s ++ rest).dropWhile p = rest := by
  rw [List.dropWhile_append_of_pos all, dropWhile_eq_self stop]

/-! ## White space -/

/-- The text `s` is white space, possibly empty. -/
def IsBlank (s : Text) : Prop := ∀ b ∈ s, Byte.isBlank b = true

/-- Nothing is white space only: `IsBlank []`. -/
theorem isBlank_nil : IsBlank [] := by
  intro b mem
  exact absurd mem List.not_mem_nil

/-- White space at the start is trimmed: `trimStart (s ++ rest) = trimStart rest`. -/
theorem trimStart_append (blank : IsBlank s) : trimStart (s ++ rest) = trimStart rest :=
  List.dropWhile_append_of_pos blank

/-- White space alone is trimmed to nothing: `trimStart s = []`. -/
theorem trimStart_eq_nil (blank : IsBlank s) : trimStart s = [] := by
  have whole : trimStart (s ++ []) = trimStart [] := trimStart_append blank
  rw [List.append_nil] at whole
  exact whole

/-- A text that starts with something else than white space is not trimmed: `trimStart rest = rest`. -/
theorem trimStart_eq_self (stop : StartsOutside Byte.isBlank rest) : trimStart rest = rest :=
  dropWhile_eq_self stop

/-- White space in front of a text that starts with something else is trimmed: `trimStart (blank ++ rest) = rest`. -/
theorem trimStart_blank_append {blank : Text} (isBlank : IsBlank blank)
    (stop : StartsOutside Byte.isBlank rest) : trimStart (blank ++ rest) = rest := by
  rw [trimStart_append isBlank, trimStart_eq_self stop]

/-- White space in front of a byte that is none is trimmed: `trimStart (blank ++ b :: rest) = b :: rest`. -/
theorem trimStart_blank_cons {blank : Text} (isBlank : IsBlank blank) {b : UInt8}
    (notBlank : Byte.isBlank b = false) (rest : Text) : trimStart (blank ++ b :: rest) = b :: rest :=
  trimStart_blank_append isBlank (startsOutside_cons.2 notBlank)

/-- A text is the white space at its start and what trimming leaves:
`∃ blank, IsBlank blank ∧ s = blank ++ trimStart s`. -/
theorem exists_blank_append_trimStart (s : Text) :
    ∃ blank, IsBlank blank ∧ s = blank ++ trimStart s :=
  ⟨s.takeWhile Byte.isBlank, fun _ mem => of_mem_takeWhile mem,
    List.takeWhile_append_dropWhile.symm⟩

/-- A text of which trimming leaves nothing is white space: `IsBlank s`. -/
theorem isBlank_of_trimStart_eq_nil (h : trimStart s = []) : IsBlank s := by
  obtain ⟨blank, isBlank, same⟩ := exists_blank_append_trimStart s
  rw [h, List.append_nil] at same
  exact same ▸ isBlank

/-- White space after white space is white space: `IsBlank (s ++ rest)`. -/
theorem IsBlank.append (left : IsBlank s) (right : IsBlank rest) : IsBlank (s ++ rest) := by
  intro b mem
  rcases List.mem_append.1 mem with mem | mem
  · exact left b mem
  · exact right b mem

/-- A text without white space at its ends comes out of trimming it between white space:
`trim (left ++ (s ++ right)) = s`. -/
theorem trim_append_append {left right : Text} (blankLeft : IsBlank left) (blankRight : IsBlank right)
    (nonempty : s ≠ []) (first : StartsOutside Byte.isBlank s)
    (last : StartsOutside Byte.isBlank s.reverse) : trim (left ++ (s ++ right)) = s := by
  have start : StartsOutside Byte.isBlank (s ++ right) := first.append nonempty right
  have blankReverse : IsBlank right.reverse := fun b mem => blankRight b (List.mem_reverse.1 mem)
  rw [trim, trimStart_append blankLeft, trimStart_eq_self start, List.reverse_append,
    trimStart_append blankReverse, trimStart_eq_self last, List.reverse_reverse]

/-- A text is the white space at its ends and what trimming leaves between them:
`∃ left right, IsBlank left ∧ IsBlank right ∧ s = left ++ (trim s ++ right)`. -/
theorem exists_blank_append_trim (s : Text) :
    ∃ left right, IsBlank left ∧ IsBlank right ∧ s = left ++ (trim s ++ right) := by
  obtain ⟨left, isLeft, leading⟩ := exists_blank_append_trimStart s
  obtain ⟨right, isRight, trailing⟩ := exists_blank_append_trimStart (trimStart s).reverse
  refine ⟨left, right.reverse, isLeft, fun b mem => isRight b (List.mem_reverse.1 mem), ?_⟩
  have inner := congrArg List.reverse trailing
  rw [List.reverse_reverse, List.reverse_append] at inner
  rw [trim, ← inner, ← leading]

/-- Trimming keeps the first byte of a text when it is no white space: `∃ others, trim (b :: rest) = b :: others`. -/
theorem exists_trim_cons {b : UInt8} (notBlank : Byte.isBlank b = false) (rest : Text) :
    ∃ others, trim (b :: rest) = b :: others := by
  obtain ⟨left, right, isLeft, isRight, same⟩ := exists_blank_append_trim (b :: rest)
  cases left with
  | cons c left =>
    -- The white space in front would start with the byte.
    have blank := isLeft c List.mem_cons_self
    rw [← (List.cons.inj same).1, notBlank] at blank
    cases blank
  | nil =>
    rw [List.nil_append] at same
    cases core : trim (b :: rest) with
    | nil =>
      rw [core, List.nil_append] at same
      have blank := isRight b (same ▸ List.mem_cons_self)
      rw [notBlank] at blank
      cases blank
    | cons c others =>
      rw [core] at same
      exact ⟨others, by rw [(List.cons.inj same).1]⟩

/-- A text without white space is not trimmed: `trim s = s`. -/
theorem trim_eq_self (free : ∀ b ∈ s, Byte.isBlank b = false) : trim s = s := by
  have outside : ∀ t : Text, (∀ b ∈ t, Byte.isBlank b = false) → trimStart t = t := by
    intro t free
    apply trimStart_eq_self
    intro b head
    exact free b (List.mem_of_head? head)
  have freeReverse : ∀ b ∈ s.reverse, Byte.isBlank b = false :=
    fun b mem => free b (List.mem_reverse.1 mem)
  rw [trim, outside s free, outside s.reverse freeReverse, List.reverse_reverse]

/-! ## Cutting -/

/-- A text that is cut is what stands before the separator, the separator and what stands behind it:
`s = before ++ (separator ++ after)`. -/
theorem eq_append_of_cut? {separator before after : Text} (h : cut? separator s = some (before, after)) :
    s = before ++ (separator ++ after) := by
  induction s generalizing before with
  | nil =>
    rw [cut?] at h
    split at h
    · next none =>
      cases h
      rw [List.isEmpty_iff.1 none]
      rfl
    · cases h
  | cons b rest ih =>
    rw [cut?] at h
    split at h
    · next here =>
      cases h
      exact (List.prefix_iff_eq_append.1 (List.isPrefixOf_iff_prefix.1 here)).symm
    · obtain ⟨⟨before', after'⟩, later, same⟩ := Option.map_eq_some_iff.1 h
      cases same
      rw [ih later, List.cons_append]

/-- A text is cut at the first separator: none begins before it, not even one that would reach into it
(`¬ separator <:+: before ++ separator.dropLast`). -/
theorem not_infix_dropLast_of_cut? {separator before after : Text} (nonempty : separator ≠ [])
    (h : cut? separator s = some (before, after)) : ¬ separator <:+: before ++ separator.dropLast := by
  induction s generalizing before with
  | nil =>
    rw [cut?, if_neg (by rwa [List.isEmpty_iff])] at h
    cases h
  | cons b rest ih =>
    rw [cut?] at h
    split at h
    · cases h
      intro found
      have positive := List.length_pos_iff.2 nonempty
      have shorter := found.length_le
      rw [List.nil_append, List.length_dropLast] at shorter
      omega
    · next notHere =>
      obtain ⟨⟨before', after'⟩, later, same⟩ := Option.map_eq_some_iff.1 h
      cases same
      intro found
      rw [List.cons_append] at found
      rcases List.infix_cons_iff.1 found with start | found
      · -- The separator would stand at the very start.
        refine notHere (List.isPrefixOf_iff_prefix.2 (start.trans ?_))
        rw [eq_append_of_cut? later, List.prefix_cons_inj, List.prefix_append_right_inj]
        exact (List.dropLast_prefix separator).trans (List.prefix_append separator after)
      · exact ih later found

/-- What stands before the first separator has none: `¬ separator <:+: before`. -/
theorem not_infix_of_cut? {separator before after : Text} (nonempty : separator ≠ [])
    (h : cut? separator s = some (before, after)) : ¬ separator <:+: before :=
  fun found => not_infix_dropLast_of_cut? nonempty h (found.trans (List.prefix_append _ _).isInfix)

/-- A text is cut where the separator stands, when it has not begun anywhere before that:
`cut? separator (before ++ (separator ++ rest)) = some (before, rest)`. -/
theorem cut?_append {separator before : Text} (nonempty : separator ≠ [])
    (absent : ¬ separator <:+: before ++ separator.dropLast) (rest : Text) :
    cut? separator (before ++ (separator ++ rest)) = some (before, rest) := by
  induction before with
  | nil =>
    cases separator with
    | nil => exact absurd rfl nonempty
    | cons first others =>
      have here : (first :: others).isPrefixOf (first :: (others ++ rest)) = true :=
        List.isPrefixOf_iff_prefix.2 (List.prefix_append (first :: others) rest)
      rw [List.nil_append, List.cons_append, cut?, if_pos here, ← List.cons_append,
        List.drop_left]
  | cons b before ih =>
    have later : ¬ separator <:+: before ++ separator.dropLast :=
      fun found => absent (List.infix_cons found)
    have notHere : ¬ separator.isPrefixOf (b :: (before ++ (separator ++ rest))) = true := by
      intro here
      have start := List.isPrefixOf_iff_prefix.1 here
      have first : b :: (before ++ separator.dropLast) <+: b :: (before ++ (separator ++ rest)) := by
        rw [List.prefix_cons_inj, List.prefix_append_right_inj]
        exact (List.dropLast_prefix separator).trans (List.prefix_append separator rest)
      -- The separator is no longer than the part in which it does not occur.
      have short : separator.length ≤ (b :: (before ++ separator.dropLast)).length := by
        rw [List.length_cons, List.length_append, List.length_dropLast]
        omega
      exact absent (List.prefix_of_prefix_length_le start first short).isInfix
    rw [List.cons_append, cut?, if_neg notHere, ih later]
    rfl

/-- A text is cut into two parts exactly if the separator stands between them and has not begun anywhere before: `cut?
separator s = some (before, after) ↔ s = before ++ (separator ++ after) ∧ ¬ separator <:+: before ++
separator.dropLast`. -/
theorem cut?_eq_some_iff {separator before after : Text} (nonempty : separator ≠ []) :
    cut? separator s = some (before, after) ↔
      s = before ++ (separator ++ after) ∧ ¬ separator <:+: before ++ separator.dropLast := by
  constructor
  · intro h
    exact ⟨eq_append_of_cut? h, not_infix_dropLast_of_cut? nonempty h⟩
  · rintro ⟨rfl, absent⟩
    exact cut?_append nonempty absent after

/-- A text is not cut exactly if the separator does not occur in it:
`cut? separator s = none ↔ ¬ separator <:+: s`. -/
theorem cut?_eq_none_iff {separator : Text} (nonempty : separator ≠ []) :
    cut? separator s = none ↔ ¬ separator <:+: s := by
  induction s with
  | nil => simp [cut?, nonempty]
  | cons b rest ih =>
    rw [cut?, List.infix_cons_iff, not_or, ← ih, ← List.isPrefixOf_iff_prefix]
    split
    · next here => simp [here]
    · next notHere => simp [notHere]

end OpCycle.Text
