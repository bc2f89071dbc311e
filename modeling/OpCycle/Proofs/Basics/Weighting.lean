import OpCycle.Basics.Library
import OpCycle.Proofs.Binary64.Fractions
import OpCycle.Proofs.Text.Splitting
import OpCycle.Proofs.Value.Texts

/-! # Weighted choice
A label is picked by the first running sum of weights that exceeds a sample below the total. Where a running sum
first exceeds the sample the weight is positive, whatever the weights are; and the sample is below the total, so that
there is such a sum, if the total is finite and not next to zero. The check of the weights lets infinities and the
float that is no number pass, though, and with one of them the last label is picked always, whatever it weighs.

* `ItemsText`, `tableOf`: the texts of items, and the table of items.
* `pick_cases`: a pick is the label of an item with a positive weight, or the last one.
* `weighted_choice`: which arguments are accepted, and what their step chooses. -/

namespace OpCycle.Basics

open Binary64 (content IsUnsigned IsUnbounded)

variable {items before after : List Weighted} {item : Weighted} {sum sample : Float}

/-! ## Running sums -/

/-- The sum of the weights of `items` on top of `sum`. -/
def sumFrom (sum : Float) (items : List Weighted) : Float := items.foldl (fun sum item => sum + item.weight) sum

/-- Summing over two lists in a row is summing over the second from the sum over the first:
`sumFrom sum (before ++ after) = sumFrom (sumFrom sum before) after`. -/
theorem sumFrom_append (sum : Float) (before after : List Weighted) :
    sumFrom sum (before ++ after) = sumFrom (sumFrom sum before) after := List.foldl_append

/-- The running sums of a list are those of its first part, and then those of the rest on top:
`runningSums sum (before ++ after) = runningSums sum before ++ runningSums (sumFrom sum before) after`. -/
theorem runningSums_append (sum : Float) (before after : List Weighted) :
    runningSums sum (before ++ after) = runningSums sum before ++ runningSums (sumFrom sum before) after := by
  induction before generalizing sum with
  | nil => rfl
  | cons item rest ih => rw [List.cons_append, runningSums, runningSums, ih, List.cons_append]; rfl

/-- There is one running sum for each item: `(runningSums sum items).length = items.length`. -/
@[simp] theorem length_runningSums (sum : Float) (items : List Weighted) :
    (runningSums sum items).length = items.length := by
  induction items generalizing sum with
  | nil => rfl
  | cons item rest ih => rw [runningSums, List.length_cons, List.length_cons, ih]

/-- The running sum at an item:
`(runningSums sum (before ++ item :: after))[before.length]? = some (sumFrom sum before + item.weight)`. -/
theorem getElem?_runningSums (sum : Float) (before : List Weighted) (item : Weighted) (after : List Weighted) :
    (runningSums sum (before ++ item :: after))[before.length]? = some (sumFrom sum before + item.weight) := by
  rw [runningSums_append, List.getElem?_append_right (Nat.le_of_eq (length_runningSums sum before)),
    length_runningSums, Nat.sub_self]
  rfl

/-- The last running sum of a first part is the sum of its weights: `(runningSums sum (before ++ after))[before.length
- 1]? = Option.some (sumFrom sum before)`. -/
theorem getElem?_pred_runningSums (sum : Float) (some : before ≠ []) (after : List Weighted) :
    (runningSums sum (before ++ after))[before.length - 1]? = Option.some (sumFrom sum before) := by
  obtain ⟨init, last, rfl⟩ : ∃ init last, before = init ++ [last] :=
    ⟨before.dropLast, before.getLast some, (List.dropLast_concat_getLast some).symm⟩
  rw [List.length_append, List.length_singleton, Nat.add_sub_cancel, List.append_assoc, List.singleton_append,
    getElem?_runningSums, sumFrom_append]
  rfl

/-- A finite sum has finite weights: `sum.isFinite ∧ ∀ item ∈ items, item.weight.isFinite`. -/
theorem isFinite_of_sumFrom (finite : (sumFrom sum items).isFinite = true) :
    sum.isFinite = true ∧ ∀ item ∈ items, item.weight.isFinite = true := by
  induction items generalizing sum with
  | nil => exact ⟨finite, fun item mem => absurd mem List.not_mem_nil⟩
  | cons first rest ih =>
    -- A sum that is not finite stays so whatever is added, so the last sum tells of each before it.
    obtain ⟨finiteFirst, finiteRest⟩ := ih finite
    obtain ⟨finiteSum, finiteWeight⟩ := Binary64.isFinite_of_add finiteFirst
    exact ⟨finiteSum, List.forall_mem_cons.2 ⟨finiteWeight, finiteRest⟩⟩

/-! ## Bisection -/

/-- A position among `count` sums from a position on: the sum there exceeds the sample, unless it is the end, and the
sum before it does not, unless it is the start. -/
structure IsFirstAbove (sums : List Float) (sample : Float) (start count position : Nat) : Prop where
  low : start ≤ position
  high : position ≤ start + count
  above : position < start + count → sample < sums[position]?.getD 0
  below : start < position → ¬ sample < sums[position - 1]?.getD 0

/-- Bisection finds such a position, also where the sums are not in order:
`IsFirstAbove sums sample start count (firstAbove sums sample start count)`. -/
theorem isFirstAbove_firstAbove (sums : List Float) (sample : Float) (start count : Nat) :
    IsFirstAbove sums sample start count (firstAbove sums sample start count) := by
  fun_induction firstAbove sums sample start count with
  | case1 start => exact ⟨Nat.le_refl _, Nat.le_refl _, fun h => absurd h (Nat.lt_irrefl _),
      fun h => absurd h (Nat.lt_irrefl _)⟩
  | case2 start count some half exceeds ih =>
    -- The sum just behind the lower half exceeds the sample, so its end may be the position.
    obtain ⟨low, high, above, below⟩ := ih
    have smaller : half ≤ count := Nat.div_le_self count 2
    refine ⟨low, by omega, fun _ => ?_, below⟩
    rcases Nat.lt_or_eq_of_le high with inside | last
    · exact above inside
    · rw [last]
      exact exceeds
  | case3 start count some half less ih =>
    -- The sum just before the upper half does not exceed the sample, so its start may be the position.
    obtain ⟨low, high, above, below⟩ := ih
    have smaller : half < count := Nat.div_lt_self (Nat.pos_of_ne_zero some) (by decide)
    refine ⟨by omega, by omega, fun inside => above (by omega), fun _ => ?_⟩
    rcases Nat.lt_or_eq_of_le low with inside | first
    · exact below inside
    · rw [← first, Nat.add_sub_cancel]
      exact less

/-! ## Picks -/

/-- The table of `items`. -/
def tableOf (items : List Weighted) : WeightTable :=
  ⟨items.map Weighted.label, runningSums 0 items, sumFrom 0 items⟩

/-- Before the first sum that exceeds a sample there is none that does, the empty one included:
`¬ sample < sumFrom 0 before`. -/
theorem not_lt_sumFrom {position : Nat} (found : IsFirstAbove (runningSums 0 items) sample 0 items.length position)
    (start : ¬ sample < 0) (split : items = before ++ after) (length : before.length = position) :
    ¬ sample < sumFrom 0 before := by
  by_cases some : before = []
  · rw [some]
    exact start
  · have pos : 0 < before.length := List.length_pos_iff.2 some
    have below := found.below (length ▸ pos)
    rwa [split, ← length, getElem?_pred_runningSums 0 some] at below

/-- The first of the `runningSums` that exceeds `sample` is that of an item with a positive weight; if there is none,
the total does not exceed the sample either. -/
theorem firstAbove_cases (checked : ∀ item ∈ items, ¬ item.weight < 0) (start : ¬ sample < 0) :
    (∃ before item after, items = before ++ item :: after ∧
      firstAbove (runningSums 0 items) sample 0 items.length = before.length ∧ 0 < item.weight) ∨
    firstAbove (runningSums 0 items) sample 0 items.length = items.length ∧ ¬ sample < sumFrom 0 items := by
  have found := isFirstAbove_firstAbove (runningSums 0 items) sample 0 items.length
  generalize firstAbove (runningSums 0 items) sample 0 items.length = position at *
  have high := found.high
  rw [Nat.zero_add] at high
  rcases Nat.lt_or_eq_of_le high with inside | rfl
  · -- The item at the position splits the list.
    have split : items = items.take position ++ items[position] :: items.drop (position + 1) := by
      rw [← List.drop_eq_getElem_cons inside, List.take_append_drop]
    have length : (items.take position).length = position := List.length_take_of_le high
    have above := found.above (by rwa [Nat.zero_add])
    have notYet := not_lt_sumFrom found start split length
    generalize items.take position = before at *
    generalize items[position] = item at *
    rw [split, ← length, getElem?_runningSums] at above
    have mem : item ∈ items := by
      rw [split]
      exact List.mem_append_right _ List.mem_cons_self
    exact .inl ⟨before, item, _, split, length.symm, Binary64.pos_of_lt_add above notYet (checked item mem)⟩
  · exact .inr ⟨rfl, not_lt_sumFrom found start (List.append_nil items).symm rfl⟩

/-- The label at the position of an item:
`((before ++ item :: after).map Weighted.label)[before.length]? = some item.label`. -/
theorem getElem?_label (before : List Weighted) (item : Weighted) (after : List Weighted) :
    ((before ++ item :: after).map Weighted.label)[before.length]? = some item.label := by
  rw [List.getElem?_map, List.getElem?_append_right (Nat.le_refl _), Nat.sub_self]
  rfl

/-- The sample of `n`: its share `unitSample n` of the sum of all weights. -/
def sampleOf (items : List Weighted) (n : Int64) : Float := unitSample n * sumFrom 0 items

/-- The table of `items` picks the label at `firstAbove` their `runningSums`, or the last label. -/
theorem pick_tableOf (items : List Weighted) (n : Int64) : (tableOf items).pick n =
    (items.map Weighted.label)[min (firstAbove (runningSums 0 items) (sampleOf items n) 0 items.length)
      (items.length - 1)]?.getD [] := by
  rw [WeightTable.pick]
  show (items.map Weighted.label)[min (firstAbove (runningSums 0 items) (sampleOf items n) 0
    (runningSums 0 items).length) ((items.map Weighted.label).length - 1)]?.getD [] = _
  rw [length_runningSums, List.length_map]

/-- The label at the end of the list: `(tableOf items).pick n = (items.getLast some).label`. -/
theorem pick_of_end {n : Int64} (some : items ≠ [])
    (ended : firstAbove (runningSums 0 items) (sampleOf items n) 0 items.length = items.length) :
    (tableOf items).pick n = (items.getLast some).label := by
  have split := List.dropLast_concat_getLast some
  have length : items.dropLast.length = items.length - 1 := List.length_dropLast
  have label := getElem?_label items.dropLast (items.getLast some) []
  rw [split, length] at label
  rw [pick_tableOf, ended, Nat.min_eq_right (Nat.sub_le _ _), label]
  rfl

/-- **A pick is the label of an item with a positive weight**, or the last label if `sumFrom 0 items`, the total, does
not exceed the sample. -/
theorem pick_cases (some : items ≠ []) (checked : ∀ item ∈ items, ¬ item.weight < 0) {n : Int64}
    (start : ¬ sampleOf items n < 0) :
    (∃ item ∈ items, (tableOf items).pick n = item.label ∧ 0 < item.weight) ∨
    (tableOf items).pick n = (items.getLast some).label ∧ ¬ sampleOf items n < sumFrom 0 items := by
  rcases firstAbove_cases checked start with ⟨before, item, after, split, position, positive⟩ | ⟨ended, most⟩
  · refine .inl ⟨item, ?_, ?_, positive⟩
    · rw [split]
      exact List.mem_append_right _ List.mem_cons_self
    · have inside : before.length ≤ items.length - 1 := by
        rw [split, List.length_append, List.length_cons]
        omega
      rw [pick_tableOf, position, Nat.min_eq_left inside, split, getElem?_label]
      rfl
  · exact .inr ⟨pick_of_end some ended, most⟩

/-! ## Samples -/

/-- The sample of an integer is zero, or a natural below `2 ^ 53` as a fraction of `2 ^ 53`. -/
theorem content_unitSample (n : Int64) : content (unitSample n) = .zero .positive ∨
    ∃ h k : Nat, ∃ pos : 0 < h, h.log2 + k = 52 ∧
      content (unitSample n) = .finite .positive (h * 2 ^ k) (-k - 53) (Nat.mul_pos pos (Nat.two_pow_pos k)) := by
  -- Eleven of the 64 bits are dropped, so that the division is exact.
  have high : (mix n.toUInt64 >>> 11).toNat < 2 ^ 53 := by
    rw [UInt64.toNat_shiftRight]
    show (mix n.toUInt64).toNat >>> 11 < 2 ^ 53
    rw [Nat.shiftRight_eq_div_pow]
    have bits := (mix n.toUInt64).toNat_lt
    omega
  unfold unitSample
  generalize (mix n.toUInt64 >>> 11).toNat = h at high
  rcases Nat.eq_zero_or_pos h with rfl | pos
  · exact .inl rfl
  · have bits := (Nat.log2_lt (Nat.ne_of_gt pos)).2 high
    have log : h.log2 + (52 - h.log2) = 52 := by omega
    exact .inr ⟨h, 52 - h.log2, pos, log, Binary64.content_fraction pos log⟩

/-- The sample of an integer has no minus: `IsUnsigned (content (unitSample n))`. -/
theorem isUnsigned_unitSample (n : Int64) : IsUnsigned (content (unitSample n)) := by
  rcases content_unitSample n with zero | ⟨h, k, pos, -, fraction⟩
  · rw [zero]
    exact .zero _
  · rw [fraction]
    exact .finite _ _ _

/-- The sample below a total without a minus is not below zero: `¬ sampleOf items n < 0`. -/
theorem not_sampleOf_lt_zero (unsigned : IsUnsigned (content (sumFrom 0 items))) (n : Int64) :
    ¬ sampleOf items n < 0 :=
  Binary64.not_lt_zero_iff.2 (Binary64.isUnsigned_mul (isUnsigned_unitSample n) unsigned)

/-- The sample is below a finite total, unless this is next to zero: `sampleOf items n < sumFrom 0 items`. -/
theorem sampleOf_lt (finite : (sumFrom 0 items).isFinite = true)
    (above : Binary64.leastNormal < sumFrom 0 items) (n : Int64) : sampleOf items n < sumFrom 0 items := by
  rcases content_unitSample n with zero | ⟨h, k, pos, log, fraction⟩
  · exact Binary64.mul_zero_lt zero finite above
  · exact Binary64.mul_fraction_lt pos log fraction finite above

/-- The sample below a total that is not finite is below nothing: `¬ sampleOf items n < x`. -/
theorem not_sampleOf_lt (unsigned : IsUnsigned (content (sumFrom 0 items)))
    (infinite : ¬ (sumFrom 0 items).isFinite = true) (n : Int64) (x : Float) : ¬ sampleOf items n < x :=
  Binary64.not_lt_of_isUnbounded (Binary64.isUnbounded_mul (isUnsigned_unitSample n)
    (Binary64.isUnbounded_of_not_isFinite unsigned infinite))

/-- With a total that is not finite the last label is picked:
`(tableOf items).pick n = (items.getLast some).label`. -/
theorem pick_of_not_isFinite (some : items ≠ []) (unsigned : IsUnsigned (content (sumFrom 0 items)))
    (infinite : ¬ (sumFrom 0 items).isFinite = true) (n : Int64) :
    (tableOf items).pick n = (items.getLast some).label := by
  have found := isFirstAbove_firstAbove (runningSums 0 items) (sampleOf items n) 0 items.length
  have none := not_sampleOf_lt unsigned infinite n
  have high := found.high
  rw [Nat.zero_add] at high
  refine pick_of_end some (Nat.le_antisymm high (Nat.not_lt.1 fun inside => ?_))
  exact none _ (found.above (by rwa [Nat.zero_add]))

/-! ## Reading -/

/-- The text of an item: `label`, which weighs one, or `label:weight`, whose weight is a number that is not below
zero. -/
inductive ItemText : Text → Weighted → Prop
  /-- A label alone. -/
  | plain {label} : Byte.colon ∉ label → ItemText label ⟨label, 1⟩
  /-- A label with its weight. -/
  | weighted {label number w} : Byte.colon ∉ number → Binary64.read? number = some w → ¬ w < 0 →
      ItemText (label ++ Byte.colon :: number) ⟨label, w⟩

/-- The texts of items; empty ones are skipped. -/
inductive ItemTexts : List Text → List Weighted → Prop
  /-- No text. -/
  | nil : ItemTexts [] []
  /-- An empty text before others. -/
  | skip {parts items} : ItemTexts parts items → ItemTexts ([] :: parts) items
  /-- An item before others. -/
  | item {part item parts items} : part ≠ [] → ItemText part item → ItemTexts parts items →
      ItemTexts (part :: parts) (item :: items)

/-- The text `s` of `items`, with semicolons between them. -/
def ItemsText (s : Text) (items : List Weighted) : Prop :=
  ∃ parts, (∀ part ∈ parts, Byte.semicolon ∉ part) ∧ parts ≠ [] ∧ s = Text.joinWith [Byte.semicolon] parts ∧
    ItemTexts parts items

/-- An item is read exactly from its text: `Weighted.read part = .ok item ↔ ItemText part item`. -/
theorem read_eq_ok_iff {part : Text} : Weighted.read part = .ok item ↔ ItemText part item := by
  constructor
  · intro h
    unfold Weighted.read at h
    split at h
    · next whole =>
      cases h
      exact .plain (Text.cutLast?_eq_none_iff.1 whole)
    · -- The last colon separates the weight, so a label may hold colons of its own.
      next label number cut =>
      obtain ⟨rfl, absent⟩ := Text.eq_append_of_cutLast? cut
      split at h
      · next w read =>
        split at h
        · cases h
        · next checked =>
          cases h
          exact .weighted absent read checked
      · cases h
  · intro h
    cases h with
    | plain absent => rw [Weighted.read, Text.cutLast?_eq_none_iff.2 absent]
    | @weighted label number w absent read checked =>
      rw [Weighted.read, Text.cutLast?_append label absent]
      dsimp only
      rw [read]
      exact if_neg checked

/-- Items are read exactly from their texts:
`(parts.filter (!·.isEmpty)).mapM Weighted.read = .ok items ↔ ItemTexts parts items`. -/
theorem mapM_read_eq_ok_iff {parts : List Text} :
    (parts.filter (!·.isEmpty)).mapM Weighted.read = .ok items ↔ ItemTexts parts items := by
  induction parts generalizing items with
  | nil =>
    constructor
    · intro h
      cases h
      exact .nil
    · rintro ⟨⟩
      rfl
  | cons part rest ih =>
    cases part with
    | nil =>
      rw [List.filter_cons_of_neg (by decide), ih]
      constructor
      · exact .skip
      · rintro (_ | rest | ⟨some, -, -⟩)
        · exact rest
        · exact absurd rfl some
    | cons b bs =>
      rw [List.filter_cons_of_pos rfl, List.mapM_cons, Outcome.bind_eq_ok]
      constructor
      · rintro ⟨item, first, others⟩
        obtain ⟨items, run, ⟨⟩⟩ := Outcome.bind_eq_ok.1 others
        exact .item (List.cons_ne_nil b bs) (read_eq_ok_iff.1 first) (ih.1 run)
      · intro h
        cases h with
        | item _ first others =>
          exact ⟨_, read_eq_ok_iff.2 first, Outcome.bind_eq_ok.2 ⟨_, ih.2 others, rfl⟩⟩

/-- Checked weights are not below zero: `∀ item ∈ items, ¬ item.weight < 0`. -/
theorem ItemTexts.checked {parts : List Text} (h : ItemTexts parts items) : ∀ item ∈ items, ¬ item.weight < 0 := by
  induction h with
  | nil => exact fun item mem => absurd mem List.not_mem_nil
  | skip _ ih => exact ih
  | item _ isItem _ ih =>
    refine List.forall_mem_cons.2 ⟨?_, ih⟩
    cases isItem with
    | plain _ => exact (by decide +kernel : ¬ (1 : Float) < 0)
    | weighted _ _ checked => exact checked

/-- The items of a text are read exactly from it, and there must be one:
`Weighted.readAll s = .ok items ↔ ItemsText s items ∧ items ≠ []`. -/
theorem readAll_eq_ok_iff {s : Text} : Weighted.readAll s = .ok items ↔ ItemsText s items ∧ items ≠ [] := by
  rw [Weighted.readAll, Outcome.bind_eq_ok]
  constructor
  · rintro ⟨_, run, h⟩
    split at h
    · cases h
    · next some =>
      cases h
      exact ⟨⟨_, fun _ => Text.not_mem_of_mem_splitAll, Text.splitAll_ne_nil _ _,
        (Text.joinWith_splitAll _ _).symm, mapM_read_eq_ok_iff.1 run⟩, fun none => some (List.isEmpty_iff.2 none)⟩
  · rintro ⟨⟨parts, absent, nonempty, rfl, texts⟩, some⟩
    rw [Text.splitAll_joinWith nonempty absent]
    exact ⟨items, mapM_read_eq_ok_iff.2 texts, if_neg fun none => some (List.isEmpty_iff.1 none)⟩

/-- The table of a text is that of its items, whose total must not be zero or below: `WeightTable.read s = .ok table ↔
∃ items, ItemsText s items ∧ items ≠ [] ∧ ¬ sumFrom 0 items ≤ 0 ∧ tableOf items = table`. -/
theorem read_table_eq_ok_iff {s : Text} {table : WeightTable} : WeightTable.read s = .ok table ↔
    ∃ items, ItemsText s items ∧ items ≠ [] ∧ ¬ sumFrom 0 items ≤ 0 ∧ tableOf items = table := by
  rw [WeightTable.read, Outcome.bind_eq_ok]
  constructor
  · rintro ⟨items, read, h⟩
    obtain ⟨texts, some⟩ := readAll_eq_ok_iff.1 read
    dsimp only at h
    split at h
    · cases h
    · next total => exact ⟨items, texts, some, total, Except.ok.inj h⟩
  · rintro ⟨items, texts, some, total, rfl⟩
    exact ⟨items, readAll_eq_ok_iff.2 ⟨texts, some⟩, if_neg total⟩

/-! ## The function of the library -/

/-- The `total` is finite, and not so near zero that a sample may be rounded to it. -/
def IsAmple (total : Float) : Prop := total.isFinite = true ∧ Binary64.leastNormal < total

/-- Whether a total is ample is decided by its two comparisons. -/
instance (total : Float) : Decidable (IsAmple total) := inferInstanceAs (Decidable (_ ∧ _))

/-- The `step` chooses between the `items`, one at least. -/
structure Chooses (items : List Weighted) (some : items ≠ []) (step : Step) : Prop where
  /-- No weight is below zero. -/
  checked : ∀ item ∈ items, ¬ item.weight < 0
  /-- The total is neither zero nor below it. -/
  total : ¬ sumFrom 0 items ≤ 0
  /-- A total that is finite is positive, and the weights are finite and not negative. -/
  finite : (sumFrom 0 items).isFinite = true →
    0 < sumFrom 0 items ∧ ∀ item ∈ items, item.weight.isFinite = true ∧ 0 ≤ item.weight
  /-- The choice falls on an item with a positive weight, or on the last one if the total is not ample. -/
  choice : ∀ n, ∃ item ∈ items, step (.int n) = .ok (.text item.label) ∧
    (0 < item.weight ∨ item = items.getLast some ∧ ¬ IsAmple (sumFrom 0 items))
  /-- With a total that is not finite it always falls on the last one. -/
  last : ¬ (sumFrom 0 items).isFinite = true → ∀ n, step (.int n) = .ok (.text (items.getLast some).label)

/-- The step that picks from the table of checked items chooses between them:
`Chooses items some (onInt fun n => .text ((tableOf items).pick n))`. -/
theorem chooses_pick (some : items ≠ []) (checked : ∀ item ∈ items, ¬ item.weight < 0)
    (total : ¬ sumFrom 0 items ≤ 0) : Chooses items some (onInt fun n => .text ((tableOf items).pick n)) := by
  obtain ⟨unsigned, nonzero⟩ := Binary64.isUnsigned_of_not_le total
  refine ⟨checked, total, ?finite, ?choice, ?last⟩
  case finite =>
    intro finite
    obtain ⟨-, finiteWeights⟩ := isFinite_of_sumFrom finite
    refine ⟨Binary64.lt_of_isUnsigned unsigned (fun none => ?_) nonzero, fun item mem => ?_⟩
    · rw [Binary64.isFinite_eq, none] at finite
      cases finite
    · exact ⟨finiteWeights item mem,
        Binary64.le_of_isUnsigned (Binary64.not_lt_zero_iff.1 (checked item mem)) (finiteWeights item mem)⟩
  case choice =>
    intro n
    -- Where bisection runs to the end the sample is not below the total, which an ample one excludes.
    have start := not_sampleOf_lt_zero unsigned n
    rcases pick_cases some checked start with ⟨item, mem, picked, positive⟩ | ⟨picked, most⟩
    · exact ⟨item, mem, congrArg (Except.ok <| Value.text ·) picked, .inl positive⟩
    · exact ⟨_, List.getLast_mem some, congrArg (Except.ok <| Value.text ·) picked,
        .inr ⟨rfl, fun ⟨finite, above⟩ => most (sampleOf_lt finite above n)⟩⟩
  case last =>
    intro infinite n
    exact congrArg (Except.ok <| Value.text ·) (pick_of_not_isFinite some unsigned infinite n)

/-- The arguments that are accepted: one, which denotes the text of `items`, one at least, with a total that is
neither zero nor below it. -/
def IsChoice (args : List Value) (items : List Weighted) : Prop :=
  ∃ a s, args = [a] ∧ a.toText? = .ok (some s) ∧ ItemsText s items ∧ items ≠ [] ∧ ¬ sumFrom 0 items ≤ 0

/-- What is made of the arguments picks from the table of their items: `builtIn "WeightedStrings" args = .ok step ↔ ∃
items, IsChoice args items ∧ (onInt fun n => .text ((tableOf items).pick n)) = step`. -/
theorem builtIn_weighing {args : List Value} {step : Step} : builtIn "WeightedStrings" args = .ok step ↔
    ∃ items, IsChoice args items ∧ (onInt fun n => .text ((tableOf items).pick n)) = step := by
  constructor
  · intro made
    match args with
    | [] => cases made
    | _ :: _ :: _ => cases made
    | [a] =>
      obtain ⟨s, converts, made⟩ := Outcome.bind_eq_ok.1 made
      obtain ⟨table, read, ⟨⟩⟩ := Outcome.bind_eq_ok.1 made
      obtain ⟨items, texts, some, total, rfl⟩ := read_table_eq_ok_iff.1 read
      exact ⟨items, ⟨a, s, rfl, Value.convert_eq_ok_iff.1 (Outcome.mapError_eq_ok.1 converts), texts, some, total⟩,
        rfl⟩
  · rintro ⟨items, ⟨a, s, rfl, converts, texts, some, total⟩, rfl⟩
    have read := read_table_eq_ok_iff.2 ⟨items, texts, some, total, rfl⟩
    exact Outcome.bind_eq_ok.2 ⟨s, Outcome.mapError_eq_ok.2 (Value.convert_eq_ok_iff.2 converts),
      Outcome.bind_eq_ok.2 ⟨_, read, rfl⟩⟩

/-- **A choice by weight falls on an item with a positive weight if the total `IsAmple`.** The arguments are accepted
exactly if `IsChoice` holds of them: every text is accepted whose items have weights that are not below zero and a
total that is not zero or below; if this total is finite, it is positive and the weights are finite and not negative.
Where the total is not ample the choice may fall on the last item, whatever it weighs, and where it is not finite it
always does. -/
theorem weighted_choice (args : List Value) :
    ((∃ step, builtIn "WeightedStrings" args = .ok step) ↔ ∃ items, IsChoice args items) ∧
    ∀ step, builtIn "WeightedStrings" args = .ok step →
      ∃ items some, IsChoice args items ∧ Chooses items some step := by
  constructor
  · constructor
    · rintro ⟨step, made⟩
      obtain ⟨items, choice, -⟩ := builtIn_weighing.1 made
      exact ⟨items, choice⟩
    · rintro ⟨items, choice⟩
      exact ⟨_, builtIn_weighing.2 ⟨items, choice, rfl⟩⟩
  · intro step made
    obtain ⟨items, choice, rfl⟩ := builtIn_weighing.1 made
    obtain ⟨_, _, _, _, ⟨parts, _, _, _, texts⟩, some, total⟩ := id choice
    exact ⟨items, some, choice, chooses_pick some texts.checked total⟩

/-- The items of a text that is accepted are those that are read from it: `Weighted.readAll s = .ok items`. -/
theorem IsChoice.read {s : Text} (choice : IsChoice [.text s] items) : Weighted.readAll s = .ok items := by
  obtain ⟨_, _, ⟨⟩, ⟨⟩, texts, some, -⟩ := choice
  exact readAll_eq_ok_iff.2 ⟨texts, some⟩

/-- Of two labels the choice never falls on the last one if it weighs nothing:
`∃ step, builtIn "WeightedStrings" [.text "red:2;grey:0"] = .ok step ∧ ∀ n, step (.int n) = .ok (.text "red")`. -/
theorem weighted_choice_sample : ∃ step, builtIn "WeightedStrings" [.text "red:2;grey:0"] = .ok step ∧
    ∀ n, step (.int n) = .ok (.text "red") := by
  have read : Weighted.readAll "red:2;grey:0" = .ok [⟨"red", 2⟩, ⟨"grey", 0⟩] :=
    Outcome.toOption_eq_some.1 (by decide +kernel)
  have ample : IsAmple (sumFrom 0 [⟨"red", 2⟩, ⟨"grey", 0⟩]) := by decide +kernel
  obtain ⟨accepts, chooses⟩ := weighted_choice [.text "red:2;grey:0"]
  obtain ⟨texts, some⟩ := readAll_eq_ok_iff.1 read
  obtain ⟨step, made⟩ := accepts.2 ⟨_, _, _, rfl, rfl, texts, some, by decide +kernel⟩
  obtain ⟨items, _, choice, chosen⟩ := chooses step made
  -- The items of the text are known, and of the two only the first has a positive weight.
  cases read.symm.trans choice.read
  refine ⟨step, made, fun n => ?_⟩
  obtain ⟨item, mem, picked, positive | ⟨-, notAmple⟩⟩ := chosen.choice n
  · rcases List.mem_cons.1 mem with rfl | mem
    · exact picked
    · rw [List.mem_singleton.1 mem] at positive
      exact absurd positive (by decide +kernel)
  · exact absurd ample notAmple

/-- The weight `nan` is accepted, and with it the label of the last item is chosen, which weighs nothing; so it is
with the least positive weight, for an integer with the greatest sample. -/
theorem weightless_label_chosen :
    (∃ chain, catalog.resolve "WeightedStrings('a:nan;b:0')" false = .ok chain ∧
      chain.apply 5 = .ok (.text "b")) ∧
    IsChoice [.text "a:nan;b:0"] [⟨"a", 0 / 0⟩, ⟨"b", 0⟩] ∧ ¬ (0 / 0 : Float).isFinite = true ∧
    IsChoice [.text "a:0x1p-1074;b:0"] [⟨"a", Float.ofBits 1⟩, ⟨"b", 0⟩] ∧
    ∃ step, builtIn "WeightedStrings" [.text "a:0x1p-1074;b:0"] = .ok step ∧
      step (.int (-8528264022506211158)) = .ok (.text "b") := by
  have notNumber : Weighted.readAll "a:nan;b:0" = .ok [⟨"a", 0 / 0⟩, ⟨"b", 0⟩] :=
    Outcome.toOption_eq_some.1 (by decide +kernel)
  have least : Weighted.readAll "a:0x1p-1074;b:0" = .ok [⟨"a", Float.ofBits 1⟩, ⟨"b", 0⟩] :=
    Outcome.toOption_eq_some.1 (by decide +kernel)
  obtain ⟨chain, resolved, yields⟩ := Outcome.exists_ok_of_test
    (x := catalog.resolve "WeightedStrings('a:nan;b:0')" false)
    (fun chain => (chain.apply 5).toOption.any (· == .text "b")) (by decide +kernel)
  obtain ⟨v, given, text⟩ := Outcome.exists_ok_of_test _ yields
  obtain ⟨notNumberTexts, notNumberSome⟩ := readAll_eq_ok_iff.1 notNumber
  obtain ⟨leastTexts, leastSome⟩ := readAll_eq_ok_iff.1 least
  have choice : IsChoice [.text "a:0x1p-1074;b:0"] [⟨"a", Float.ofBits 1⟩, ⟨"b", 0⟩] :=
    ⟨_, _, rfl, rfl, leastTexts, leastSome, by decide +kernel⟩
  have picked : (tableOf [⟨"a", Float.ofBits 1⟩, ⟨"b", 0⟩]).pick (-8528264022506211158) = "b" := by decide +kernel
  exact ⟨⟨chain, resolved, given.trans (congrArg Except.ok (Value.beq_text_iff.1 text))⟩,
    ⟨_, _, rfl, rfl, notNumberTexts, notNumberSome, by decide +kernel⟩, by decide +kernel, choice,
    _, builtIn_weighing.2 ⟨_, choice, rfl⟩, congrArg (Except.ok <| Value.text ·) picked⟩

end OpCycle.Basics
