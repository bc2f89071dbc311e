import Mathlib.Algebra.Group.Int.Defs
import Mathlib.Algebra.Group.Nat.Defs
import OpCycle.Basics.NumberName
import OpCycle.Proofs.Text.Splitting

/-! # Number names are read back
Reading the words of a name in the usual way gives the number again: ones and tens add to a group, a hundred
multiplies it, and a scale closes it. So different numbers have different names. The words are found in the
tables of names without a look-up out of range.

* `Tally.read`, `readName?`: the reader of names.
* `numberWords?`: the words of a number by look-ups that may fail.
* `numberName_reads_back`: the name of a number is read as the number. -/

namespace OpCycle.Basics

/-! ## Reading words -/

/-- What a word does to a number that is read. -/
inductive Meaning
  /-- It adds to the group. -/
  | units (n : Nat)
  /-- It multiplies the group by a hundred. -/
  | hundred
  /-- It closes the group and multiplies it by a factor. -/
  | scale (factor : Nat)
  deriving DecidableEq, Repr

/-- The words that add to a group, with what they add as `units`. -/
def unitWords : List (Text × Meaning) :=
  [("zero", .units 0), ("one", .units 1), ("two", .units 2), ("three", .units 3), ("four", .units 4),
    ("five", .units 5), ("six", .units 6), ("seven", .units 7), ("eight", .units 8), ("nine", .units 9),
    ("ten", .units 10), ("eleven", .units 11), ("twelve", .units 12), ("thirteen", .units 13),
    ("fourteen", .units 14), ("fifteen", .units 15), ("sixteen", .units 16), ("seventeen", .units 17),
    ("eighteen", .units 18), ("nineteen", .units 19), ("twenty", .units 20), ("thirty", .units 30),
    ("forty", .units 40), ("fifty", .units 50), ("sixty", .units 60), ("seventy", .units 70),
    ("eighty", .units 80), ("ninety", .units 90)]

/-- The words that multiply a group: `hundred`, and those that close it. -/
def scaleWords : List (Text × Meaning) :=
  [("hundred", .hundred), ("thousand", .scale 1000), ("million", .scale 1000000),
    ("billion", .scale 1000000000), ("trillion", .scale 1000000000000),
    ("quadrillion", .scale 1000000000000000), ("quintillion", .scale 1000000000000000000)]

/-- The words of magnitudes: `unitWords` and `scaleWords`. -/
def vocabulary : List (Text × Meaning) := unitWords ++ scaleWords

/-- A number that is read: the sum of the groups that are closed, and the group that is not. -/
structure Tally where
  /-- The sum of the closed groups. -/
  closed : Nat
  /-- The group that is read. -/
  group : Nat
  deriving DecidableEq, Repr

namespace Tally

/-- What a word makes of the number `t` that is read. -/
def take (t : Tally) : Meaning → Tally
  | .units n => ⟨t.closed, t.group + n⟩
  | .hundred => ⟨t.closed, t.group * 100⟩
  | .scale factor => ⟨t.closed + t.group * factor, 0⟩

/-- Reads words one after another, as `vocabulary` says; there is no reading of an unknown word. -/
def read (t : Tally) : List Text → Option Tally
  | [] => some t
  | word :: rest => (vocabulary.lookup word).bind fun meaning => (t.take meaning).read rest

/-- The number that has been read: `t.closed + t.group`. -/
def total (t : Tally) : Nat := t.closed + t.group

end Tally

/-- The natural that `words` denote; no words denote none. -/
def readMagnitude? (words : List Text) : Option Nat :=
  if words.isEmpty then none else (Tally.read ⟨0, 0⟩ words).map Tally.total

/-- The integer that words denote, which may start with `negative`. -/
def readWords? : List Text → Option Int
  | [] => none
  | first :: rest =>
    if first = "negative" then (readMagnitude? rest).map fun n : Nat => -(n : Int)
    else (readMagnitude? (first :: rest)).map Int.ofNat

/-- The integer that `name` denotes, whose words stand between spaces. -/
def readName? (name : Text) : Option Int := readWords? (Text.splitAll Byte.space name)

/-- Reading no words leaves the tally as it is: `t.read [] = some t`. -/
@[simp] theorem Tally.read_nil (t : Tally) : t.read [] = some t := rfl

/-- A word that is known is taken, and the rest is read after it:
`t.read (word :: rest) = (t.take meaning).read rest`. -/
theorem Tally.read_cons {word : Text} {meaning : Meaning} (known : vocabulary.lookup word = some meaning)
    (t : Tally) (rest : List Text) : t.read (word :: rest) = (t.take meaning).read rest := by
  rw [read, known, Option.bind_some]

/-- Words in a row are read in a row:
`t.read (first ++ second) = (t.read first).bind fun next => next.read second`. -/
theorem Tally.read_append (t : Tally) (first second : List Text) :
    t.read (first ++ second) = (t.read first).bind fun next => next.read second := by
  induction first generalizing t with
  | nil => rfl
  | cons word rest ih =>
    rw [List.cons_append, read, read]
    cases vocabulary.lookup word with
    | none => rfl
    | some meaning => exact ih (t.take meaning)

/-! ## The tables of names -/

/-- The names below twenty mean themselves: `vocabulary.lookup (word ones k) = some (.units k)`. -/
theorem lookup_ones {k : Nat} (small : k < 20) : vocabulary.lookup (word ones k) = some (.units k) := by
  revert k
  decide +kernel

/-- The names of the tens mean ten times their digit: `vocabulary.lookup (word tens k) = some (.units (10 * k))`. -/
theorem lookup_tens {k : Nat} (small : k < 10) (large : 2 ≤ k) :
    vocabulary.lookup (word tens k) = some (.units (10 * k)) := by
  revert k
  decide +kernel

/-- The names of the scales mean the powers of a thousand:
`vocabulary.lookup (word scales k) = some (.scale (1000 ^ k))`. -/
theorem lookup_scales {k : Nat} (small : k < 7) (positive : 0 < k) :
    vocabulary.lookup (word scales k) = some (.scale (1000 ^ k)) := by
  revert k
  decide +kernel

/-- The word for a hundred is in the vocabulary: `vocabulary.lookup "hundred" = some .hundred`. -/
theorem lookup_hundred : vocabulary.lookup (Text.ofString "hundred") = some .hundred := by decide +kernel

/-! ## Groups -/

/-- The words of a number below a hundred add it to the group:
`t.read (belowHundred n) = some ⟨t.closed, t.group + n⟩`. -/
theorem read_belowHundred (t : Tally) {n : Nat} (small : n < 100) :
    t.read (belowHundred n) = some ⟨t.closed, t.group + n⟩ := by
  unfold belowHundred
  split
  · next below => rw [Tally.read_cons (lookup_ones below), Tally.take, Tally.read_nil]
  next above =>
  have ten := lookup_tens (k := n / 10) (by omega) (by omega)
  split
  · next whole =>
    rw [Tally.read_cons ten, Tally.take, Tally.read_nil, show 10 * (n / 10) = n by omega]
  · rw [Tally.read_cons ten, Tally.read_cons (lookup_ones (k := n % 10) (by omega)), Tally.take, Tally.take,
      Tally.read_nil, show t.group + 10 * (n / 10) + n % 10 = t.group + n by omega]

/-- The words of a number below a thousand make it the group:
`Tally.read ⟨closed, 0⟩ (belowThousand n) = some ⟨closed, n⟩`. -/
theorem read_belowThousand (closed : Nat) {n : Nat} (small : n < 1000) :
    Tally.read ⟨closed, 0⟩ (belowThousand n) = some ⟨closed, n⟩ := by
  have hundreds (rest : List Text) (large : 100 ≤ n) :
      Tally.read ⟨closed, 0⟩ (word ones (n / 100) :: "hundred" :: rest) =
        Tally.read ⟨closed, n / 100 * 100⟩ rest := by
    rw [Tally.read_cons (lookup_ones (by omega)), Tally.read_cons lookup_hundred, Tally.take, Tally.take,
      Nat.zero_add]
  unfold belowThousand
  split
  · next below => rw [read_belowHundred _ below, Nat.zero_add]
  next above =>
  dsimp only
  split
  · rw [hundreds [] (by omega), Tally.read_nil, show n / 100 * 100 = n by omega]
  · show Tally.read _ (word ones (n / 100) :: "hundred" :: belowHundred (n % 100)) = _
    rw [hundreds _ (by omega), read_belowHundred _ (by omega), show n / 100 * 100 + n % 100 = n by omega]

/-- The words of a group stay open without a scale, and are closed by one: `Tally.read ⟨closed, 0⟩ (group scale n) =
some (if scale = 0 then ⟨closed, n⟩ else ⟨closed + n * 1000 ^ scale, 0⟩)`. -/
theorem read_group (closed : Nat) {scale n : Nat} (known : scale < 7) (small : n < 1000) :
    Tally.read ⟨closed, 0⟩ (group scale n) =
      some (if scale = 0 then ⟨closed, n⟩ else ⟨closed + n * 1000 ^ scale, 0⟩) := by
  unfold group
  split
  · next zero => rw [zero, Nat.zero_mul, Nat.add_zero, ite_self, Tally.read_nil]
  rw [Tally.read_append, read_belowThousand closed small, Option.bind_some]
  split
  · rw [Tally.read_nil]
  · next positive =>
    rw [Tally.read_cons (lookup_scales known (Nat.pos_of_ne_zero positive)), Tally.take, Tally.read_nil]

/-- The number of a group and those above it stays in the range of the scales that are left:
`scale < 7 ∧ n / 1000 < 1000 ^ (7 - (scale + 1))`. -/
theorem scale_of_lt {scale n : Nat} (large : n ≠ 0) (fits : n < 1000 ^ (7 - scale)) :
    scale < 7 ∧ n / 1000 < 1000 ^ (7 - (scale + 1)) := by
  have known : scale < 7 := by
    refine Nat.lt_of_not_le fun above => ?_
    rw [Nat.sub_eq_zero_of_le above] at fits
    omega
  refine ⟨known, ?_⟩
  rw [show 7 - scale = 7 - (scale + 1) + 1 by omega, Nat.pow_succ] at fits
  exact Nat.div_lt_of_lt_mul (Nat.mul_comm .. ▸ fits)

/-- The words of groups with a scale are added in full to what is closed:
`Tally.read ⟨closed, 0⟩ (groups scale n) = some ⟨closed + n * 1000 ^ scale, 0⟩`. -/
theorem read_groups (closed : Nat) {scale n : Nat} (positive : 0 < scale) (fits : n < 1000 ^ (7 - scale)) :
    Tally.read ⟨closed, 0⟩ (groups scale n) = some ⟨closed + n * 1000 ^ scale, 0⟩ := by
  fun_induction groups scale n with
  | case1 scale => rw [Nat.zero_mul, Nat.add_zero, Tally.read_nil]
  | case2 scale n large ih =>
    obtain ⟨known, upper⟩ := scale_of_lt large fits
    rw [Tally.read_append, ih (Nat.succ_pos scale) upper, Option.bind_some,
      read_group _ known (Nat.mod_lt n (by decide)), if_neg (Nat.pos_iff_ne_zero.1 positive)]
    -- The upper groups count a thousand times as much as this one.
    have sum : n / 1000 * 1000 ^ (scale + 1) + n % 1000 * 1000 ^ scale = n * 1000 ^ scale := by
      rw [Nat.pow_succ, Nat.mul_comm (1000 ^ scale), ← Nat.mul_assoc, ← Nat.add_mul, Nat.div_add_mod']
    rw [Nat.add_assoc, sum]

/-- The words of the groups of a number denote it: `readMagnitude? (groups 0 n) = some n`. -/
theorem readMagnitude?_groups {n : Nat} (large : n ≠ 0) (fits : n < 1000 ^ 7) :
    readMagnitude? (groups 0 n) = some n := by
  have read : Tally.read ⟨0, 0⟩ (groups 0 n) = some ⟨n / 1000 * 1000, n % 1000⟩ := by
    rw [groups, if_neg large, Tally.read_append, read_groups 0 Nat.one_pos (scale_of_lt large fits).2,
      Option.bind_some, read_group _ (by decide) (Nat.mod_lt n (by decide)), if_pos rfl, Nat.zero_add,
      Nat.pow_one]
  have some : groups 0 n ≠ [] := by
    intro none
    rw [none, Tally.read_nil] at read
    have := Option.some.inj read
    simp only [Tally.mk.injEq] at this
    omega
  rw [readMagnitude?, if_neg (by rwa [List.isEmpty_iff]), read, Option.map_some, Tally.total,
    Nat.div_add_mod']

/-! ## Names -/

/-- Words that are read are known: `∃ meaning, vocabulary.lookup w = some meaning`. -/
theorem exists_meaning_of_read {t t' : Tally} {words : List Text} (read : t.read words = some t') {w : Text}
    (mem : w ∈ words) : ∃ meaning, vocabulary.lookup w = some meaning := by
  induction words generalizing t with
  | nil => exact absurd mem List.not_mem_nil
  | cons first rest ih =>
    obtain ⟨meaning, known, read⟩ := Option.bind_eq_some_iff.1 read
    rcases List.mem_cons.1 mem with rfl | mem
    · exact ⟨meaning, known⟩
    · exact ih read mem

/-- The words of a magnitude are known: `∃ meaning, vocabulary.lookup w = some meaning`. -/
theorem exists_meaning_of_readMagnitude? {words : List Text} {n : Nat} (read : readMagnitude? words = some n)
    {w : Text} (mem : w ∈ words) : ∃ meaning, vocabulary.lookup w = some meaning := by
  rw [readMagnitude?] at read
  split at read
  · cases read
  · obtain ⟨t, read, -⟩ := Option.map_eq_some_iff.1 read
    exact exists_meaning_of_read read mem

/-- The words of a magnitude denote it without a sign as well: `readWords? words = some (n : Int)`. -/
theorem readWords?_of_readMagnitude? {words : List Text} {n : Nat} (read : readMagnitude? words = some n) :
    readWords? words = some (n : Int) := by
  cases words with
  | nil => cases read
  | cons first rest =>
    have unsigned : first ≠ "negative" := by
      rintro rfl
      obtain ⟨meaning, known⟩ := exists_meaning_of_readMagnitude? read List.mem_cons_self
      exact absurd known (by rw [show vocabulary.lookup (Text.ofString "negative") = none by decide +kernel]; nofun)
    rw [readWords?, if_neg unsigned, read]
    rfl

/-- The words of the magnitude of `n`. -/
def magnitudeWords (n : Int) : List Text := if n = 0 then [word ones 0] else groups 0 n.natAbs

/-- A negative number is named by its magnitude behind the word for the sign:
`numberWords n = if n < 0 then "negative" :: magnitudeWords n else magnitudeWords n`. -/
theorem numberWords_eq (n : Int) :
    numberWords n = if n < 0 then Text.ofString "negative" :: magnitudeWords n else magnitudeWords n := rfl

/-- The words of a magnitude in range denote it: `readMagnitude? (magnitudeWords n) = some n.natAbs`. -/
theorem readMagnitude?_magnitudeWords {n : Int} (fits : n.natAbs < 1000 ^ 7) :
    readMagnitude? (magnitudeWords n) = some n.natAbs := by
  unfold magnitudeWords
  split
  · next zero =>
    rw [zero]
    decide +kernel
  · next large => exact readMagnitude?_groups (Int.natAbs_ne_zero.2 large) fits

/-- The words of an integer in range denote it: `readWords? (numberWords n) = some n`. -/
theorem readWords?_numberWords {n : Int} (fits : n.natAbs < 1000 ^ 7) : readWords? (numberWords n) = some n := by
  have magnitude := readMagnitude?_magnitudeWords fits
  rw [numberWords_eq]
  split
  · next negative =>
    rw [readWords?, if_pos rfl, magnitude, Option.map_some, Int.ofNat_natAbs_of_nonpos (Int.le_of_lt negative),
      Int.neg_neg]
  · next positive =>
    rw [readWords?_of_readMagnitude? magnitude, Int.natAbs_of_nonneg (Int.not_lt.1 positive)]

/-- The known words have letters and no spaces: `w ≠ [] ∧ Byte.space ∉ w`. -/
theorem word_of_lookup {w : Text} {meaning : Meaning} (known : vocabulary.lookup w = some meaning) :
    w ≠ [] ∧ Byte.space ∉ w := by
  have all : ∀ entry ∈ vocabulary, entry.1 ≠ [] ∧ Byte.space ∉ entry.1 := by decide +kernel
  obtain ⟨before, after, split, -⟩ := List.lookup_eq_some_iff.1 known
  exact all (w, meaning) (split ▸ List.mem_append_right _ List.mem_cons_self)

/-- So do the words of an integer in range: `w ≠ [] ∧ Byte.space ∉ w`. -/
theorem word_of_mem_numberWords {n : Int} (fits : n.natAbs < 1000 ^ 7) {w : Text} (mem : w ∈ numberWords n) :
    w ≠ [] ∧ Byte.space ∉ w := by
  have known (mem : w ∈ magnitudeWords n) : w ≠ [] ∧ Byte.space ∉ w := by
    obtain ⟨meaning, known⟩ := exists_meaning_of_readMagnitude? (readMagnitude?_magnitudeWords fits) mem
    exact word_of_lookup known
  rw [numberWords_eq] at mem
  split at mem
  · rcases List.mem_cons.1 mem with rfl | mem
    · decide +kernel
    · exact known mem
  · exact known mem

/-! ## Look-ups -/

/-- The words `belowHundred n`, by look-ups that fail out of range. -/
def belowHundred? (n : Nat) : Option (List Text) :=
  if n < 20 then ones[n]?.map fun one => [one]
  else if n % 10 = 0 then tens[n / 10]?.map fun ten => [ten]
  else do
    let ten ← tens[n / 10]?
    let one ← ones[n % 10]?
    pure [ten, one]

/-- The words `belowThousand n`, by look-ups that fail out of range. -/
def belowThousand? (n : Nat) : Option (List Text) :=
  if n < 100 then belowHundred? n
  else do
    let digit ← ones[n / 100]?
    let hundreds : List Text := [digit, "hundred"]
    if n % 100 = 0 then pure hundreds
    else
      let rest ← belowHundred? (n % 100)
      pure (hundreds ++ rest)

/-- The words `group scale n`, by look-ups that fail out of range. -/
def group? (scale n : Nat) : Option (List Text) :=
  if n = 0 then pure []
  else do
    let words ← belowThousand? n
    if scale = 0 then pure words
    else
      let name ← scales[scale]?
      pure (words ++ [name])

/-- The words `groups scale n`, by look-ups that fail out of range. -/
def groups? (scale n : Nat) : Option (List Text) :=
  if n = 0 then pure []
  else do
    let upper ← groups? (scale + 1) (n / 1000)
    let lower ← group? scale (n % 1000)
    pure (upper ++ lower)
termination_by n
decreasing_by omega

/-- The words `magnitudeWords n`, by look-ups that fail out of range. -/
def magnitudeWords? (n : Int) : Option (List Text) :=
  if n = 0 then ones[0]?.map fun zero => [zero] else groups? 0 n.natAbs

/-- The words `numberWords n`, by look-ups that fail out of range. -/
def numberWords? (n : Int) : Option (List Text) :=
  (magnitudeWords? n).map fun magnitude =>
    if n < 0 then Text.ofString "negative" :: magnitude else magnitude

/-- A look-up in range finds the word: `table[index]? = some (word table index)`. -/
theorem getElem?_eq_word {table : List Text} {index : Nat} (inRange : index < table.length) :
    table[index]? = some (word table index) := by
  rw [word, List.getElem?_eq_getElem inRange, Option.getD_some]

/-- Below a hundred all look-ups of words are in range: `belowHundred? n = some (belowHundred n)`. -/
theorem belowHundred?_eq {n : Nat} (small : n < 100) : belowHundred? n = some (belowHundred n) := by
  unfold belowHundred? belowHundred
  split
  · next below =>
    have found : ones[n]? = some (word ones n) := getElem?_eq_word below
    rw [found, Option.map_some]
  have ten : tens[n / 10]? = some (word tens (n / 10)) := getElem?_eq_word (show n / 10 < 10 by omega)
  have one : ones[n % 10]? = some (word ones (n % 10)) := getElem?_eq_word (show n % 10 < 20 by omega)
  split
  · rw [ten, Option.map_some]
  · rw [ten, one]
    rfl

/-- Below a thousand all look-ups of words are in range: `belowThousand? n = some (belowThousand n)`. -/
theorem belowThousand?_eq {n : Nat} (small : n < 1000) : belowThousand? n = some (belowThousand n) := by
  unfold belowThousand? belowThousand
  split
  · next below => exact belowHundred?_eq below
  have digit : ones[n / 100]? = some (word ones (n / 100)) := getElem?_eq_word (show n / 100 < 20 by omega)
  rw [digit, belowHundred?_eq (show n % 100 < 100 by omega)]
  show (if n % 100 = 0 then _ else _) = _
  split <;> rfl

/-- All look-ups of words for a group below a known scale are in range: `group? scale n = some (group scale n)`. -/
theorem group?_eq {scale n : Nat} (known : scale < 7) (small : n < 1000) :
    group? scale n = some (group scale n) := by
  unfold group? group
  have name : scales[scale]? = some (word scales scale) := getElem?_eq_word known
  rw [belowThousand?_eq small, name]
  split
  · rfl
  · show (if scale = 0 then _ else _) = _
    split
    · rw [List.append_nil]
      rfl
    · rfl

/-- All look-ups of words for the groups from a scale on are in range if the number is small enough for the scales
that are left: `groups? scale n = some (groups scale n)`. -/
theorem groups?_eq {scale n : Nat} (fits : n < 1000 ^ (7 - scale)) : groups? scale n = some (groups scale n) := by
  fun_induction groups scale n with
  | case1 scale =>
    rw [groups?, if_pos rfl]
    rfl
  | case2 scale n large ih =>
    obtain ⟨known, upper⟩ := scale_of_lt large fits
    rw [groups?, if_neg large, ih upper, group?_eq known (Nat.mod_lt n (by decide))]
    rfl

/-- No look-up that is made for the words of an integer in range is out of range:
`numberWords? n = some (numberWords n)`. -/
theorem numberWords?_eq {n : Int} (fits : n.natAbs < 1000 ^ 7) : numberWords? n = some (numberWords n) := by
  have magnitude : magnitudeWords? n = some (magnitudeWords n) := by
    unfold magnitudeWords? magnitudeWords
    split
    · rfl
    · exact groups?_eq fits
  rw [numberWords?, magnitude, Option.map_some, numberWords_eq]

/-- A 64-bit integer has fewer than 22 digits: `n.toInt.natAbs < 1000 ^ 7`. -/
theorem natAbs_lt (n : Int64) : n.toInt.natAbs < 1000 ^ 7 := by
  have low := n.le_toInt
  have high := n.toInt_lt
  omega

/-- `readName?` reads the name of a number back as the number, so different numbers have different names. Its words
stand between single spaces, with none at the ends, and are found in the tables of names without a look-up out of
range: `numberWords?` has them. -/
theorem numberName_reads_back :
    (∀ n : Int64, readName? (numberName n) = some n.toInt ∧
      Text.SinglySeparated Byte.space (numberName n) ∧
      numberWords? n.toInt = some (Text.splitAll Byte.space (numberName n))) ∧
    Function.Injective numberName := by
  -- No word holds a space, so splitting the name gives back the words it was joined from.
  have split (n : Int64) : Text.splitAll Byte.space (numberName n) = numberWords n.toInt := by
    have some : numberWords n.toInt ≠ [] := by
      intro none
      have read := readWords?_numberWords (natAbs_lt n)
      rw [none] at read
      cases read
    exact Text.splitAll_joinWith some fun w mem => (word_of_mem_numberWords (natAbs_lt n) mem).2
  have read (n : Int64) : readName? (numberName n) = some n.toInt := by
    rw [readName?, split, readWords?_numberWords (natAbs_lt n)]
  refine ⟨fun n => ⟨read n, Text.singlySeparated_of_parts ?_, ?_⟩, ?_⟩
  · intro w mem
    rw [split] at mem
    exact (word_of_mem_numberWords (natAbs_lt n) mem).1
  · rw [split, numberWords?_eq (natAbs_lt n)]
  · intro m n same
    have values := congrArg readName? same
    rw [read, read, Option.some.injEq] at values
    exact Int64.toInt_inj.1 values

/-- The least 64-bit integer, whose magnitude is no 64-bit integer, has a name. -/
example : numberName Int64.minValue =
    Text.ofString "negative nine quintillion two hundred twenty three quadrillion three hundred seventy two" ++
      Text.ofString " trillion thirty six billion eight hundred fifty four million seven hundred seventy five" ++
      Text.ofString " thousand eight hundred eight" := by
  decide +kernel

end OpCycle.Basics
