import OpCycle.Proofs.Text.Span
import OpCycle.Binary64.Numeral

/-! # Decimal numerals
The grammar of decimal integers and floats, and what the readers take: the integer reader takes exactly a
sign and digits that stay in range, and a float numeral without the letters of the other notations is a
sign, a mantissa and an exponent.

* `Decimal.Sign`, `Decimal.Digits`, `Mantissa`, `Exponent`: the grammar.
* `toInt?_eq_some_iff`, `exists_of_read?_eq_some`: what the readers take. -/

namespace OpCycle.Decimal

/-! ## Integers -/

/-- An optional sign, and whether it is a minus. -/
inductive Sign : Text → Bool → Prop
  /-- No sign. -/
  | none : Sign [] false
  /-- A plus. -/
  | plus : Sign [Byte.plus] false
  /-- A minus. -/
  | minus : Sign [Byte.minus] true

/-- One or more decimal digits. -/
structure Digits (s : Text) : Prop where
  nonempty : s ≠ []
  all : ∀ b ∈ s, Byte.isDigit b = true

/-- The byte `b` is a sign. -/
def isSign (b : UInt8) : Bool := b == Byte.minus || b == Byte.plus

/-- Signs are two bytes: `isSign b ↔ b.toNat = 45 ∨ b.toNat = 43`. -/
theorem isSign_iff {b : UInt8} : isSign b = true ↔ b.toNat = 45 ∨ b.toNat = 43 := by
  rw [isSign, Bool.or_eq_true, Byte.beq_iff_toNat, Byte.beq_iff_toNat]
  exact Iff.rfl

/-- The bytes of a sign are signs: `isSign b`. -/
theorem Sign.isSign_of_mem {sign : Text} {negative : Bool} (h : Sign sign negative) {b : UInt8}
    (mem : b ∈ sign) : isSign b = true := by
  cases h with
  | none => cases mem
  | plus => rw [List.mem_singleton.1 mem]; rfl
  | minus => rw [List.mem_singleton.1 mem]; rfl

/-- A sign is not a digit: `Byte.isDigit b = false`. -/
theorem isDigit_of_isSign {b : UInt8} (h : isSign b = true) : Byte.isDigit b = false := by
  rw [isSign_iff] at h
  rw [← Bool.not_eq_true, Byte.isDigit_iff]
  omega

/-- Digits do not start with a sign: `Text.StartsOutside isSign (digits ++ rest)`. -/
theorem Digits.startsOutside {digits : Text} (h : Digits digits) (rest : Text) :
    Text.StartsOutside isSign (digits ++ rest) := by
  cases digits with
  | nil => exact absurd rfl h.nonempty
  | cons b others =>
    rw [List.cons_append, Text.startsOutside_cons]
    cases sign : isSign b with
    | false => rfl
    | true => rw [← isDigit_of_isSign sign, h.all b List.mem_cons_self]

/-- The sign is split off what does not start with another one: `splitSign (sign ++ rest) = (negative, rest)`. -/
theorem splitSign_append {sign rest : Text} {negative : Bool} (h : Sign sign negative)
    (stop : Text.StartsOutside isSign rest) : splitSign (sign ++ rest) = (negative, rest) := by
  cases h with
  | none =>
    show splitSign rest = _
    unfold splitSign
    split
    · cases Text.startsOutside_cons.1 stop
    · cases Text.startsOutside_cons.1 stop
    · rfl
  | plus => rfl
  | minus => rfl

/-- What is split off is a sign: `∃ sign, Sign sign (splitSign s).1 ∧ s = sign ++ (splitSign s).2`. -/
theorem exists_sign (s : Text) : ∃ sign, Sign sign (splitSign s).1 ∧ s = sign ++ (splitSign s).2 := by
  unfold splitSign
  split
  · exact ⟨_, .minus, rfl⟩
  · exact ⟨_, .plus, rfl⟩
  · exact ⟨_, .none, rfl⟩

/-- `toInt?` takes an optional sign and digits. -/
theorem toInt?_eq_some_iff {s : Text} {n : Int} :
    toInt? s = some n ↔ ∃ sign digits negative, Sign sign negative ∧ Digits digits ∧
      s = sign ++ digits ∧ n = signed negative (natOfDigits digits) := by
  constructor
  · intro h
    obtain ⟨sign, isSign, split⟩ := exists_sign s
    rw [toInt?] at h
    dsimp only at h
    split at h
    · cases h
    next valid =>
    rw [Bool.or_eq_true, not_or, Bool.not_eq_true', Bool.not_eq_false, List.isEmpty_iff] at valid
    exact ⟨sign, _, _, isSign, ⟨valid.1, List.all_eq_true.1 valid.2⟩, split, (Option.some.inj h).symm⟩
  · rintro ⟨sign, digits, negative, isSign, isDigits, rfl, rfl⟩
    have stop := isDigits.startsOutside []
    rw [List.append_nil] at stop
    have valid : ¬ (digits.isEmpty || !digits.all Byte.isDigit) = true := by
      rw [Bool.or_eq_true, not_or, Bool.not_eq_true', Bool.not_eq_false, List.isEmpty_iff]
      exact ⟨isDigits.nonempty, List.all_eq_true.2 isDigits.all⟩
    rw [toInt?, splitSign_append isSign stop]
    exact if_neg valid

/-- The bytes of an integer are signs and digits: `isSign b ∨ Byte.isDigit b`. -/
theorem byte_of_toInt? {s : Text} {n : Int} (read : toInt? s = some n) {b : UInt8} (mem : b ∈ s) :
    isSign b = true ∨ Byte.isDigit b = true := by
  obtain ⟨sign, digits, negative, isSign, isDigits, rfl, -⟩ := toInt?_eq_some_iff.1 read
  rcases List.mem_append.1 mem with mem | mem
  · exact .inl (isSign.isSign_of_mem mem)
  · exact .inr (isDigits.all b mem)

/-- An integer in range is the value of its 64-bit integer: `int64? i = some n ↔ n.toInt = i`. -/
theorem int64?_eq_some_iff {i : Int} {n : Int64} : int64? i = some n ↔ n.toInt = i := by
  constructor
  · intro h
    unfold int64? at h
    split at h
    · next range =>
      cases h
      rw [← Int64.ofIntLE_eq_ofInt range.1 range.2, Int64.toInt_ofIntLE]
    · cases h
  · rintro rfl
    rw [int64?, if_pos ⟨n.minValue_le_toInt, n.toInt_le⟩, Int64.ofInt_toInt]

/-- A text without white space is read as a 64-bit integer when it is an integer in range:
`readInt64? s = some n ↔ toInt? s = some n.toInt`. -/
theorem readInt64?_eq_some_iff {s : Text} (free : ∀ b ∈ s, Byte.isBlank b = false) {n : Int64} :
    readInt64? s = some n ↔ toInt? s = some n.toInt := by
  rw [readInt64?, Text.trim_eq_self free, Option.bind_eq_some_iff]
  constructor
  · rintro ⟨i, read, range⟩
    rw [read, int64?_eq_some_iff.1 range]
  · intro read
    exact ⟨n.toInt, read, int64?_eq_some_iff.2 rfl⟩

/-- The bytes of a text that is read as a 64-bit integer are white space, signs and digits:
`Byte.isBlank b ∨ isSign b ∨ Byte.isDigit b`. -/
theorem byte_of_readInt64? {s : Text} {n : Int64} (read : readInt64? s = some n) {b : UInt8} (mem : b ∈ s) :
    Byte.isBlank b = true ∨ isSign b = true ∨ Byte.isDigit b = true := by
  obtain ⟨left, right, blankLeft, blankRight, same⟩ := Text.exists_blank_append_trim s
  obtain ⟨i, trimmed, -⟩ := Option.bind_eq_some_iff.1 read
  rw [same, List.mem_append, List.mem_append] at mem
  rcases mem with mem | mem | mem
  · exact .inl (blankLeft b mem)
  · exact .inr (byte_of_toInt? trimmed mem)
  · exact .inl (blankRight b mem)

end OpCycle.Decimal

namespace OpCycle.Binary64.Numeral

/-! ## Floats -/

/-- Digits with at most one point among them, and at least one digit. -/
inductive Mantissa : Text → Prop
  /-- Digits without a point. -/
  | whole {digits} : Decimal.Digits digits → Mantissa digits
  /-- Digits, a point, and more digits or none. -/
  | pointed {digits fraction} : Decimal.Digits digits → (∀ b ∈ fraction, Byte.isDigit b = true) →
      Mantissa (digits ++ Byte.dot :: fraction)
  /-- A point and digits. -/
  | fraction {digits} : Decimal.Digits digits → Mantissa (Byte.dot :: digits)

/-- A mantissa has at least one byte: `mantissa ≠ []`. -/
theorem Mantissa.nonempty {mantissa : Text} (h : Mantissa mantissa) : mantissa ≠ [] := by
  cases h with
  | whole digits => exact digits.nonempty
  | pointed digits _ => exact List.append_ne_nil_of_left_ne_nil digits.nonempty _
  | fraction _ => exact List.cons_ne_nil _ _

/-- The letter `e` or `E` with its sign and digits, or nothing. -/
inductive Exponent : Text → Prop
  /-- No exponent. -/
  | none : Exponent []
  /-- A letter, an optional sign, and digits. -/
  | some {letter sign negative digits} : letter = 0x65 ∨ letter = 0x45 → Decimal.Sign sign negative →
      Decimal.Digits digits → Exponent (letter :: (sign ++ digits))

/-- The letter of an exponent of either case: `Byte.lower b = 0x65 ↔ b = 0x65 ∨ b = 0x45`. -/
theorem lower_eq_e_iff {b : UInt8} : Byte.lower b = 0x65 ↔ b = 0x65 ∨ b = 0x45 := by
  rw [Byte.lower_eq_iff (by decide), ← UInt8.toNat_inj, ← UInt8.toNat_inj]
  show b.toNat = 101 ∨ b.toNat + 32 = 101 ↔ b.toNat = 101 ∨ b.toNat = 69
  omega

/-- The `letter` in either case with a sign and digits behind it, or nothing. -/
inductive Power (letter : UInt8) : Text → Prop
  /-- No exponent. -/
  | none : Power letter []
  /-- The letter, an optional sign, and digits. -/
  | some {b sign negative digits} : Byte.lower b = letter → Decimal.Sign sign negative →
      Decimal.Digits digits → Power letter (b :: (sign ++ digits))

/-- What is read as an exponent behind a letter is one: `Power letter s`. -/
theorem power_of_readExponent? {letter : UInt8} {s : Text} {e : Int} (h : readExponent? letter s = some e) :
    Power letter s := by
  cases s with
  | nil => exact .none
  | cons b rest =>
    rw [readExponent?] at h
    split at h
    · next isLetter =>
      obtain ⟨sign, digits, negative, isSign, isDigits, rfl, -⟩ := Decimal.toInt?_eq_some_iff.1 h
      exact .some isLetter isSign isDigits
    · cases h

/-- The exponent of a decimal numeral: `Exponent s`. -/
theorem Power.exponent {s : Text} (h : Power 0x65 s) : Exponent s := by
  cases h with
  | none => exact .none
  | some isLetter isSign isDigits => exact .some (lower_eq_e_iff.1 isLetter) isSign isDigits

/-- What `splitPointed` splits off are digits, and digits behind a point when there is one. -/
theorem exists_splitPointed (isDigit : UInt8 → Bool) (s : Text) :
    ∃ whole fraction rest, splitPointed isDigit s = (whole, fraction, rest) ∧
      (∀ b ∈ whole, isDigit b = true) ∧ (∀ b ∈ fraction, isDigit b = true) ∧
      (s = whole ++ Byte.dot :: (fraction ++ rest) ∨ fraction = [] ∧ s = whole ++ rest) := by
  have whole := @List.takeWhile_append_dropWhile _ isDigit s
  unfold splitPointed
  split
  · next rest dot =>
    rw [dot] at whole
    refine ⟨_, _, _, rfl, fun b mem => Text.of_mem_takeWhile mem, fun b mem => Text.of_mem_takeWhile mem,
      .inl ?_⟩
    rw [List.takeWhile_append_dropWhile]
    exact whole.symm
  · refine ⟨_, _, _, rfl, fun b mem => Text.of_mem_takeWhile mem, fun b mem => ?_, .inr ⟨rfl, whole.symm⟩⟩
    cases mem

/-- Digits of the class `isDigit` with at most one point among them, and at least one digit. -/
inductive Pointed (isDigit : UInt8 → Bool) : Text → Prop
  /-- Digits without a point. -/
  | whole {digits} : digits ≠ [] → (∀ b ∈ digits, isDigit b = true) → Pointed isDigit digits
  /-- Digits around a point, on at least one side of it. -/
  | point {digits fraction} : ¬ (digits = [] ∧ fraction = []) → (∀ b ∈ digits, isDigit b = true) →
      (∀ b ∈ fraction, isDigit b = true) → Pointed isDigit (digits ++ Byte.dot :: fraction)

/-- What is split off with at least one digit is a row of digits and a point:
`∃ mantissa, Pointed isDigit mantissa ∧ s = mantissa ++ rest`. -/
theorem pointed_of_splitPointed {isDigit : UInt8 → Bool} {s whole fraction rest : Text}
    (split : splitPointed isDigit s = (whole, fraction, rest))
    (some : ¬ (whole.isEmpty && fraction.isEmpty) = true) :
    ∃ mantissa, Pointed isDigit mantissa ∧ s = mantissa ++ rest := by
  obtain ⟨_, _, _, split', isWhole, isFraction, same⟩ := exists_splitPointed isDigit s
  rw [split] at split'
  cases split'
  rw [Bool.and_eq_true, List.isEmpty_iff, List.isEmpty_iff] at some
  rcases same with pointed | ⟨absent, plain⟩
  · rw [← List.cons_append, ← List.append_assoc] at pointed
    exact ⟨_, .point some isWhole isFraction, pointed⟩
  · exact ⟨whole, .whole (fun empty => some ⟨empty, absent⟩) isWhole, plain⟩

/-- Decimal digits and a point make a mantissa: `Mantissa s`. -/
theorem Pointed.mantissa {s : Text} (h : Pointed Byte.isDigit s) : Mantissa s := by
  cases h with
  | whole nonempty all => exact .whole ⟨nonempty, all⟩
  | @point digits fraction some isWhole isFraction =>
    -- The digits before the point may be missing, or those after it, but not both.
    by_cases empty : digits = []
    · rw [empty, List.nil_append]
      exact .fraction ⟨fun absent => some ⟨empty, absent⟩, isFraction⟩
    · exact .pointed ⟨empty, isWhole⟩ isFraction

/-- What is read as a decimal magnitude is a mantissa and an exponent:
`∃ mantissa exponent, Mantissa mantissa ∧ Exponent exponent ∧ s = mantissa ++ exponent`. -/
theorem mantissa_exponent_of_readDecimal? {s : Text} {m : Magnitude} (h : readDecimal? s = some m) :
    ∃ mantissa exponent, Mantissa mantissa ∧ Exponent exponent ∧ s = mantissa ++ exponent := by
  unfold readDecimal? at h
  split at h
  next whole fraction rest split =>
  split at h
  · cases h
  next some =>
  obtain ⟨e, read, -⟩ := Option.map_eq_some_iff.1 h
  obtain ⟨mantissa, pointed, same⟩ := pointed_of_splitPointed split some
  exact ⟨mantissa, rest, pointed.mantissa, (power_of_readExponent? read).exponent, same⟩

/-- The letters `i`, `n` and `x` that start the other notations. -/
def isForeign (b : UInt8) : Bool :=
  Byte.lower b == 0x69 || Byte.lower b == 0x6e || Byte.lower b == 0x78

/-- The bytes of names and hexadecimal numbers are `i`, `n` and `x` in either case. -/
theorem isForeign_iff {b : UInt8} : isForeign b = true ↔
    b.toNat = 105 ∨ b.toNat = 73 ∨ b.toNat = 110 ∨ b.toNat = 78 ∨ b.toNat = 120 ∨ b.toNat = 88 := by
  rw [isForeign, Bool.or_eq_true, Bool.or_eq_true, beq_iff_eq, beq_iff_eq, beq_iff_eq,
    Byte.lower_eq_iff (by decide), Byte.lower_eq_iff (by decide), Byte.lower_eq_iff (by decide)]
  show ((b.toNat = 105 ∨ b.toNat + 32 = 105) ∨ b.toNat = 110 ∨ b.toNat + 32 = 110) ∨
    b.toNat = 120 ∨ b.toNat + 32 = 120 ↔ _
  omega

/-- Without the letters of the other notations only decimal magnitudes are read:
`readMagnitude? s = readDecimal? s`. -/
theorem readMagnitude?_eq_readDecimal? {s : Text} (plain : ∀ b ∈ s, isForeign b = false) :
    readMagnitude? s = readDecimal? s := by
  -- `isForeign` marks i, n and x; each of the other three notations needs one of them.
  have absent : ∀ c ∈ Text.lower s, c ≠ 0x69 ∧ c ≠ 0x6e ∧ c ≠ 0x78 := by
    intro c mem
    obtain ⟨b, memb, rfl⟩ := List.mem_map.1 mem
    have outside := plain b memb
    rw [isForeign, Bool.or_eq_false_iff, Bool.or_eq_false_iff, beq_eq_false_iff_ne,
      beq_eq_false_iff_ne, beq_eq_false_iff_ne] at outside
    exact ⟨outside.1.1, outside.1.2, outside.2⟩
  have notInfinite : ¬ (Text.lower s = "inf" ∨ Text.lower s = "infinity") := by
    rintro (inf | infinity)
    · exact (absent 0x69 (by rw [inf]; decide)).1 rfl
    · exact (absent 0x69 (by rw [infinity]; decide)).1 rfl
  have notNan : ¬ (Text.lower s).take 3 = "nan" := by
    intro nan
    exact (absent 0x6e (List.mem_of_mem_take (by rw [nan]; decide))).2.1 rfl
  have notHexadecimal : ¬ (Text.lower s).take 2 = "0x" := by
    intro hexadecimal
    exact (absent 0x78 (List.mem_of_mem_take (by rw [hexadecimal]; decide))).2.2 rfl
  rw [readMagnitude?, if_neg notInfinite, if_neg notNan, if_neg notHexadecimal]

/-- A text without white space and without the letters of the other notations, `isForeign`, is read as a float only if
it is a sign, a mantissa and an exponent. -/
theorem exists_of_read?_eq_some {s : Text} {x : Float} (free : ∀ b ∈ s, Byte.isBlank b = false)
    (plain : ∀ b ∈ s, isForeign b = false) (h : Binary64.read? s = some x) :
    ∃ sign negative mantissa exponent, Decimal.Sign sign negative ∧ Mantissa mantissa ∧ Exponent exponent ∧
      s = sign ++ (mantissa ++ exponent) := by
  rw [Binary64.read?, Text.trim_eq_self free, Option.bind_eq_some_iff] at h
  obtain ⟨numeral, read, -⟩ := h
  obtain ⟨sign, isSign, split⟩ := Decimal.exists_sign s
  rw [Numeral.read?] at read
  obtain ⟨magnitude, readMagnitude, -⟩ := Option.map_eq_some_iff.1 read
  have plainRest : ∀ b ∈ (Decimal.splitSign s).2, isForeign b = false := by
    intro b mem
    apply plain
    rw [split]
    exact List.mem_append_right sign mem
  replace readMagnitude : readMagnitude? (Decimal.splitSign s).2 = some magnitude := readMagnitude
  rw [readMagnitude?_eq_readDecimal? plainRest] at readMagnitude
  obtain ⟨mantissa, exponent, isMantissa, isExponent, same⟩ :=
    mantissa_exponent_of_readDecimal? readMagnitude
  rw [same] at split
  exact ⟨sign, _, mantissa, exponent, isSign, isMantissa, isExponent, split⟩

end OpCycle.Binary64.Numeral
