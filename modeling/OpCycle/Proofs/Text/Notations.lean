import OpCycle.Proofs.Text.Numeral

/-! # Notations of floats
The reader of floats takes more than decimal numbers: it knows names for infinity and for the float that is no
number, and hexadecimal numbers. What it takes is in one of these three notations, and the last two have letters
that no decimal number has.

* `IsDecimal`, `IsHexadecimal`, `IsName`: the three notations.
* `notation_of_read?`: what is read is in one of them. -/

namespace OpCycle.Binary64.Numeral

open Decimal (Sign Digits isSign)

/-! ## The notations -/

/-- A number in decimal notation. -/
inductive IsDecimal : Text → Prop
  /-- An optional sign, digits with an optional point, and an optional exponent. -/
  | mk {sign negative mantissa exponent} : Sign sign negative → Mantissa mantissa → Exponent exponent →
      IsDecimal (sign ++ (mantissa ++ exponent))

/-- A hexadecimal number. -/
inductive IsHexadecimal : Text → Prop
  /-- An optional sign, a zero, the letter x of either case, hexadecimal digits with an optional point, and an
  optional exponent. -/
  | mk {sign negative x mantissa exponent} : Sign sign negative → Byte.lower x = 0x78 →
      Pointed Byte.isHexDigit mantissa → Power 0x70 exponent →
      IsHexadecimal (sign ++ Byte.zero :: x :: (mantissa ++ exponent))

/-- What may stand behind the name of the float that is no number. -/
inductive NanTag : Text → Prop
  /-- Nothing. -/
  | none : NanTag []
  /-- Word characters in parentheses. -/
  | some {characters} : (∀ b ∈ characters, Byte.isWord b = true) →
      NanTag (Byte.openParen :: (characters ++ [Byte.closeParen]))

/-- A name of infinity, or of the float that is no number, in letters of either case. -/
inductive IsName : Text → Prop
  /-- A name of infinity. -/
  | infinity {word} : Text.lower word = "inf" ∨ Text.lower word = "infinity" → IsName word
  /-- The name of the float that is no number. -/
  | nan {word tag} : Text.lower word = "nan" → NanTag tag → IsName (word ++ tag)

/-- A sign and a name. -/
inductive IsSignedName : Text → Prop
  /-- The sign and the name. -/
  | mk {b name} : isSign b = true → IsName name → IsSignedName (b :: name)

/-! ## What is read -/

/-- What is accepted as the end of a name of the float that is no number is a tag: `NanTag s`. -/
theorem nanTag_of_isNanTag {s : Text} (h : isNanTag s = true) : NanTag s := by
  unfold isNanTag at h
  split at h
  · exact .none
  · next rest =>
    have whole := @List.takeWhile_append_dropWhile _ Byte.isWord rest
    rw [beq_iff_eq.1 h] at whole
    rw [← whole]
    exact .some fun b mem => Text.of_mem_takeWhile mem
  · cases h

/-- The tag of a name that is no number is recognised: `isNanTag s`. -/
theorem isNanTag_of_nanTag {s : Text} (h : NanTag s) : isNanTag s = true := by
  cases h with
  | none => rfl
  | some word =>
    show (List.dropWhile Byte.isWord _ == [Byte.closeParen]) = true
    rw [beq_iff_eq]
    exact Text.dropWhile_append_stop word (Text.startsOutside_cons.2 rfl)

/-- Only a zero is one in lower case: `b = Byte.zero`. -/
theorem eq_zero_of_lower {b : UInt8} (h : Byte.lower b = Byte.zero) : b = Byte.zero := by
  rw [← UInt8.toNat_inj, Byte.toNat_lower] at h
  rw [← UInt8.toNat_inj]
  change _ = 48 at h
  show _ = 48
  split at h <;> omega

/-- What is read as a hexadecimal magnitude is digits and an exponent:
`∃ mantissa exponent, Pointed Byte.isHexDigit mantissa ∧ Power 0x70 exponent ∧ s = mantissa ++ exponent`. -/
theorem exists_of_readHexadecimal? {s : Text} {m : Magnitude} (h : readHexadecimal? s = some m) :
    ∃ mantissa exponent, Pointed Byte.isHexDigit mantissa ∧ Power 0x70 exponent ∧
      s = mantissa ++ exponent := by
  unfold readHexadecimal? at h
  split at h
  next whole fraction rest split =>
  split at h
  · cases h
  next some =>
  obtain ⟨e, read, -⟩ := Option.map_eq_some_iff.1 h
  obtain ⟨mantissa, pointed, same⟩ := pointed_of_splitPointed split some
  exact ⟨mantissa, rest, pointed, power_of_readExponent? read, same⟩

/-- A text that starts like a hexadecimal number has a zero and an x in front:
`∃ x rest, s = Byte.zero :: x :: rest ∧ Byte.lower x = 0x78`. -/
theorem exists_of_hexadecimalPrefix {s : Text} (start : (Text.lower s).take 2 = "0x") :
    ∃ x rest, s = Byte.zero :: x :: rest ∧ Byte.lower x = 0x78 := by
  cases s with
  | nil => exact absurd (congrArg List.length start) (show ¬ 0 = 2 by decide)
  | cons zero others =>
    cases others with
    | nil => exact absurd (congrArg List.length start) (show ¬ 1 = 2 by decide)
    | cons x rest =>
      have letters : [Byte.lower zero, Byte.lower x] = [Byte.zero, 0x78] := start
      obtain ⟨digit, letter⟩ := List.cons.inj letters
      rw [eq_zero_of_lower digit]
      exact ⟨x, rest, rfl, (List.cons.inj letter).1⟩

/-- What is read as a magnitude behind a sign is a name, hexadecimal or decimal:
`IsDecimal (sign ++ s) ∨ IsName s ∨ IsHexadecimal (sign ++ s)`. -/
theorem notation_of_readMagnitude? {sign s : Text} {negative : Bool} (isSign : Sign sign negative)
    {m : Magnitude} (h : readMagnitude? s = some m) :
    IsDecimal (sign ++ s) ∨ IsName s ∨ IsHexadecimal (sign ++ s) := by
  -- In the order of the reader: infinity, nan with a tag, hexadecimal, decimal.
  rw [readMagnitude?] at h
  split at h
  · next infinity => exact .inr (.inl (.infinity infinity))
  split at h
  · next nan =>
    split at h
    · next tag =>
      rw [Text.lower, ← List.map_take] at nan
      have name := IsName.nan nan (nanTag_of_isNanTag tag)
      rw [List.take_append_drop] at name
      exact .inr (.inl name)
    · cases h
  split at h
  · next start =>
    obtain ⟨mantissa, exponent, pointed, power, same⟩ := exists_of_readHexadecimal? h
    obtain ⟨x, rest, rfl, letter⟩ := exists_of_hexadecimalPrefix start
    change rest = _ at same
    rw [same]
    exact .inr (.inr (.mk isSign letter pointed power))
  · obtain ⟨mantissa, exponent, isMantissa, isExponent, rfl⟩ := mantissa_exponent_of_readDecimal? h
    exact .inl (.mk isSign isMantissa isExponent)

/-- What is read as a numeral is decimal, a name with or without a sign, or hexadecimal:
`IsDecimal s ∨ (IsName s ∨ IsSignedName s) ∨ IsHexadecimal s`. -/
theorem notation_of_read? {s : Text} {n : Numeral} (h : read? s = some n) :
    IsDecimal s ∨ (IsName s ∨ IsSignedName s) ∨ IsHexadecimal s := by
  obtain ⟨sign, isSign, split⟩ := Decimal.exists_sign s
  rw [read?] at h
  obtain ⟨magnitude, read, -⟩ := Option.map_eq_some_iff.1 h
  replace read : readMagnitude? (Decimal.splitSign s).2 = some magnitude := read
  generalize Decimal.splitSign s = parts at isSign split read
  obtain ⟨negative, rest⟩ := parts
  subst split
  refine (notation_of_readMagnitude? isSign read).imp_right (Or.imp_left fun name => ?_)
  cases isSign with
  | none => exact .inl name
  | plus => exact .inr (.mk rfl name)
  | minus => exact .inr (.mk rfl name)

/-! ## Letters -/

/-- The bytes of names and hexadecimal numbers are letters: `Byte.isLetter b`. -/
theorem isLetter_of_isForeign {b : UInt8} (h : isForeign b = true) : Byte.isLetter b = true := by
  rw [isForeign_iff] at h
  rw [Byte.isLetter_iff]
  omega

/-- A name starts with a letter that no decimal number has: `∃ b rest, s = b :: rest ∧ isForeign b`. -/
theorem IsName.exists_cons {s : Text} (h : IsName s) : ∃ b rest, s = b :: rest ∧ isForeign b = true := by
  have first : ∀ {word target : Text} {c : UInt8} {others : Text}, Text.lower word = target →
      target = c :: others → c = 0x69 ∨ c = 0x6e → ∃ b rest, word = b :: rest ∧ isForeign b = true := by
    rintro word _ c others rfl same letter
    cases word with
    | nil => cases same
    | cons b rest =>
      refine ⟨b, rest, rfl, ?_⟩
      rw [isForeign, (List.cons.inj same).1]
      rcases letter with rfl | rfl <;> rfl
  cases h with
  | infinity same =>
    rcases same with same | same
    · exact first same rfl (.inl rfl)
    · exact first same rfl (.inl rfl)
  | nan same _ =>
    obtain ⟨b, rest, rfl, foreign⟩ := first same rfl (.inr rfl)
    exact ⟨b, _, rfl, foreign⟩

/-- A hexadecimal number has a letter that no decimal number has: `∃ b ∈ s, isForeign b`. -/
theorem IsHexadecimal.exists_mem {s : Text} (h : IsHexadecimal s) : ∃ b ∈ s, isForeign b = true := by
  cases h with
  | mk _ letter _ _ =>
    refine ⟨_, List.mem_append_right _ (List.mem_cons_of_mem _ List.mem_cons_self), ?_⟩
    rw [isForeign, letter]
    rfl

/-- An integer has none of the letters of the other notations: `∀ b ∈ s, isForeign b = false`. -/
theorem isForeign_of_mem_integer {s : Text} {i : Int} (h : Decimal.toInt? s = some i) :
    ∀ b ∈ s, isForeign b = false := by
  intro b mem
  rw [← Bool.not_eq_true, isForeign_iff]
  have byte := Decimal.byte_of_toInt? h mem
  rw [Decimal.isSign_iff, Byte.isDigit_iff] at byte
  omega

/-- An integer is in decimal notation: `IsDecimal s`. -/
theorem isDecimal_of_toInt? {s : Text} {i : Int} (h : Decimal.toInt? s = some i) : IsDecimal s := by
  obtain ⟨sign, digits, negative, isSign, isDigits, rfl, -⟩ := Decimal.toInt?_eq_some_iff.1 h
  have decimal := IsDecimal.mk isSign (.whole isDigits) .none
  rw [List.append_nil] at decimal
  exact decimal

/-! ## Names -/

/-- A name is read as infinity or as the float that is no number:
`Numeral.readMagnitude? s = some .infinite ∨ Numeral.readMagnitude? s = some .nan`. -/
theorem IsName.readMagnitude? {s : Text} (h : IsName s) :
    Numeral.readMagnitude? s = some .infinite ∨ Numeral.readMagnitude? s = some .nan := by
  cases h with
  | infinity same => exact .inl (if_pos same)
  | @nan word tag same isTag =>
    -- Lower case keeps lengths, so the tag starts where the three letters end.
    have length : word.length = 3 := by
      have sizes := congrArg List.length same
      rwa [Text.lower, List.length_map] at sizes
    have start : (Text.lower (word ++ tag)).take 3 = "nan" := by
      rw [Text.lower, ← List.map_take, List.take_left' length]
      exact same
    have notInfinite : ¬ (Text.lower (word ++ tag) = "inf" ∨ Text.lower (word ++ tag) = "infinity") := by
      rintro (inf | infinity)
      · rw [inf] at start
        exact absurd start (by decide)
      · rw [infinity] at start
        exact absurd start (by decide)
    rw [Numeral.readMagnitude?, if_neg notInfinite, if_pos start, List.drop_left' length,
      if_pos (isNanTag_of_nanTag isTag)]
    exact .inr rfl

/-- A name with a sign is read as a float that is not finite:
`∃ x, (read? s).bind value? = some x ∧ x.isFinite = false`. -/
theorem IsSignedName.exists_value {s : Text} (h : IsSignedName s) :
    ∃ x, (read? s).bind value? = some x ∧ x.isFinite = false := by
  have value : ∀ negative, (withSign negative infinity).isFinite = false ∧
      (withSign negative notANumber).isFinite = false := by decide +kernel
  cases h with
  | @mk b name sign isName =>
    obtain ⟨negative, split⟩ : ∃ negative, Decimal.splitSign (b :: name) = (negative, name) := by
      rw [isSign, Bool.or_eq_true, beq_iff_eq, beq_iff_eq] at sign
      rcases sign with rfl | rfl
      · exact ⟨true, rfl⟩
      · exact ⟨false, rfl⟩
    rw [read?, split]
    dsimp only
    rcases isName.readMagnitude? with infinite | nan
    · rw [infinite]
      exact ⟨_, rfl, (value negative).1⟩
    · rw [nan]
      exact ⟨_, rfl, (value negative).2⟩

end OpCycle.Binary64.Numeral
