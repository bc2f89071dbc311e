import OpCycle.Document.Node
import OpCycle.Proofs.Text.Notations
import OpCycle.Proofs.Value.Integers

/-! # Plain scalars
A plain scalar becomes a boolean or a number if it can, and stays a text otherwise. Numbers are meant to be
decimal. Only the first byte of a scalar is checked for that, though, and the reader of floats behind the check
knows names and hexadecimal numbers too. What the check lets through is described here: names with a sign in
front and hexadecimal numbers become floats, names without a sign stay texts.

* `LetThrough`: texts that are no decimal numbers and pass the check of the first byte.
* `plainValue_eq_int_iff`, `plainValue_eq_float_iff`: which scalars are numbers.
* `plain_scalar_types`: what every plain scalar becomes. -/

namespace OpCycle.Node

open Binary64.Numeral (IsDecimal IsName IsSignedName IsHexadecimal isForeign)

variable {s : Text}

/-! ## The first byte -/

/-- A byte with which a text looks like a number:
`looksNumeric (b :: rest) ↔ (((48 ≤ b.toNat ∧ b.toNat ≤ 57) ∨ b.toNat = 45) ∨ b.toNat = 43) ∨ b.toNat = 46`. -/
theorem looksNumeric_cons_iff {b : UInt8} {rest : Text} : looksNumeric (b :: rest) = true ↔
    (((48 ≤ b.toNat ∧ b.toNat ≤ 57) ∨ b.toNat = 45) ∨ b.toNat = 43) ∨ b.toNat = 46 := by
  show (Byte.isDigit b || b == Byte.minus || b == Byte.plus || b == Byte.dot) = true ↔ _
  rw [Bool.or_eq_true, Bool.or_eq_true, Bool.or_eq_true, Byte.isDigit_iff, Byte.beq_iff_toNat,
    Byte.beq_iff_toNat, Byte.beq_iff_toNat]
  exact Iff.rfl

/-- A text that looks like a number does so without the white space at its end, and has none at its start:
`∃ b rest others, s = b :: rest ∧ Text.trim s = b :: others ∧ Byte.isLetter b = false`. -/
theorem exists_cons_of_looksNumeric (looks : looksNumeric s = true) : ∃ b rest others,
    s = b :: rest ∧ Text.trim s = b :: others ∧ Byte.isLetter b = false := by
  cases s with
  | nil => cases looks
  | cons b rest =>
    rw [looksNumeric_cons_iff] at looks
    have notBlank : Byte.isBlank b = false := by
      rw [← Bool.not_eq_true, Byte.isBlank_iff]
      omega
    have notLetter : Byte.isLetter b = false := by
      rw [← Bool.not_eq_true, Byte.isLetter_iff]
      omega
    obtain ⟨others, trimmed⟩ := Text.exists_trim_cons notBlank rest
    exact ⟨b, rest, others, rfl, trimmed, notLetter⟩

/-- A text that looks like a number is no word for a boolean: `Value.readBool? s = none`. -/
theorem readBool?_eq_none (looks : looksNumeric s = true) : Value.readBool? s = none := by
  obtain ⟨b, rest, others, rfl, trimmed, notLetter⟩ := exists_cons_of_looksNumeric looks
  have other (c : UInt8) (letters : Text) (lower : Byte.isLower c = true) :
      Text.lower (Text.trim (b :: rest)) ≠ c :: letters := by
    intro same
    rw [trimmed] at same
    rw [← (List.cons.inj same).1] at lower
    rw [Byte.isLetter_of_isLower_lower lower] at notLetter
    cases notLetter
  have notTrue : Text.lower (Text.trim (b :: rest)) ≠ "true" := other 0x74 _ rfl
  have notFalse : Text.lower (Text.trim (b :: rest)) ≠ "false" := other 0x66 _ rfl
  unfold Value.readBool?
  dsimp only
  rw [if_neg notTrue, if_neg notFalse]

/-- A text that looks like a number is an integer if it can be, else a float if it can be, else a text: `plainValue s
= match Decimal.readInt64? s with | some n => .int n | none => ((Binary64.read? s).map Value.float).getD (.text
s)`. -/
theorem plainValue_of_looksNumeric (looks : looksNumeric s = true) : plainValue s =
    match Decimal.readInt64? s with
    | some n => .int n
    | none => ((Binary64.read? s).map Value.float).getD (.text s) := by
  rw [plainValue, readBool?_eq_none looks, readNumber?, if_pos looks]
  cases Decimal.readInt64? s <;> rfl

/-- Any other text is a boolean or a text:
`plainValue s = match Value.readBool? s with | some b => .bool b | none => .text s`. -/
theorem plainValue_of_not_looksNumeric (looks : looksNumeric s = false) : plainValue s =
    match Value.readBool? s with
    | some b => .bool b
    | none => .text s := by
  rw [plainValue, readNumber?, looks]
  rfl

/-! ## Numbers -/

/-- The text that a plain scalar of an integer is: it starts like a number, and is the notation of the integer
(`plainValue s = .int n ↔ looksNumeric s ∧ Decimal.readInt64? s = some n`). -/
theorem plainValue_eq_int_iff {n : Int64} :
    plainValue s = .int n ↔ looksNumeric s = true ∧ Decimal.readInt64? s = some n := by
  cases looks : looksNumeric s with
  | true =>
    rw [plainValue_of_looksNumeric looks]
    cases Decimal.readInt64? s with
    | some m => simp
    | none => cases Binary64.read? s <;> simp
  | false =>
    rw [plainValue_of_not_looksNumeric looks]
    cases Value.readBool? s <;> simp

/-- The text that a plain scalar of a float is:
`plainValue s = .float x ↔ looksNumeric s ∧ Decimal.readInt64? s = none ∧ Binary64.read? s = some x`. -/
theorem plainValue_eq_float_iff {x : Float} : plainValue s = .float x ↔
    looksNumeric s = true ∧ Decimal.readInt64? s = none ∧ Binary64.read? s = some x := by
  cases looks : looksNumeric s with
  | true =>
    rw [plainValue_of_looksNumeric looks]
    cases Decimal.readInt64? s with
    | some m => simp
    | none => cases Binary64.read? s <;> simp
  | false =>
    rw [plainValue_of_not_looksNumeric looks]
    cases Value.readBool? s <;> simp

/-! ## Notations -/

/-- A name without a sign does not look like a number: `looksNumeric s = false`. -/
theorem not_looksNumeric_of_isName (name : IsName (Text.trim s)) : looksNumeric s = false := by
  rw [← Bool.not_eq_true]
  intro looks
  obtain ⟨b, rest, others, -, trimmed, notLetter⟩ := exists_cons_of_looksNumeric looks
  obtain ⟨c, after, same, foreign⟩ := name.exists_cons
  rw [trimmed] at same
  rw [(List.cons.inj same).1, Binary64.Numeral.isLetter_of_isForeign foreign] at notLetter
  cases notLetter

/-- A text with a letter of the other notations is no boolean, unless it looks like a number:
`Value.readBool? s = none`. -/
theorem readBool?_eq_none_of_isForeign (foreign : ∃ b ∈ Text.trim s, isForeign b = true) :
    Value.readBool? s = none := by
  obtain ⟨b, mem, foreign⟩ := foreign
  have other : ∀ {word : Text}, (∀ c ∈ word, c ≠ 0x69 ∧ c ≠ 0x6e ∧ c ≠ 0x78) →
      Text.lower (Text.trim s) ≠ word := by
    rintro _ absent rfl
    have lower := absent (Byte.lower b) (List.mem_map_of_mem mem)
    rw [isForeign, Bool.or_eq_true, Bool.or_eq_true, beq_iff_eq, beq_iff_eq, beq_iff_eq] at foreign
    rcases foreign with (i | n) | x
    · exact lower.1 i
    · exact lower.2.1 n
    · exact lower.2.2 x
  have notTrue : Text.lower (Text.trim s) ≠ "true" := other (by decide +kernel)
  have notFalse : Text.lower (Text.trim s) ≠ "false" := other (by decide +kernel)
  unfold Value.readBool?
  dsimp only
  rw [if_neg notTrue, if_neg notFalse]

/-- An integer has no letters of the other notations, the white space around it aside:
`Decimal.readInt64? s = none`. -/
theorem readInt64?_eq_none_of_isForeign (foreign : ∃ b ∈ Text.trim s, isForeign b = true) :
    Decimal.readInt64? s = none := by
  obtain ⟨b, mem, foreign⟩ := foreign
  rw [Option.eq_none_iff_forall_ne_some]
  intro n read
  obtain ⟨i, read, -⟩ := Option.bind_eq_some_iff.1 read
  rw [Binary64.Numeral.isForeign_of_mem_integer read b mem] at foreign
  cases foreign

/-- The check `looksNumeric` lets `s` through to the reader of floats although it is no decimal number: it is a name
with a sign or a hexadecimal number, with no white space in front. -/
def LetThrough (s : Text) : Prop :=
  looksNumeric s = true ∧ (IsSignedName (Text.trim s) ∨ IsHexadecimal (Text.trim s))

/-- A name with a sign and a hexadecimal number have letters that no integer and no boolean has:
`∃ b ∈ Text.trim s, isForeign b`. -/
theorem exists_foreign (h : IsSignedName (Text.trim s) ∨ IsHexadecimal (Text.trim s)) :
    ∃ b ∈ Text.trim s, isForeign b = true := by
  rcases h with signed | hexadecimal
  · generalize Text.trim s = t at signed
    cases signed with
    | mk _ name =>
      obtain ⟨b, rest, rfl, foreign⟩ := name.exists_cons
      exact ⟨b, List.mem_cons_of_mem _ List.mem_cons_self, foreign⟩
  · exact hexadecimal.exists_mem

/-- A name, and a hexadecimal number, that is not let through stays a text: `plainValue s = .text s`. -/
theorem plainValue_of_not_letThrough (stopped : ¬ LetThrough s)
    (h : IsSignedName (Text.trim s) ∨ IsHexadecimal (Text.trim s)) : plainValue s = .text s := by
  have looks : looksNumeric s = false := by
    rw [← Bool.not_eq_true]
    exact fun looks => stopped ⟨looks, h⟩
  rw [plainValue_of_not_looksNumeric looks, readBool?_eq_none_of_isForeign (exists_foreign h)]

/-- What is let through is a float if it has one, and a text otherwise:
`plainValue s = ((Binary64.read? s).map Value.float).getD (.text s)`. -/
theorem plainValue_of_letThrough (h : LetThrough s) :
    plainValue s = ((Binary64.read? s).map Value.float).getD (.text s) := by
  rw [plainValue_of_looksNumeric h.1, readInt64?_eq_none_of_isForeign (exists_foreign h.2)]

/-- A name without a sign stays a text: `plainValue s = .text s`. -/
theorem plainValue_of_isName (name : IsName (Text.trim s)) : plainValue s = .text s := by
  have foreign : ∃ b ∈ Text.trim s, isForeign b = true := by
    obtain ⟨b, rest, same, foreign⟩ := name.exists_cons
    exact ⟨b, same ▸ List.mem_cons_self, foreign⟩
  rw [plainValue_of_not_looksNumeric (not_looksNumeric_of_isName name),
    readBool?_eq_none_of_isForeign foreign]

/-- A plain scalar is a float only if it is a decimal number or is let through:
`IsDecimal (Text.trim s) ∨ LetThrough s`. -/
theorem isDecimal_or_letThrough_of_float {x : Float} (h : plainValue s = .float x) :
    IsDecimal (Text.trim s) ∨ LetThrough s := by
  obtain ⟨looks, -, read⟩ := plainValue_eq_float_iff.1 h
  obtain ⟨numeral, read, -⟩ := Option.bind_eq_some_iff.1 read
  rcases Binary64.Numeral.notation_of_read? read with decimal | (name | signed) | hexadecimal
  · exact .inl decimal
  · rw [not_looksNumeric_of_isName name] at looks
    cases looks
  · exact .inr ⟨looks, .inl signed⟩
  · exact .inr ⟨looks, .inr hexadecimal⟩

/-- A plain scalar is an integer exactly if it is the decimal notation of the integer, with no white space in front:
`plainValue s = .int n ↔ looksNumeric s ∧ Value.Denotes (.text s) n.toInt`. -/
theorem plainValue_eq_int_iff_denotes {n : Int64} :
    plainValue s = .int n ↔ looksNumeric s = true ∧ Value.Denotes (.text s) n.toInt := by
  rw [plainValue_eq_int_iff, and_congr_right_iff]
  intro
  rw [← Value.converts_iff (Value.not_isTooLarge (by rintro x ⟨⟩)), ← Value.toInt64?_eq_some_iff]
  exact Iff.rfl

/-- The value of a plain scalar is a boolean, a number or its text: `plainValue s = .text s ∨ (∃ b, plainValue s =
.bool b) ∨ (∃ n, plainValue s = .int n) ∨ ∃ x, plainValue s = .float x`. -/
theorem plainValue_cases (s : Text) : plainValue s = .text s ∨ (∃ b, plainValue s = .bool b) ∨
    (∃ n, plainValue s = .int n) ∨ ∃ x, plainValue s = .float x := by
  cases looks : looksNumeric s with
  | true =>
    rw [plainValue_of_looksNumeric looks]
    cases Decimal.readInt64? s with
    | some n => exact .inr (.inr (.inl ⟨n, rfl⟩))
    | none =>
      cases Binary64.read? s with
      | some x => exact .inr (.inr (.inr ⟨x, rfl⟩))
      | none => exact .inl rfl
  | false =>
    rw [plainValue_of_not_looksNumeric looks]
    cases Value.readBool? s with
    | some b => exact .inr (.inl ⟨b, rfl⟩)
    | none => exact .inl rfl

/-- **The types of plain scalars.** A `plain` scalar is a boolean, a number or its text. It is an integer exactly if
it is a decimal one that is in range, and a number only if it `IsDecimal` or is `LetThrough`. A name without a sign is
always a text, and so is every other name and every hexadecimal number that is not let through; what is let through
becomes a float, for a name one that is not finite. -/
theorem plain_scalar_types (s : Text) : ∃ v, (Node.plain s).toValue = .ok v ∧
    (v = .text s ∨ (∃ b, v = .bool b) ∨ (∃ n, v = .int n) ∨ ∃ x, v = .float x) ∧
    (∀ n : Int64, v = .int n ↔ looksNumeric s = true ∧ Value.Denotes (.text s) n.toInt) ∧
    (∀ n, v = .int n → IsDecimal (Text.trim s)) ∧
    (∀ x, v = .float x → IsDecimal (Text.trim s) ∨ LetThrough s) ∧
    (IsName (Text.trim s) → v = .text s) ∧
    (¬ LetThrough s → IsSignedName (Text.trim s) ∨ IsHexadecimal (Text.trim s) → v = .text s) ∧
    (LetThrough s → v = ((Binary64.read? s).map Value.float).getD (.text s)) ∧
    (LetThrough s → IsSignedName (Text.trim s) → ∃ x, v = .float x ∧ x.isFinite = false) := by
  refine ⟨plainValue s, rfl, plainValue_cases s, fun n => plainValue_eq_int_iff_denotes, fun n int => ?_,
    fun x => isDecimal_or_letThrough_of_float, plainValue_of_isName, plainValue_of_not_letThrough,
    plainValue_of_letThrough, fun letThrough signed => ?_⟩
  · obtain ⟨i, read, -⟩ := Option.bind_eq_some_iff.1 (plainValue_eq_int_iff.1 int).2
    exact Binary64.Numeral.isDecimal_of_toInt? read
  · obtain ⟨x, read, notFinite⟩ := signed.exists_value
    rw [plainValue_of_letThrough letThrough, Binary64.read?, read]
    exact ⟨x, rfl, notFinite⟩

/-- A hexadecimal number without a point: `IsHexadecimal "0x1F"`. -/
theorem isHexadecimal_sample : IsHexadecimal "0x1F" :=
  @IsHexadecimal.mk [] false 0x78 [0x31, 0x46] [] .none rfl
    (.whole (List.cons_ne_nil _ _) (List.all_eq_true.1 rfl)) .none

/-- A name of infinity with a sign: `IsSignedName "-inf"`. -/
theorem isSignedName_sample : IsSignedName "-inf" := .mk rfl (.infinity (.inl rfl))

/-- A name in its full spelling and a hexadecimal number behind a space stay texts, and a signed name becomes a float
that is not finite. -/
theorem plain_scalar_types_sample :
    (Node.plain "Infinity").toValue = .ok (.text "Infinity") ∧
    (Node.plain " 0x1F").toValue = .ok (.text " 0x1F") ∧
    ∃ x, (Node.plain "-inf").toValue = .ok (.float x) ∧ x.isFinite = false := by
  have name : IsName (Text.trim "Infinity") := .infinity (.inr rfl)
  have stopped : ¬ LetThrough " 0x1F" := fun h => nomatch h.1
  have letThrough : LetThrough "-inf" := ⟨rfl, .inl isSignedName_sample⟩
  obtain ⟨_, valueName, -, -, -, -, text, -⟩ := plain_scalar_types "Infinity"
  obtain ⟨_, valueHexadecimal, -, -, -, -, -, text', -⟩ := plain_scalar_types " 0x1F"
  obtain ⟨_, valueSigned, -, -, -, -, -, -, -, float⟩ := plain_scalar_types "-inf"
  obtain ⟨x, rfl, notFinite⟩ := float letThrough isSignedName_sample
  rw [valueName, text name, valueHexadecimal, text' stopped (.inr isHexadecimal_sample)]
  exact ⟨rfl, rfl, x, valueSigned, notFinite⟩

/-- The scalars `0x1F` and `-inf` become floats. -/
theorem foreign_notations_let_through :
    IsHexadecimal (Text.trim "0x1F") ∧ (Node.plain "0x1F").toValue = .ok (.float 31) ∧
    IsSignedName (Text.trim "-inf") ∧
      (Node.plain "-inf").toValue = .ok (.float (Binary64.withSign true Binary64.infinity)) := by
  have hexadecimal : Binary64.read? "0x1F" = some 31 := by decide +kernel
  have infinite : Binary64.read? "-inf" = some (Binary64.withSign true Binary64.infinity) := by decide +kernel
  have through : LetThrough "0x1F" := ⟨rfl, .inr isHexadecimal_sample⟩
  have through' : LetThrough "-inf" := ⟨rfl, .inl isSignedName_sample⟩
  refine ⟨isHexadecimal_sample, ?_, isSignedName_sample, ?_⟩
  · rw [toValue, plainValue_of_letThrough through, hexadecimal]
    rfl
  · rw [toValue, plainValue_of_letThrough through', infinite]
    rfl

end OpCycle.Node
