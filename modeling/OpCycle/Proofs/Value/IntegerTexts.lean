import OpCycle.Proofs.Document.Scalars
import OpCycle.Proofs.Json.Reading
import OpCycle.Proofs.Spec.Places

/-! # Integers as texts
The text of an integer is an optional minus and digits, and every reader takes it for the integer that it is the
text of: the reader of integers, the parser of specifications wherever an argument may stand, the reader of plain
scalars, and the reader of values on the command line.

* `Decimal.exists_ofInt`: the text of an integer.
* `integer_text_readers_agree`: what every reader takes it for. -/

namespace OpCycle

namespace Decimal

/-- The notation of an integer is a sign and digits: `∃ sign digits negative, Sign sign negative ∧ Digits digits ∧
ofInt i = sign ++ digits ∧ i = signed negative (natOfDigits digits)`. -/
theorem exists_ofInt (i : Int) : ∃ sign digits negative, Sign sign negative ∧ Digits digits ∧
    ofInt i = sign ++ digits ∧ i = signed negative (natOfDigits digits) := by
  cases i with
  | ofNat k => exact ⟨[], ofNat k, false, .none, digits_ofNat k, rfl, by rw [natOfDigits_ofNat]; rfl⟩
  | negSucc k =>
    exact ⟨[Byte.minus], ofNat (k + 1), true, .minus, digits_ofNat (k + 1), rfl, by rw [natOfDigits_ofNat]; rfl⟩

/-- The notation of an integer is read as the integer: `toInt? (ofInt i) = some i`. -/
theorem toInt?_ofInt (i : Int) : toInt? (ofInt i) = some i :=
  toInt?_eq_some_iff.2 (exists_ofInt i)

/-- There is no white space in the notation of an integer: `∀ b ∈ ofInt i, Byte.isBlank b = false`. -/
theorem isBlank_of_mem_ofInt {i : Int} : ∀ b ∈ ofInt i, Byte.isBlank b = false := by
  obtain ⟨sign, digits, negative, isSign, isDigits, same, -⟩ := exists_ofInt i
  intro b mem
  rw [same] at mem
  rw [← Bool.not_eq_true, Byte.isBlank_iff]
  rcases List.mem_append.1 mem with mem | mem
  · have sign := isSign_iff.1 (isSign.isSign_of_mem mem)
    omega
  · have digit := Byte.isDigit_iff.1 (isDigits.all b mem)
    omega

/-- The notation of a 64-bit integer is read as the integer: `readInt64? (ofInt64 n) = some n`. -/
theorem readInt64?_ofInt64 (n : Int64) : readInt64? (ofInt64 n) = some n :=
  (readInt64?_eq_some_iff isBlank_of_mem_ofInt).2 (toInt?_ofInt n.toInt)

end Decimal

namespace Value

/-- The notation of an integer is an argument: `Spec.Argument (Decimal.ofInt64 n) (.int n)`. -/
theorem argument_ofInt64 (n : Int64) : Spec.Argument (Decimal.ofInt64 n) (.int n) := by
  obtain ⟨sign, digits, negative, isSign, isDigits, same, value⟩ := Decimal.exists_ofInt n.toInt
  have argument := Spec.Argument.number (.int isSign isDigits value) .none
  rw [List.append_nil, ← same] at argument
  exact argument

/-- The notation of an integer looks like a number: `Node.looksNumeric (Decimal.ofInt64 n)`. -/
theorem looksNumeric_ofInt64 (n : Int64) : Node.looksNumeric (Decimal.ofInt64 n) = true := by
  obtain ⟨b, others, same, numeric⟩ := Json.ofInt64_eq_cons n
  rw [same, Node.looksNumeric_cons_iff]
  rcases numeric with rfl | digit
  · exact .inl (.inl (.inr rfl))
  · exact .inl (.inl (.inl (Byte.isDigit_iff.1 digit)))

/-- An integer is exact in JSON text: `(Value.int n).Everywhere IsExact`. -/
theorem isExact_int (n : Int64) : (Value.int n).Everywhere IsExact :=
  ⟨⟨nofun, trivial, trivial⟩, trivial⟩

/-- **Every reader takes the text of an integer for the integer**: `Decimal.readInt64?`, `Spec.parse` at every place
for an argument, the reader of `plain` scalars, and `Json.looseValue`, the reader of values on the command line. -/
theorem integer_text_readers_agree (n : Int64) :
    ∃ text, (Value.int n).toText = .ok text ∧
    Decimal.readInt64? text = some n ∧
    (∀ front back calls, Spec.Place front back calls →
      Spec.parse (front ++ (text ++ back)) = .ok (calls (.int n))) ∧
    (Node.plain text).toValue = .ok (.int n) ∧
    Json.looseValue text = .int n := by
  refine ⟨Decimal.ofInt64 n, rfl, Decimal.readInt64?_ofInt64 n, fun front back calls place => ?_, ?_, ?_⟩
  · exact Spec.parse_eq_ok_iff.2 (place.specification (argument_ofInt64 n))
  · have integer := Node.plainValue_eq_int_iff.2 ⟨looksNumeric_ofInt64 n, Decimal.readInt64?_ofInt64 n⟩
    exact congrArg Except.ok integer
  · exact Json.looseValue_textOf (isExact_int n)

/-- The least integer is read back from the place of the first argument of `Clamp`, with spaces around it. -/
theorem integer_text_readers_agree_sample :
    Spec.parse "Clamp( -9223372036854775808 ,0)" = .ok [⟨"Clamp", [.int Int64.minValue, .int 0]⟩] := by
  have letters : ∀ b ∈ Text.ofString "lamp", Byte.isLetter b = true := List.all_eq_true.1 rfl
  have name : Spec.Name "Clamp" := .mk (.inl rfl) fun b mem => .inl (letters b mem)
  have space : Text.IsBlank [Byte.space] := List.all_eq_true.1 rfl
  have zero : Spec.Argument "0" (.int 0) :=
    .number (.int .none ⟨List.cons_ne_nil Byte.zero [], List.all_eq_true.1 rfl⟩ rfl) .none
  have others : Spec.Arguments "0" [.int 0] := .last Text.isBlank_nil zero Text.isBlank_nil
  have place := Spec.Place.last Text.isBlank_nil (.mk name Text.isBlank_nil (.before space space others))
    Text.isBlank_nil
  have least : (Value.int Int64.minValue).toText = .ok "-9223372036854775808" := by decide +kernel
  obtain ⟨text, written, -, parses, -⟩ := integer_text_readers_agree Int64.minValue
  cases least.symm.trans written
  exact parses _ _ _ place

end Value

end OpCycle
