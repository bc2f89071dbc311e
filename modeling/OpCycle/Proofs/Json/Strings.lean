import OpCycle.Json.Printer
import OpCycle.Json.Reader
import OpCycle.Proofs.Text.Utf8

/-! # Strings in JSON text
A string is read back from its spelling between quotes, whatever bytes it has, and its spelling is well-formed
when it is. -/

namespace OpCycle.Json

/-! ## Reading one character -/

/-- A quote ends a string: `readString? (Byte.doubleQuote :: rest) = some ([], rest)`. -/
@[simp] theorem readString?_quote (rest : Text) : readString? (Byte.doubleQuote :: rest) = some ([], rest) := rfl

/-- A byte that stands for itself: `readString? (b :: rest) = prepend [b] (readString? rest)`. -/
theorem readString?_plain {b : UInt8} (printable : ¬ b < 0x20) (noQuote : b ≠ Byte.doubleQuote)
    (noBackslash : b ≠ Byte.backslash) (rest : Text) :
    readString? (b :: rest) = prepend [b] (readString? rest) := by
  rw [readString?.eq_def]
  split
  · next same => cases same
  · next same =>
    cases same
    exact absurd rfl noQuote
  · next same =>
    cases same
    exact absurd rfl noBackslash
  · next same =>
    cases same
    exact absurd rfl noBackslash
  · next same =>
    cases same
    exact if_neg (not_or.2 ⟨printable, noBackslash⟩)

/-- A letter after a backslash:
`readString? (Byte.backslash :: letter :: rest) = prepend [byte] (readString? rest)`. -/
theorem readString?_letter {letter byte : UInt8} (known : unescape? letter = some byte) (rest : Text) :
    readString? (Byte.backslash :: letter :: rest) = prepend [byte] (readString? rest) := by
  rw [readString?.eq_def]
  split
  · next same => cases same
  · next same => cases same
  · next same =>
    cases same
    cases known
  · next same =>
    cases same
    rw [known]
  · next other same =>
    cases same
    exact absurd rfl (other _ _ rfl)

/-- Four hexadecimal digits after a backslash, for a code that is no surrogate: `readString? (Byte.backslash :: 0x75
:: a :: b :: c :: d :: rest) = prepend (Utf8.encode code) (readString? rest)`. -/
theorem readString?_code {a b c d : UInt8} {code : Nat} (known : hexQuad? a b c d = some code)
    (low : code < 0xd800) (rest : Text) :
    readString? (Byte.backslash :: 0x75 :: a :: b :: c :: d :: rest) =
      prepend (Utf8.encode code) (readString? rest) := by
  have notHigh : ¬ (0xd800 ≤ code ∧ code < 0xdc00) := by omega
  have notLow : ¬ (0xdc00 ≤ code ∧ code < 0xe000) := by omega
  rw [readString?.eq_def]
  split
  · next same => cases same
  · next same => cases same
  · next same =>
    cases same
    rw [known]
    dsimp only
    rw [if_neg notHigh, if_neg notLow]
  · next other same =>
    cases same
    exact absurd rfl (other _ _ _ _ _ rfl)
  · next other _ same =>
    cases same
    exact absurd rfl (other _ _ _ _ _ rfl)

/-! ## Reading a spelled string -/

/-- `escapeByte` spells a byte with a letter behind a backslash, as a control character by its code, or as itself. -/
theorem escapeByte_cases (b : UInt8) :
    (∃ letter, escapeByte b = [Byte.backslash, letter] ∧ unescape? letter = some b) ∨
    (b < 0x20 ∧ escapeByte b = [Byte.backslash, 0x75, Byte.zero, Byte.zero, Byte.ofHexDigit (b.toNat / 16),
      Byte.ofHexDigit (b.toNat % 16)]) ∨
    (¬ b < 0x20 ∧ b ≠ Byte.doubleQuote ∧ b ≠ Byte.backslash ∧ escapeByte b = [b]) := by
  by_cases lettered : b = Byte.doubleQuote ∨ b = Byte.backslash ∨ b = 0x08 ∨ b = 0x0c ∨ b = Byte.lineFeed ∨
      b = Byte.carriageReturn ∨ b = Byte.tab
  · left
    rcases lettered with rfl | rfl | rfl | rfl | rfl | rfl | rfl <;> exact ⟨_, rfl, rfl⟩
  · simp only [not_or] at lettered
    obtain ⟨quote, backslash, backspace, feed, line, carriage, tab⟩ := lettered
    rw [escapeByte, if_neg quote, if_neg backslash]
    by_cases control : b < 0x20
    · rw [if_pos control, if_neg backspace, if_neg feed, if_neg line, if_neg carriage, if_neg tab]
      exact .inr (.inl ⟨control, rfl⟩)
    · exact .inr (.inr ⟨control, quote, backslash, if_neg control⟩)

/-- The code of a control character is read from its two digits:
`hexQuad? Byte.zero Byte.zero (Byte.ofHexDigit (n / 16)) (Byte.ofHexDigit (n % 16)) = some n`. -/
theorem hexQuad?_control {n : Nat} (h : n < 0x20) :
    hexQuad? Byte.zero Byte.zero (Byte.ofHexDigit (n / 16)) (Byte.ofHexDigit (n % 16)) = some n := by
  revert n
  decide

/-- The spelling of a byte is read as the byte:
`readString? (escapeByte b ++ rest) = prepend [b] (readString? rest)`. -/
theorem readString?_escapeByte (b : UInt8) (rest : Text) :
    readString? (escapeByte b ++ rest) = prepend [b] (readString? rest) := by
  rcases escapeByte_cases b with ⟨letter, same, known⟩ | ⟨control, same⟩ | ⟨printable, quote, backslash, same⟩
  · rw [same]
    exact readString?_letter known rest
  · -- The code is that of an ASCII character, which is encoded as one byte.
    have small : b.toNat < 0x20 := UInt8.lt_iff_toNat_lt.1 control
    have encoded : Utf8.encode b.toNat = [b] := by
      rw [Utf8.encode, if_pos (by omega)]
      exact congrArg (fun c => [c]) (UInt8.ofNat_toNat)
    rw [same, ← encoded]
    exact readString?_code (hexQuad?_control small) (by omega) rest
  · rw [same]
    exact readString?_plain printable quote backslash rest

/-- **A string is read back from its spelling**, the `escapeByte` of each byte. -/
theorem readString?_escaped (s rest : Text) :
    readString? (s.flatMap escapeByte ++ Byte.doubleQuote :: rest) = some (s, rest) := by
  induction s with
  | nil => exact readString?_quote rest
  | cons b others ih =>
    rw [List.flatMap_cons, List.append_assoc, readString?_escapeByte, ih]
    rfl

/-- What follows a string in quotes follows its closing quote:
`quote s ++ rest = Byte.doubleQuote :: (s.flatMap escapeByte ++ Byte.doubleQuote :: rest)`. -/
theorem quote_append (s rest : Text) :
    quote s ++ rest = Byte.doubleQuote :: (s.flatMap escapeByte ++ Byte.doubleQuote :: rest) := by
  rw [quote, List.cons_append, List.append_assoc, List.singleton_append]

/-! ## Well-formed spelling -/

/-- ASCII characters are spelled with ASCII characters: `∀ c ∈ escapeByte b, c < 0x80`. -/
theorem escapeByte_ascii {b : UInt8} (ascii : b < 0x80) : ∀ c ∈ escapeByte b, c < 0x80 := by
  have all : ∀ n < 128, ∀ c ∈ escapeByte n.toUInt8, c < 0x80 := by decide +kernel
  have here := all b.toNat (UInt8.lt_iff_toNat_lt.1 ascii)
  rw [show b.toNat.toUInt8 = b from UInt8.ofNat_toNat] at here
  exact here

/-- All other bytes are spelled as themselves: `escapeByte b = [b]`. -/
theorem escapeByte_other {b : UInt8} (other : 0x80 ≤ b) : escapeByte b = [b] := by
  have quote : b ≠ Byte.doubleQuote := by
    rintro rfl
    exact absurd other (by decide)
  have backslash : b ≠ Byte.backslash := by
    rintro rfl
    exact absurd other (by decide)
  have printable : ¬ b < 0x20 := UInt8.not_lt.2 (UInt8.le_trans (by decide) other)
  rw [escapeByte, if_neg quote, if_neg backslash, if_neg printable]

/-- A well-formed string is well-formed between its quotes: `Utf8.isWellFormed (quote s)`. -/
theorem isWellFormed_quote {s : Text} (h : Utf8.isWellFormed s = true) : Utf8.isWellFormed (quote s) = true := by
  have spelling := Utf8.continues_flatMap (fun _ => escapeByte_ascii) (fun _ => escapeByte_other) (by decide) h
  rw [quote, Utf8.isWellFormed_cons_ascii (by decide)]
  exact Utf8.isWellFormed_append spelling rfl

end OpCycle.Json
