/-! # Texts as byte sequences
Every text of the library is a sequence of bytes: positions and lengths count bytes, and the character
classes below know the ASCII characters only. String literals stand for their UTF-8 bytes. -/

namespace OpCycle

/-- A text is a sequence of bytes, usually but not always well-formed UTF-8. -/
abbrev Text := List UInt8

/-! ## Bytes -/

namespace Byte

/-- The NUL byte, which also stands for "no byte" in reports about the end of a text. -/
@[match_pattern] abbrev nul : UInt8 := 0x00
/-- Horizontal tab. -/
@[match_pattern] abbrev tab : UInt8 := 0x09
/-- Line feed. -/
@[match_pattern] abbrev lineFeed : UInt8 := 0x0a
/-- Carriage return. -/
@[match_pattern] abbrev carriageReturn : UInt8 := 0x0d
/-- The space. -/
@[match_pattern] abbrev space : UInt8 := 0x20
/-- The double quote. -/
@[match_pattern] abbrev doubleQuote : UInt8 := 0x22
/-- The single quote. -/
@[match_pattern] abbrev singleQuote : UInt8 := 0x27
/-- The opening parenthesis. -/
@[match_pattern] abbrev openParen : UInt8 := 0x28
/-- The closing parenthesis. -/
@[match_pattern] abbrev closeParen : UInt8 := 0x29
/-- The plus sign. -/
@[match_pattern] abbrev plus : UInt8 := 0x2b
/-- The comma. -/
@[match_pattern] abbrev comma : UInt8 := 0x2c
/-- The minus sign. -/
@[match_pattern] abbrev minus : UInt8 := 0x2d
/-- The full stop. -/
@[match_pattern] abbrev dot : UInt8 := 0x2e
/-- The slash. -/
@[match_pattern] abbrev slash : UInt8 := 0x2f
/-- The digit zero. -/
@[match_pattern] abbrev zero : UInt8 := 0x30
/-- The colon. -/
@[match_pattern] abbrev colon : UInt8 := 0x3a
/-- The semicolon. -/
@[match_pattern] abbrev semicolon : UInt8 := 0x3b
/-- The equals sign. -/
@[match_pattern] abbrev equals : UInt8 := 0x3d
/-- The opening bracket. -/
@[match_pattern] abbrev openBracket : UInt8 := 0x5b
/-- The backslash. -/
@[match_pattern] abbrev backslash : UInt8 := 0x5c
/-- The closing bracket. -/
@[match_pattern] abbrev closeBracket : UInt8 := 0x5d
/-- The underscore. -/
@[match_pattern] abbrev underscore : UInt8 := 0x5f
/-- The opening brace. -/
@[match_pattern] abbrev openBrace : UInt8 := 0x7b
/-- The closing brace. -/
@[match_pattern] abbrev closeBrace : UInt8 := 0x7d

/-- White space: the space and the five control characters from tab to carriage return. -/
def isBlank (b : UInt8) : Bool := b == space || (tab ≤ b && b ≤ carriageReturn)

/-- A decimal digit. -/
def isDigit (b : UInt8) : Bool := 0x30 ≤ b && b ≤ 0x39

/-- An upper-case letter. -/
def isUpper (b : UInt8) : Bool := 0x41 ≤ b && b ≤ 0x5a

/-- A lower-case letter. -/
def isLower (b : UInt8) : Bool := 0x61 ≤ b && b ≤ 0x7a

/-- A letter of either case. -/
def isLetter (b : UInt8) : Bool := isUpper b || isLower b

/-- A letter, a digit or `_`. -/
def isWord (b : UInt8) : Bool := isLetter b || isDigit b || b == underscore

/-- The lower-case form of `b` if it is a letter, and any other byte as it is. -/
def lower (b : UInt8) : UInt8 := if isUpper b then b + 0x20 else b

/-- The value of a decimal digit. -/
def digitValue (b : UInt8) : Nat := b.toNat - 0x30

/-- The value of a hexadecimal digit of either case. -/
def hexValue? (b : UInt8) : Option Nat :=
  if isDigit b then some (b.toNat - 0x30)
  else if 0x61 ≤ b && b ≤ 0x66 then some (b.toNat - 0x57)
  else if 0x41 ≤ b && b ≤ 0x46 then some (b.toNat - 0x37)
  else none

/-- A hexadecimal digit of either case. -/
def isHexDigit (b : UInt8) : Bool := (hexValue? b).isSome

/-- The decimal digit with the value `d < 10`. -/
def ofDigit (d : Nat) : UInt8 := (0x30 + d).toUInt8

/-- The lower-case hexadecimal digit with the value `d < 16`. -/
def ofHexDigit (d : Nat) : UInt8 := if d < 10 then (0x30 + d).toUInt8 else (0x57 + d).toUInt8

/-- The upper-case hexadecimal digit with the value `d < 16`. -/
def ofUpperHexDigit (d : Nat) : UInt8 := if d < 10 then (0x30 + d).toUInt8 else (0x37 + d).toUInt8

end Byte

/-! ## Operations on texts -/

namespace Text

/-- The UTF-8 bytes of `s`. -/
def ofString (s : String) : Text := s.toByteArray.data.toList

/-- Strings are taken for their UTF-8 bytes. -/
instance : Coe String Text := ⟨ofString⟩

/-- The text `s` without the white space at its start. -/
def trimStart (s : Text) : Text := s.dropWhile Byte.isBlank

/-- The text `s` without the white space at its start and at its end. -/
def trim (s : Text) : Text := (trimStart (trimStart s).reverse).reverse

/-- The text `s` with its upper-case letters made lower-case. -/
def lower (s : Text) : Text := s.map Byte.lower

/-- The parts of a text before and behind the first occurrence of `separator`. -/
def cut? (separator : Text) : Text → Option (Text × Text)
  | [] => if separator.isEmpty then some ([], []) else none
  | b :: rest =>
    if separator.isPrefixOf (b :: rest) then some ([], (b :: rest).drop separator.length)
    else (cut? separator rest).map fun (before, after) => (b :: before, after)

/-- The parts of a text before and behind the last occurrence of `separator`. -/
def cutLast? (separator : UInt8) : Text → Option (Text × Text)
  | [] => none
  | b :: rest =>
    match cutLast? separator rest with
    | some (before, after) => some (b :: before, after)
    | none => if b = separator then some ([], rest) else none

/-- The parts of a text between the occurrences of `separator`; always one more than there are of them. -/
def splitAll (separator : UInt8) : Text → List Text
  | [] => [[]]
  | b :: rest =>
    if b = separator then [] :: splitAll separator rest
    else
      match splitAll separator rest with
      | [] => [[b]]
      | part :: parts => (b :: part) :: parts

/-- The texts of `parts` one after another with `separator` between neighbours. -/
def joinWith (separator : Text) (parts : List Text) : Text := (parts.intersperse separator).flatten

/-- One text alone is joined without a separator: `joinWith separator [t] = t`. -/
theorem joinWith_singleton (separator t : Text) : joinWith separator [t] = t := List.append_nil t

/-- A separator stands behind the first of several texts:
`joinWith separator (t :: u :: others) = t ++ (separator ++ joinWith separator (u :: others))`. -/
theorem joinWith_cons_cons (separator t u : Text) (others : List Text) :
    joinWith separator (t :: u :: others) = t ++ (separator ++ joinWith separator (u :: others)) := rfl

/-- What is left after the white space at the start is no longer than the text: `(trimStart s).length ≤ s.length`. -/
theorem trimStart_length_le (s : Text) : (trimStart s).length ≤ s.length :=
  (List.dropWhile_suffix _).length_le

/-- A cut leaves strictly less than the text on the right when the separator is not empty:
`after.length < s.length`. -/
theorem cut?_after_length_lt {separator s before after : Text} (nonempty : separator ≠ [])
    (h : cut? separator s = some (before, after)) : after.length < s.length := by
  induction s generalizing before with
  | nil => simp [cut?, nonempty] at h
  | cons b rest ih =>
    have pos : 0 < separator.length := List.length_pos_iff.2 nonempty
    rw [cut?] at h
    split at h
    · have hd : after = (b :: rest).drop separator.length := by
        have := Option.some.inj h
        exact (Prod.mk.inj this).2.symm
      rw [hd, List.length_drop, List.length_cons]
      omega
    · obtain ⟨⟨x, y⟩, hc, he⟩ := Option.map_eq_some_iff.1 h
      have hy : y = after := (Prod.mk.inj he).2
      subst hy
      exact Nat.lt_succ_of_lt (ih hc)

end Text

end OpCycle
