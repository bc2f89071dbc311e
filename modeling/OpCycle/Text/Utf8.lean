import OpCycle.Text.Decimal

/-! # UTF-8
Which byte sequences are well-formed UTF-8, the encoding of one code point, and the byte order mark. -/

namespace OpCycle.Utf8

/-- What the first byte of a character announces: how many bytes follow, and the least and the greatest the next
of them can be. No character starts with a byte for which this is `none`. -/
def announced? (b : UInt8) : Option (Nat × UInt8 × UInt8) :=
  if b < 0x80 then some (0, 0x80, 0xbf)
  else if 0xc2 ≤ b && b ≤ 0xdf then some (1, 0x80, 0xbf)
  else if b == 0xe0 then some (2, 0xa0, 0xbf)
  else if b == 0xed then some (2, 0x80, 0x9f)
  else if 0xe1 ≤ b && b ≤ 0xef then some (2, 0x80, 0xbf)
  else if b == 0xf0 then some (3, 0x90, 0xbf)
  else if 0xf1 ≤ b && b ≤ 0xf3 then some (3, 0x80, 0xbf)
  else if b == 0xf4 then some (3, 0x80, 0x8f)
  else none

/-- The text continues well: `pending` continuation bytes are due, the first of them between `least`
and `most`, and whole well-formed characters follow. -/
def continues (pending : Nat) (least most : UInt8) : Text → Bool
  | [] => pending == 0
  | b :: rest =>
    match pending with
    | pending + 1 => least ≤ b && b ≤ most && continues pending 0x80 0xbf rest
    | 0 => (announced? b).any fun next => continues next.1 next.2.1 next.2.2 rest

/-- The text `s` is well-formed UTF-8: shortest forms only, no surrogates, nothing above U+10FFFF. -/
def isWellFormed (s : Text) : Bool := continues 0 0x80 0xbf s

/-- What is wrong with a text that is not well-formed. -/
inductive Fault
  /-- This byte cannot stand at this index, and nothing before it is wrong. -/
  | unexpected (index : Nat) (byte : UInt8)
  /-- The text ends with this byte inside a character. -/
  | incomplete (last : UInt8)
  deriving DecidableEq, Repr

/-- The two upper-case hexadecimal digits of `b`. -/
def upperHex (b : UInt8) : Text := [Byte.ofUpperHexDigit (b.toNat / 16), Byte.ofUpperHexDigit (b.toNat % 16)]

/-- What is wrong with a text that goes on behind `index` bytes, the last of which is `last`, where `pending`
continuation bytes are due and the first of them lies between `least` and `most`. -/
def faultFrom (index : Nat) (last : UInt8) (pending : Nat) (least most : UInt8) : Text → Option Fault
  | [] => if pending = 0 then none else some (.incomplete last)
  | b :: rest =>
    match pending with
    | pending + 1 =>
      if least ≤ b ∧ b ≤ most then faultFrom (index + 1) b pending 0x80 0xbf rest
      else some (.unexpected index b)
    | 0 =>
      match announced? b with
      | some (pending, least, most) => faultFrom (index + 1) b pending least most rest
      | none => some (.unexpected index b)

/-- What is wrong with a text, and `none` when it is well-formed. -/
def fault? (s : Text) : Option Fault := faultFrom 0 Byte.nul 0 0x80 0xbf s

/-- The wording of a fault, with the byte in hexadecimal digits: `invalid UTF-8 byte at index 1: 0xFF`. -/
def Fault.message : Fault → Text
  | .unexpected index byte =>
    "invalid UTF-8 byte at index " ++ Decimal.ofNat index ++ ": 0x" ++ upperHex byte
  | .incomplete last => "incomplete UTF-8 string; last byte: 0x" ++ upperHex last

/-- The bytes of the code point `code`. -/
def encode (code : Nat) : Text :=
  if code < 0x80 then [code.toUInt8]
  else if code < 0x800 then [(0xc0 + code / 0x40).toUInt8, (0x80 + code % 0x40).toUInt8]
  else if code < 0x10000 then
    [(0xe0 + code / 0x1000).toUInt8, (0x80 + code / 0x40 % 0x40).toUInt8, (0x80 + code % 0x40).toUInt8]
  else
    [(0xf0 + code / 0x40000).toUInt8, (0x80 + code / 0x1000 % 0x40).toUInt8,
      (0x80 + code / 0x40 % 0x40).toUInt8, (0x80 + code % 0x40).toUInt8]

/-- Drops one byte order mark `ef bb bf`, the encoding of U+FEFF, from the start of a text. -/
def dropByteOrderMark : Text → Text
  | 0xef :: 0xbb :: 0xbf :: rest => rest
  | s => s

end OpCycle.Utf8
