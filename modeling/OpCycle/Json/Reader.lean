import OpCycle.Binary64.Basic
import OpCycle.Json.Basic
import OpCycle.Text.Utf8

/-! # Reading JSON
A strict reader of JSON text: one document with white space around its tokens and nothing after it, in
well-formed UTF-8, which may start with a byte order mark. Numbers without fraction and exponent stay
integers where 64 bits hold them; a number beyond the floats is an error. Of members with the same key the
first gives the position and the last the value. -/

namespace OpCycle.Json

/-- The white space between tokens: space, tab, line feed and carriage return. -/
def isSpace (b : UInt8) : Bool :=
  b == Byte.space || b == Byte.tab || b == Byte.lineFeed || b == Byte.carriageReturn

/-- Drops the white space at the start of `s`. -/
def skipSpace (s : Text) : Text := s.dropWhile isSpace

/-! ## Numbers -/

/-- The fraction of a number: none, or `.` with digits. -/
def readFraction? : Text → Option (Option Text × Text)
  | Byte.dot :: rest =>
    let digits := rest.takeWhile Byte.isDigit
    if digits.isEmpty then none else some (some digits, rest.dropWhile Byte.isDigit)
  | s => some (none, s)

/-- The exponent of a number: none, or `e` or `E` with an optional sign and digits. -/
def readPower? : Text → Option (Option Int × Text)
  | [] => some (none, [])
  | b :: rest =>
    if Byte.lower b = 0x65 then
      let (negative, rest) := Decimal.splitSign rest
      let digits := rest.takeWhile Byte.isDigit
      if digits.isEmpty then none
      else some (some (Decimal.signed negative (Decimal.natOfDigits digits)), rest.dropWhile Byte.isDigit)
    else some (none, b :: rest)

/-- The float of `mantissa · 10 ^ exponent` with its sign, if it does not overflow. -/
def floatNumber? (negative : Bool) (mantissa : Nat) (exponent : Int) : Option Json :=
  let x := Binary64.ofDecimal mantissa exponent
  if x.isFinite then some (.float (Binary64.withSign negative x)) else none

/-- A number without fraction and exponent: `signed` behind a minus, else `unsigned`, and a float where it does not
fit. -/
def wholeNumber? (negative : Bool) (n : Nat) : Option Json :=
  -- A minus before zero is lost here: only a float keeps it.
  if negative then
    if n ≤ Nat.pow 2 63 then some (.signed (Int64.ofInt (-n))) else floatNumber? true n 0
  else
    if n < Nat.pow 2 64 then some (.unsigned n.toUInt64) else floatNumber? false n 0

/-- Reads a number at the start of `s`: no leading zeros, digits on both sides of the point. -/
def readNumber? (s : Text) : Option (Json × Text) :=
  let (negative, rest) :=
    match s with
    | Byte.minus :: rest => (true, rest)
    | s => (false, s)
  let whole := rest.takeWhile Byte.isDigit
  if whole.isEmpty || (whole.head? == some Byte.zero && whole.length != 1) then none
  else do
    let (fraction, rest) ← readFraction? (rest.dropWhile Byte.isDigit)
    let (power, rest) ← readPower? rest
    let digits := fraction.getD []
    let number ←
      if fraction.isNone && power.isNone then wholeNumber? negative (Decimal.natOfDigits whole)
      else
        floatNumber? negative (Decimal.natOfDigits (whole ++ digits)) (power.getD 0 - digits.length)
    pure (number, rest)

/-! ## Strings -/

/-- The number `a b c d` in hexadecimal digits. -/
def hexQuad? (a b c d : UInt8) : Option Nat := do
  let a ← Byte.hexValue? a
  let b ← Byte.hexValue? b
  let c ← Byte.hexValue? c
  let d ← Byte.hexValue? d
  pure (((a * 16 + b) * 16 + c) * 16 + d)

/-- The byte that `b` stands for behind a backslash. -/
def unescape? (b : UInt8) : Option UInt8 :=
  if b = Byte.doubleQuote ∨ b = Byte.backslash ∨ b = Byte.slash then some b
  else if b = 0x62 then some 0x08
  else if b = 0x66 then some 0x0c
  else if b = 0x6e then some Byte.lineFeed
  else if b = 0x72 then some Byte.carriageReturn
  else if b = 0x74 then some Byte.tab
  else none

/-- Puts `bytes` in front of a string that was read. -/
def prepend (bytes : Text) : Option (Text × Text) → Option (Text × Text) :=
  Option.map fun (s, rest) => (bytes ++ s, rest)

/-- Reads the rest of a string behind its opening quote. A numeric escape of a high surrogate must be followed by one
of a low surrogate. -/
def readString? : Text → Option (Text × Text)
  | [] => none
  | Byte.doubleQuote :: rest => some ([], rest)
  | Byte.backslash :: 0x75 :: a :: b :: c :: d :: rest =>
    match hexQuad? a b c d with
    | none => none
    | some code =>
      if 0xd800 ≤ code ∧ code < 0xdc00 then
        match rest with
        | Byte.backslash :: 0x75 :: a :: b :: c :: d :: rest =>
          match hexQuad? a b c d with
          | none => none
          | some low =>
            if 0xdc00 ≤ low ∧ low < 0xe000 then
              prepend (Utf8.encode (0x10000 + (code - 0xd800) * 0x400 + (low - 0xdc00)))
                (readString? rest)
            else none
        | _ => none
      else if 0xdc00 ≤ code ∧ code < 0xe000 then none
      else prepend (Utf8.encode code) (readString? rest)
  | Byte.backslash :: b :: rest =>
    match unescape? b with
    | none => none
    | some byte => prepend [byte] (readString? rest)
  | b :: rest => if b < 0x20 ∨ b = Byte.backslash then none else prepend [b] (readString? rest)

/-! ## Documents
The depth argument bounds the nesting and the length of containers together; the length of the text is
always enough, since each level and each element takes a byte. -/

mutual

/-- Reads a value at the start of a text without white space in front, at most so deep as `depth`. -/
def readValue? : Nat → Text → Option (Json × Text)
  | 0, _ => none
  | depth + 1, s =>
    match s with
    | [] => none
    | Byte.openBracket :: rest =>
      match skipSpace rest with
      | Byte.closeBracket :: rest => some (.array [], rest)
      | rest => (readItems? depth rest).map fun (items, rest) => (.array items, rest)
    | Byte.openBrace :: rest =>
      match skipSpace rest with
      | Byte.closeBrace :: rest => some (.object ∅, rest)
      | rest => (readMembers? depth rest).map fun (members, rest) => (.object (.ofList members), rest)
    | Byte.doubleQuote :: rest => (readString? rest).map fun (s, rest) => (.string s, rest)
    | b :: rest =>
      if b = Byte.minus ∨ Byte.isDigit b then readNumber? (b :: rest)
      else if (Text.ofString "true").isPrefixOf (b :: rest) then some (.bool true, rest.drop 3)
      else if (Text.ofString "false").isPrefixOf (b :: rest) then some (.bool false, rest.drop 4)
      else if (Text.ofString "null").isPrefixOf (b :: rest) then some (.null, rest.drop 3)
      else none

/-- Reads the elements of an array up to its closing bracket, each by `readValue?`. -/
def readItems? : Nat → Text → Option (List Json × Text)
  | 0, _ => none
  | depth + 1, s => do
    let (item, rest) ← readValue? depth s
    match skipSpace rest with
    | Byte.closeBracket :: rest => pure ([item], rest)
    | Byte.comma :: rest =>
      let (items, rest) ← readItems? depth (skipSpace rest)
      pure (item :: items, rest)
    | _ => none

/-- Reads the members of an object up to its closing brace, each by `readString?` and `readValue?`. -/
def readMembers? : Nat → Text → Option (List (Text × Json) × Text)
  | 0, _ => none
  | depth + 1, s =>
    match s with
    | Byte.doubleQuote :: rest => do
      let (key, rest) ← readString? rest
      match skipSpace rest with
      | Byte.colon :: rest =>
        let (value, rest) ← readValue? depth (skipSpace rest)
        match skipSpace rest with
        | Byte.closeBrace :: rest => pure ([(key, value)], rest)
        | Byte.comma :: rest =>
          let (members, rest) ← readMembers? depth (skipSpace rest)
          pure ((key, value) :: members, rest)
        | _ => none
      | _ => none
    | _ => none

end

/-- Reads `s` as a whole document. -/
def read? (s : Text) : Option Json :=
  if Utf8.isWellFormed s then
    match readValue? (s.length + 1) (skipSpace (Utf8.dropByteOrderMark s)) with
    | some (j, rest) => if (skipSpace rest).isEmpty then some j else none
    | none => none
  else none

/-- The value of `s` read loosely: what it says as a JSON document, else the text `s` itself. -/
def looseValue (s : Text) : Value :=
  match read? s with
  | some j => j.toValue
  | none => .text s

end OpCycle.Json
