import OpCycle.Binary64.Shortest
import OpCycle.Json.Basic
import OpCycle.Text.Utf8

/-! # JSON text
Writing JSON trees, compactly or indented. Strings escape the quote, the backslash and the control
characters, and keep all other bytes; floats are written with the fewest digits that read back. A document with a
string that is not well-formed UTF-8 cannot be written: `render?` then gives nothing, and `dump` says what is wrong
with the first such string. -/

namespace OpCycle.Json

/-- The layout of a document. -/
inductive Style
  /-- Everything on one line, without spaces. -/
  | compact
  /-- One line per element, indented by this many spaces per level. -/
  | indented (step : Nat)
  deriving DecidableEq, Repr

/-- What stands before an element at a nesting `depth`: nothing, or a line feed and the spaces of `depth` levels. -/
def Style.newline (style : Style) (depth : Nat) : Text :=
  match style with
  | .compact => []
  | .indented step => Byte.lineFeed :: List.replicate (step * depth) Byte.space

/-- What stands between a key and its value: a colon, with a space behind it if `indented`. -/
def Style.colon (style : Style) : Text :=
  match style with
  | .compact => ":"
  | .indented _ => ": "

/-! ## Leaves -/

/-- The spelling of `b` inside a string. -/
def escapeByte (b : UInt8) : Text :=
  if b = Byte.doubleQuote then [Byte.backslash, Byte.doubleQuote]
  else if b = Byte.backslash then [Byte.backslash, Byte.backslash]
  else if b < 0x20 then
    if b = 0x08 then "\\b"
    else if b = 0x0c then "\\f"
    else if b = Byte.lineFeed then "\\n"
    else if b = Byte.carriageReturn then "\\r"
    else if b = Byte.tab then "\\t"
    else "\\u00" ++ [Byte.ofHexDigit (b.toNat / 16), Byte.ofHexDigit (b.toNat % 16)]
  else [b]

/-- The string `s` in quotes, each byte by `escapeByte`. -/
def quote (s : Text) : Text := Byte.doubleQuote :: (s.flatMap escapeByte ++ [Byte.doubleQuote])

/-- Lays out the digits of a positive number: as `12.5` when the point stands at most fifteen places after the start
of the digits and at most three zeros before them, else as `1.25e+20`, with an exponent of at least two digits. -/
def layout (d : Binary64.Digits) : Text :=
  let digits := Decimal.ofNat d.digits
  let count : Int := digits.length
  if count ≤ d.point ∧ d.point ≤ 15 then
    digits ++ List.replicate (d.point - count).toNat Byte.zero ++ ".0"
  else if 0 < d.point ∧ d.point ≤ 15 then
    digits.take d.point.toNat ++ Byte.dot :: digits.drop d.point.toNat
  else if -4 < d.point ∧ d.point ≤ 0 then
    "0." ++ List.replicate (-d.point).toNat Byte.zero ++ digits
  else
    let exponent := d.point - 1
    let fraction : Text := if digits.length ≤ 1 then [] else Byte.dot :: digits.drop 1
    let mark : Text := if exponent < 0 then "e-" else "e+"
    let power := Decimal.ofNat exponent.natAbs
    digits.take 1 ++ fraction ++ mark ++ List.replicate (2 - power.length) Byte.zero ++ power

/-- A float: infinities and NaN have no JSON form and become `null`. -/
def writeFloat (x : Float) : Text :=
  match Binary64.parts x with
  | .finite negative mantissa exponent =>
    let sign : Text := if negative then [Byte.minus] else []
    let magnitude : Text := if mantissa = 0 then "0.0" else layout (Binary64.shortest mantissa exponent)
    sign ++ magnitude
  | _ => "null"

/-! ## Documents -/

/-- An array or an object from the texts of its `elements`, between `opening` and `closing`. -/
def enclose (style : Style) (depth : Nat) (opening closing : UInt8) (elements : List Text) : Text :=
  if elements.isEmpty then [opening, closing]
  else
    opening :: (Text.joinWith [Byte.comma] (elements.map (style.newline (depth + 1) ++ ·)) ++
      style.newline depth ++ [closing])

mutual

/-- Writes a tree at a nesting `depth`. -/
def write (style : Style) (depth : Nat) : Json → Text
  | .null => "null"
  | .bool b => if b then "true" else "false"
  | .signed n => Decimal.ofInt64 n
  | .unsigned n => Decimal.ofNat n.toNat
  | .float x => writeFloat x
  | .string s => quote s
  | .array items => enclose style depth Byte.openBracket Byte.closeBracket (writeItems style (depth + 1) items)
  | .object ⟨members⟩ =>
    enclose style depth Byte.openBrace Byte.closeBrace (writeMembers style (depth + 1) members)
termination_by structural j => j

/-- Writes each element of an array, by `write`. -/
def writeItems (style : Style) (depth : Nat) : List Json → List Text
  | [] => []
  | j :: rest => write style depth j :: writeItems style depth rest
termination_by structural items => items

/-- Writes each member of an object, by `quote` and `write`. -/
def writeMembers (style : Style) (depth : Nat) : List (Text × Json) → List Text
  | [] => []
  | (key, j) :: rest =>
    (quote key ++ style.colon ++ write style depth j) :: writeMembers style depth rest
termination_by structural members => members

end

/-- The text of `j`: `write style 0 j`. -/
def render (style : Style) (j : Json) : Text := write style 0 j

/-! ## Strict documents -/

mutual

/-- All strings and keys of a tree are well-formed, as `Utf8.isWellFormed` says. -/
def isWellFormed : Json → Bool
  | .string s => Utf8.isWellFormed s
  | .array items => areWellFormed items
  | .object ⟨members⟩ => membersAreWellFormed members
  | _ => true
termination_by structural j => j

/-- All strings and keys in the elements of an array are well-formed, by `isWellFormed`. -/
def areWellFormed : List Json → Bool
  | [] => true
  | j :: rest => isWellFormed j && areWellFormed rest
termination_by structural items => items

/-- All keys and members of an object are well-formed, by `Utf8.isWellFormed` and `isWellFormed`. -/
def membersAreWellFormed : List (Text × Json) → Bool
  | [] => true
  | (key, j) :: rest => Utf8.isWellFormed key && isWellFormed j && membersAreWellFormed rest
termination_by structural members => members

end

/-- The text `render style j` of `j`, if `j.isWellFormed`. -/
def render? (style : Style) (j : Json) : Option Text :=
  if j.isWellFormed then some (render style j) else none

mutual

/-- The `Utf8.fault?` of the first of the strings and keys of a tree that is not well-formed, in the order in which
they are written. -/
def fault? : Json → Option Utf8.Fault
  | .string s => Utf8.fault? s
  | .array items => faultIn? items
  | .object ⟨members⟩ => faultInMembers? members
  | _ => none
termination_by structural j => j

/-- The first `fault?` in the elements of an array. -/
def faultIn? : List Json → Option Utf8.Fault
  | [] => none
  | j :: rest => (fault? j).or (faultIn? rest)
termination_by structural items => items

/-- The first fault in the members of an object; a key comes before its value. -/
def faultInMembers? : List (Text × Json) → Option Utf8.Fault
  | [] => none
  | (key, j) :: rest => (Utf8.fault? key).or ((fault? j).or (faultInMembers? rest))
termination_by structural members => members

end

/-- The text `render .compact j`, or `j.fault?`, if there is a fault. -/
def dump (j : Json) : Except Utf8.Fault Text :=
  match j.fault? with
  | some fault => .error fault
  | none => .ok (render .compact j)

end OpCycle.Json
