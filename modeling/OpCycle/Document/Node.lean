import OpCycle.Value.Conversion

/-! # Document trees
The tree of a configuration document: scalars that are plain or quoted, sequences and mappings. This module
looks entries up, reads scalars as settings, and turns trees into values. Only plain scalars may become
booleans and numbers; a quoted one is always a text. -/

namespace OpCycle

/-- A node of a document. -/
inductive Node
  /-- The null node. -/
  | null
  /-- A scalar without quotes. -/
  | plain (text : Text)
  /-- A scalar in quotes. -/
  | quoted (text : Text)
  /-- A sequence. -/
  | sequence (items : List Node)
  /-- A mapping in document order. -/
  | mapping (entries : List (Node × Node))

/-- Why a document cannot be used. -/
inductive NodeFault
  /-- It is no well-formed document. -/
  | malformed
  /-- An entry is looked up in a scalar. -/
  | entryOfScalar
  /-- A scalar was expected. -/
  | notScalar
  /-- A mapping was expected. -/
  | notMapping
  deriving DecidableEq, Repr

/-- What a file name may stand for. -/
inductive Document
  /-- There is no such file. -/
  | missing
  /-- The file holds no well-formed document. -/
  | malformed
  /-- The file holds this document. -/
  | tree (root : Node)

/-- The tree of the document in an existing file; `.missing` is as `.malformed`. -/
def Document.root : Document → Except NodeFault Node
  | .tree root => .ok root
  | _ => .error .malformed

namespace Node

/-- The null node stands in for one that is not there. -/
instance : Inhabited Node := ⟨.null⟩

/-- The text of a scalar, `plain` or `quoted`. -/
def scalar? : Node → Option Text
  | .plain text => some text
  | .quoted text => some text
  | _ => none

/-- The text of a scalar; anything else is the fault `.notScalar`. -/
def scalar (n : Node) : Except NodeFault Text :=
  match n.scalar? with
  | some text => .ok text
  | none => .error .notScalar

/-- Whether the node is a `mapping`. -/
def isMapping : Node → Bool
  | .mapping _ => true
  | _ => false

/-- The value of the first entry whose key is a scalar with the text `key`. Sequences and null have no entries; a
scalar cannot be asked for one. -/
def entry (n : Node) (key : Text) : Except NodeFault (Option Node) :=
  match n with
  | .mapping entries => .ok ((entries.find? fun entry => entry.1.scalar? = some key).map Prod.snd)
  | .sequence _ => .ok none
  | .null => .ok none
  | _ => .error .entryOfScalar

/-! ## Settings -/

/-- Drops the white space at the end of `s`. -/
def dropTrailing (s : Text) : Text := (s.reverse.dropWhile Byte.isBlank).reverse

/-- The value of the digit `b` in a `base` up to sixteen. -/
def digitValue? (base : Nat) (b : UInt8) : Option Nat := (Byte.hexValue? b).filter (· < base)

/-- The natural that one or more `digits` of a `base` denote. -/
def naturalOfDigits? (base : Nat) (digits : Text) : Option Nat :=
  if digits.isEmpty then none
  else (digits.mapM (digitValue? base)).map (List.foldl (fun n d => base * n + d) 0)

/-- The natural that a text denotes in the base that its start gives away: sixteen after `0x` or `0X`, eight
for any other `0` in front, else ten. -/
def readNatural? : Text → Option Nat
  | Byte.zero :: 0x78 :: digits => naturalOfDigits? 16 digits
  | Byte.zero :: 0x58 :: digits => naturalOfDigits? 16 digits
  | Byte.zero :: digits => naturalOfDigits? 8 (Byte.zero :: digits)
  | digits => naturalOfDigits? 10 digits

/-- The integer that a scalar spells out, with an optional sign in front of what `readNatural?` reads; white space may
follow it. -/
def toInt? (n : Node) : Option Int :=
  n.scalar?.bind fun text =>
    let (negative, magnitude) := Decimal.splitSign (dropTrailing text)
    (readNatural? magnitude).map (Decimal.signed negative)

/-- All letters are lower-case (`yes`), or all of them upper-case (`YES`), or only the first of them (`Yes`). -/
def isFlexibleCase : Text → Bool
  | [] => true
  | b :: rest =>
    (b :: rest).all Byte.isLower || Byte.isUpper b && (rest.all Byte.isLower || rest.all Byte.isUpper)

/-- The words for true, each with the one for false. -/
def booleanWords : List (Text × Text) := [("y", "n"), ("yes", "no"), ("true", "false"), ("on", "off")]

/-- The boolean that `word` stands for in `booleanWords`. -/
def readWord? (word : Text) : Option Bool :=
  if booleanWords.any fun words => words.1 = word then some true
  else if booleanWords.any fun words => words.2 = word then some false
  else none

/-- The boolean that a scalar spells out, if `isFlexibleCase` holds of its text. -/
def toBool? (n : Node) : Option Bool :=
  n.scalar?.bind fun text => if isFlexibleCase text then readWord? (Text.lower text) else none

/-- The entry `key` as a text, or `default`. -/
def textOr (n : Node) (key default : Text) : Except NodeFault Text :=
  (n.entry key).map fun found => (found.bind scalar?).getD default

/-- The entry `key` as a boolean, or `default`. -/
def boolOr (n : Node) (key : Text) (default : Bool) : Except NodeFault Bool :=
  (n.entry key).map fun found => (found.bind toBool?).getD default

/-- The entry `key` as a 32-bit integer, or `default`. -/
def int32Or (n : Node) (key : Text) (default : Int32) : Except NodeFault Int32 :=
  (n.entry key).map fun found => ((found.bind toInt?).bind Decimal.int32?).getD default

/-- The entry `key` as a 64-bit integer, or `default`. -/
def int64Or (n : Node) (key : Text) (default : Int64) : Except NodeFault Int64 :=
  (n.entry key).map fun found => ((found.bind toInt?).bind Decimal.int64?).getD default

/-! ## Values -/

/-- A text may spell a number when it starts with a digit, `-`, `+` or `.`. -/
def looksNumeric : Text → Bool
  | [] => false
  | b :: _ => Byte.isDigit b || b == Byte.minus || b == Byte.plus || b == Byte.dot

/-- The number that `text` spells: an integer if `Decimal.readInt64?` reads one, else a float. -/
def readNumber? (text : Text) : Option Value :=
  if looksNumeric text then
    match Decimal.readInt64? text with
    | some n => some (.int n)
    | none => (Binary64.read? text).map .float
  else none

/-- The value of a plain scalar: the boolean or the number that it spells, or else its `text`. -/
def plainValue (text : Text) : Value :=
  match Value.readBool? text with
  | some b => .bool b
  | none => (readNumber? text).getD (.text text)

mutual

/-- The value of a node: a scalar without quotes by `plainValue`, one in quotes as a text. -/
def toValue : Node → Except NodeFault Value
  | .null => .ok .null
  | .plain text => .ok (plainValue text)
  | .quoted text => .ok (.text text)
  | .sequence items => (toValues items).map .list
  | .mapping entries => (toEntries entries).map fun entries => .map (.ofList entries)
termination_by structural n => n

/-- The values of a list of nodes, by `toValue`. -/
def toValues : List Node → Except NodeFault (List Value)
  | [] => .ok []
  | n :: rest => do
    let v ← toValue n
    let vs ← toValues rest
    pure (v :: vs)
termination_by structural items => items

/-- The keys and values of the entries of a mapping, by `scalar` and `toValue`. -/
def toEntries : List (Node × Node) → Except NodeFault (List (Text × Value))
  | [] => .ok []
  | (key, n) :: rest => do
    let key ← key.scalar
    let v ← toValue n
    let entries ← toEntries rest
    pure ((key, v) :: entries)
termination_by structural entries => entries

end

/-- The map of a node that may be absent; `none` and `.null` stand for the empty map. -/
def toMap : Option Node → Except NodeFault (OrderedMap Value)
  | none => .ok ∅
  | some .null => .ok ∅
  | some (.mapping entries) => (toEntries entries).map .ofList
  | some _ => .error .notMapping

end Node

end OpCycle
