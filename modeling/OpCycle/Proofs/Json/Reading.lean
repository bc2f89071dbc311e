import OpCycle.Proofs.Json.RoundTrip
import OpCycle.Proofs.Json.Strings
import OpCycle.Proofs.Text.Decimal

/-! # Reading compact JSON text
The compact text of a value without floats is read back as a tree of the value. Integers that are not negative
come back as unsigned numbers, so the trees differ, but their values do not.

* `ReadsBack`: the text of a value is read as a tree of it, whatever follows.
* `readsBack`, `looseValue_textOf`: so it is for every exact value. -/

namespace OpCycle.Json

open Text (StartsOutside)

variable {rest : Text}

/-! ## Compact text -/

/-- The elements of an array are written one by one:
`writeItems style depth items = items.map (write style depth)`. -/
theorem writeItems_eq_map (style : Style) (depth : Nat) (items : List Json) :
    writeItems style depth items = items.map (write style depth) := by
  induction items with
  | nil => rfl
  | cons j rest ih => rw [writeItems, ih, List.map_cons]

/-- The members of an object are written one by one, each key in front of its value: `writeMembers style depth members
= members.map fun entry => quote entry.1 ++ style.colon ++ write style depth entry.2`. -/
theorem writeMembers_eq_map (style : Style) (depth : Nat) (members : List (Text × Json)) :
    writeMembers style depth members =
      members.map fun entry => quote entry.1 ++ style.colon ++ write style depth entry.2 := by
  induction members with
  | nil => rfl
  | cons entry rest ih => rw [writeMembers, ih, List.map_cons]

/-- Compact arrays and objects have their elements between commas:
`enclose .compact depth opening closing elements = opening :: (Text.joinWith [Byte.comma] elements ++ [closing])`. -/
theorem enclose_compact (depth : Nat) (opening closing : UInt8) (elements : List Text) :
    enclose .compact depth opening closing elements =
      opening :: (Text.joinWith [Byte.comma] elements ++ [closing]) := by
  cases elements with
  | nil => rfl
  | cons first others =>
    show opening :: (Text.joinWith [Byte.comma] ((first :: others).map fun text => text) ++ [] ++ [closing]) = _
    rw [List.map_id', List.append_nil]

/-- Compact text is the same at every depth: `write .compact depth j = render .compact j`. -/
theorem write_compact (j : Json) (depth : Nat) : write .compact depth j = render .compact j := by
  -- The depth is read by the indentation only, and the compact style has none.
  induction j generalizing depth with
  | null => rfl
  | bool b => rfl
  | signed n => rfl
  | unsigned n => rfl
  | float x => rfl
  | string s => rfl
  | array items ih =>
    have same : items.map (write .compact (depth + 1)) = items.map (write .compact (0 + 1)) :=
      List.map_congr_left fun j mem => (ih j mem _).trans (ih j mem _).symm
    rw [render, write, write, enclose_compact, enclose_compact, writeItems_eq_map, writeItems_eq_map, same]
  | object members ih =>
    have same : (members.entries.map fun entry =>
        quote entry.1 ++ Style.compact.colon ++ write .compact (depth + 1) entry.2) =
        members.entries.map fun entry =>
          quote entry.1 ++ Style.compact.colon ++ write .compact (0 + 1) entry.2 :=
      List.map_congr_left fun entry mem => by rw [(ih entry mem _).trans (ih entry mem (0 + 1)).symm]
    rw [render, write, write, enclose_compact, enclose_compact, writeMembers_eq_map, writeMembers_eq_map, same]

/-- The compact text of an `array`: its elements between commas. -/
theorem render_array (items : List Json) :
    render .compact (.array items) =
      Byte.openBracket :: (Text.joinWith [Byte.comma] (items.map (render .compact)) ++ [Byte.closeBracket]) := by
  have same : items.map (write .compact (0 + 1)) = items.map (render .compact) :=
    List.map_congr_left fun j _ => write_compact j _
  rw [render, write, enclose_compact, writeItems_eq_map, same]

/-- A member of a compact object: its key in quotes, a colon and its text. -/
def renderMember (entry : Text × Json) : Text := quote entry.1 ++ Byte.colon :: render .compact entry.2

/-- The compact text of an `object`: its members between commas. -/
theorem render_object (members : OrderedMap Json) :
    render .compact (.object members) =
      Byte.openBrace :: (Text.joinWith [Byte.comma] (members.entries.map renderMember) ++ [Byte.closeBrace]) := by
  have same : (members.entries.map fun entry =>
      quote entry.1 ++ Style.compact.colon ++ write .compact (0 + 1) entry.2) =
      members.entries.map renderMember := by
    refine List.map_congr_left fun entry _ => ?_
    rw [write_compact, renderMember, List.append_assoc]
    rfl
  rw [render, write, enclose_compact, writeMembers_eq_map, same]

/-! ## Numbers -/

/-- A number goes on with `b`. -/
def extendsNumber (b : UInt8) : Bool := Byte.isDigit b || b == Byte.dot || Byte.lower b == 0x65

/-- No fraction is read where none starts: `readFraction? rest = some (none, rest)`. -/
theorem readFraction?_stop (stop : StartsOutside extendsNumber rest) : readFraction? rest = some (none, rest) := by
  unfold readFraction?
  split
  · cases Text.startsOutside_cons.1 stop
  · rfl

/-- No power is read where none starts: `readPower? rest = some (none, rest)`. -/
theorem readPower?_stop (stop : StartsOutside extendsNumber rest) : readPower? rest = some (none, rest) := by
  unfold readPower?
  split
  · rfl
  · next b rest =>
    have other := Text.startsOutside_cons.1 stop
    rw [extendsNumber, Bool.or_eq_false_iff, beq_eq_false_iff_ne] at other
    exact if_neg other.2

/-- A sign and digits are read as a number without a fraction and an exponent: `readNumber? ((if negative then
[Byte.minus] else []) ++ (Decimal.ofNat n ++ rest)) = (wholeNumber? negative n).map (·, rest)`. -/
theorem readNumber?_whole (negative : Bool) (n : Nat) (stop : StartsOutside extendsNumber rest) :
    readNumber? ((if negative then [Byte.minus] else []) ++ (Decimal.ofNat n ++ rest)) =
      (wholeNumber? negative n).map (·, rest) := by
  have digits := Decimal.digits_ofNat n
  have outside : StartsOutside Byte.isDigit rest := stop.mono fun b digit => by
    rw [extendsNumber, digit]
    rfl
  have whole := Text.takeWhile_append_stop digits.all outside
  have after := Text.dropWhile_append_stop digits.all outside
  have fine : ¬ ((Decimal.ofNat n).isEmpty ||
      ((Decimal.ofNat n).head? == some Byte.zero && (Decimal.ofNat n).length != 1)) = true := by
    rw [Decimal.no_leading_zero, Bool.or_false, List.isEmpty_iff]
    exact digits.nonempty
  unfold readNumber?
  split
  -- What the reader splits off in front is the sign, since digits start with no minus.
  next sign digitsAndRest split =>
  have parts : sign = negative ∧ digitsAndRest = Decimal.ofNat n ++ rest := by
    cases negative with
    | true =>
      cases split
      exact ⟨rfl, rfl⟩
    | false =>
      have noSign : StartsOutside Decimal.isSign
          ((if false then [Byte.minus] else []) ++ (Decimal.ofNat n ++ rest)) := digits.startsOutside rest
      split at split
      · next same =>
        rw [same] at noSign
        cases Text.startsOutside_cons.1 noSign
      · cases split
        exact ⟨rfl, rfl⟩
  rw [parts.1, parts.2, whole, after, if_neg fine, readFraction?_stop stop]
  show (readPower? rest).bind _ = _
  rw [readPower?_stop stop]
  show (wholeNumber? negative (Decimal.natOfDigits (Decimal.ofNat n))).bind _ = _
  rw [Decimal.natOfDigits_ofNat]
  cases wholeNumber? negative n <;> rfl

/-- A natural of 63 bits is read as an unsigned number of its value:
`∃ j, wholeNumber? false k = some j ∧ j.toValue = .int n`. -/
theorem toValue_wholeNumber {n : Int64} {k : Nat} (value : n.toInt = k) :
    ∃ j, wholeNumber? false k = some j ∧ j.toValue = .int n := by
  have most : k ≤ 2 ^ 63 - 1 := Int.ofNat_le.1 (value ▸ n.toInt_le)
  have number : k.toUInt64.toNat = k := Nat.mod_eq_of_lt (by omega)
  have fits : k.toUInt64.toNat ≤ 2 ^ 63 - 1 := by rw [number]; exact most
  have same : k.toUInt64.toInt64 = n := by
    rw [← Int64.toInt_inj, Words.toInt_toInt64 (Nat.lt_of_le_of_lt fits (by decide)), number, value]
  refine ⟨.unsigned k.toUInt64, if_pos (Nat.lt_of_le_of_lt most (by decide)), ?_⟩
  rw [toValue, unsignedValue_of_le fits, same]

/-- A negated natural is read as a signed number of its value:
`∃ j, wholeNumber? true k = some j ∧ j.toValue = .int n`. -/
theorem toValue_wholeNumber_negative {n : Int64} {k : Nat} (value : n.toInt = -k) :
    ∃ j, wholeNumber? true k = some j ∧ j.toValue = .int n := by
  have least : -(2 ^ 63 : Int) ≤ -k := value ▸ n.minValue_le_toInt
  have range : k ≤ Nat.pow 2 63 := by
    show k ≤ 2 ^ 63
    omega
  refine ⟨.signed (Int64.ofInt (-k)), if_pos range, ?_⟩
  rw [toValue, ← value, Int64.ofInt_toInt]

/-- The notation of an integer is read as a number of its value:
`∃ j, readNumber? (Decimal.ofInt64 n ++ rest) = some (j, rest) ∧ j.toValue = .int n`. -/
theorem readNumber?_ofInt64 (n : Int64) (stop : StartsOutside extendsNumber rest) :
    ∃ j, readNumber? (Decimal.ofInt64 n ++ rest) = some (j, rest) ∧ j.toValue = .int n := by
  rw [Decimal.ofInt64]
  cases value : n.toInt with
  | ofNat k =>
    obtain ⟨j, read, back⟩ := toValue_wholeNumber value
    refine ⟨j, ?_, back⟩
    have whole := readNumber?_whole false k stop
    rw [read] at whole
    exact whole
  | negSucc k =>
    have negated : n.toInt = -((k + 1 : Nat) : Int) := value
    obtain ⟨j, read, back⟩ := toValue_wholeNumber_negative negated
    refine ⟨j, ?_, back⟩
    have whole := readNumber?_whole true (k + 1) stop
    rw [read] at whole
    exact whole

/-! ## Steps of the reader -/

variable {depth : Nat} {s more : Text} {j : Json}

/-- There is no space to skip in front of a text that starts with something else: `skipSpace s = s`. -/
theorem skipSpace_eq_self (start : StartsOutside isSpace s) : skipSpace s = s := Text.dropWhile_eq_self start

/-- An element in front of a closing bracket is the last one: `readItems? (depth + 1) s = some ([j], rest)`. -/
theorem readItems?_last (read : readValue? depth s = some (j, Byte.closeBracket :: rest)) :
    readItems? (depth + 1) s = some ([j], rest) := by
  rw [readItems?, read]
  rfl

/-- Behind an element and a comma the other elements follow: `readItems? (depth + 1) s = some (j :: items, rest)`. -/
theorem readItems?_more {items : List Json} (read : readValue? depth s = some (j, Byte.comma :: more))
    (start : StartsOutside isSpace more) (others : readItems? depth more = some (items, rest)) :
    readItems? (depth + 1) s = some (j :: items, rest) := by
  rw [readItems?, read]
  show (readItems? depth (skipSpace more)).bind _ = _
  rw [skipSpace_eq_self start, others]
  rfl

/-- A member in front of a closing brace is the last one:
`readMembers? (depth + 1) (quote key ++ Byte.colon :: s) = some ([(key, j)], rest)`. -/
theorem readMembers?_last (key : Text) (start : StartsOutside isSpace s)
    (read : readValue? depth s = some (j, Byte.closeBrace :: rest)) :
    readMembers? (depth + 1) (quote key ++ Byte.colon :: s) = some ([(key, j)], rest) := by
  rw [quote_append]
  show (readString? (key.flatMap escapeByte ++ Byte.doubleQuote :: Byte.colon :: s)).bind _ = _
  rw [readString?_escaped]
  show (readValue? depth (skipSpace s)).bind _ = _
  rw [skipSpace_eq_self start, read]
  rfl

/-- Behind a member and a comma the other members follow:
`readMembers? (depth + 1) (quote key ++ Byte.colon :: s) = some ((key, j) :: members, rest)`. -/
theorem readMembers?_more (key : Text) {members : List (Text × Json)} (start : StartsOutside isSpace s)
    (read : readValue? depth s = some (j, Byte.comma :: more)) (startMore : StartsOutside isSpace more)
    (others : readMembers? depth more = some (members, rest)) :
    readMembers? (depth + 1) (quote key ++ Byte.colon :: s) = some ((key, j) :: members, rest) := by
  rw [quote_append]
  show (readString? (key.flatMap escapeByte ++ Byte.doubleQuote :: Byte.colon :: s)).bind _ = _
  rw [readString?_escaped]
  show (readValue? depth (skipSpace s)).bind _ = _
  rw [skipSpace_eq_self start, read]
  show (readMembers? depth (skipSpace more)).bind _ = _
  rw [skipSpace_eq_self startMore, others]
  rfl

/-- No value starts with `b`: it is white space, the bracket that closes an array, or the first byte of a byte order
mark. -/
def startsNoValue (b : UInt8) : Bool := isSpace b || b == Byte.closeBracket || b == 0xef

/-- What starts a value is no space: `StartsOutside isSpace s`. -/
theorem isSpace_outside (start : StartsOutside startsNoValue s) : StartsOutside isSpace s :=
  start.mono fun b space => by
    rw [startsNoValue, space]
    rfl

/-- Behind an opening bracket the elements follow:
`readValue? (depth + 1) (Byte.openBracket :: s) = some (.array items, rest)`. -/
theorem readValue?_array {items : List Json} (start : StartsOutside startsNoValue s)
    (read : readItems? depth s = some (items, rest)) :
    readValue? (depth + 1) (Byte.openBracket :: s) = some (.array items, rest) := by
  rw [readValue?.eq_def]
  dsimp only
  split
  · next same => cases same
  · next same =>
    cases same
    rw [skipSpace_eq_self (isSpace_outside start)]
    split
    · cases Text.startsOutside_cons.1 start
    · rw [read]
      rfl
  · next same => cases same
  · next same => cases same
  · next other _ _ same =>
    cases same
    exact absurd rfl other

/-- Behind an opening brace the members follow:
`readValue? (depth + 1) (Byte.openBrace :: Byte.doubleQuote :: s) = some (.object (.ofList members), rest)`. -/
theorem readValue?_object {members : List (Text × Json)}
    (read : readMembers? depth (Byte.doubleQuote :: s) = some (members, rest)) :
    readValue? (depth + 1) (Byte.openBrace :: Byte.doubleQuote :: s) = some (.object (.ofList members), rest) := by
  show (readMembers? depth (Byte.doubleQuote :: s)).map _ = _
  rw [read]
  rfl

/-- A digit or a minus starts a number: `readValue? (depth + 1) (b :: others) = readNumber? (b :: others)`. -/
theorem readValue?_number {b : UInt8} (numeric : b = Byte.minus ∨ Byte.isDigit b = true) (others : Text) :
    readValue? (depth + 1) (b :: others) = readNumber? (b :: others) := by
  rw [readValue?.eq_def]
  dsimp only
  split
  · next same => cases same
  · next same =>
    cases same
    exact absurd numeric (by decide)
  · next same =>
    cases same
    exact absurd numeric (by decide)
  · next same =>
    cases same
    exact absurd numeric (by decide)
  · next same =>
    cases same
    exact if_pos numeric

/-! ## Reading values back -/

/-- The compact text of `v`. -/
def textOf (v : Value) : Text := render .compact (ofValue v)

/-- The text of `v` starts like one, and is read as a tree of `v`, however much follows. -/
structure ReadsBack (v : Value) : Prop where
  starts : ∃ b others, textOf v = b :: others ∧ startsNoValue b = false
  reads : ∀ depth rest, (textOf v).length ≤ depth + 1 → StartsOutside extendsNumber rest →
    ∃ j, readValue? (depth + 1) (textOf v ++ rest) = some (j, rest) ∧ j.toValue = v

/-- The text of a value that reads back starts a value: `StartsOutside startsNoValue (textOf v ++ rest)`. -/
theorem ReadsBack.startsOutside {v : Value} (h : ReadsBack v) (rest : Text) :
    StartsOutside startsNoValue (textOf v ++ rest) := by
  obtain ⟨b, others, same, starts⟩ := h.starts
  rw [same, List.cons_append]
  exact Text.startsOutside_cons.2 starts

/-- A depth that is enough for the text is not zero:
`∃ j, readValue? depth (textOf v ++ rest) = some (j, rest) ∧ j.toValue = v`. -/
theorem ReadsBack.read {v : Value} (h : ReadsBack v) (enough : (textOf v).length ≤ depth)
    (stop : StartsOutside extendsNumber rest) :
    ∃ j, readValue? depth (textOf v ++ rest) = some (j, rest) ∧ j.toValue = v := by
  cases depth with
  | zero =>
    -- The text has at least one byte.
    obtain ⟨b, others, same, -⟩ := h.starts
    rw [same] at enough
    exact absurd enough (Nat.not_succ_le_zero _)
  | succ depth => exact h.reads depth rest enough stop

/-- Null reads back: `ReadsBack .null`. -/
theorem readsBack_null : ReadsBack .null :=
  ⟨⟨_, _, rfl, rfl⟩, fun _ _ _ _ => ⟨.null, rfl, rfl⟩⟩

/-- Booleans read back: `ReadsBack (.bool b)`. -/
theorem readsBack_bool (b : Bool) : ReadsBack (.bool b) := by
  cases b with
  | true => exact ⟨⟨_, _, rfl, rfl⟩, fun _ _ _ _ => ⟨.bool true, rfl, rfl⟩⟩
  | false => exact ⟨⟨_, _, rfl, rfl⟩, fun _ _ _ _ => ⟨.bool false, rfl, rfl⟩⟩

/-- Texts read back: `ReadsBack (.text s)`. -/
theorem readsBack_text (s : Text) : ReadsBack (.text s) := by
  refine ⟨⟨_, _, rfl, rfl⟩, fun depth rest _ _ => ⟨.string s, ?_, rfl⟩⟩
  show readValue? (depth + 1) (quote s ++ rest) = _
  rw [quote_append]
  show (readString? (s.flatMap escapeByte ++ Byte.doubleQuote :: rest)).map _ = _
  rw [readString?_escaped]
  rfl

/-- The notation of an integer starts with a minus or a digit:
`∃ b others, Decimal.ofInt64 n = b :: others ∧ (b = Byte.minus ∨ Byte.isDigit b)`. -/
theorem ofInt64_eq_cons (n : Int64) :
    ∃ b others, Decimal.ofInt64 n = b :: others ∧ (b = Byte.minus ∨ Byte.isDigit b = true) := by
  rw [Decimal.ofInt64]
  cases n.toInt with
  | ofNat k =>
    have digits := Decimal.digits_ofNat k
    obtain ⟨b, others, same⟩ := List.exists_cons_of_ne_nil digits.nonempty
    exact ⟨b, others, same, .inr (digits.all b (same ▸ List.mem_cons_self))⟩
  | negSucc k => exact ⟨_, _, rfl, .inl rfl⟩

/-- The notation of an integer has ASCII characters only: `∀ b ∈ Decimal.ofInt64 n, b < 0x80`. -/
theorem ofInt64_ascii (n : Int64) : ∀ b ∈ Decimal.ofInt64 n, b < 0x80 := by
  have digits (k : Nat) : ∀ b ∈ Decimal.ofNat k, b < 0x80 := by
    intro b mem
    have range := Byte.isDigit_iff.1 ((Decimal.digits_ofNat k).all b mem)
    rw [UInt8.lt_iff_toNat_lt]
    show b.toNat < 128
    omega
  rw [Decimal.ofInt64]
  cases n.toInt with
  | ofNat k => exact digits k
  | negSucc k => exact List.forall_mem_cons.2 ⟨by decide, digits (k + 1)⟩

/-- A number does not start with a byte with which no value starts: `startsNoValue b = false`. -/
theorem startsNoValue_of_numeric {b : UInt8} (numeric : b = Byte.minus ∨ Byte.isDigit b = true) :
    startsNoValue b = false := by
  rw [Byte.isDigit_iff, ← UInt8.toNat_inj] at numeric
  rw [← Bool.not_eq_true, startsNoValue, isSpace]
  simp only [Bool.or_eq_true, Byte.beq_iff_toNat]
  replace numeric : b.toNat = 45 ∨ 48 ≤ b.toNat ∧ b.toNat ≤ 57 := numeric
  show ¬ (((((b.toNat = 32 ∨ b.toNat = 9) ∨ b.toNat = 10) ∨ b.toNat = 13) ∨ b.toNat = 93) ∨ b.toNat = 239)
  omega

/-- Integers read back: `ReadsBack (.int n)`. -/
theorem readsBack_int (n : Int64) : ReadsBack (.int n) := by
  obtain ⟨b, others, same, numeric⟩ := ofInt64_eq_cons n
  refine ⟨⟨b, others, same, startsNoValue_of_numeric numeric⟩, fun depth rest _ stop => ?_⟩
  obtain ⟨j, read, back⟩ := readNumber?_ofInt64 n stop
  refine ⟨j, ?_, back⟩
  show readValue? (depth + 1) (Decimal.ofInt64 n ++ rest) = _
  rw [← read, same]
  exact readValue?_number numeric _

/-- A comma ends a number: `StartsOutside extendsNumber (Byte.comma :: rest)`. -/
theorem comma_stop (rest : Text) : StartsOutside extendsNumber (Byte.comma :: rest) :=
  Text.startsOutside_cons.2 rfl

/-- The elements of an array are read by `readItems?` up to the bracket that closes it. -/
theorem readItems?_joined {items : List Value} (nonempty : items ≠ []) (back : ∀ v ∈ items, ReadsBack v)
    (enough : (Text.joinWith [Byte.comma] (items.map textOf)).length ≤ depth) (rest : Text) :
    StartsOutside startsNoValue
        (Text.joinWith [Byte.comma] (items.map textOf) ++ Byte.closeBracket :: rest) ∧
    ∃ trees, readItems? (depth + 1)
        (Text.joinWith [Byte.comma] (items.map textOf) ++ Byte.closeBracket :: rest) = some (trees, rest) ∧
      trees.map toValue = items := by
  -- The reader goes one level down for each element, and the text of the others is that much shorter.
  induction items generalizing depth with
  | nil => exact absurd rfl nonempty
  | cons v others ih =>
    rw [List.forall_mem_cons] at back
    obtain ⟨first, later⟩ := back
    cases others with
    | nil =>
      rw [List.map_cons, List.map_nil, Text.joinWith_singleton] at enough ⊢
      have stop : StartsOutside extendsNumber (Byte.closeBracket :: rest) := Text.startsOutside_cons.2 rfl
      obtain ⟨j, read, same⟩ := first.read enough stop
      refine ⟨first.startsOutside _, [j], readItems?_last read, ?_⟩
      rw [List.map_cons, same, List.map_nil]
    | cons w others =>
      rw [List.map_cons, List.map_cons, Text.joinWith_cons_cons, ← List.map_cons] at enough ⊢
      rw [List.length_append, List.length_append, List.length_singleton] at enough
      obtain ⟨depth, rfl⟩ := Nat.exists_eq_add_of_le' (show 1 ≤ depth by omega)
      obtain ⟨starts, trees, readOthers, sameOthers⟩ := ih (List.cons_ne_nil _ _) later (show _ ≤ depth by omega)
      rw [List.append_assoc, List.append_assoc, List.singleton_append]
      obtain ⟨j, read, same⟩ := first.read (show _ ≤ depth + 1 by omega) (comma_stop _)
      refine ⟨first.startsOutside _, j :: trees, readItems?_more read (isSpace_outside starts) readOthers, ?_⟩
      rw [List.map_cons, same, sameOthers]

/-- A member of a map in compact text, by `renderMember`. -/
def memberOf (entry : Text × Value) : Text := renderMember (entry.1, ofValue entry.2)

/-- A member in front of a text is its key, a colon and its value in front of that text:
`memberOf entry ++ rest = quote entry.1 ++ Byte.colon :: (textOf entry.2 ++ rest)`. -/
theorem memberOf_append (entry : Text × Value) (rest : Text) :
    memberOf entry ++ rest = quote entry.1 ++ Byte.colon :: (textOf entry.2 ++ rest) := by
  rw [memberOf, renderMember, List.append_assoc]
  rfl

/-- The members of an object are read by `readMembers?` up to the brace that closes it. -/
theorem readMembers?_joined {fields : List (Text × Value)} (nonempty : fields ≠ [])
    (back : ∀ entry ∈ fields, ReadsBack entry.2)
    (enough : (Text.joinWith [Byte.comma] (fields.map memberOf)).length ≤ depth) (rest : Text) :
    (∃ s, Text.joinWith [Byte.comma] (fields.map memberOf) ++ Byte.closeBrace :: rest = Byte.doubleQuote :: s) ∧
    ∃ members, readMembers? (depth + 1)
        (Text.joinWith [Byte.comma] (fields.map memberOf) ++ Byte.closeBrace :: rest) = some (members, rest) ∧
      (members.map fun entry => (entry.1, toValue entry.2)) = fields := by
  have shorter (entry : Text × Value) : (textOf entry.2).length ≤ (memberOf entry).length := by
    rw [memberOf, renderMember, List.length_append, List.length_cons]
    show (textOf entry.2).length ≤ (quote entry.1).length + ((textOf entry.2).length + 1)
    omega
  -- As for the elements of an array, with a key and a colon in front of each value.
  induction fields generalizing depth with
  | nil => exact absurd rfl nonempty
  | cons entry others ih =>
    rw [List.forall_mem_cons] at back
    obtain ⟨first, later⟩ := back
    have short := shorter entry
    cases others with
    | nil =>
      rw [List.map_cons, List.map_nil, Text.joinWith_singleton] at enough ⊢
      rw [memberOf_append]
      have stop : StartsOutside extendsNumber (Byte.closeBrace :: rest) := Text.startsOutside_cons.2 rfl
      obtain ⟨j, read, same⟩ := first.read (Nat.le_trans short enough) stop
      have starts := isSpace_outside (first.startsOutside (Byte.closeBrace :: rest))
      refine ⟨⟨_, rfl⟩, [(entry.1, j)], readMembers?_last entry.1 starts read, ?_⟩
      rw [List.map_cons, same, List.map_nil]
    | cons second others =>
      rw [List.map_cons, List.map_cons, Text.joinWith_cons_cons, ← List.map_cons] at enough ⊢
      rw [List.length_append, List.length_append, List.length_singleton] at enough
      obtain ⟨depth, rfl⟩ := Nat.exists_eq_add_of_le' (show 1 ≤ depth by omega)
      obtain ⟨⟨s, starts⟩, members, readOthers, sameOthers⟩ :=
        ih (List.cons_ne_nil _ _) later (show _ ≤ depth by omega)
      rw [List.append_assoc, List.append_assoc, List.singleton_append, memberOf_append]
      obtain ⟨j, read, same⟩ := first.read (show _ ≤ depth + 1 by omega) (comma_stop _)
      refine ⟨⟨_, rfl⟩, (entry.1, j) :: members, readMembers?_more entry.1
        (isSpace_outside (first.startsOutside _)) read (starts ▸ Text.startsOutside_cons.2 rfl) readOthers, ?_⟩
      rw [List.map_cons, same, sameOthers]

/-- The text of a list: `textOf (.list items) = Byte.openBracket :: (Text.joinWith [Byte.comma] (items.map textOf) ++
[Byte.closeBracket])`. -/
theorem textOf_list (items : List Value) :
    textOf (.list items) =
      Byte.openBracket :: (Text.joinWith [Byte.comma] (items.map textOf) ++ [Byte.closeBracket]) := by
  rw [textOf, ofValue_list, render_array, List.map_map]
  rfl

/-- The text of a map with unique keys:
`textOf (.map m) = Byte.openBrace :: (Text.joinWith [Byte.comma] (m.entries.map memberOf) ++ [Byte.closeBrace])`. -/
theorem textOf_map {m : OrderedMap Value} (unique : m.UniqueKeys) :
    textOf (.map m) =
      Byte.openBrace :: (Text.joinWith [Byte.comma] (m.entries.map memberOf) ++ [Byte.closeBrace]) := by
  rw [textOf, ofValue_map unique, render_object, List.map_map]
  rfl

/-- A list reads back if its items do: `ReadsBack (.list items)`. -/
theorem readsBack_list {items : List Value} (back : ∀ v ∈ items, ReadsBack v) : ReadsBack (.list items) := by
  refine ⟨⟨_, _, textOf_list items, rfl⟩, fun depth rest enough _ => ?_⟩
  rw [textOf_list, List.length_cons, List.length_append, List.length_singleton] at enough
  rw [textOf_list, List.cons_append, List.append_assoc, List.singleton_append]
  by_cases empty : items = []
  · subst empty
    exact ⟨.array [], rfl, rfl⟩
  · obtain ⟨depth, rfl⟩ := Nat.exists_eq_add_of_le' (show 1 ≤ depth by omega)
    obtain ⟨starts, trees, read, same⟩ := readItems?_joined empty back (show _ ≤ depth by omega) rest
    refine ⟨.array trees, readValue?_array starts read, ?_⟩
    rw [toValue_array, same]

/-- A map with unique keys reads back if its values do: `ReadsBack (.map m)`. -/
theorem readsBack_map {m : OrderedMap Value} (unique : m.UniqueKeys)
    (back : ∀ entry ∈ m.entries, ReadsBack entry.2) : ReadsBack (.map m) := by
  refine ⟨⟨_, _, textOf_map unique, rfl⟩, fun depth rest enough _ => ?_⟩
  rw [textOf_map unique, List.length_cons, List.length_append, List.length_singleton] at enough
  rw [textOf_map unique, List.cons_append, List.append_assoc, List.singleton_append]
  by_cases empty : m.entries = []
  · have none : m = ∅ := congrArg OrderedMap.mk empty
    subst none
    exact ⟨.object ∅, rfl, rfl⟩
  · obtain ⟨depth, rfl⟩ := Nat.exists_eq_add_of_le' (show 1 ≤ depth by omega)
    obtain ⟨⟨s, starts⟩, members, read, same⟩ := readMembers?_joined empty back (show _ ≤ depth by omega) rest
    -- The members have the keys of the map, so storing them one after another loses none.
    have keys : members.map Prod.fst = m.keys := by
      rw [OrderedMap.keys, ← same, OrderedMap.map_fst_mapValues]
    have uniqueTree : (⟨members⟩ : OrderedMap Json).UniqueKeys := by
      rw [OrderedMap.UniqueKeys, OrderedMap.keys, keys]
      exact unique
    rw [starts] at read ⊢
    refine ⟨.object (.ofList members), readValue?_object read, ?_⟩
    rw [OrderedMap.ofList_of_nodup uniqueTree, toValue_object uniqueTree, same]

/-- A value without floats and with unique keys is read back from its compact text: `ReadsBack v`. -/
theorem readsBack {v : Value} (isExact : v.Everywhere Value.IsExact) : ReadsBack v := by
  induction v with
  | null => exact readsBack_null
  | bool b => exact readsBack_bool b
  | int n => exact readsBack_int n
  | float x => exact absurd rfl isExact.self.noFloat
  | text s => exact readsBack_text s
  | list items ih =>
    have inside := (Value.everywhere_list_iff.1 isExact).2
    exact readsBack_list fun v mem => ih v mem (inside v mem)
  | map m ih =>
    obtain ⟨here, inside⟩ := Value.everywhere_map_iff.1 isExact
    exact readsBack_map here.uniqueKeys fun entry mem => ih entry mem (inside entry mem)

/-! ## Whole documents -/

/-- Well-formed parts with commas between them are well-formed:
`Utf8.isWellFormed (Text.joinWith [Byte.comma] parts)`. -/
theorem isWellFormed_joinWith {parts : List Text} (whole : ∀ t ∈ parts, Utf8.isWellFormed t = true) :
    Utf8.isWellFormed (Text.joinWith [Byte.comma] parts) = true := by
  induction parts with
  | nil => rfl
  | cons first others ih =>
    rw [List.forall_mem_cons] at whole
    cases others with
    | nil =>
      rw [Text.joinWith_singleton]
      exact whole.1
    | cons second others =>
      rw [Text.joinWith_cons_cons, List.singleton_append]
      refine Utf8.isWellFormed_append whole.1 ?_
      rw [Utf8.isWellFormed_cons_ascii (by decide)]
      exact ih whole.2

/-- The compact text of an exact value is well-formed: `Utf8.isWellFormed (textOf v)`. -/
theorem isWellFormed_textOf {v : Value} (isExact : v.Everywhere Value.IsExact) :
    Utf8.isWellFormed (textOf v) = true := by
  induction v with
  | null => decide
  | bool b => cases b <;> decide
  | int n => exact Utf8.isWellFormed_ascii (ofInt64_ascii n)
  | float x => exact absurd rfl isExact.self.noFloat
  | text s => exact isWellFormed_quote isExact.self.wellSpelled
  | list items ih =>
    have inside := (Value.everywhere_list_iff.1 isExact).2
    have parts : ∀ t ∈ items.map textOf, Utf8.isWellFormed t = true :=
      List.forall_mem_map.2 fun v mem => ih v mem (inside v mem)
    rw [textOf_list, Utf8.isWellFormed_cons_ascii (by decide)]
    exact Utf8.isWellFormed_append (isWellFormed_joinWith parts) rfl
  | map m ih =>
    obtain ⟨here, inside⟩ := Value.everywhere_map_iff.1 isExact
    have parts : ∀ t ∈ m.entries.map memberOf, Utf8.isWellFormed t = true := by
      refine List.forall_mem_map.2 fun entry mem => ?_
      have key := here.wellSpelled entry.1 (List.mem_map_of_mem mem)
      refine Utf8.isWellFormed_append (isWellFormed_quote key) ?_
      rw [Utf8.isWellFormed_cons_ascii (by decide)]
      exact ih entry mem (inside entry mem)
    rw [textOf_map here.uniqueKeys, Utf8.isWellFormed_cons_ascii (by decide)]
    exact Utf8.isWellFormed_append (isWellFormed_joinWith parts) rfl

/-- The elements of an array are well-formed if each of them is:
`areWellFormed items ↔ ∀ j ∈ items, j.isWellFormed`. -/
theorem areWellFormed_iff {items : List Json} :
    areWellFormed items = true ↔ ∀ j ∈ items, j.isWellFormed = true := by
  induction items with
  | nil => exact ⟨fun _ => List.forall_mem_nil _, fun _ => rfl⟩
  | cons j rest ih => rw [areWellFormed, Bool.and_eq_true, ih, List.forall_mem_cons]

/-- The members of an object are well-formed if each key and each value is:
`membersAreWellFormed members ↔ ∀ entry ∈ members, Utf8.isWellFormed entry.1 ∧ entry.2.isWellFormed`. -/
theorem membersAreWellFormed_iff {members : List (Text × Json)} :
    membersAreWellFormed members = true ↔
      ∀ entry ∈ members, Utf8.isWellFormed entry.1 = true ∧ entry.2.isWellFormed = true := by
  induction members with
  | nil => exact ⟨fun _ => List.forall_mem_nil _, fun _ => rfl⟩
  | cons entry rest ih =>
    rw [membersAreWellFormed, Bool.and_eq_true, Bool.and_eq_true, ih, List.forall_mem_cons]

/-- The tree of an exact value has well-formed texts: `(ofValue v).isWellFormed`. -/
theorem isWellFormed_ofValue {v : Value} (isExact : v.Everywhere Value.IsExact) :
    (ofValue v).isWellFormed = true := by
  induction v with
  | null => rfl
  | bool b => rfl
  | int n => rfl
  | float x => rfl
  | text s => exact isExact.self.wellSpelled
  | list items ih =>
    have inside := (Value.everywhere_list_iff.1 isExact).2
    rw [ofValue_list, isWellFormed, areWellFormed_iff, List.forall_mem_map]
    exact fun v mem => ih v mem (inside v mem)
  | map m ih =>
    obtain ⟨here, inside⟩ := Value.everywhere_map_iff.1 isExact
    rw [ofValue_map here.uniqueKeys, isWellFormed, membersAreWellFormed_iff, List.forall_mem_map]
    exact fun entry mem => ⟨here.wellSpelled entry.1 (List.mem_map_of_mem mem), ih entry mem (inside entry mem)⟩

/-- **The text of an exact value is read as the value**: `looseValue (textOf v) = v`. -/
theorem looseValue_textOf {v : Value} (isExact : v.Everywhere Value.IsExact) :
    looseValue (textOf v) = v := by
  have back := readsBack isExact
  have start := back.startsOutside []
  obtain ⟨j, read, value⟩ := back.read (Nat.le_succ _) Text.startsOutside_nil
  rw [List.append_nil] at start read
  -- Nothing is skipped in front of the text and nothing is left behind it.
  have noMark : Utf8.dropByteOrderMark (textOf v) = textOf v := by
    obtain ⟨b, others, same, starts⟩ := back.starts
    rw [startsNoValue, Bool.or_eq_false_iff] at starts
    rw [same]
    exact Utf8.dropByteOrderMark_eq_self (beq_eq_false_iff_ne.1 starts.2) others
  rw [looseValue, read?, if_pos (isWellFormed_textOf isExact), noMark,
    skipSpace_eq_self (isSpace_outside start), read]
  exact value

end OpCycle.Json
