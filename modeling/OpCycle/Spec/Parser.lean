import OpCycle.Value.Conversion

/-! # Binding specifications
A binding specification names the functions that make a value out of a cycle: calls separated by
semicolons, each a name with optional arguments in parentheses, each argument a number, a quoted text or a
boolean. White space may stand between any two tokens, and one semicolon may stand at the end.

Each scanner takes the text from where it stands and yields what is left, so nothing is ever read twice
and the position of a fault is told by how much of the text is left. -/

namespace OpCycle.Spec

/-- A call in a specification. -/
structure Call where
  /-- The name of the function. -/
  name : Text
  /-- The arguments in order. -/
  args : List Value

/-- The call without a name stands in for one that is not there. -/
instance : Inhabited Call := ⟨⟨[], []⟩⟩

/-- What is wrong with a text that is no specification. A fault that shows a byte shows NUL at the end. -/
inductive Fault
  /-- There is nothing but white space. -/
  | empty
  /-- Something else than a semicolon follows a call. -/
  | noSemicolon (found : UInt8)
  /-- Something else than a comma or a parenthesis follows an argument of this function. -/
  | unclosedArguments (function : Text)
  /-- An argument is a word other than true and false. -/
  | bareWord (word : Text)
  /-- An argument starts with this byte. -/
  | unexpectedByte (found : UInt8)
  /-- An argument looks like a number and is none. -/
  | badNumber (lexeme : Text)
  /-- The closing quote is missing. -/
  | unclosedText
  /-- A call starts with this byte. -/
  | noName (found : UInt8)
  deriving DecidableEq, Repr

/-- The wording of a `Fault`. -/
def Fault.message : Fault → Text
  | .empty => "empty specification"
  | .noSemicolon found => "expected ';' but found '" ++ [found] ++ "'"
  | .unclosedArguments function => "expected ',' or ')' in arguments of " ++ function
  | .bareWord word => "unexpected bare word '" ++ word ++ "' in argument list"
  | .unexpectedByte found => "unexpected character '" ++ [found] ++ "' in argument list"
  | .badNumber lexeme => "invalid number '" ++ lexeme ++ "'"
  | .unclosedText => "unterminated string"
  | .noName found => "expected function name but found '" ++ [found] ++ "'"

/-- Where and why a scanner stopped. -/
structure Stop where
  /-- What is wrong. -/
  fault : Fault
  /-- The number of bytes left of the text. -/
  left : Nat
  deriving DecidableEq, Repr

/-- The outcome of a scanner: what it read and what is left, or the `Stop`. -/
abbrev Scan (α : Type) : Type := Except Stop (α × Text)

/-! ## Scanners -/

/-- Scans a name: a letter or `_`, then letters, digits and `_`. -/
def scanName : Text → Scan Text
  | [] => .error ⟨.noName Byte.nul, 0⟩
  | b :: rest =>
    if Byte.isLetter b || b == Byte.underscore then
      .ok (b :: rest.takeWhile Byte.isWord, rest.dropWhile Byte.isWord)
    else .error ⟨.noName b, rest.length + 1⟩

/-- Scans the rest of a text behind its opening `quote`; a backslash makes the next byte literal. -/
def scanQuoted (quote : UInt8) : Text → Scan Text
  | [] => .error ⟨.unclosedText, 0⟩
  | b :: rest =>
    if b = quote then .ok ([], rest)
    else if b = Byte.backslash then
      match rest with
      | [] => .error ⟨.unclosedText, 0⟩
      | c :: rest => (scanQuoted quote rest).map fun (s, left) => (c :: s, left)
    else (scanQuoted quote rest).map fun (s, left) => (b :: s, left)

/-- The letter of an exponent, `e` or `E`. -/
def isExponentLetter (b : UInt8) : Bool := Byte.lower b == 0x65

/-- Splits off the digits, points and exponents that may belong to a number; a sign belongs to it right
after the letter of an exponent. -/
def splitNumber : Text → Text × Text
  | [] => ([], [])
  | b :: rest =>
    if Byte.isDigit b || b == Byte.dot then
      let (body, left) := splitNumber rest
      (b :: body, left)
    else if isExponentLetter b then
      match rest with
      | [] => ([b], [])
      | c :: rest =>
        if c == Byte.minus || c == Byte.plus then
          let (body, left) := splitNumber rest
          (b :: c :: body, left)
        else
          let (body, left) := splitNumber (c :: rest)
          (b :: body, left)
    else ([], b :: rest)

/-- Splits off the optional sign of a number, `+` or `-`. -/
def takeSign : Text → Text × Text
  | [] => ([], [])
  | b :: rest => if b == Byte.minus || b == Byte.plus then ([b], rest) else ([], b :: rest)

/-- Drops the suffix `L` or `l` that marks a long integer. -/
def dropLongSuffix : Text → Text
  | [] => []
  | b :: rest => if Byte.lower b == 0x6c then rest else b :: rest

/-- The value of `lexeme`: a float when it has a point or an exponent, else an integer. -/
def numberValue? (lexeme : Text) : Option Value :=
  if lexeme.any fun b => b == Byte.dot || isExponentLetter b then (Binary64.read? lexeme).map .float
  else (Decimal.readInt64? lexeme).map .int

/-- Scans a number at the start of `s`: sign, body and suffix; the value is `numberValue?` of sign and body. -/
def scanNumber (s : Text) : Scan Value :=
  let (sign, unsigned) := takeSign s
  let (body, left) := splitNumber unsigned
  let left := dropLongSuffix left
  match numberValue? (sign ++ body) with
  | some v => .ok (v, left)
  | none => .error ⟨.badNumber (sign ++ body), left.length⟩

/-- A number may start with `b`. -/
def startsNumber (b : UInt8) : Bool :=
  Byte.isDigit b || b == Byte.minus || b == Byte.plus || b == Byte.dot

/-- Scans an argument: a quoted text, a number, or one of the words `true` and `false`. -/
def scanArgument : Text → Scan Value
  | [] => .error ⟨.unexpectedByte Byte.nul, 0⟩
  | b :: rest =>
    if b == Byte.singleQuote || b == Byte.doubleQuote then
      (scanQuoted b rest).map fun (s, left) => (.text s, left)
    else if startsNumber b then scanNumber (b :: rest)
    else if Byte.isLetter b then
      match scanName (b :: rest) with
      | .error stop => .error stop
      | .ok (word, left) =>
        match Value.readBool? word with
        | some truth => .ok (.bool truth, left)
        | none => .error ⟨.bareWord word, left.length⟩
    else .error ⟨.unexpectedByte b, rest.length + 1⟩

/-! ## Every scanner consumes -/

/-- A mapped outcome is a success exactly when it maps a success: `∃ x, outcome = .ok x ∧ f x = y`. -/
theorem map_eq_ok {ε α β : Type} {f : α → β} {outcome : Except ε α} {y : β}
    (h : outcome.map f = .ok y) : ∃ x, outcome = .ok x ∧ f x = y := by
  cases outcome with
  | error => cases h
  | ok x => exact ⟨x, rfl, Except.ok.inj h⟩

/-- A name takes something from the text: `left.length < s.length`. -/
theorem scanName_length_lt {s name left : Text} (h : scanName s = .ok (name, left)) :
    left.length < s.length := by
  cases s with
  | nil => simp [scanName] at h
  | cons b rest =>
    simp only [scanName] at h
    split at h
    · cases h
      exact Nat.lt_succ_of_le (List.dropWhile_suffix _).length_le
    · cases h

/-- A quoted text takes its closing quote at least: `left.length < s.length`. -/
theorem scanQuoted_length_lt {quote : UInt8} {s text left : Text}
    (h : scanQuoted quote s = .ok (text, left)) : left.length < s.length := by
  fun_induction scanQuoted quote s generalizing text with
  | case1 => cases h
  | case2 => cases h; simp
  | case3 => cases h
  | case4 c rest _ ih | case5 c rest _ _ ih =>
    obtain ⟨⟨t, l⟩, hr, he⟩ := map_eq_ok h
    cases he
    have := ih hr
    simp only [List.length_cons]
    omega

/-- A number leaves no more than there was: `(splitNumber s).2.length ≤ s.length`. -/
theorem splitNumber_length_le (s : Text) : (splitNumber s).2.length ≤ s.length := by
  fun_induction splitNumber s <;> simp_all <;> omega

/-- A number that starts with a digit or a point takes that at least:
`(splitNumber (b :: rest)).2.length < (b :: rest).length`. -/
theorem splitNumber_length_lt {b : UInt8} {rest : Text} (h : Byte.isDigit b || b == Byte.dot) :
    (splitNumber (b :: rest)).2.length < (b :: rest).length := by
  rw [splitNumber.eq_def]
  simp only [h, if_true, List.length_cons]
  exact Nat.lt_succ_of_le (splitNumber_length_le rest)

/-- Dropping a suffix leaves no more than there was: `(dropLongSuffix s).length ≤ s.length`. -/
theorem dropLongSuffix_length_le (s : Text) : (dropLongSuffix s).length ≤ s.length := by
  fun_cases dropLongSuffix s <;> simp_all

/-- A number takes something from the text where one starts: `left.length < (b :: rest).length`. -/
theorem scanNumber_length_lt {b : UInt8} {rest left : Text} {v : Value} (start : startsNumber b)
    (h : scanNumber (b :: rest) = .ok (v, left)) : left.length < (b :: rest).length := by
  simp only [scanNumber] at h
  split at h
  · simp only [Except.ok.injEq, Prod.mk.injEq] at h
    rw [← h.2]
    refine Nat.lt_of_le_of_lt (dropLongSuffix_length_le _) ?_
    by_cases sign : (b == Byte.minus || b == Byte.plus) = true
    · simp only [takeSign, sign, if_true, List.length_cons]
      exact Nat.lt_succ_of_le (splitNumber_length_le rest)
    · simp only [takeSign, sign]
      apply splitNumber_length_lt
      simp_all [startsNumber]
  · cases h

/-- An argument takes something from the text: `left.length < s.length`. -/
theorem scanArgument_length_lt {s left : Text} {v : Value} (h : scanArgument s = .ok (v, left)) :
    left.length < s.length := by
  cases s with
  | nil => simp [scanArgument] at h
  | cons b rest =>
    simp only [scanArgument] at h
    -- Quoted text, number, word: each branch reads at least the byte that chose it.
    split at h
    · obtain ⟨⟨t, l⟩, hr, he⟩ := map_eq_ok h
      cases he
      exact Nat.lt_succ_of_lt (scanQuoted_length_lt hr)
    · split at h
      · next start => exact scanNumber_length_lt start h
      · split at h
        · split at h
          · cases h
          · next word l hw =>
            have := scanName_length_lt hw
            split at h
            · simp only [Except.ok.injEq, Prod.mk.injEq] at h
              rw [← h.2]
              exact this
            · cases h
        · cases h

/-! ## Calls -/

/-- Scans the arguments of `function` up to the closing parenthesis. -/
def scanArguments (function : Text) (s : Text) : Scan (List Value) :=
  match _scanned : scanArgument (Text.trimStart s) with
  | .error stop => .error stop
  | .ok (v, left) =>
    match _next : Text.trimStart left with
    | [] => .error ⟨.unclosedArguments function, 0⟩
    | b :: rest =>
      if b = Byte.closeParen then .ok ([v], rest)
      else if b = Byte.comma then
        (scanArguments function rest).map fun (vs, left) => (v :: vs, left)
      else .error ⟨.unclosedArguments function, rest.length + 1⟩
termination_by s.length
decreasing_by
  have h₁ := scanArgument_length_lt _scanned
  have h₂ := Text.trimStart_length_le s
  have h₃ := Text.trimStart_length_le left
  rw [_next, List.length_cons] at h₃
  omega

/-- Arguments take their closing parenthesis at least: `left.length < s.length`. -/
theorem scanArguments_length_lt {function s left : Text} {args : List Value}
    (h : scanArguments function s = .ok (args, left)) : left.length < s.length := by
  fun_induction scanArguments function s generalizing args with
  | case1 => cases h
  | case2 => cases h
  | case3 s v l hv rest ht =>
    cases h
    have h₁ := scanArgument_length_lt hv
    have h₂ := Text.trimStart_length_le s
    have h₃ := Text.trimStart_length_le l
    rw [ht, List.length_cons] at h₃
    omega
  | case4 s v l hv rest ht _ ih =>
    obtain ⟨⟨vs, l'⟩, hr, he⟩ := map_eq_ok h
    cases he
    have h₀ := ih hr
    have h₁ := scanArgument_length_lt hv
    have h₂ := Text.trimStart_length_le s
    have h₃ := Text.trimStart_length_le l
    rw [ht, List.length_cons] at h₃
    omega
  | case5 => cases h

/-- Scans a call at the start of `s`; a name without parentheses has no arguments. -/
def scanCall (s : Text) : Scan Call :=
  match scanName s with
  | .error stop => .error stop
  | .ok (name, left) =>
    match Text.trimStart left with
    | Byte.openParen :: rest =>
      match Text.trimStart rest with
      | Byte.closeParen :: rest => .ok (⟨name, []⟩, rest)
      | rest => (scanArguments name rest).map fun (args, left) => (⟨name, args⟩, left)
    | left => .ok (⟨name, []⟩, left)

/-- A call takes something from the text: `left.length < s.length`. -/
theorem scanCall_length_lt {s left : Text} {call : Call} (h : scanCall s = .ok (call, left)) :
    left.length < s.length := by
  unfold scanCall at h
  -- The name alone is already a byte long; nothing behind it gives a byte back.
  split at h
  · cases h
  · next name l hn =>
    have h₁ := scanName_length_lt hn
    have h₂ := Text.trimStart_length_le l
    split at h
    · next rest ho =>
      rw [ho, List.length_cons] at h₂
      have h₃ := Text.trimStart_length_le rest
      split at h
      · next rest' hc =>
        rw [hc, List.length_cons] at h₃
        simp only [Except.ok.injEq, Prod.mk.injEq] at h
        rw [← h.2]
        omega
      · obtain ⟨⟨vs, l'⟩, hr, he⟩ := map_eq_ok h
        cases he
        have := scanArguments_length_lt hr
        omega
    · simp only [Except.ok.injEq, Prod.mk.injEq] at h
      rw [← h.2]
      omega

/-- Scans calls up to the end of `s`. -/
def scanCalls (s : Text) : Except Stop (List Call) :=
  match _scanned : scanCall s with
  | .error stop => .error stop
  | .ok (call, left) =>
    match _next : Text.trimStart left with
    | [] => .ok [call]
    | b :: rest =>
      if b = Byte.semicolon then
        -- The last call may have a semicolon of its own.
        if (Text.trimStart rest).isEmpty then .ok [call]
        else (scanCalls (Text.trimStart rest)).map (call :: ·)
      else .error ⟨.noSemicolon b, rest.length + 1⟩
termination_by s.length
decreasing_by
  have h₁ := scanCall_length_lt _scanned
  have h₂ := Text.trimStart_length_le left
  have h₃ := Text.trimStart_length_le rest
  rw [_next, List.length_cons] at h₂
  omega

/-- Why a text is no specification. -/
structure ParseError where
  /-- What is wrong. -/
  fault : Fault
  /-- The number of bytes before the place. -/
  offset : Nat
  deriving DecidableEq, Repr

/-- The wording of a `ParseError`. -/
def ParseError.message (e : ParseError) : Text :=
  e.fault.message ++ " (at offset " ++ Decimal.ofNat e.offset ++ ")"

/-- Reads `s` as a specification. -/
def parse (s : Text) : Except ParseError (List Call) :=
  if (Text.trimStart s).isEmpty then .error ⟨.empty, s.length⟩
  else
    match scanCalls (Text.trimStart s) with
    | .ok calls => .ok calls
    | .error stop => .error ⟨stop.fault, s.length - stop.left⟩

end OpCycle.Spec
