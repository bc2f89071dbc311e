import OpCycle.Proofs.Spec.Grammar
import OpCycle.Proofs.Outcome

/-! # Scanning tokens
Each scanner of tokens takes texts of its token only, and it takes the whole of a token that is followed by
something that cannot go on in it. -/

namespace OpCycle.Spec

open Text (StartsOutside IsBlank)
open Decimal (Sign Digits isSign)
open Binary64.Numeral (Mantissa Exponent)

variable {s rest left : Text} {v : Value}

/-! ## Bytes of tokens -/

/-- The byte `b` would make a name or a number before it longer. -/
def goesOn (b : UInt8) : Bool := Byte.isWord b || b == Byte.dot

/-- The byte `b` may stand anywhere in a number behind its sign. -/
def isBody (b : UInt8) : Bool := Byte.isDigit b || b == Byte.dot || isExponentLetter b

/-- The byte `b` may stand in a number: `isBody` or `isSign` holds. -/
def isNumeric (b : UInt8) : Bool := isBody b || isSign b

section Bytes

variable {b : UInt8}

/-- The letter of an exponent is `e` or `E`. -/
theorem isExponentLetter_iff : isExponentLetter b = true ↔ b.toNat = 101 ∨ b.toNat = 69 := by
  rw [isExponentLetter, beq_iff_eq, Byte.lower_eq_iff (by decide)]
  show b.toNat = 101 ∨ b.toNat + 32 = 101 ↔ _
  omega

/-- What is a digit or a point, as numbers:
`(Byte.isDigit b || b == Byte.dot) ↔ (48 ≤ b.toNat ∧ b.toNat ≤ 57) ∨ b.toNat = 46`. -/
theorem isPointed_iff :
    (Byte.isDigit b || b == Byte.dot) = true ↔ (48 ≤ b.toNat ∧ b.toNat ≤ 57) ∨ b.toNat = 46 := by
  rw [Bool.or_eq_true, Byte.isDigit_iff, Byte.beq_iff_toNat]
  exact Iff.rfl

/-- The body of a number has digits, points and letters of an exponent:
`isBody b ↔ ((48 ≤ b.toNat ∧ b.toNat ≤ 57) ∨ b.toNat = 46) ∨ b.toNat = 101 ∨ b.toNat = 69`. -/
theorem isBody_iff : isBody b = true ↔
    ((48 ≤ b.toNat ∧ b.toNat ≤ 57) ∨ b.toNat = 46) ∨ b.toNat = 101 ∨ b.toNat = 69 := by
  rw [isBody, Bool.or_eq_true, isPointed_iff, isExponentLetter_iff]

/-- What belongs to a number is of its body or a sign: `isNumeric b ↔ isBody b ∨ isSign b`. -/
theorem isNumeric_iff : isNumeric b = true ↔ isBody b = true ∨ isSign b = true := by
  rw [isNumeric, Bool.or_eq_true]

/-- A word goes on with letters, digits, underscores and points: `goesOn b ↔ Byte.isWord b ∨ b.toNat = 46`. -/
theorem goesOn_iff : goesOn b = true ↔ Byte.isWord b = true ∨ b.toNat = 46 := by
  rw [goesOn, Bool.or_eq_true, Byte.beq_iff_toNat]
  exact Iff.rfl

/-- A number starts with a digit, a sign or a point:
`startsNumber b ↔ (48 ≤ b.toNat ∧ b.toNat ≤ 57) ∨ b.toNat = 45 ∨ b.toNat = 43 ∨ b.toNat = 46`. -/
theorem startsNumber_iff : startsNumber b = true ↔
    (48 ≤ b.toNat ∧ b.toNat ≤ 57) ∨ b.toNat = 45 ∨ b.toNat = 43 ∨ b.toNat = 46 := by
  rw [startsNumber, Bool.or_eq_true, Bool.or_eq_true, Bool.or_eq_true, Byte.isDigit_iff,
    Byte.beq_iff_toNat, Byte.beq_iff_toNat, Byte.beq_iff_toNat, or_assoc, or_assoc]
  exact Iff.rfl

/-- The bytes of a number are no white space: `Byte.isBlank b = false`. -/
theorem isBlank_of_isNumeric (h : isNumeric b = true) : Byte.isBlank b = false := by
  rw [isNumeric_iff, isBody_iff, Decimal.isSign_iff] at h
  rw [← Bool.not_eq_true, Byte.isBlank_iff]
  omega

/-- The bytes of a number are no letters of other notations: `Binary64.Numeral.isForeign b = false`. -/
theorem isForeign_of_isNumeric (h : isNumeric b = true) : Binary64.Numeral.isForeign b = false := by
  rw [isNumeric_iff, isBody_iff, Decimal.isSign_iff] at h
  rw [← Bool.not_eq_true, Binary64.Numeral.isForeign_iff]
  omega

/-- The bytes of a name go on: `goesOn b`. -/
theorem goesOn_of_isWord (h : Byte.isWord b = true) : goesOn b = true := goesOn_iff.2 (.inl h)

/-- The bytes of a number go on: `goesOn b`. -/
theorem goesOn_of_isBody (h : isBody b = true) : goesOn b = true := by
  rw [isBody_iff] at h
  rw [goesOn_iff, Byte.isWord_iff, Byte.isLetter_iff, Byte.isDigit_iff]
  omega

/-- The letter of a suffix goes on: `goesOn b`. -/
theorem goesOn_of_lower_eq_l (h : Byte.lower b = 0x6c) : goesOn b = true := by
  rw [Byte.lower_eq_iff (by decide)] at h
  change b.toNat = 108 ∨ b.toNat + 32 = 108 at h
  rw [goesOn_iff, Byte.isWord_iff, Byte.isLetter_iff]
  omega

end Bytes

/-! ## Names -/

/-- The bytes of a name are letters, digits and underscores: `Byte.isWord b`. -/
theorem Name.isWord_of_mem {name : Text} (h : Name name) {b : UInt8} (mem : b ∈ name) :
    Byte.isWord b = true := by
  obtain ⟨first, others⟩ := h
  rw [Byte.isWord, Bool.or_eq_true, Bool.or_eq_true, beq_iff_eq, or_assoc]
  rcases List.mem_cons.1 mem with rfl | mem
  · exact first.imp_right .inr
  · exact others b mem

/-- What is scanned as a name is one: `Name name ∧ s = name ++ left`. -/
theorem scanName_sound {name : Text} (h : scanName s = .ok (name, left)) :
    Name name ∧ s = name ++ left := by
  cases s with
  | nil => cases h
  | cons b after =>
    rw [scanName] at h
    split at h
    · next first =>
      cases h
      rw [Bool.or_eq_true, beq_iff_eq] at first
      refine ⟨.mk first ?_, ?_⟩
      · intro c mem
        have word := Text.of_mem_takeWhile mem
        rw [Byte.isWord, Bool.or_eq_true, Bool.or_eq_true, beq_iff_eq, or_assoc] at word
        exact word
      · rw [List.cons_append, List.takeWhile_append_dropWhile]
    · cases h

/-- A name is scanned up to a byte that is not of a name: `scanName (name ++ rest) = .ok (name, rest)`. -/
theorem scanName_complete {name : Text} (h : Name name) (stop : StartsOutside Byte.isWord rest) :
    scanName (name ++ rest) = .ok (name, rest) := by
  have word := fun c => h.isWord_of_mem (b := c)
  obtain ⟨first, others⟩ := h
  next b tail =>
  have wordTail : ∀ c ∈ tail, Byte.isWord c = true := fun c mem => word c (List.mem_cons_of_mem b mem)
  rw [List.cons_append, scanName, if_pos (by rwa [Bool.or_eq_true, beq_iff_eq]),
    Text.takeWhile_append_stop wordTail stop, Text.dropWhile_append_stop wordTail stop]

/-! ## Quoted texts -/

/-- What is scanned up to a quote is the body of a quoted text:
`∃ body, QuotedBody quote body text ∧ s = body ++ quote :: left`. -/
theorem scanQuoted_sound {quote : UInt8} {text : Text} (h : scanQuoted quote s = .ok (text, left)) :
    ∃ body, QuotedBody quote body text ∧ s = body ++ quote :: left := by
  fun_induction scanQuoted quote s generalizing text with
  | case1 => cases h
  | case2 =>
    cases h
    exact ⟨[], .nil, rfl⟩
  | case3 => cases h
  | case4 c after _ ih =>
    obtain ⟨⟨text', left'⟩, scanned, same⟩ := map_eq_ok h
    cases same
    obtain ⟨body, isBody, rfl⟩ := ih scanned
    exact ⟨Byte.backslash :: c :: body, .escaped isBody, rfl⟩
  | case5 b after notQuote notBackslash ih =>
    obtain ⟨⟨text', left'⟩, scanned, same⟩ := map_eq_ok h
    cases same
    obtain ⟨body, isBody, rfl⟩ := ih scanned
    exact ⟨b :: body, .plain notQuote notBackslash isBody, rfl⟩

/-- The body of a quoted text is scanned up to its quote:
`scanQuoted quote (body ++ quote :: rest) = .ok (text, rest)`. -/
theorem scanQuoted_complete {quote : UInt8} (notBackslash : quote ≠ Byte.backslash) {body text : Text}
    (h : QuotedBody quote body text) : scanQuoted quote (body ++ quote :: rest) = .ok (text, rest) := by
  induction h with
  | nil => rw [List.nil_append, scanQuoted.eq_def]; exact if_pos rfl
  | plain notQuote plain _ ih =>
    rw [List.cons_append, scanQuoted.eq_def]
    dsimp only
    rw [if_neg notQuote, if_neg plain, ih]
    rfl
  | escaped _ ih =>
    rw [List.cons_append, scanQuoted.eq_def]
    dsimp only
    rw [if_neg notBackslash.symm, if_pos rfl, List.cons_append]
    dsimp only
    rw [ih]
    rfl

/-! ## Splitting numbers -/

/-- What is split off a number and what is left make up the text: `(splitNumber s).1 ++ (splitNumber s).2 = s`. -/
theorem splitNumber_append (s : Text) : (splitNumber s).1 ++ (splitNumber s).2 = s := by
  fun_induction splitNumber s <;> simp_all

/-- Only bytes of numbers are split off: `isNumeric b`. -/
theorem isNumeric_of_mem_splitNumber {b : UInt8} (mem : b ∈ (splitNumber s).1) : isNumeric b = true := by
  have letter : ∀ {c : UInt8}, isExponentLetter c = true → isNumeric c = true := by
    intro c isLetter
    rw [isNumeric, isBody, isLetter, Bool.or_true, Bool.true_or]
  -- The cases are those of `splitNumber`; an exponent letter may take the sign behind it along.
  fun_induction splitNumber s with
  | case1 => cases mem
  | case2 c rest pointed body left split ih =>
    rw [split] at ih
    rcases List.mem_cons.1 mem with rfl | mem
    · rw [isNumeric, isBody, pointed, Bool.true_or, Bool.true_or]
    · exact ih mem
  | case3 c _ isLetter =>
    rw [List.mem_singleton.1 mem]
    exact letter isLetter
  | case4 c _ isLetter sign rest isSign body left split ih =>
    rw [split] at ih
    rcases List.mem_cons.1 mem with rfl | mem
    · exact letter isLetter
    rcases List.mem_cons.1 mem with rfl | mem
    · exact isNumeric_iff.2 (.inr isSign)
    · exact ih mem
  | case5 c _ isLetter next rest notSign body left split ih =>
    rw [split] at ih
    rcases List.mem_cons.1 mem with rfl | mem
    · exact letter isLetter
    · exact ih mem
  | case6 => cases mem

/-- Nothing is split off where no number goes on: `splitNumber rest = ([], rest)`. -/
theorem splitNumber_stop (stop : StartsOutside isBody rest) : splitNumber rest = ([], rest) := by
  cases rest with
  | nil => rfl
  | cons b after =>
    have outside := Text.startsOutside_cons.1 stop
    rw [isBody, Bool.or_eq_false_iff] at outside
    rw [splitNumber.eq_def]
    dsimp only
    rw [if_neg (by rw [outside.1]; decide), if_neg (by rw [outside.2]; decide)]

/-- Digits and points are split off one by one:
`splitNumber (digits ++ rest) = (digits ++ (splitNumber rest).1, (splitNumber rest).2)`. -/
theorem splitNumber_pointed {digits : Text}
    (pointed : ∀ b ∈ digits, (Byte.isDigit b || b == Byte.dot) = true) (rest : Text) :
    splitNumber (digits ++ rest) = (digits ++ (splitNumber rest).1, (splitNumber rest).2) := by
  induction digits with
  | nil => rfl
  | cons b digits ih =>
    rw [List.cons_append, splitNumber.eq_def]
    dsimp only
    rw [if_pos (pointed b List.mem_cons_self), ih fun c mem => pointed c (List.mem_cons_of_mem b mem)]
    rfl

/-- Digits count as digits or points: `∀ b ∈ digits, (Byte.isDigit b || b == Byte.dot)`. -/
theorem pointed_of_digits {digits : Text} (h : ∀ b ∈ digits, Byte.isDigit b = true) :
    ∀ b ∈ digits, (Byte.isDigit b || b == Byte.dot) = true := by
  intro b mem
  rw [h b mem, Bool.true_or]

/-- A mantissa consists of digits and points: `∀ b ∈ mantissa, (Byte.isDigit b || b == Byte.dot)`. -/
theorem pointed_of_mantissa {mantissa : Text} (h : Mantissa mantissa) :
    ∀ b ∈ mantissa, (Byte.isDigit b || b == Byte.dot) = true := by
  cases h with
  | whole digits => exact pointed_of_digits digits.all
  | pointed digits fraction =>
    intro b mem
    rcases List.mem_append.1 mem with mem | mem
    · exact pointed_of_digits digits.all b mem
    rcases List.mem_cons.1 mem with rfl | mem
    · rfl
    · exact pointed_of_digits fraction b mem
  | fraction digits =>
    intro b mem
    rcases List.mem_cons.1 mem with rfl | mem
    · rfl
    · exact pointed_of_digits digits.all b mem

/-- An exponent is split off: `splitNumber (exponent ++ rest) = (exponent, rest)`. -/
theorem splitNumber_exponent {exponent : Text} (h : Exponent exponent)
    (stop : StartsOutside isBody rest) : splitNumber (exponent ++ rest) = (exponent, rest) := by
  cases h with
  | none => exact splitNumber_stop stop
  | @some letter sign negative digits isLetter isSign isDigits =>
    have split : splitNumber (digits ++ rest) = (digits, rest) := by
      rw [splitNumber_pointed (pointed_of_digits isDigits.all), splitNumber_stop stop, List.append_nil]
    have notDigit : ¬ (Byte.isDigit letter || letter == Byte.dot) = true := by
      rcases isLetter with rfl | rfl <;> decide
    have letterOf : isExponentLetter letter = true := by
      rcases isLetter with rfl | rfl <;> rfl
    rw [List.cons_append, splitNumber.eq_def]
    dsimp only
    rw [if_neg notDigit, if_pos letterOf]
    cases isSign with
    | none =>
      -- The byte behind the letter is a digit, so it is not taken for a sign.
      have stopSign := isDigits.startsOutside rest
      rw [List.nil_append]
      cases digits with
      | nil => exact absurd rfl isDigits.nonempty
      | cons d digits =>
        have notSign := Text.startsOutside_cons.1 stopSign
        dsimp only [List.cons_append]
        rw [if_neg (by rw [← isSign, notSign]; decide)]
        rw [List.cons_append] at split
        rw [split]
    | plus =>
      dsimp only [List.cons_append, List.nil_append]
      rw [if_pos (by decide), split]
    | minus =>
      dsimp only [List.cons_append, List.nil_append]
      rw [if_pos (by decide), split]

/-! ## Numbers -/

/-- The bytes of a mantissa and an exponent have a point or the letter of an exponent among them exactly when the
mantissa has a point or there is an exponent: `(sign ++ (mantissa ++ exponent)).any (fun b => b == Byte.dot ||
isExponentLetter b) ↔ Byte.dot ∈ mantissa ∨ exponent ≠ []`. -/
theorem any_pointed_iff {sign mantissa exponent : Text} {negative : Bool} (hs : Sign sign negative)
    (hm : Mantissa mantissa) (he : Exponent exponent) :
    (sign ++ (mantissa ++ exponent)).any (fun b => b == Byte.dot || isExponentLetter b) = true ↔
      Byte.dot ∈ mantissa ∨ exponent ≠ [] := by
  rw [List.any_eq_true]
  constructor
  · rintro ⟨b, mem, pointed⟩
    rw [Bool.or_eq_true, isExponentLetter_iff, Byte.beq_iff_toNat] at pointed
    change b.toNat = Byte.dot.toNat ∨ _ at pointed
    have number : Byte.dot.toNat = 46 := rfl
    rcases List.mem_append.1 mem with mem | mem
    · have sign := Decimal.isSign_iff.1 (hs.isSign_of_mem mem)
      omega
    rcases List.mem_append.1 mem with mem | mem
    · have inside := isPointed_iff.1 (pointed_of_mantissa hm b mem)
      have dot : b = Byte.dot := UInt8.toNat_inj.1 (by omega)
      rw [dot] at mem
      exact .inl mem
    · exact .inr (List.ne_nil_of_mem mem)
  · rintro (mem | nonempty)
    · exact ⟨Byte.dot, List.mem_append_right _ (List.mem_append_left _ mem), rfl⟩
    · cases he with
      | none => exact absurd rfl nonempty
      | @some letter _ _ _ isLetter _ _ =>
        refine ⟨letter, List.mem_append_right _ (List.mem_append_right _ List.mem_cons_self), ?_⟩
        rcases isLetter with rfl | rfl <;> rfl

/-- A text of bytes of numbers that has a value is a number: `Number lexeme v`. -/
theorem number_of_numberValue? {lexeme : Text} (numeric : ∀ b ∈ lexeme, isNumeric b = true)
    (h : numberValue? lexeme = some v) : Number lexeme v := by
  have free : ∀ b ∈ lexeme, Byte.isBlank b = false := fun b mem => isBlank_of_isNumeric (numeric b mem)
  have plain : ∀ b ∈ lexeme, Binary64.Numeral.isForeign b = false :=
    fun b mem => isForeign_of_isNumeric (numeric b mem)
  rw [numberValue?] at h
  split at h
  · next pointed =>
    obtain ⟨x, read, rfl⟩ := Option.map_eq_some_iff.1 h
    obtain ⟨sign, negative, mantissa, exponent, isSign, isMantissa, isExponent, rfl⟩ :=
      Binary64.Numeral.exists_of_read?_eq_some free plain read
    exact .float isSign isMantissa isExponent ((any_pointed_iff isSign isMantissa isExponent).1 pointed) read
  · obtain ⟨n, read, rfl⟩ := Option.map_eq_some_iff.1 h
    obtain ⟨sign, digits, negative, isSign, isDigits, rfl, value⟩ :=
      Decimal.toInt?_eq_some_iff.1 ((Decimal.readInt64?_eq_some_iff free).1 read)
    exact .int isSign isDigits value

/-- A number has its value: `numberValue? lexeme = some v`. -/
theorem numberValue?_eq_some {lexeme : Text} (h : Number lexeme v) : numberValue? lexeme = some v := by
  cases h with
  | @int sign digits negative n isSign isDigits value =>
    -- Sign and digits hold neither a point nor an exponent letter, so the lexeme is read as an integer.
    have notPointed := mt (any_pointed_iff isSign (.whole isDigits) .none).1 (by
      rintro (mem | nonempty)
      · exact absurd (isDigits.all _ mem) (by decide)
      · exact nonempty rfl)
    have free : ∀ b ∈ sign ++ digits, Byte.isBlank b = false := by
      intro b mem
      apply isBlank_of_isNumeric
      rw [isNumeric_iff]
      rcases List.mem_append.1 mem with mem | mem
      · exact .inr (isSign.isSign_of_mem mem)
      · rw [isBody, isDigits.all b mem]
        exact .inl rfl
    have read : Decimal.readInt64? (sign ++ digits) = some n :=
      (Decimal.readInt64?_eq_some_iff free).2
        (Decimal.toInt?_eq_some_iff.2 ⟨sign, digits, negative, isSign, isDigits, rfl, value⟩)
    rw [List.append_nil] at notPointed
    rw [numberValue?, if_neg notPointed, read]
    rfl
  | float isSign isMantissa isExponent pointed read =>
    rw [numberValue?, if_pos ((any_pointed_iff isSign isMantissa isExponent).2 pointed), read]
    rfl

/-- The sign is taken from what does not start with another one: `takeSign (sign ++ rest) = (sign, rest)`. -/
theorem takeSign_append {sign : Text} {negative : Bool} (h : Sign sign negative)
    (stop : StartsOutside isSign rest) : takeSign (sign ++ rest) = (sign, rest) := by
  cases h with
  | none =>
    cases rest with
    | nil => rfl
    | cons b after =>
      have outside := Text.startsOutside_cons.1 stop
      rw [List.nil_append, takeSign, if_neg (by rw [← isSign, outside]; decide)]
  | plus => rfl
  | minus => rfl

/-- What is taken is a sign: `∃ negative, Sign (takeSign s).1 negative ∧ s = (takeSign s).1 ++ (takeSign s).2`. -/
theorem exists_takeSign (s : Text) :
    ∃ negative, Sign (takeSign s).1 negative ∧ s = (takeSign s).1 ++ (takeSign s).2 := by
  cases s with
  | nil => exact ⟨false, .none, rfl⟩
  | cons b after =>
    rw [takeSign]
    split
    · next sign =>
      rcases Bool.or_eq_true_iff.1 sign with minus | plus
      · rw [eq_of_beq minus]; exact ⟨true, .minus, rfl⟩
      · rw [eq_of_beq plus]; exact ⟨false, .plus, rfl⟩
    · exact ⟨false, .none, rfl⟩

/-- The letter of the suffix that marks a long integer: `Byte.lower b = 0x6c ↔ b = 0x4c ∨ b = 0x6c`. -/
theorem lower_eq_l_iff {b : UInt8} : Byte.lower b = 0x6c ↔ b = 0x4c ∨ b = 0x6c := by
  rw [Byte.lower_eq_iff (by decide), ← UInt8.toNat_inj, ← UInt8.toNat_inj]
  show b.toNat = 108 ∨ b.toNat + 32 = 108 ↔ b.toNat = 76 ∨ b.toNat = 108
  omega

/-- What is dropped is a suffix: `∃ suffix, LongSuffix suffix ∧ s = suffix ++ dropLongSuffix s`. -/
theorem exists_dropLongSuffix (s : Text) :
    ∃ suffix, LongSuffix suffix ∧ s = suffix ++ dropLongSuffix s := by
  cases s with
  | nil => exact ⟨[], .none, rfl⟩
  | cons b after =>
    rw [dropLongSuffix]
    split
    · next letter =>
      rcases lower_eq_l_iff.1 (eq_of_beq letter) with rfl | rfl
      · exact ⟨_, .upper, rfl⟩
      · exact ⟨_, .lower, rfl⟩
    · exact ⟨[], .none, rfl⟩

/-- A suffix is dropped from what does not go on with another one: `dropLongSuffix (suffix ++ rest) = rest`. -/
theorem dropLongSuffix_append {suffix : Text} (h : LongSuffix suffix) (stop : StartsOutside goesOn rest) :
    dropLongSuffix (suffix ++ rest) = rest := by
  cases h with
  | none =>
    cases rest with
    | nil => rfl
    | cons b after =>
      have notLetter : ¬ (Byte.lower b == 0x6c) = true := by
        intro letter
        have letterGoesOn := goesOn_of_lower_eq_l (eq_of_beq letter)
        rw [Text.startsOutside_cons.1 stop] at letterGoesOn
        cases letterGoesOn
      rw [List.nil_append, dropLongSuffix, if_neg notLetter]
  | upper => rfl
  | lower => rfl

/-- What is scanned as a number is a number and a suffix:
`∃ lexeme suffix, Number lexeme v ∧ LongSuffix suffix ∧ s = lexeme ++ (suffix ++ left)`. -/
theorem scanNumber_sound (h : scanNumber s = .ok (v, left)) :
    ∃ lexeme suffix, Number lexeme v ∧ LongSuffix suffix ∧ s = lexeme ++ (suffix ++ left) := by
  obtain ⟨negative, isSign, split⟩ := exists_takeSign s
  obtain ⟨suffix, isSuffix, dropped⟩ := exists_dropLongSuffix (splitNumber (takeSign s).2).2
  have body := splitNumber_append (takeSign s).2
  rw [scanNumber] at h
  dsimp only at h
  split at h
  · next value =>
    cases h
    refine ⟨_, suffix, number_of_numberValue? ?_ value, isSuffix, ?_⟩
    · intro b mem
      rcases List.mem_append.1 mem with mem | mem
      · rw [isNumeric, isSign.isSign_of_mem mem, Bool.or_true]
      · exact isNumeric_of_mem_splitNumber mem
    · rw [← dropped, List.append_assoc, body]
      exact split
  · cases h

/-- A number starts with a byte that a number may start with: `∃ b after, lexeme = b :: after ∧ startsNumber b`. -/
theorem exists_cons_of_number {lexeme : Text} (h : Number lexeme v) :
    ∃ b after, lexeme = b :: after ∧ startsNumber b = true := by
  have start : ∀ {sign mantissa : Text} {negative : Bool} (exponent : Text), Sign sign negative →
      Mantissa mantissa →
      ∃ b after, sign ++ (mantissa ++ exponent) = b :: after ∧ startsNumber b = true := by
    intro sign mantissa negative exponent isSign isMantissa
    cases isSign with
    | none =>
      have pointed := pointed_of_mantissa isMantissa
      cases mantissa with
      | nil => exact absurd rfl isMantissa.nonempty
      | cons b mantissa =>
        have first := isPointed_iff.1 (pointed b List.mem_cons_self)
        refine ⟨b, _, rfl, ?_⟩
        rw [startsNumber_iff]
        omega
    | plus => exact ⟨_, _, rfl, rfl⟩
    | minus => exact ⟨_, _, rfl, rfl⟩
  cases h with
  | int isSign isDigits _ =>
    have first := start [] isSign (.whole isDigits)
    rw [List.append_nil] at first
    exact first
  | float isSign isMantissa _ _ _ => exact start _ isSign isMantissa

/-- A number is a sign and a body, and `splitNumber` splits the body off. -/
theorem exists_body_of_number {lexeme : Text} (h : Number lexeme v) :
    ∃ sign body negative, Sign sign negative ∧ lexeme = sign ++ body ∧
      (∀ rest, StartsOutside isSign (body ++ rest)) ∧
      ∀ rest, StartsOutside isBody rest → splitNumber (body ++ rest) = (body, rest) := by
  -- An integer is a mantissa without an exponent.
  have bodyOf : ∀ {mantissa exponent : Text}, Mantissa mantissa → Exponent exponent →
      (∀ rest, StartsOutside isSign (mantissa ++ exponent ++ rest)) ∧
      ∀ rest, StartsOutside isBody rest →
        splitNumber (mantissa ++ exponent ++ rest) = (mantissa ++ exponent, rest) := by
    intro mantissa exponent isMantissa isExponent
    constructor
    · intro rest
      cases isMantissa with
      | whole digits => rw [List.append_assoc]; exact digits.startsOutside _
      | pointed digits _ => rw [List.append_assoc, List.append_assoc]; exact digits.startsOutside _
      | fraction _ => exact Text.startsOutside_cons.2 rfl
    · intro rest stop
      rw [List.append_assoc, splitNumber_pointed (pointed_of_mantissa isMantissa),
        splitNumber_exponent isExponent stop]
  cases h with
  | int isSign isDigits _ =>
    have body := bodyOf (.whole isDigits) .none
    rw [List.append_nil] at body
    exact ⟨_, _, _, isSign, rfl, body⟩
  | float isSign isMantissa isExponent _ _ =>
    exact ⟨_, _, _, isSign, rfl, bodyOf isMantissa isExponent⟩

/-- A number and its suffix are scanned up to a byte that does not go on:
`scanNumber (lexeme ++ (suffix ++ rest)) = .ok (v, rest)`. -/
theorem scanNumber_complete {lexeme suffix : Text} (number : Number lexeme v)
    (isSuffix : LongSuffix suffix) (stop : StartsOutside goesOn rest) :
    scanNumber (lexeme ++ (suffix ++ rest)) = .ok (v, rest) := by
  have value := numberValue?_eq_some number
  obtain ⟨sign, body, negative, isSign, rfl, stopSign, split⟩ := exists_body_of_number number
  -- The letter of a suffix is no byte of a number, so what is split off ends in front of it.
  have stopBody : StartsOutside isBody (suffix ++ rest) := by
    cases isSuffix with
    | none =>
      exact stop.mono fun _ => goesOn_of_isBody
    | upper => exact Text.startsOutside_cons.2 rfl
    | lower => exact Text.startsOutside_cons.2 rfl
  rw [scanNumber, List.append_assoc, takeSign_append isSign (stopSign _)]
  dsimp only
  rw [split _ stopBody]
  dsimp only
  rw [value, dropLongSuffix_append isSuffix stop]

end OpCycle.Spec
