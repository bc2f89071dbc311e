import OpCycle.Proofs.Spec.Tokens

/-! # Scanning arguments
The scanner of arguments takes texts that the grammar derives as arguments, and all of them that are closed
by a parenthesis. -/

namespace OpCycle.Spec

open Text (StartsOutside IsBlank)

variable {s rest left : Text} {v : Value}

/-! ## Arguments -/

/-- White space, and then a byte on which no token goes on: `StartsOutside goesOn (blank ++ rest)`. -/
theorem startsOutside_goesOn_blank {blank : Text} (isBlank : IsBlank blank)
    (stop : StartsOutside goesOn rest) : StartsOutside goesOn (blank ++ rest) := by
  cases blank with
  | nil => exact stop
  | cons b others =>
    rw [List.cons_append, Text.startsOutside_cons]
    have blank := isBlank b List.mem_cons_self
    rw [Byte.isBlank_iff] at blank
    rw [← Bool.not_eq_true, goesOn_iff, Byte.isWord_iff, Byte.isLetter_iff, Byte.isDigit_iff]
    omega

/-- Quotes are two bytes: `(b == Byte.singleQuote || b == Byte.doubleQuote) ↔ b.toNat = 39 ∨ b.toNat = 34`. -/
theorem isQuote_iff {b : UInt8} :
    (b == Byte.singleQuote || b == Byte.doubleQuote) = true ↔ b.toNat = 39 ∨ b.toNat = 34 := by
  rw [Bool.or_eq_true, Byte.beq_iff_toNat, Byte.beq_iff_toNat]
  exact Iff.rfl

/-- A word without white space is a boolean when it is one of the two words: `Value.readBool? word = some truth ↔
Text.lower word = "true" ∧ truth ∨ Text.lower word = "false" ∧ truth = false`. -/
theorem readBool?_eq_some_iff {word : Text} (free : ∀ b ∈ word, Byte.isBlank b = false) {truth : Bool} :
    Value.readBool? word = some truth ↔
      Text.lower word = "true" ∧ truth = true ∨ Text.lower word = "false" ∧ truth = false := by
  have different : Text.ofString "true" ≠ Text.ofString "false" := by decide
  rw [Value.readBool?, Text.trim_eq_self free]
  constructor
  · intro h
    split at h
    · next yes => exact .inl ⟨yes, (Option.some.inj h).symm⟩
    split at h
    · next no => exact .inr ⟨no, (Option.some.inj h).symm⟩
    · cases h
  · rintro (⟨yes, rfl⟩ | ⟨no, rfl⟩)
    · rw [yes]
      exact if_pos rfl
    · rw [no]
      exact (if_neg different.symm).trans (if_pos rfl)

/-- A word whose lower-case form has only lower-case letters consists of letters: `∀ b ∈ word, Byte.isLetter b`. -/
theorem isLetter_of_lower {word : Text} (letters : ∀ b ∈ Text.lower word, Byte.isLower b = true) :
    ∀ b ∈ word, Byte.isLetter b = true :=
  fun b mem => Byte.isLetter_of_isLower_lower (letters (Byte.lower b) (List.mem_map_of_mem mem))

/-- A word that is a boolean is scanned up to a byte that does not go on:
`scanArgument (word ++ rest) = .ok (.bool truth, rest)`. -/
theorem scanArgument_word {word : Text} {truth : Bool}
    (h : Text.lower word = "true" ∧ truth = true ∨ Text.lower word = "false" ∧ truth = false)
    (stop : StartsOutside goesOn rest) : scanArgument (word ++ rest) = .ok (.bool truth, rest) := by
  have letters : ∀ b ∈ word, Byte.isLetter b = true := by
    apply isLetter_of_lower
    rcases h with ⟨yes, -⟩ | ⟨no, -⟩
    · rw [yes]; exact List.all_eq_true.1 rfl
    · rw [no]; exact List.all_eq_true.1 rfl
  have free : ∀ b ∈ word, Byte.isBlank b = false :=
    fun b mem => Byte.isBlank_of_isWord (Byte.isWord_iff.2 (.inl (letters b mem)))
  have value := (readBool?_eq_some_iff free).2 h
  cases word with
  | nil =>
    rcases h with ⟨yes, -⟩ | ⟨no, -⟩
    · exact absurd yes.symm (List.cons_ne_nil _ _)
    · exact absurd no.symm (List.cons_ne_nil _ _)
  | cons b others =>
    have letter := letters b List.mem_cons_self
    have range := Byte.isLetter_iff.1 letter
    -- A letter starts neither a quoted text nor a number, so the scanner goes to its name branch.
    have notQuote : ¬ (b == Byte.singleQuote || b == Byte.doubleQuote) = true := by
      rw [isQuote_iff]
      omega
    have notNumber : ¬ startsNumber b = true := by
      rw [startsNumber_iff]
      omega
    have name : Name (b :: others) :=
      .mk (.inl letter) fun c mem => .inl (letters c (List.mem_cons_of_mem b mem))
    have stopWord : StartsOutside Byte.isWord rest :=
      stop.mono fun _ => goesOn_of_isWord
    have scanned := scanName_complete name stopWord
    rw [List.cons_append] at scanned ⊢
    rw [scanArgument, if_neg notQuote, if_neg notNumber, if_pos letter, scanned]
    dsimp only
    rw [value]

/-- What is scanned as an argument is one: `∃ argument, Argument argument v ∧ s = argument ++ left`. -/
theorem scanArgument_sound (h : scanArgument s = .ok (v, left)) :
    ∃ argument, Argument argument v ∧ s = argument ++ left := by
  cases s with
  | nil => cases h
  | cons b after =>
    -- The first byte tells a quoted text, a number and a word apart.
    rw [scanArgument] at h
    split at h
    · next quote =>
      obtain ⟨⟨text, left'⟩, scanned, same⟩ := map_eq_ok h
      cases same
      obtain ⟨body, isBody, rfl⟩ := scanQuoted_sound scanned
      rw [Bool.or_eq_true, beq_iff_eq, beq_iff_eq] at quote
      refine ⟨_, .quoted quote isBody, ?_⟩
      rw [List.cons_append, List.append_assoc, List.singleton_append]
    split at h
    · obtain ⟨lexeme, suffix, number, isSuffix, same⟩ := scanNumber_sound h
      rw [← List.append_assoc] at same
      exact ⟨_, .number number isSuffix, same⟩
    split at h
    · split at h
      · cases h
      next word left' scanned =>
      obtain ⟨name, same⟩ := scanName_sound scanned
      split at h
      · next truth value =>
        cases h
        have free : ∀ c ∈ word, Byte.isBlank c = false :=
          fun c mem => Byte.isBlank_of_isWord (name.isWord_of_mem mem)
        rcases (readBool?_eq_some_iff free).1 value with ⟨yes, rfl⟩ | ⟨no, rfl⟩
        · exact ⟨word, .yes yes, same⟩
        · exact ⟨word, .no no, same⟩
      · cases h
    · cases h

/-- An argument is scanned up to a byte that does not go on: `scanArgument (argument ++ rest) = .ok (v, rest)`. -/
theorem scanArgument_complete {argument : Text} (h : Argument argument v)
    (stop : StartsOutside goesOn rest) : scanArgument (argument ++ rest) = .ok (v, rest) := by
  cases h with
  | @quoted quote body text isQuote isBody =>
    have notBackslash : quote ≠ Byte.backslash := by
      rcases isQuote with rfl | rfl <;> decide
    have isQuote' : (quote == Byte.singleQuote || quote == Byte.doubleQuote) = true := by
      rw [Bool.or_eq_true, beq_iff_eq, beq_iff_eq]
      exact isQuote
    rw [List.cons_append, List.append_assoc, List.singleton_append, scanArgument, if_pos isQuote',
      scanQuoted_complete notBackslash isBody]
    rfl
  | yes word => exact scanArgument_word (.inl ⟨word, rfl⟩) stop
  | no word => exact scanArgument_word (.inr ⟨word, rfl⟩) stop
  | @number lexeme suffix _ number isSuffix =>
    have scanned := scanNumber_complete number isSuffix stop
    obtain ⟨b, after, rfl, starts⟩ := exists_cons_of_number number
    have range := startsNumber_iff.1 starts
    have notQuote : ¬ (b == Byte.singleQuote || b == Byte.doubleQuote) = true := by
      rw [isQuote_iff]
      omega
    rw [List.append_assoc, List.cons_append, scanArgument, if_neg notQuote, if_pos starts]
    exact scanned

/-- An argument may start with `b`. -/
def startsArgument (b : UInt8) : Bool :=
  b == Byte.singleQuote || b == Byte.doubleQuote || startsNumber b || Byte.isLetter b

/-- An argument starts with a quote, like a number, or with a letter:
`startsArgument b ↔ ((b.toNat = 39 ∨ b.toNat = 34) ∨ startsNumber b) ∨ Byte.isLetter b`. -/
theorem startsArgument_iff {b : UInt8} : startsArgument b = true ↔
    ((b.toNat = 39 ∨ b.toNat = 34) ∨ startsNumber b = true) ∨ Byte.isLetter b = true := by
  rw [startsArgument, Bool.or_eq_true, Bool.or_eq_true, isQuote_iff]

/-- An argument starts neither with white space nor with a parenthesis:
`Byte.isBlank b = false ∧ (b == Byte.closeParen) = false`. -/
theorem excluded_of_startsArgument {b : UInt8} (h : startsArgument b = true) :
    Byte.isBlank b = false ∧ (b == Byte.closeParen) = false := by
  rw [startsArgument_iff, startsNumber_iff, Byte.isLetter_iff] at h
  rw [← Bool.not_eq_true, ← Bool.not_eq_true, Byte.isBlank_iff, Byte.beq_iff_toNat]
  show _ ∧ ¬ b.toNat = 41
  omega

/-- An argument starts with a byte that an argument may start with:
`∃ b after, argument = b :: after ∧ startsArgument b`. -/
theorem exists_cons_of_argument {argument : Text} (h : Argument argument v) :
    ∃ b after, argument = b :: after ∧ startsArgument b = true := by
  -- A truth word in any case starts with a letter, since its lower case does.
  have word : ∀ {word target : Text}, Text.lower word = target → target ≠ [] →
      (∀ b ∈ target, Byte.isLower b = true) →
      ∃ b after, word = b :: after ∧ startsArgument b = true := by
    rintro word _ rfl nonempty letters
    cases word with
    | nil => exact absurd rfl nonempty
    | cons b after =>
      have letter := isLetter_of_lower letters b List.mem_cons_self
      exact ⟨b, after, rfl, startsArgument_iff.2 (.inr letter)⟩
  cases h with
  | quoted isQuote _ =>
    refine ⟨_, _, rfl, ?_⟩
    rcases isQuote with rfl | rfl <;> rfl
  | yes same => exact word same (List.cons_ne_nil _ _) (List.all_eq_true.1 rfl)
  | no same => exact word same (List.cons_ne_nil _ _) (List.all_eq_true.1 rfl)
  | number number _ =>
    obtain ⟨b, after, rfl, starts⟩ := exists_cons_of_number number
    exact ⟨b, _, rfl, startsArgument_iff.2 (.inl (.inr starts))⟩

/-- White space in front of an argument is trimmed:
`Text.trimStart (blank ++ (argument ++ rest)) = argument ++ rest`. -/
theorem trimStart_argument {blank argument : Text} (isBlank : IsBlank blank) (h : Argument argument v)
    (rest : Text) : Text.trimStart (blank ++ (argument ++ rest)) = argument ++ rest := by
  obtain ⟨b, after, rfl, starts⟩ := exists_cons_of_argument h
  exact Text.trimStart_blank_cons isBlank (excluded_of_startsArgument starts).1 (after ++ rest)

/-! ## Argument lists -/

/-- White space in front of arguments belongs to the first one: `Arguments (blank ++ inner) args`. -/
theorem Arguments.blank_append {blank inner : Text} {args : List Value} (isBlank : IsBlank blank)
    (h : Arguments inner args) : Arguments (blank ++ inner) args := by
  cases h with
  | last left argument right =>
    rw [← List.append_assoc]
    exact .last (isBlank.append left) argument right
  | more left argument right rest =>
    rw [← List.append_assoc]
    exact .more (isBlank.append left) argument right rest

/-- Without the white space in front, arguments start with a byte that an argument may start with:
`∃ blank b after, IsBlank blank ∧ inner = blank ++ b :: after ∧ startsArgument b ∧ Arguments (b :: after) args`. -/
theorem Arguments.exists_cons {inner : Text} {args : List Value} (h : Arguments inner args) :
    ∃ blank b after, IsBlank blank ∧ inner = blank ++ b :: after ∧ startsArgument b = true ∧
      Arguments (b :: after) args := by
  cases h with
  | last isLeft isArgument isRight =>
    obtain ⟨b, after, rfl, starts⟩ := exists_cons_of_argument isArgument
    exact ⟨_, b, _, isLeft, rfl, starts, .last Text.isBlank_nil isArgument isRight⟩
  | more isLeft isArgument isRight isRest =>
    obtain ⟨b, after, rfl, starts⟩ := exists_cons_of_argument isArgument
    exact ⟨_, b, _, isLeft, rfl, starts, .more Text.isBlank_nil isArgument isRight isRest⟩

/-- `scanArguments` scans one argument, and then what follows it decides. -/
theorem scanArguments_eq {function : Text} {b : UInt8}
    (scanned : scanArgument (Text.trimStart s) = .ok (v, left)) (next : Text.trimStart left = b :: rest) :
    scanArguments function s =
      if b = Byte.closeParen then .ok ([v], rest)
      else if b = Byte.comma then
        (scanArguments function rest).map fun (vs, left) => (v :: vs, left)
      else .error ⟨.unclosedArguments function, rest.length + 1⟩ := by
  rw [scanArguments]
  split
  · next failed => rw [scanned] at failed; cases failed
  · next scanned' =>
    rw [scanned] at scanned'
    cases scanned'
    split
    · next ended => rw [next] at ended; cases ended
    · next next' =>
      rw [next] at next'
      cases next'
      rfl

/-- What is scanned as arguments are arguments and a closing parenthesis:
`∃ inner, Arguments inner args ∧ s = inner ++ Byte.closeParen :: left`. -/
theorem scanArguments_sound {function : Text} {args : List Value}
    (h : scanArguments function s = .ok (args, left)) :
    ∃ inner, Arguments inner args ∧ s = inner ++ Byte.closeParen :: left := by
  fun_induction scanArguments function s generalizing args with
  | case1 => cases h
  | case2 => cases h
  | case3 s v after scanned rest next =>
    -- A parenthesis closes the list.
    cases h
    obtain ⟨blank, isBlank, leading⟩ := Text.exists_blank_append_trimStart s
    obtain ⟨argument, isArgument, same⟩ := scanArgument_sound scanned
    obtain ⟨blank', isBlank', trailing⟩ := Text.exists_blank_append_trimStart after
    rw [next] at trailing
    rw [same, trailing] at leading
    refine ⟨_, .last isBlank isArgument isBlank', ?_⟩
    rw [List.append_assoc, List.append_assoc]
    exact leading
  | case4 s v after scanned rest next _ ih =>
    -- A comma goes on with it.
    obtain ⟨⟨vs, left'⟩, others, same⟩ := map_eq_ok h
    cases same
    obtain ⟨inner, isInner, tail⟩ := ih others
    obtain ⟨blank, isBlank, leading⟩ := Text.exists_blank_append_trimStart s
    obtain ⟨argument, isArgument, same⟩ := scanArgument_sound scanned
    obtain ⟨blank', isBlank', trailing⟩ := Text.exists_blank_append_trimStart after
    rw [next, tail] at trailing
    rw [same, trailing] at leading
    refine ⟨_, .more isBlank isArgument isBlank' isInner, ?_⟩
    rw [List.append_assoc, List.append_assoc, List.append_assoc]
    exact leading
  | case5 => cases h

/-- Arguments are scanned up to the closing parenthesis:
`scanArguments function (inner ++ Byte.closeParen :: rest) = .ok (args, rest)`. -/
theorem scanArguments_complete (function : Text) {inner : Text} {args : List Value}
    (h : Arguments inner args) (rest : Text) :
    scanArguments function (inner ++ Byte.closeParen :: rest) = .ok (args, rest) := by
  -- An argument that is followed by white space and a comma or a parenthesis is scanned.
  have first : ∀ {left argument right v} {b : UInt8} (after : Text), IsBlank left → Argument argument v →
      IsBlank right → goesOn b = false →
      scanArgument (Text.trimStart (left ++ (argument ++ (right ++ b :: after)))) =
        .ok (v, right ++ b :: after) := by
    intro left argument right v b after isLeft isArgument isRight stop
    have scanned := scanArgument_complete isArgument
      (startsOutside_goesOn_blank isRight (Text.startsOutside_cons.2 stop : StartsOutside _ (b :: after)))
    rw [trimStart_argument isLeft isArgument, scanned]
  induction h with
  | last isLeft isArgument isRight =>
    have next := Text.trimStart_blank_cons (b := Byte.closeParen) isRight rfl rest
    rw [List.append_assoc, List.append_assoc,
      scanArguments_eq (first rest isLeft isArgument isRight rfl) next, if_pos rfl]
  | @more _ _ _ _ others _ isLeft isArgument isRight _ ih =>
    have next := Text.trimStart_blank_cons (b := Byte.comma) isRight rfl (others ++ Byte.closeParen :: rest)
    rw [List.append_assoc, List.append_assoc, List.append_assoc, List.cons_append,
      scanArguments_eq (first _ isLeft isArgument isRight rfl) next, if_neg (by decide), if_pos rfl, ih]
    rfl

end OpCycle.Spec
