import OpCycle.Proofs.Spec.Tokens
import OpCycle.Proofs.Text.Cursor

/-! # Specifications scanned in place
The scanners of specifications once more, as scanners that stand at a place of the whole text, look at bytes by
their places and take names and numbers out of the text when they stand behind them. They find the same calls
and the same faults, and every access stays within the text.

* `InPlace.specification`: the scanner in place.
* `Follows`: a scanner does at a place what one of cut texts does with what is left there.
* `specification_ends`: it ends as `parse` does. -/

namespace OpCycle.Spec.InPlace

open Cursor
open Decimal (isSign)

/-! ## Scanners -/

/-- Moves over white space, by `skipWhile`. -/
def skipBlank : Scanner Fault Unit := skipWhile Byte.isBlank

/-- Scans a name, as `scanName` does. -/
def name : Scanner Fault Text := do
  let start ← position
  let b ← peek
  if Byte.isLetter b || b == Byte.underscore then
    skipWhile Byte.isWord
    pieceOf start (← position)
  else fail (.noName b)

/-- A round over the body of a quoted text, of which `text` has been taken. -/
def quotedRound (quote : UInt8) (text : Text) : Scanner Fault (Round Text Text) := do
  if ← atEnd then return .over text
  else if (← peek) = quote then return .over text
  else
    let b ← advance
    if b = Byte.backslash then
      if ← atEnd then return .again (text ++ [b]) else return .again (text ++ [← advance])
    else return .again (text ++ [b])

/-- Scans the rest of a quoted text, as `scanQuoted` does. -/
def quoted (quote : UInt8) : Scanner Fault Text := do
  let text ← loop (quotedRound quote) []
  if ← atEnd then fail .unclosedText
  else
    let _ ← advance
    return text

/-- Moves over a sign. -/
def skipSign : Scanner Fault Unit := do
  if isSign (← peek) then
    let _ ← advance

/-- A round over the bytes that may belong to a number; `pointed` tells whether there was a point or an exponent. -/
def numberRound (pointed : Bool) : Scanner Fault (Round Bool Bool) := do
  if ← atEnd then return .over pointed
  else
    let b ← peek
    if Byte.isDigit b then
      let _ ← advance
      return .again pointed
    else if b == Byte.dot || isExponentLetter b then
      let _ ← advance
      if isExponentLetter b then
        skipSign
        return .again true
      else return .again true
    else if Byte.lower b == 0x6c then
      let _ ← advance
      return .over pointed
    else return .over pointed

/-- The text `lexeme` without the letter at its end that marks a long integer. -/
def withoutSuffix (lexeme : Text) : Text :=
  if lexeme.getLast?.any (Byte.lower · == 0x6c) then lexeme.dropLast else lexeme

/-- Scans a number, as `scanNumber` does. -/
def number : Scanner Fault Value := do
  let start ← position
  skipSign
  let pointed ← loop numberRound false
  let lexeme := withoutSuffix (← pieceOf start (← position))
  match if pointed then (Binary64.read? lexeme).map Value.float else (Decimal.readInt64? lexeme).map .int with
  | some v => return v
  | none => fail (.badNumber lexeme)

/-- Scans an argument, as `scanArgument` does. -/
def argument : Scanner Fault Value := do
  let b ← peek
  if b == Byte.singleQuote || b == Byte.doubleQuote then
    let _ ← advance
    return .text (← quoted b)
  else if startsNumber b then number
  else if Byte.isLetter b then
    let word ← name
    match Value.readBool? word with
    | some truth => return .bool truth
    | none => fail (.bareWord word)
  else fail (.unexpectedByte b)

/-- A round over the arguments of `function`, behind `args`. -/
def argumentsRound (function : Text) (args : List Value) : Scanner Fault (Round (List Value) (List Value)) := do
  skipBlank
  let v ← argument
  skipBlank
  if ← accept Byte.closeParen then return .over (args ++ [v])
  else if ← accept Byte.comma then return .again (args ++ [v])
  else fail (.unclosedArguments function)

/-- Scans a call, as `scanCall` does. -/
def call : Scanner Fault Call := do
  let function ← name
  skipBlank
  if ← accept Byte.openParen then
    skipBlank
    if ← accept Byte.closeParen then return ⟨function, []⟩
    else return ⟨function, ← loop (argumentsRound function) []⟩
  else return ⟨function, []⟩

/-- A round over the calls, behind `calls`. -/
def callsRound (calls : List Call) : Scanner Fault (Round (List Call) (List Call)) := do
  if ← atEnd then return .over calls
  else
    let c ← call
    skipBlank
    if ← atEnd then return .over (calls ++ [c])
    else if ← accept Byte.semicolon then
      skipBlank
      return .again (calls ++ [c])
    else fail (.noSemicolon (← peek))

/-- Scans a specification, as `parse` does. -/
def specification : Scanner Fault (List Call) := do
  skipBlank
  if ← atEnd then fail .empty else loop callsRound []

/-! ## Tokens -/

variable {α β : Type} {s t left : Text} {b : UInt8}

/-- The `scanner` does in the whole text `s` what a scanner of cut texts does with what is left, `t`: it takes the
same value and leaves the same text, or fails with the same fault before as many bytes. -/
def Follows (s : Text) (scanner : Scanner Fault α) (t : Text) : Scan α → Prop
  | .ok (value, left) => Takes s scanner t (.done value) left
  | .error stop => ∃ left, left.length = stop.left ∧ Takes s scanner t (.failed stop.fault) left

/-- Behind a step that is done the rest of a scanner goes on: `Follows s (first >>= next) t scan`. -/
theorem Follows.after {first : Scanner Fault α} {next : α → Scanner Fault β} {value : α} {scan : Scan β}
    (done : Takes s first t (.done value) left) (rest : Follows s (next value) left scan) :
    Follows s (first >>= next) t scan := by
  cases scan with
  | error stop =>
    obtain ⟨behind, same, failed⟩ := rest
    exact ⟨behind, same, done.bind failed⟩
  | ok taken => exact Takes.bind done rest

/-- A step that fails ends the scanner: `Follows s (first >>= next) t (.error stop)`. -/
theorem Follows.of_error {first : Scanner Fault α} {next : α → Scanner Fault β} {stop : Stop}
    (failed : Follows s first t (.error stop)) : Follows s (first >>= next) t (.error stop) := by
  obtain ⟨left, same, failed⟩ := failed
  exact ⟨left, same, failed.bind_failed⟩

/-- Failing at a position is failing with what is left there:
`Follows s (fail fault : Scanner Fault α) t (.error ⟨fault, t.length⟩)`. -/
theorem follows_fail (fault : Fault) (t : Text) :
    Follows s (fail fault : Scanner Fault α) t (.error ⟨fault, t.length⟩) :=
  ⟨t, rfl, takes_fail fault t⟩

/-- What is made of the value of a scanner:
`Follows s (do return f (← scanner)) t (scan.map fun (value, left) => (f value, left))`. -/
theorem Follows.map {scanner : Scanner Fault α} {scan : Scan α} (h : Follows s scanner t scan) (f : α → β) :
    Follows s (do return f (← scanner)) t (scan.map fun (value, left) => (f value, left)) := by
  cases scan with
  | error stop => exact h.of_error
  | ok taken => exact .after h (takes_pure _ _)

/-- A round that fails ends the loop: `Follows s (loop round state) t (.error stop)`. -/
theorem Follows.loop_of_error {σ : Type} {round : σ → Scanner Fault (Round σ α)} {state : σ} {stop : Stop}
    (failed : Follows s (round state) t (.error stop)) : Follows s (loop round state) t (.error stop) := by
  obtain ⟨left, same, failed⟩ := failed
  exact ⟨left, same, takes_loop_failed failed⟩

/-- A round that leaves less is followed by the others: `Follows s (loop round state) t scan`. -/
theorem Follows.loop_again {σ : Type} {round : σ → Scanner Fault (Round σ α)} {state later : σ} {scan : Scan α}
    (others : Follows s (loop round later) left scan) (first : Takes s (round state) t (.done (.again later)) left)
    (shorter : left.length < t.length) : Follows s (loop round state) t scan := by
  cases scan with
  | error stop =>
    obtain ⟨behind, same, failed⟩ := others
    exact ⟨behind, same, takes_loop_again first shorter failed⟩
  | ok taken => exact takes_loop_again first shorter others

/-- Skipping white space in place is `Text.trimStart`. -/
theorem takes_skipBlank (t : Text) : Takes s skipBlank t (.done ()) (Text.trimStart t) := takes_skipWhile _ t

/-- Scanning a name in place is `scanName`. -/
theorem follows_name (t : Text) : Follows s name t (scanName t) := by
  cases t with
  | nil => exact ⟨[], rfl, takes_position fun _ _ => takes_peek_nil.bind (takes_fail _ _)⟩
  | cons b rest =>
    rw [scanName]
    split
    · next starts =>
      refine takes_position fun start here => takes_peek_cons.bind ?_
      rw [if_pos starts]
      have word : Byte.isWord b = true := by
        rw [Byte.isWord, Bool.or_right_comm, starts, Bool.true_or]
      have skipped := takes_skipWhile (s := s) (ε := Fault) Byte.isWord (b :: rest)
      rw [List.dropWhile_cons_of_pos word] at skipped
      refine skipped.bind (takes_position fun stop there => ?_)
      refine takes_pieceOf ?_ there (List.cons_ne_nil _ _) _
      rwa [List.cons_append, List.takeWhile_append_dropWhile]
    · next other =>
      refine ⟨b :: rest, rfl, takes_position fun _ _ => takes_peek_cons.bind ?_⟩
      rw [if_neg other]
      exact takes_fail _ _

/-- The loop over a quoted text, which has taken `text` so far, stops in front of the closing quote, and at the end
when there is none. -/
def LoopsOver (s : Text) (quote : UInt8) (text t : Text) : Scan Text → Prop
  | .ok (body, left) => Takes s (loop (quotedRound quote) text) t (.done (text ++ body)) (quote :: left)
  | .error stop => stop = ⟨.unclosedText, 0⟩ ∧ ∃ body, Takes s (loop (quotedRound quote) text) t (.done body) []

/-- A round takes one byte more: `LoopsOver s quote text t (scan.map fun (body, left) => (b :: body, left))`. -/
theorem LoopsOver.again {quote : UInt8} {text : Text} {scan : Scan Text} (h : LoopsOver s quote (text ++ [b]) left scan)
    (round : Takes s (quotedRound quote text) t (.done (.again (text ++ [b]))) left)
    (shorter : left.length < t.length) :
    LoopsOver s quote text t (scan.map fun (body, left) => (b :: body, left)) := by
  cases scan with
  | error stop =>
    obtain ⟨same, body, looped⟩ := h
    exact ⟨same, body, takes_loop_again round shorter looped⟩
  | ok taken =>
    have looped := takes_loop_again round shorter h
    rw [List.append_assoc] at looped
    exact looped

/-- The loop over a quoted text in place is `scanQuoted`. -/
theorem loopsOver_scanQuoted (quote : UInt8) (text t : Text) : LoopsOver s quote text t (scanQuoted quote t) := by
  have ended : ∀ text, Takes s (loop (quotedRound quote) text) [] (.done text) [] :=
    fun text => takes_loop_over ((takes_atEnd _).bind (takes_pure _ _))
  fun_induction scanQuoted quote t generalizing text with
  | case1 => exact ⟨rfl, text, ended text⟩
  | case2 rest =>
    have round : Takes s (quotedRound quote text) (quote :: rest) (.done (.over (text ++ []))) (quote :: rest) := by
      refine (takes_atEnd _).bind (takes_peek_cons.bind ?_)
      rw [if_pos rfl, List.append_nil]
      exact takes_pure _ _
    exact takes_loop_over round
  | case3 notQuote =>
    -- A backslash at the very end stands for itself.
    have round : Takes s (quotedRound quote text) [Byte.backslash]
        (.done (.again (text ++ [Byte.backslash]))) [] := by
      refine (takes_atEnd _).bind (takes_peek_cons.bind ?_)
      rw [if_neg notQuote]
      exact takes_advance.bind ((takes_atEnd _).bind (takes_pure _ _))
    exact ⟨rfl, _, takes_loop_again round (Nat.lt_succ_self _) (ended _)⟩
  | case4 c rest notQuote ih =>
    have round : Takes s (quotedRound quote text) (Byte.backslash :: c :: rest)
        (.done (.again (text ++ [c]))) rest := by
      refine (takes_atEnd _).bind (takes_peek_cons.bind ?_)
      rw [if_neg notQuote]
      exact takes_advance.bind ((takes_atEnd _).bind (takes_advance.bind (takes_pure _ _)))
    exact (ih _).again round (Nat.lt_add_of_pos_right Nat.two_pos)
  | case5 b rest notQuote notBackslash ih =>
    have round : Takes s (quotedRound quote text) (b :: rest) (.done (.again (text ++ [b]))) rest := by
      refine (takes_atEnd _).bind (takes_peek_cons.bind ?_)
      rw [if_neg notQuote]
      refine takes_advance.bind ?_
      rw [if_neg notBackslash]
      exact takes_pure _ _
    exact (ih _).again round (Nat.lt_succ_self _)

/-- Scanning a quoted text in place is `scanQuoted`. -/
theorem follows_quoted (quote : UInt8) (t : Text) : Follows s (quoted quote) t (scanQuoted quote t) := by
  have looped := loopsOver_scanQuoted (s := s) quote [] t
  cases scanned : scanQuoted quote t with
  | error stop =>
    rw [scanned] at looped
    obtain ⟨rfl, body, looped⟩ := looped
    exact ⟨[], rfl, looped.bind ((takes_atEnd _).bind (takes_fail _ _))⟩
  | ok taken =>
    rw [scanned] at looped
    exact Takes.bind looped ((takes_atEnd _).bind (takes_advance.bind (takes_pure _ _)))

/-! ## Numbers -/

/-- There is a point or an exponent in `lexeme`. -/
def hasPoint (lexeme : Text) : Bool := lexeme.any fun b => b == Byte.dot || isExponentLetter b

/-- A digit is neither a point nor the letter of an exponent: `(b == Byte.dot || isExponentLetter b) = false`. -/
theorem not_point_of_isDigit (digit : Byte.isDigit b = true) : (b == Byte.dot || isExponentLetter b) = false := by
  have range := Byte.isDigit_iff.1 digit
  rw [Bool.or_eq_false_iff, ← Bool.not_eq_true, ← Bool.not_eq_true, Byte.beq_iff_toNat, isExponentLetter_iff]
  show ¬ b.toNat = 46 ∧ _
  omega

/-- The letter of an exponent is no digit: `¬ Byte.isDigit b`. -/
theorem not_digit_of_isExponentLetter (letter : isExponentLetter b = true) : ¬ Byte.isDigit b = true := by
  intro digit
  have other := not_point_of_isDigit digit
  rw [letter, Bool.or_true] at other
  cases other

/-- Skipping a sign in place leaves what `takeSign` leaves. -/
theorem takes_skipSign (t : Text) : Takes s skipSign t (.done ()) (takeSign t).2 := by
  cases t with
  | nil => exact takes_peek_nil.bind (takes_pure _ _)
  | cons b rest =>
    refine takes_peek_cons.bind ?_
    rw [takeSign, ← isSign]
    split
    · exact takes_advance.bind (takes_pure _ _)
    · exact takes_pure _ _

/-- A round takes a digit or a point: `Takes s (numberRound pointed) (b :: rest) (.done (.again (pointed || (b ==
Byte.dot || isExponentLetter b)))) rest`. -/
theorem takes_numberRound (pointed : Bool) (rest : Text) (h : (Byte.isDigit b || b == Byte.dot) = true) :
    Takes s (numberRound pointed) (b :: rest)
      (.done (.again (pointed || (b == Byte.dot || isExponentLetter b)))) rest := by
  refine (takes_atEnd _).bind (takes_peek_cons.bind ?_)
  by_cases digit : Byte.isDigit b = true
  · rw [if_pos digit, not_point_of_isDigit digit, Bool.or_false]
    exact takes_advance.bind (takes_pure _ _)
  · have dot : (b == Byte.dot) = true := by rwa [Bool.or_eq_true, or_iff_right digit] at h
    rw [if_neg digit, if_pos (by rw [dot, Bool.true_or]), dot, Bool.true_or, Bool.or_true]
    refine takes_advance.bind ?_
    rw [if_neg (by rw [eq_of_beq dot]; decide)]
    exact takes_pure _ _

/-- A round takes the letter of an exponent and a sign behind it:
`Takes s (numberRound pointed) (b :: rest) (.done (.again true)) (takeSign rest).2`. -/
theorem takes_numberRound_letter (pointed : Bool) (rest : Text) (letter : isExponentLetter b = true) :
    Takes s (numberRound pointed) (b :: rest) (.done (.again true)) (takeSign rest).2 := by
  refine (takes_atEnd _).bind (takes_peek_cons.bind ?_)
  rw [if_neg (not_digit_of_isExponentLetter letter), if_pos (by rw [letter, Bool.or_true])]
  refine takes_advance.bind ?_
  rw [if_pos letter]
  exact (takes_skipSign rest).bind (takes_pure _ _)

/-- A round that meets anything else is the last one, and takes the letter that marks a long integer:
`Takes s (numberRound pointed) rest (.done (.over pointed)) (dropLongSuffix rest)`. -/
theorem takes_numberRound_stop (pointed : Bool) (rest : Text) (stop : Text.StartsOutside isBody rest) :
    Takes s (numberRound pointed) rest (.done (.over pointed)) (dropLongSuffix rest) := by
  cases rest with
  | nil => exact (takes_atEnd _).bind (takes_pure _ _)
  | cons b rest =>
    have outside := Text.startsOutside_cons.1 stop
    rw [isBody, Bool.or_assoc, Bool.or_eq_false_iff, ← Bool.not_eq_true, ← Bool.not_eq_true] at outside
    refine (takes_atEnd _).bind (takes_peek_cons.bind ?_)
    rw [if_neg outside.1, if_neg outside.2, dropLongSuffix]
    by_cases suffix : (Byte.lower b == 0x6c) = true
    · rw [if_pos suffix, if_pos suffix]
      exact takes_advance.bind (takes_pure _ _)
    · rw [if_neg suffix, if_neg suffix]
      exact takes_pure _ _

/-- The loop over a number takes what may belong to it and the letter that marks a long integer: `Takes s (loop
numberRound pointed) t (.done (pointed || hasPoint (splitNumber t).1)) (dropLongSuffix (splitNumber t).2)`. -/
theorem takes_numberLoop (pointed : Bool) (t : Text) :
    Takes s (loop numberRound pointed) t (.done (pointed || hasPoint (splitNumber t).1))
      (dropLongSuffix (splitNumber t).2) := by
  have stopped : ∀ pointed rest, Text.StartsOutside isBody rest →
      Takes s (loop numberRound pointed) rest (.done (pointed || hasPoint [])) (dropLongSuffix rest) := by
    intro pointed rest stop
    rw [hasPoint, List.any_nil, Bool.or_false]
    exact takes_loop_over (takes_numberRound_stop pointed rest stop)
  -- After the letter of an exponent it does not matter what else there is.
  have lettered : ∀ pointed {b : UInt8} {rest left : Text} (body : Text), isExponentLetter b = true →
      Takes s (loop numberRound true) (takeSign rest).2 (.done true) left →
      Takes s (loop numberRound pointed) (b :: rest) (.done (pointed || hasPoint (b :: body))) left := by
    intro pointed b rest left body letter looped
    have shorter : (takeSign rest).2.length < (b :: rest).length := by
      obtain ⟨_, -, split⟩ := exists_takeSign rest
      have total := congrArg List.length split
      rw [List.length_append] at total
      rw [List.length_cons]
      omega
    rw [hasPoint, List.any_cons, letter, Bool.or_true, Bool.true_or, Bool.or_true]
    exact takes_loop_again (takes_numberRound_letter pointed rest letter) shorter looped
  fun_induction splitNumber t generalizing pointed with
  | case1 => exact stopped pointed [] Text.startsOutside_nil
  | case2 c rest h body left split ih =>
    rw [split] at ih
    have looped := takes_loop_again (takes_numberRound pointed rest h) (Nat.lt_succ_self _) (ih _)
    rw [Bool.or_assoc] at looped
    exact looped
  | case3 c _ letter => exact lettered pointed [] letter (stopped true [] Text.startsOutside_nil)
  | case4 c _ letter sign rest signed body left split ih =>
    rw [split] at ih
    refine lettered pointed (sign :: body) letter ?_
    rw [takeSign, if_pos signed]
    exact ih true
  | case5 c _ letter next rest unsigned body left split ih =>
    rw [split] at ih
    refine lettered pointed body letter ?_
    rw [takeSign, if_neg unsigned]
    exact ih true
  | case6 c rest notPointed notLetter =>
    refine stopped pointed _ (Text.startsOutside_cons.2 ?_)
    rw [isBody, Bool.or_eq_false_iff]
    exact ⟨Bool.eq_false_iff.2 notPointed, Bool.eq_false_iff.2 notLetter⟩

/-- The letter that marks a long integer goes, and no byte of the number does:
`withoutSuffix (lexeme ++ suffix) = lexeme`. -/
theorem withoutSuffix_append {lexeme suffix : Text} (numeric : ∀ b ∈ lexeme, isNumeric b = true)
    (h : LongSuffix suffix) : withoutSuffix (lexeme ++ suffix) = lexeme := by
  cases h with
  | none =>
    rw [List.append_nil, withoutSuffix, if_neg]
    intro marked
    obtain ⟨b, last, letter⟩ := (Option.any_eq_true _ _).1 marked
    have isNumber := numeric b (List.mem_of_getLast? last)
    rw [isNumeric_iff, isBody_iff, Decimal.isSign_iff] at isNumber
    rcases lower_eq_l_iff.1 (eq_of_beq letter) with rfl | rfl
    · revert isNumber; decide
    · revert isNumber; decide
  | upper | lower =>
    rw [withoutSuffix, List.getLast?_concat, List.dropLast_concat]
    rfl

/-- Something is taken of what starts like a number:
`(takeSign (b :: rest)).1 ++ (splitNumber (takeSign (b :: rest)).2).1 ≠ []`. -/
theorem split_ne_nil {rest : Text} (starts : startsNumber b = true) :
    (takeSign (b :: rest)).1 ++ (splitNumber (takeSign (b :: rest)).2).1 ≠ [] := by
  rw [takeSign]
  split
  · exact List.cons_ne_nil _ _
  · next unsigned =>
    have pointed : (Byte.isDigit b || b == Byte.dot) = true := by
      rw [Bool.or_eq_true, not_or] at unsigned
      simp only [startsNumber, Bool.or_eq_true] at starts ⊢
      rcases starts with ((digit | minus) | plus) | dot
      · exact .inl digit
      · exact absurd minus unsigned.1
      · exact absurd plus unsigned.2
      · exact .inr dot
    rw [splitNumber.eq_def]
    dsimp only
    rw [if_pos pointed]
    exact List.cons_ne_nil _ _

/-- Whether a number has a point shows behind its sign, in `body`. -/
theorem numberValue?_eq {sign body : Text} {negative : Bool} (isSign : Decimal.Sign sign negative) :
    numberValue? (sign ++ body) =
      if hasPoint body then (Binary64.read? (sign ++ body)).map .float
      else (Decimal.readInt64? (sign ++ body)).map .int := by
  have pointed : (sign ++ body).any (fun b => b == Byte.dot || isExponentLetter b) = hasPoint body := by
    rw [List.any_append]
    cases isSign with
    | none | plus | minus => exact Bool.false_or _
  rw [numberValue?, pointed]

/-- When its sign and its body are taken, `number` goes on as its lexeme says. -/
theorem follows_lexeme {sign body suffix unsigned : Text} {negative : Bool}
    (isSign : Decimal.Sign sign negative) (numeric : ∀ b ∈ body, isNumeric b = true) (isSuffix : LongSuffix suffix)
    (nonempty : sign ++ body ≠ []) (whole : t = sign ++ body ++ suffix ++ left)
    (signTaken : Takes s skipSign t (.done ()) unsigned)
    (bodyTaken : Takes s (loop numberRound false) unsigned (.done (hasPoint body)) left) :
    Follows s number t (match numberValue? (sign ++ body) with
      | some v => .ok (v, left)
      | none => .error ⟨.badNumber (sign ++ body), left.length⟩) := by
  have lexemeNumeric : ∀ b ∈ sign ++ body, isNumeric b = true := by
    intro b mem
    rcases List.mem_append.1 mem with mem | mem
    · rw [isNumeric, isSign.isSign_of_mem mem, Bool.or_true]
    · exact numeric b mem
  have started : sign ++ body ++ suffix ≠ [] := List.append_ne_nil_of_left_ne_nil nonempty _
  -- Both outcomes come after the same steps; only the last one depends on the value.
  have lexed : ∀ {ending}, Takes s (match numberValue? (sign ++ body) with
      | some v => pure v
      | none => fail (.badNumber (sign ++ body))) left ending left → Takes s number t ending left := by
    intro ending ends
    subst whole
    refine takes_position fun start here => signTaken.bind (bodyTaken.bind (takes_position fun stop there => ?_))
    refine (takes_pieceOf here there (List.append_ne_nil_of_left_ne_nil started _) _).bind ?_
    rw [withoutSuffix_append lexemeNumeric isSuffix]
    rw [numberValue?_eq isSign] at ends
    exact ends
  cases value : numberValue? (sign ++ body) with
  | some v =>
    rw [value] at lexed
    exact lexed (takes_pure _ _)
  | none =>
    rw [value] at lexed
    exact ⟨left, rfl, lexed (takes_fail _ _)⟩

/-- Scanning a number in place is `scanNumber`. -/
theorem follows_number {rest : Text} (starts : startsNumber b = true) :
    Follows s number (b :: rest) (scanNumber (b :: rest)) := by
  have nonempty : (takeSign (b :: rest)).1 ++ _ ≠ [] := split_ne_nil starts
  generalize b :: rest = t at nonempty ⊢
  obtain ⟨negative, isSign, leading⟩ := exists_takeSign t
  obtain ⟨suffix, isSuffix, trailing⟩ := exists_dropLongSuffix (splitNumber (takeSign t).2).2
  have whole : t = (takeSign t).1 ++ (splitNumber (takeSign t).2).1 ++ suffix ++
      dropLongSuffix (splitNumber (takeSign t).2).2 := by
    rw [List.append_assoc, ← trailing, List.append_assoc, splitNumber_append]
    exact leading
  exact follows_lexeme isSign (fun _ mem => isNumeric_of_mem_splitNumber mem) isSuffix nonempty whole
    (takes_skipSign t) (takes_numberLoop false (takeSign t).2)

/-! ## Arguments and calls -/

/-- Scanning an argument in place is `scanArgument`. -/
theorem follows_argument (t : Text) : Follows s argument t (scanArgument t) := by
  cases t with
  | nil => exact .after takes_peek_nil (follows_fail _ _)
  | cons b rest =>
    refine .after takes_peek_cons ?_
    rw [scanArgument]
    by_cases quote : (b == Byte.singleQuote || b == Byte.doubleQuote) = true
    · rw [if_pos quote, if_pos quote]
      exact .after takes_advance ((follows_quoted b rest).map Value.text)
    rw [if_neg quote, if_neg quote]
    by_cases starts : startsNumber b = true
    · rw [if_pos starts, if_pos starts]
      exact follows_number starts
    rw [if_neg starts, if_neg starts]
    by_cases letter : Byte.isLetter b = true
    · rw [if_pos letter, if_pos letter]
      have named := follows_name (s := s) (b :: rest)
      generalize scanName (b :: rest) = scan at named ⊢
      cases scan with
      | error stop => exact named.of_error
      | ok taken =>
        refine .after named ?_
        dsimp only
        cases Value.readBool? taken.1 with
        | some truth => exact takes_pure _ _
        | none => exact follows_fail _ _
    · rw [if_neg letter, if_neg letter]
      exact follows_fail _ _

/-- A round scans an argument between white space, and what stands behind it decides:
`Follows s (argumentsRound function args) t scan`. -/
theorem follows_argumentsRound {function : Text} {args : List Value} {v : Value}
    {scan : Scan (Round (List Value) (List Value))} (scanned : scanArgument (Text.trimStart t) = .ok (v, left))
    (behind : Follows s (do
      if ← accept Byte.closeParen then return .over (args ++ [v])
      else if ← accept Byte.comma then return .again (args ++ [v])
      else fail (.unclosedArguments function)) (Text.trimStart left) scan) :
    Follows s (argumentsRound function args) t scan := by
  have followed := follows_argument (s := s) (Text.trimStart t)
  rw [scanned] at followed
  exact .after (takes_skipBlank t) (.after followed (.after (takes_skipBlank left) behind))

/-- The loop over arguments adds what is scanned to the arguments before: `Follows s (loop (argumentsRound function)
args) t ((scanArguments function t).map fun (vs, left) => (args ++ vs, left))`. -/
theorem follows_argumentsLoop (function : Text) (args : List Value) (t : Text) :
    Follows s (loop (argumentsRound function) args) t
      ((scanArguments function t).map fun (vs, left) => (args ++ vs, left)) := by
  -- The arguments before are general, since each round adds one to them.
  fun_induction scanArguments function t generalizing args with
  | case1 t stop failed =>
    have followed := follows_argument (s := s) (Text.trimStart t)
    rw [failed] at followed
    exact .loop_of_error (.after (takes_skipBlank t) followed.of_error)
  | case2 t v left scanned next =>
    refine .loop_of_error (follows_argumentsRound scanned ?_)
    rw [next]
    exact .after takes_accept_nil (.after takes_accept_nil (follows_fail _ _))
  | case3 t v left scanned rest next =>
    have round : Follows s (argumentsRound function args) t (.ok (.over (args ++ [v]), rest)) := by
      refine follows_argumentsRound scanned ?_
      rw [next]
      exact .after takes_accept (takes_pure _ _)
    exact takes_loop_over round
  | case4 t v left scanned rest next notClosed ih =>
    have round : Follows s (argumentsRound function args) t (.ok (.again (args ++ [v]), rest)) := by
      refine follows_argumentsRound scanned ?_
      rw [next]
      exact .after (takes_accept_cons notClosed) (.after takes_accept (takes_pure _ _))
    have shorter : rest.length < t.length := by
      have := scanArgument_length_lt scanned
      have := Text.trimStart_length_le t
      have := Text.trimStart_length_le left
      rw [next, List.length_cons] at this
      omega
    have together : ((scanArguments function rest).map fun (vs, left) => (v :: vs, left)).map
        (fun (vs, left) => (args ++ vs, left)) =
        (scanArguments function rest).map fun (vs, left) => (args ++ [v] ++ vs, left) := by
      cases scanArguments function rest with
      | error stop => rfl
      | ok taken => simp only [Except.map, List.append_assoc, List.singleton_append]
    rw [together]
    exact (ih (args ++ [v])).loop_again round shorter
  | case5 t v left scanned b rest next notClosed notComma =>
    refine .loop_of_error (follows_argumentsRound scanned ?_)
    rw [next]
    exact .after (takes_accept_cons notClosed) (.after (takes_accept_cons notComma) (follows_fail _ _))

/-- The loop over arguments in place is `scanArguments`. -/
theorem follows_arguments (function : Text) (t : Text) :
    Follows s (loop (argumentsRound function) []) t (scanArguments function t) := by
  have looped := follows_argumentsLoop (s := s) function [] t
  cases scanned : scanArguments function t with
  | error stop => rw [scanned] at looped; exact looped
  | ok taken => rw [scanned] at looped; exact looped

/-- A byte that the text does not start with is not accepted:
`Takes s (accept expected : Scanner Fault Bool) t (.done false) t`. -/
theorem takes_accept_other {expected : UInt8} {t : Text} (other : ∀ rest, t ≠ expected :: rest) :
    Takes s (accept expected : Scanner Fault Bool) t (.done false) t := by
  cases t with
  | nil => exact takes_accept_nil
  | cons b rest =>
    refine takes_accept_cons ?_
    rintro rfl
    exact other rest rfl

/-- Scanning a call in place is `scanCall`. -/
theorem follows_call (t : Text) : Follows s call t (scanCall t) := by
  have named := follows_name (s := s) t
  rw [scanCall]
  generalize scanName t = scan at named ⊢
  cases scan with
  | error stop => exact named.of_error
  | ok taken =>
    obtain ⟨function, left⟩ := taken
    refine .after named (.after (takes_skipBlank left) ?_)
    dsimp only
    split
    · next inside opened =>
      rw [opened]
      refine .after takes_accept (.after (takes_skipBlank inside) ?_)
      split
      · next rest closed =>
        rw [closed]
        exact .after takes_accept (takes_pure _ _)
      · next notClosed =>
        refine .after (takes_accept_other notClosed) ?_
        exact (follows_arguments function _).map (Call.mk function)
    · next notOpened =>
      exact .after (takes_accept_other notOpened) (takes_pure _ _)

/-- A round scans a call, and what stands behind it decides: `Follows s (callsRound calls) t scan`. -/
theorem follows_callsRound {calls : List Call} {c : Call} {scan : Scan (Round (List Call) (List Call))}
    (scanned : scanCall t = .ok (c, left))
    (behind : Follows s (do
      if ← atEnd then return .over (calls ++ [c])
      else if ← accept Byte.semicolon then
        skipBlank
        return .again (calls ++ [c])
      else fail (.noSemicolon (← peek))) (Text.trimStart left) scan) :
    Follows s (callsRound calls) t scan := by
  have followed := follows_call (s := s) t
  rw [scanned] at followed
  have nonempty : t.isEmpty = false := by
    have := scanCall_length_lt scanned
    rw [List.isEmpty_eq_false_iff, ← List.length_pos_iff]
    omega
  refine .after (takes_atEnd t) ?_
  rw [nonempty]
  exact .after followed (.after (takes_skipBlank left) behind)

/-- A round over a call with a semicolon is followed by another one, behind the white space there:
`Follows s (loop callsRound calls) t scan`. -/
theorem follows_callsRound_semicolon {calls : List Call} {c : Call} {rest : Text} {scan : Scan (List Call)}
    (scanned : scanCall t = .ok (c, left)) (next : Text.trimStart left = Byte.semicolon :: rest)
    (others : Follows s (loop callsRound (calls ++ [c])) (Text.trimStart rest) scan) :
    Follows s (loop callsRound calls) t scan := by
  have round : Follows s (callsRound calls) t (.ok (.again (calls ++ [c]), Text.trimStart rest)) := by
    refine follows_callsRound scanned ?_
    rw [next]
    exact .after (takes_atEnd _) (.after takes_accept (.after (takes_skipBlank rest) (takes_pure _ _)))
  have shorter : (Text.trimStart rest).length < t.length := by
    have := scanCall_length_lt scanned
    have := Text.trimStart_length_le left
    have := Text.trimStart_length_le rest
    rw [next, List.length_cons] at *
    omega
  exact others.loop_again round shorter

/-- The loop over calls adds what is scanned to the calls before:
`Follows s (loop callsRound calls) t ((scanCalls t).map fun others => (calls ++ others, []))`. -/
theorem follows_callsLoop (calls : List Call) (t : Text) (nonempty : t ≠ []) :
    Follows s (loop callsRound calls) t ((scanCalls t).map fun others => (calls ++ others, [])) := by
  fun_induction scanCalls t generalizing calls with
  | case1 t stop failed =>
    have followed := follows_call (s := s) t
    rw [failed] at followed
    refine .loop_of_error (.after (takes_atEnd t) ?_)
    rw [List.isEmpty_eq_false_iff.2 nonempty]
    exact followed.of_error
  | case2 t c left scanned next =>
    have round : Follows s (callsRound calls) t (.ok (.over (calls ++ [c]), [])) := by
      refine follows_callsRound scanned ?_
      rw [next]
      exact .after (takes_atEnd _) (takes_pure _ _)
    exact takes_loop_over round
  | case3 t c left scanned rest ended next =>
    refine follows_callsRound_semicolon scanned next ?_
    rw [List.isEmpty_iff.1 ended]
    exact takes_loop_over ((takes_atEnd _).bind (takes_pure _ _))
  | case4 t c left scanned rest notEnded next ih =>
    have together : ((scanCalls (Text.trimStart rest)).map (c :: ·)).map (fun others => (calls ++ others, ([] : Text))) =
        (scanCalls (Text.trimStart rest)).map fun others => (calls ++ [c] ++ others, []) := by
      cases scanCalls (Text.trimStart rest) with
      | error stop => rfl
      | ok others => simp only [Except.map, List.append_assoc, List.singleton_append]
    rw [together]
    exact follows_callsRound_semicolon scanned next (ih _ (mt List.isEmpty_iff.2 notEnded))
  | case5 t c left scanned b rest next notSemicolon =>
    refine .loop_of_error (follows_callsRound scanned ?_)
    rw [next]
    exact .after (takes_atEnd _) (.after (takes_accept_cons notSemicolon) (.after takes_peek_cons (follows_fail _ _)))

/-! ## Specifications -/

/-- The whole specification `s` is scanned from behind the white space at its start. -/
def scanSpecification (s : Text) : Scan (List Call) :=
  if (Text.trimStart s).isEmpty then .error ⟨.empty, 0⟩ else (scanCalls (Text.trimStart s)).map (·, [])

/-- Scanning a specification in place is `scanSpecification`. -/
theorem follows_specification (s : Text) : Follows s specification s (scanSpecification s) := by
  refine .after (takes_skipBlank s) (.after (takes_atEnd _) ?_)
  rw [scanSpecification]
  split
  · next blank =>
    rw [List.isEmpty_iff.1 blank]
    exact follows_fail _ _
  · next notBlank => exact follows_callsLoop [] _ (mt List.isEmpty_iff.2 notBlank)

/-- Parsing is scanning, with the distance from the end of the text turned into a position:
`parse s = ((scanSpecification s).map Prod.fst).mapError fun stop => ⟨stop.fault, s.length - stop.left⟩`. -/
theorem parse_eq (s : Text) :
    parse s = ((scanSpecification s).map Prod.fst).mapError fun stop => ⟨stop.fault, s.length - stop.left⟩ := by
  rw [parse, scanSpecification]
  split
  · rfl
  · cases scanCalls (Text.trimStart s) with
    | error stop => rfl
    | ok calls => rfl

/-- How many bytes a scanner leaves. -/
def bytesLeft : Scan α → Nat
  | .ok (_, left) => left.length
  | .error stop => stop.left

variable {scanner : Scanner Fault α} {scan : Scan α} {p : Nat}

/-- A scanner that `Follows` another one ends like it, before as many bytes. -/
theorem Follows.ends (h : Follows s scanner t scan) (here : At s p t) :
    (scanner s p).ending = .ofExcept ((scan.map Prod.fst).mapError Stop.fault) ∧
      (scanner s p).place + bytesLeft scan = s.length ∧
      Trail s p (scanner s p).accesses (scanner s p).place := by
  cases scan with
  | error stop =>
    obtain ⟨left, same, failed⟩ := h
    obtain ⟨ending, place, trail⟩ := failed p here
    refine ⟨ending, ?_, trail⟩
    rw [bytesLeft, ← same]
    exact place.length
  | ok taken =>
    obtain ⟨ending, place, trail⟩ := h p here
    exact ⟨ending, place.length, trail⟩

/-- A scanner that leaves less when it is done has moved on: `p < (scanner s p).place`. -/
theorem Follows.lt_place {value : α} (h : Follows s scanner t scan) (here : At s p t)
    (shorter : ∀ value left, scan = .ok (value, left) → left.length < t.length)
    (done : (scanner s p).ending = .done value) : p < (scanner s p).place := by
  obtain ⟨ending, place, -⟩ := h.ends here
  cases scan with
  | error stop =>
    rw [ending] at done
    cases done
  | ok taken =>
    have consumed := shorter taken.1 taken.2 rfl
    have total := here.length
    rw [bytesLeft] at place
    omega

/-- A call takes at least one byte: `p < (call s p).place`. -/
theorem call_lt_place {c : Call} (inside : p ≤ s.length) (done : (call s p).ending = .done c) :
    p < (call s p).place :=
  (follows_call _).lt_place (at_drop inside) (fun _ _ => scanCall_length_lt) done

/-- An argument takes at least one byte: `p < (argument s p).place`. -/
theorem argument_lt_place {v : Value} (inside : p ≤ s.length) (done : (argument s p).ending = .done v) :
    p < (argument s p).place :=
  (follows_argument _).lt_place (at_drop inside) (fun _ _ => scanArgument_length_lt) done

/-- `specification` ends in place with the outcome of `parse`, and a fault is met where it is. -/
theorem specification_ends (s : Text) :
    (specification s 0).ending = .ofExcept ((parse s).mapError ParseError.fault) ∧
      Trail s 0 (specification s 0).accesses (specification s 0).place ∧
      ∀ e, parse s = .error e → (specification s 0).place = e.offset := by
  obtain ⟨ending, place, trail⟩ := (follows_specification s).ends (at_start s)
  rw [ending, parse_eq]
  cases scan : scanSpecification s with
  | error stop =>
    refine ⟨rfl, trail, fun e h => ?_⟩
    cases h
    rw [scan] at place
    exact Nat.eq_sub_of_add_eq place
  | ok calls =>
    refine ⟨rfl, trail, fun e h => ?_⟩
    cases h

end OpCycle.Spec.InPlace
