import OpCycle.Proofs.Spec.Arguments

/-! # Recognising specifications
The parser accepts exactly the texts that the grammar derives, and returns the calls that they denote. For
each scanner there are two statements: what it took is derived by the grammar, and what the grammar derives
it takes, when what follows cannot go on in it.

* `scanCalls_sound`, `scanCalls_complete`: what the scanner of calls takes.
* `parse_eq_ok_iff`, `parse_recognises`: the parser and the grammar. -/

namespace OpCycle.Spec

open Text (StartsOutside IsBlank)

variable {s rest left : Text} {call : Call} {calls : List Call}

/-! ## Calls -/

/-- What is scanned as a call is one, with white space behind it:
`∃ text blank, CallText text call ∧ IsBlank blank ∧ s = text ++ (blank ++ left)`. -/
theorem scanCall_sound (h : scanCall s = .ok (call, left)) :
    ∃ text blank, CallText text call ∧ IsBlank blank ∧ s = text ++ (blank ++ left) := by
  unfold scanCall at h
  split at h
  · cases h
  next name after scanned =>
  obtain ⟨isName, split⟩ := scanName_sound scanned
  obtain ⟨gap, isGap, opening⟩ := Text.exists_blank_append_trimStart after
  split at h
  · next inside paren =>
    obtain ⟨blank, isBlank, inner⟩ := Text.exists_blank_append_trimStart inside
    rw [paren] at opening
    split at h
    · -- Parentheses with nothing but white space between them.
      next closed =>
      cases h
      rw [closed] at inner
      refine ⟨_, [], .empty isName isGap isBlank, Text.isBlank_nil, ?_⟩
      rw [split, opening, inner]
      simp only [List.append_assoc, List.cons_append, List.nil_append]
      rfl
    · -- The white space in front of the arguments belongs to them.
      obtain ⟨⟨args, left'⟩, arguments, same⟩ := map_eq_ok h
      cases same
      obtain ⟨text, isArguments, taken⟩ := scanArguments_sound arguments
      rw [taken] at inner
      refine ⟨_, [], .arguments isName isGap (isArguments.blank_append isBlank), Text.isBlank_nil, ?_⟩
      rw [split, opening, inner]
      simp only [List.append_assoc, List.cons_append, List.nil_append]
      rfl
  · -- A bare name, and the white space behind it is left to the caller.
    cases h
    exact ⟨name, gap, .bare isName, isGap, by rw [split, ← opening]⟩

/-- A name is scanned up to white space and a byte that does not go on:
`scanName (name ++ (gap ++ rest)) = .ok (name, gap ++ rest)`. -/
theorem scanName_blank_append {name gap : Text} (isName : Name name) (isGap : IsBlank gap)
    (stop : StartsOutside goesOn rest) : scanName (name ++ (gap ++ rest)) = .ok (name, gap ++ rest) :=
  scanName_complete isName ((startsOutside_goesOn_blank isGap stop).mono fun _ => goesOn_of_isWord)

/-- A name is scanned up to white space and a parenthesis:
`scanName (name ++ (gap ++ Byte.openParen :: rest)) = .ok (name, gap ++ Byte.openParen :: rest)`. -/
theorem scanName_blank_openParen {name gap : Text} (isName : Name name) (isGap : IsBlank gap)
    (rest : Text) :
    scanName (name ++ (gap ++ Byte.openParen :: rest)) = .ok (name, gap ++ Byte.openParen :: rest) :=
  scanName_blank_append isName isGap (Text.startsOutside_cons.2 rfl)

/-- A name and empty parentheses are scanned as a call without arguments: `scanCall s = .ok (⟨name, []⟩, rest)`. -/
theorem scanCall_of_closed {name after inside : Text} (scanned : scanName s = .ok (name, after))
    (paren : Text.trimStart after = Byte.openParen :: inside)
    (closed : Text.trimStart inside = Byte.closeParen :: rest) : scanCall s = .ok (⟨name, []⟩, rest) := by
  unfold scanCall
  rw [scanned]
  dsimp only
  split
  · next inside' same =>
    rw [paren] at same
    cases same
    split
    · next rest' same' =>
      rw [closed] at same'
      cases same'
      rfl
    · next other => exact absurd closed (other rest)
  · next other => exact absurd paren (other inside)

/-- A name and a parenthesis with something inside are scanned as a call with arguments:
`scanCall s = (scanArguments name (Text.trimStart inside)).map fun (args, left) => (⟨name, args⟩, left)`. -/
theorem scanCall_of_inside {name after inside : Text} (scanned : scanName s = .ok (name, after))
    (paren : Text.trimStart after = Byte.openParen :: inside)
    (stop : StartsOutside (· == Byte.closeParen) (Text.trimStart inside)) :
    scanCall s =
      (scanArguments name (Text.trimStart inside)).map fun (args, left) => (⟨name, args⟩, left) := by
  unfold scanCall
  rw [scanned]
  dsimp only
  split
  · next inside' same =>
    rw [paren] at same
    cases same
    split
    · next closed =>
      rw [closed] at stop
      cases Text.startsOutside_cons.1 stop
    · rfl
  · next other => exact absurd paren (other inside)

/-- The byte `b` would make a call before it longer, or may stand between it and what makes it longer. -/
def goesOnCall (b : UInt8) : Bool := goesOn b || Byte.isBlank b || b == Byte.openParen

/-- A call is scanned up to white space and a byte that does not go on with it, or the end:
`∃ left, scanCall (text ++ (blank ++ rest)) = .ok (call, left) ∧ Text.trimStart left = rest`. -/
theorem scanCall_complete {text blank : Text} (h : CallText text call) (isBlank : IsBlank blank)
    (stop : StartsOutside goesOnCall rest) :
    ∃ left, scanCall (text ++ (blank ++ rest)) = .ok (call, left) ∧ Text.trimStart left = rest := by
  have stopToken : StartsOutside goesOn rest := by
    refine stop.mono fun b h => ?_
    rw [goesOnCall, h]
    rfl
  have stopBlank : StartsOutside Byte.isBlank rest := by
    refine stop.mono fun b h => ?_
    rw [goesOnCall, h, Bool.or_true]
    rfl
  cases h with
  | bare isName =>
    refine ⟨rest, ?_, Text.trimStart_eq_self stopBlank⟩
    unfold scanCall
    rw [scanName_blank_append isName isBlank stopToken]
    dsimp only
    rw [Text.trimStart_blank_append isBlank stopBlank]
    split
    · next paren => cases Text.startsOutside_cons.1 stop
    · rfl
  | empty isName isGap isInner =>
    refine ⟨blank ++ rest, ?_, Text.trimStart_blank_append isBlank stopBlank⟩
    simp only [List.append_assoc, List.cons_append, List.nil_append]
    exact scanCall_of_closed (scanName_blank_openParen isName isGap _)
      (Text.trimStart_blank_cons isGap rfl _) (Text.trimStart_blank_cons isInner rfl _)
  | @arguments name gap _ args isName isGap isArguments =>
    -- The first argument does not start with a parenthesis, so the arguments are not taken for none.
    refine ⟨blank ++ rest, ?_, Text.trimStart_blank_append isBlank stopBlank⟩
    obtain ⟨before, b, after, isBefore, rfl, starts, isArguments⟩ := isArguments.exists_cons
    obtain ⟨notBlank, notClosed⟩ := excluded_of_startsArgument starts
    have inside := Text.trimStart_blank_cons isBefore notBlank (after ++ Byte.closeParen :: (blank ++ rest))
    have arguments := scanArguments_complete name isArguments (blank ++ rest)
    rw [List.cons_append] at arguments
    simp only [List.append_assoc, List.cons_append, List.nil_append]
    rw [scanCall_of_inside (scanName_blank_openParen isName isGap _) (Text.trimStart_blank_cons isGap rfl _),
      inside, arguments]
    · rfl
    · rw [inside]
      exact Text.startsOutside_cons.2 notClosed

/-- A call starts with something else than white space:
`Text.trimStart (blank ++ (text ++ rest)) = text ++ rest ∧ text ≠ []`. -/
theorem trimStart_call {blank text : Text} (isBlank : IsBlank blank) (h : CallText text call)
    (rest : Text) : Text.trimStart (blank ++ (text ++ rest)) = text ++ rest ∧ text ≠ [] := by
  have name : ∀ {name : Text} (rest : Text), Name name →
      Text.trimStart (blank ++ (name ++ rest)) = name ++ rest ∧ name ≠ [] := by
    intro name rest isName
    have word := fun c => isName.isWord_of_mem (b := c)
    obtain ⟨first, others⟩ := isName
    exact ⟨Text.trimStart_blank_cons isBlank (Byte.isBlank_of_isWord (word _ List.mem_cons_self)) _,
      List.cons_ne_nil _ _⟩
  cases h with
  | bare isName => exact name rest isName
  | empty isName _ _ | arguments isName _ _ =>
    rw [List.append_assoc]
    exact ⟨(name _ isName).1, List.append_ne_nil_of_left_ne_nil (name [] isName).2 _⟩

/-! ## Specifications -/

/-- White space in front of a specification belongs to it: `Specification (blank ++ s) calls`. -/
theorem Specification.blank_append {blank : Text} (isBlank : IsBlank blank) (h : Specification s calls) :
    Specification (blank ++ s) calls := by
  cases h with
  | last isLeft isCall isRight =>
    rw [← List.append_assoc]
    exact .last (isBlank.append isLeft) isCall isRight
  | closed isLeft isCall isRight isAfter =>
    rw [← List.append_assoc]
    exact .closed (isBlank.append isLeft) isCall isRight isAfter
  | more isLeft isCall isRight isRest =>
    rw [← List.append_assoc]
    exact .more (isBlank.append isLeft) isCall isRight isRest

/-- What is scanned as calls is a specification: `Specification s calls`. -/
theorem scanCalls_sound (h : scanCalls s = .ok calls) : Specification s calls := by
  fun_induction scanCalls s generalizing calls with
  | case1 => cases h
  | case2 s call after scanned next =>
    -- The text ends behind the call.
    cases h
    obtain ⟨text, blank, isCall, isBlank, same⟩ := scanCall_sound scanned
    have trailing := Text.isBlank_of_trimStart_eq_nil next
    have derived := Specification.last Text.isBlank_nil isCall (isBlank.append trailing)
    rw [same]
    exact derived
  | case3 s call after scanned rest none next =>
    -- A semicolon closes the last call.
    cases h
    obtain ⟨text, blank, isCall, isBlank, same⟩ := scanCall_sound scanned
    obtain ⟨gap, isGap, opening⟩ := Text.exists_blank_append_trimStart after
    rw [next] at opening
    have derived := Specification.closed Text.isBlank_nil isCall (isBlank.append isGap)
      (Text.isBlank_of_trimStart_eq_nil (List.isEmpty_iff.1 none))
    rw [same, opening, ← List.append_assoc blank]
    exact derived
  | case4 s call after scanned rest _ next ih =>
    -- Other calls follow, and the white space that was skipped before them is theirs.
    obtain ⟨others, scannedOthers, rfl⟩ := map_eq_ok h
    obtain ⟨text, blank, isCall, isBlank, same⟩ := scanCall_sound scanned
    obtain ⟨gap, isGap, opening⟩ := Text.exists_blank_append_trimStart after
    obtain ⟨before, isBefore, leading⟩ := Text.exists_blank_append_trimStart rest
    have isRest := (ih scannedOthers).blank_append isBefore
    rw [← leading] at isRest
    rw [next] at opening
    have derived := Specification.more Text.isBlank_nil isCall (isBlank.append isGap) isRest
    rw [same, opening, ← List.append_assoc blank]
    exact derived
  | case5 => cases h

/-- Scanning calls is scanning one, and then what follows it decides: `scanCalls s = .ok [call]`. -/
theorem scanCalls_of_end (scanned : scanCall s = .ok (call, left)) (next : Text.trimStart left = []) :
    scanCalls s = .ok [call] := by
  rw [scanCalls]
  split
  · next failed => rw [scanned] at failed; cases failed
  · next scanned' =>
    rw [scanned] at scanned'
    cases scanned'
    split
    · rfl
    · next next' => rw [next] at next'; cases next'

/-- Behind a call and a semicolon the calls go on, unless nothing is left: `scanCalls s = if (Text.trimStart
rest).isEmpty then .ok [call] else (scanCalls (Text.trimStart rest)).map (call :: ·)`. -/
theorem scanCalls_of_semicolon (scanned : scanCall s = .ok (call, left))
    (next : Text.trimStart left = Byte.semicolon :: rest) :
    scanCalls s =
      if (Text.trimStart rest).isEmpty then .ok [call]
      else (scanCalls (Text.trimStart rest)).map (call :: ·) := by
  rw [scanCalls]
  split
  · next failed => rw [scanned] at failed; cases failed
  · next scanned' =>
    rw [scanned] at scanned'
    cases scanned'
    split
    · next ended => rw [next] at ended; cases ended
    · next next' =>
      rw [next] at next'
      cases next'
      rw [if_pos rfl]

/-- Behind a call with `;`, white space around both, scanning goes on with what follows. -/
theorem scanCalls_call_semicolon {left text right : Text} (isLeft : IsBlank left) (isCall : CallText text call)
    (isRight : IsBlank right) (rest : Text) :
    scanCalls (Text.trimStart (left ++ (text ++ (right ++ Byte.semicolon :: rest)))) =
      if (Text.trimStart rest).isEmpty then .ok [call]
      else (scanCalls (Text.trimStart rest)).map (call :: ·) := by
  obtain ⟨trimmed, -⟩ := trimStart_call isLeft isCall (right ++ Byte.semicolon :: rest)
  obtain ⟨left', scanned, next⟩ := scanCall_complete isCall isRight
    (Text.startsOutside_cons.2 rfl : StartsOutside _ (Byte.semicolon :: rest))
  rw [trimmed, scanCalls_of_semicolon scanned next]

/-- A specification is scanned to its end: `Text.trimStart s ≠ [] ∧ scanCalls (Text.trimStart s) = .ok calls`. -/
theorem scanCalls_complete (h : Specification s calls) :
    Text.trimStart s ≠ [] ∧ scanCalls (Text.trimStart s) = .ok calls := by
  -- On the grammar; white space at the ends belongs to the calls, so each step trims first.
  induction h with
  | @last left text right call isLeft isCall isRight =>
    obtain ⟨trimmed, nonempty⟩ := trimStart_call isLeft isCall right
    obtain ⟨after, scanned, next⟩ := scanCall_complete isCall isRight (Text.startsOutside_nil)
    rw [List.append_nil] at scanned
    rw [trimmed]
    exact ⟨List.append_ne_nil_of_left_ne_nil nonempty _, scanCalls_of_end scanned next⟩
  | @closed left text right after call isLeft isCall isRight isAfter =>
    obtain ⟨trimmed, nonempty⟩ := trimStart_call isLeft isCall (right ++ Byte.semicolon :: after)
    constructor
    · rw [trimmed]
      exact List.append_ne_nil_of_left_ne_nil nonempty _
    · rw [scanCalls_call_semicolon isLeft isCall isRight, Text.trimStart_eq_nil isAfter]
      rfl
  | @more left text right call rest calls isLeft isCall isRight _ ih =>
    obtain ⟨trimmed, nonempty⟩ := trimStart_call isLeft isCall (right ++ Byte.semicolon :: rest)
    constructor
    · rw [trimmed]
      exact List.append_ne_nil_of_left_ne_nil nonempty _
    · rw [scanCalls_call_semicolon isLeft isCall isRight, if_neg (by rw [List.isEmpty_iff]; exact ih.1), ih.2]
      rfl

/-- The parser returns calls exactly for the texts that the grammar derives, and exactly these calls:
`parse s = .ok calls ↔ Specification s calls`. -/
theorem parse_eq_ok_iff : parse s = .ok calls ↔ Specification s calls := by
  constructor
  · intro h
    rw [parse] at h
    split at h
    · cases h
    split at h
    · next calls' scanned =>
      cases h
      obtain ⟨blank, isBlank, leading⟩ := Text.exists_blank_append_trimStart s
      have trimmed := (scanCalls_sound scanned).blank_append isBlank
      rw [← leading] at trimmed
      exact trimmed
    · cases h
  · intro h
    obtain ⟨nonempty, scanned⟩ := scanCalls_complete h
    rw [parse, if_neg (by rwa [List.isEmpty_iff]), scanned]

/-- The parser accepts exactly the grammar: it returns the calls that the grammar derives for a text, and raises an
error for every text for which the grammar derives none (`(∀ calls, parse s = .ok calls ↔ Specification s calls) ∧ ((∃
e, parse s = .error e) ↔ ¬ ∃ calls, Specification s calls)`). -/
theorem parse_recognises (s : Text) :
    (∀ calls, parse s = .ok calls ↔ Specification s calls) ∧
      ((∃ e, parse s = .error e) ↔ ¬ ∃ calls, Specification s calls) := by
  refine ⟨fun calls => parse_eq_ok_iff, ?_⟩
  constructor
  · rintro ⟨e, failed⟩ ⟨calls, derived⟩
    rw [parse_eq_ok_iff.2 derived] at failed
    cases failed
  · intro underived
    cases parsed : parse s with
    | error e => exact ⟨e, rfl⟩
    | ok calls => exact absurd ⟨calls, parse_eq_ok_iff.1 parsed⟩ underived

end OpCycle.Spec
