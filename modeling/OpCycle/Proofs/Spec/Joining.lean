import OpCycle.Proofs.Spec.Recognition

/-! # Joining specifications
Two specifications with a semicolon between them are one, whose calls are those of the first and then those
of the second, unless the first ends in a semicolon of its own. What a specification ends in, and that the
white space around it means nothing, is read off its grammar.

* `Trimmed`, `EndsIn`: what a specification starts and ends with.
* `join`, `parse_join_iff`: when the joined text has the calls of both. -/

namespace OpCycle.Spec

open Text (StartsOutside IsBlank)

variable {s t : Text} {b : UInt8} {call : Call} {calls more : List Call}

/-! ## The last byte -/

/-- The text `s` ends in `b`, white space behind it aside. -/
def EndsIn (b : UInt8) (s : Text) : Prop :=
  ∃ before blank, s = before ++ b :: blank ∧ IsBlank blank

/-- A text ends in what its last part ends in: `EndsIn b (before ++ s)`. -/
theorem EndsIn.append (before : Text) (h : EndsIn b s) : EndsIn b (before ++ s) := by
  obtain ⟨front, blank, rfl, isBlank⟩ := h
  exact ⟨before ++ front, blank, (List.append_assoc ..).symm, isBlank⟩

/-- White space behind a text does not change what it ends in: `EndsIn b (s ++ blank)`. -/
theorem EndsIn.append_blank (h : EndsIn b s) {blank : Text} (isBlank : IsBlank blank) :
    EndsIn b (s ++ blank) := by
  obtain ⟨front, inner, rfl, isInner⟩ := h
  exact ⟨front, inner ++ blank, List.append_assoc .., isInner.append isBlank⟩

/-- A text ends in one byte only: `b = c`. -/
theorem EndsIn.unique {c : UInt8} (first : EndsIn b s) (second : EndsIn c s)
    (notBlank : Byte.isBlank b = false) (notBlank' : Byte.isBlank c = false) : b = c := by
  -- Trimming the reversed text leaves its last byte in front.
  have trimmed : ∀ {d : UInt8}, Byte.isBlank d = false → EndsIn d s →
      (Text.trimStart s.reverse).head? = some d := by
    rintro d notBlank ⟨before, blank, rfl, isBlank⟩
    have isBlankReverse : IsBlank blank.reverse := fun e mem => isBlank e (List.mem_reverse.1 mem)
    rw [List.reverse_append, List.reverse_cons, List.append_assoc, List.singleton_append,
      Text.trimStart_blank_cons isBlankReverse notBlank, List.head?_cons]
  exact Option.some.inj ((trimmed notBlank first).symm.trans (trimmed notBlank' second))

/-- A call may end in `b`. -/
def EndsCall (b : UInt8) : Prop := Byte.isWord b = true ∨ b = Byte.closeParen

/-- The last byte of a call is one of its name or a parenthesis: `∃ before b, s = before ++ [b] ∧ EndsCall b`. -/
theorem CallText.exists_last (h : CallText s call) : ∃ before b, s = before ++ [b] ∧ EndsCall b := by
  cases h with
  | bare isName =>
    have nonempty : s ≠ [] := by
      cases isName
      exact List.cons_ne_nil _ _
    have word := isName.isWord_of_mem (List.getLast_mem nonempty)
    exact ⟨s.dropLast, s.getLast nonempty, (List.dropLast_concat_getLast nonempty).symm, .inl word⟩
  | @empty name gap inner _ _ _ | @arguments name gap inner _ _ _ _ =>
    refine ⟨name ++ (gap ++ Byte.openParen :: inner), Byte.closeParen, ?_, .inr rfl⟩
    simp only [List.append_assoc, List.cons_append]

/-- A call ends in a byte that a call may end in: `∃ b, EndsCall b ∧ EndsIn b s`. -/
theorem CallText.exists_endsIn (h : CallText s call) : ∃ b, EndsCall b ∧ EndsIn b s := by
  obtain ⟨before, b, rfl, ends⟩ := h.exists_last
  exact ⟨b, ends, before, [], rfl, Text.isBlank_nil⟩

/-- No call ends in white space: `Byte.isBlank b = false`. -/
theorem EndsCall.isBlank (h : EndsCall b) : Byte.isBlank b = false := by
  rcases h with word | rfl
  · exact Byte.isBlank_of_isWord word
  · rfl

/-- No call ends in a semicolon: `b ≠ Byte.semicolon`. -/
theorem EndsCall.ne_semicolon (h : EndsCall b) : b ≠ Byte.semicolon := by
  rintro rfl
  rcases h with word | paren
  · cases word
  · cases paren

/-- A specification may end in `b`: as `EndsCall` says, or in a semicolon. -/
def EndsSpecification (b : UInt8) : Prop := EndsCall b ∨ b = Byte.semicolon

/-- White space behind a specification aside, it does not end in white space: `Byte.isBlank b = false`. -/
theorem EndsSpecification.isBlank (h : EndsSpecification b) : Byte.isBlank b = false := by
  rcases h with ends | rfl
  · exact ends.isBlank
  · rfl

/-- A specification ends in a byte that a specification may end in: `∃ b, EndsSpecification b ∧ EndsIn b s`. -/
theorem Specification.exists_endsIn (h : Specification s calls) : ∃ b, EndsSpecification b ∧ EndsIn b s := by
  induction h with
  | last _ isCall isRight =>
    obtain ⟨b, ends, last⟩ := isCall.exists_endsIn
    exact ⟨b, .inl ends, (last.append_blank isRight).append _⟩
  | @closed left text right after _ _ _ _ isAfter =>
    have last : EndsIn Byte.semicolon (Byte.semicolon :: after) := ⟨[], after, rfl, isAfter⟩
    exact ⟨Byte.semicolon, .inr rfl, ((last.append right).append text).append left⟩
  | @more left text right _ rest _ _ _ _ _ ih =>
    obtain ⟨b, ends, last⟩ := ih
    exact ⟨b, ends, (((last.append [Byte.semicolon]).append right).append text).append left⟩

/-- A specification does not end in a closing brace: `¬ [Byte.closeBrace] <:+ s`. -/
theorem Specification.not_closeBrace_suffix (h : Specification s calls) : ¬ [Byte.closeBrace] <:+ s := by
  rintro ⟨before, rfl⟩
  obtain ⟨b, ends, last⟩ := h.exists_endsIn
  have brace : EndsIn Byte.closeBrace (before ++ [Byte.closeBrace]) := ⟨before, [], rfl, Text.isBlank_nil⟩
  cases last.unique brace ends.isBlank rfl
  rcases ends with (word | paren) | semicolon
  · cases word
  · cases paren
  · cases semicolon

/-! ## White space around a specification -/

/-- There is no white space at either end of `s`. -/
structure Trimmed (s : Text) : Prop where
  /-- There is a text. -/
  nonempty : s ≠ []
  /-- It does not start with white space. -/
  first : StartsOutside Byte.isBlank s
  /-- It does not end with white space. -/
  last : StartsOutside Byte.isBlank s.reverse

/-- A text between two that are trimmed keeps the ends of these: `Trimmed (s ++ (between ++ t))`. -/
theorem Trimmed.append (left : Trimmed s) (right : Trimmed t) (between : Text) :
    Trimmed (s ++ (between ++ t)) := by
  have nonempty : t.reverse ≠ [] := mt List.reverse_eq_nil_iff.1 right.nonempty
  refine ⟨List.append_ne_nil_of_left_ne_nil left.nonempty _, left.first.append left.nonempty _, ?_⟩
  rw [List.reverse_append, List.reverse_append, List.append_assoc]
  exact right.last.append nonempty _

/-- A call is trimmed: `Trimmed s`. -/
theorem CallText.trimmed (h : CallText s call) : Trimmed s := by
  obtain ⟨same, nonempty⟩ := trimStart_call Text.isBlank_nil h []
  rw [List.nil_append, List.append_nil] at same
  have first := Text.startsOutside_dropWhile Byte.isBlank s
  change StartsOutside _ (Text.trimStart s) at first
  rw [same] at first
  obtain ⟨before, b, rfl, ends⟩ := h.exists_last
  refine ⟨nonempty, first, ?_⟩
  rw [List.reverse_append, List.reverse_singleton, List.singleton_append, Text.startsOutside_cons]
  exact ends.isBlank

/-- A specification is white space around a trimmed one with the same calls: `∃ left core right, s = left ++ (core ++
right) ∧ IsBlank left ∧ IsBlank right ∧ Trimmed core ∧ Specification core calls`. -/
theorem Specification.exists_core (h : Specification s calls) :
    ∃ left core right, s = left ++ (core ++ right) ∧ IsBlank left ∧ IsBlank right ∧ Trimmed core ∧
      Specification core calls := by
  induction h with
  | @last left text right call isLeft isCall isRight =>
    have derived := Specification.last Text.isBlank_nil isCall Text.isBlank_nil
    rw [List.append_nil] at derived
    exact ⟨left, text, right, rfl, isLeft, isRight, isCall.trimmed, derived⟩
  | @closed left text right after call isLeft isCall isRight isAfter =>
    have semicolon : Trimmed [Byte.semicolon] :=
      ⟨List.cons_ne_nil _ _, Text.startsOutside_cons.2 rfl, Text.startsOutside_cons.2 rfl⟩
    have derived := Specification.closed Text.isBlank_nil isCall isRight Text.isBlank_nil
    refine ⟨left, text ++ (right ++ [Byte.semicolon]), after, ?_, isLeft, isAfter,
      isCall.trimmed.append semicolon right, derived⟩
    simp only [List.append_assoc, List.singleton_append]
  | @more left text right call rest calls isLeft isCall isRight _ ih =>
    obtain ⟨before, core, after, rfl, isBefore, isAfter, trimmed, derived⟩ := ih
    have joined := Specification.more Text.isBlank_nil isCall isRight (derived.blank_append isBefore)
    refine ⟨left, text ++ ((right ++ Byte.semicolon :: before) ++ core), after, ?_, isLeft, isAfter,
      isCall.trimmed.append trimmed _, ?_⟩
    · simp only [List.append_assoc, List.cons_append]
    · simp only [List.append_assoc, List.cons_append, List.nil_append] at joined ⊢
      exact joined

/-- White space behind a specification belongs to it: `Specification (s ++ blank) calls`. -/
theorem Specification.append_blank {blank : Text} (h : Specification s calls) (isBlank : IsBlank blank) :
    Specification (s ++ blank) calls := by
  induction h with
  | last isLeft isCall isRight =>
    rw [List.append_assoc, List.append_assoc]
    exact .last isLeft isCall (isRight.append isBlank)
  | closed isLeft isCall isRight isAfter =>
    rw [List.append_assoc, List.append_assoc, List.append_assoc, List.cons_append]
    exact .closed isLeft isCall isRight (isAfter.append isBlank)
  | more isLeft isCall isRight _ ih =>
    rw [List.append_assoc, List.append_assoc, List.append_assoc, List.cons_append]
    exact .more isLeft isCall isRight ih

/-- Trimming a specification keeps its calls, and makes no specification of a text that is none:
`Specification (Text.trim s) calls ↔ Specification s calls`. -/
theorem Specification.trim_iff : Specification (Text.trim s) calls ↔ Specification s calls := by
  constructor
  · intro h
    obtain ⟨left, right, isLeft, isRight, same⟩ := Text.exists_blank_append_trim s
    rw [same]
    exact (h.append_blank isRight).blank_append isLeft
  · intro h
    obtain ⟨left, core, right, rfl, isLeft, isRight, trimmed, derived⟩ := h.exists_core
    rw [Text.trim_append_append isLeft isRight trimmed.nonempty trimmed.first trimmed.last]
    exact derived

/-- There is something in a specification, white space aside: `Text.trim s ≠ []`. -/
theorem Specification.trim_ne_nil (h : Specification s calls) : Text.trim s ≠ [] := by
  intro none
  have derived := Specification.trim_iff.2 h
  rw [none] at derived
  exact (scanCalls_complete derived).1 rfl

/-! ## Joining -/

/-- The specification `first;second`. -/
def join (first second : Text) : Text := first ++ Byte.semicolon :: second

/-- Specifications are joined into one with the calls of both: `Specification (join s t) (calls ++ more)`. -/
theorem Specification.join (first : Specification s calls) (unclosed : ¬ EndsIn Byte.semicolon s)
    (second : Specification t more) : Specification (join s t) (calls ++ more) := by
  induction first with
  | last isLeft isCall isRight =>
    have joined := Specification.more isLeft isCall isRight second
    rw [Spec.join, List.append_assoc, List.append_assoc]
    exact joined
  | @closed left text right after _ _ _ _ isAfter =>
    have last : EndsIn Byte.semicolon (Byte.semicolon :: after) := ⟨[], after, rfl, isAfter⟩
    exact absurd (((last.append right).append text).append left) unclosed
  | @more left text right _ rest _ isLeft isCall isRight _ ih =>
    have unclosedRest : ¬ EndsIn Byte.semicolon rest := fun ends =>
      unclosed ((((ends.append [Byte.semicolon]).append right).append text).append left)
    have joined := Specification.more isLeft isCall isRight (ih unclosedRest)
    rw [Spec.join, List.append_assoc, List.append_assoc, List.append_assoc, List.cons_append]
    exact joined

/-- What starts with a byte that starts no name is no row of calls: `∃ stop, scanCalls (b :: rest) = .error stop`. -/
theorem scanCalls_noName (noName : Byte.isWord b = false) (rest : Text) :
    ∃ stop, scanCalls (b :: rest) = .error stop := by
  have starts : ¬ (Byte.isLetter b || b == Byte.underscore) = true := by
    intro starts
    rw [Byte.isWord, Bool.or_right_comm, starts] at noName
    cases noName
  have noCall : scanCall (b :: rest) = .error ⟨.noName b, rest.length + 1⟩ := by
    unfold scanCall
    rw [scanName, if_neg starts]
  refine ⟨⟨.noName b, rest.length + 1⟩, ?_⟩
  rw [scanCalls]
  split
  · next stop failed =>
    rw [noCall] at failed
    cases failed
    rfl
  · next scanned =>
    rw [noCall] at scanned
    cases scanned

/-- Behind a call only a semicolon goes on with a row of calls: `∃ stop, scanCalls s = .error stop`. -/
theorem scanCalls_of_other {left : Text} (scanned : scanCall s = .ok (call, left))
    (next : Text.trimStart left = b :: t) (other : b ≠ Byte.semicolon) : ∃ stop, scanCalls s = .error stop := by
  refine ⟨⟨.noSemicolon b, t.length + 1⟩, ?_⟩
  rw [scanCalls]
  split
  · next failed => rw [scanned] at failed; cases failed
  · next scanned' =>
    rw [scanned] at scanned'
    cases scanned'
    split
    · next ended => rw [next] at ended; cases ended
    · next next' =>
      rw [next] at next'
      cases next'
      rw [if_neg other]

/-- Behind a specification there is no place for a byte that does not go on with its last call, a semicolon aside; and
behind one that ends in a semicolon there is no place for another one:
`∃ stop, scanCalls (Text.trimStart (s ++ b :: rest)) = .error stop`. -/
theorem Specification.append_fails (h : Specification s calls) (stop : goesOnCall b = false)
    (closed : b = Byte.semicolon → EndsIn Byte.semicolon s) (rest : Text) :
    ∃ stop, scanCalls (Text.trimStart (s ++ b :: rest)) = .error stop := by
  have notWord : Byte.isWord b = false := (Bool.or_eq_false_iff.1
    (Bool.or_eq_false_iff.1 (Bool.or_eq_false_iff.1 stop).1).1).1
  have notBlank : Byte.isBlank b = false := (Bool.or_eq_false_iff.1 (Bool.or_eq_false_iff.1 stop).1).2
  -- The calls are scanned as they are derived, up to the last; what stops the scanner is the byte behind it.
  induction h with
  | @last left text right call isLeft isCall isRight =>
    have other : b ≠ Byte.semicolon := by
      intro semicolon
      obtain ⟨c, ends, last⟩ := isCall.exists_endsIn
      have same := ((last.append_blank isRight).append left).unique (closed semicolon) ends.isBlank rfl
      exact ends.ne_semicolon same
    obtain ⟨trimmed, -⟩ := trimStart_call isLeft isCall (right ++ b :: rest)
    obtain ⟨left', scanned, next⟩ := scanCall_complete isCall isRight (Text.startsOutside_cons.2 stop :
      StartsOutside _ (b :: rest))
    rw [List.append_assoc, List.append_assoc, trimmed]
    exact scanCalls_of_other scanned next other
  | @closed left text right after call isLeft isCall isRight isAfter =>
    obtain ⟨stop, failed⟩ := scanCalls_noName notWord rest
    refine ⟨stop, ?_⟩
    rw [List.append_assoc, List.append_assoc, List.append_assoc, List.cons_append,
      scanCalls_call_semicolon isLeft isCall isRight, Text.trimStart_blank_cons isAfter notBlank, failed]
    rfl
  | @more left text right call after calls isLeft isCall isRight isAfter ih =>
    have closedAfter : b = Byte.semicolon → EndsIn Byte.semicolon after := by
      intro semicolon
      -- The whole ends in what its last part ends in.
      obtain ⟨c, ends, last⟩ := isAfter.exists_endsIn
      have whole := (((last.append [Byte.semicolon]).append right).append text).append left
      cases whole.unique (closed semicolon) ends.isBlank rfl
      exact last
    obtain ⟨stop, failed⟩ := ih closedAfter
    have some : ¬ (Text.trimStart (after ++ b :: rest)).isEmpty = true := by
      intro none
      have blank := Text.isBlank_of_trimStart_eq_nil (List.isEmpty_iff.1 none)
      rw [blank b (List.mem_append_right _ List.mem_cons_self)] at notBlank
      cases notBlank
    refine ⟨stop, ?_⟩
    rw [List.append_assoc, List.append_assoc, List.append_assoc, List.cons_append,
      scanCalls_call_semicolon isLeft isCall isRight, if_neg some, failed]
    rfl

/-- A text that goes on like this behind a specification is none: `¬ Specification (s ++ b :: rest) more`. -/
theorem Specification.not_append (h : Specification s calls) (stop : goesOnCall b = false)
    (closed : b = Byte.semicolon → EndsIn Byte.semicolon s) (rest : Text) :
    ¬ Specification (s ++ b :: rest) more := by
  intro derived
  obtain ⟨stop, failed⟩ := h.append_fails stop closed rest
  rw [(scanCalls_complete derived).2] at failed
  cases failed

/-- **Joining two specifications.** `join s t` is one with the calls of both exactly if `s` does not end in a
semicolon of its own. -/
theorem parse_join_iff (first : parse s = .ok calls) (second : parse t = .ok more) :
    parse (join s t) = .ok (calls ++ more) ↔ ¬ EndsIn Byte.semicolon s := by
  rw [parse_eq_ok_iff] at first second
  constructor
  · intro joined closed
    exact first.not_append rfl (fun _ => closed) t (parse_eq_ok_iff.1 joined)
  · intro unclosed
    exact parse_eq_ok_iff.2 (first.join unclosed second)

end OpCycle.Spec
