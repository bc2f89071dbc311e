import OpCycle.Proofs.Text.Span

/-! # Scanning in place
A scanner that never cuts its text stands at a place in it, looks at bytes by their places and moves on. Nothing
in such a scanner keeps a place from lying outside of the text, so everything that it does with the text is
recorded here: a run gives its ending, the place where the scanner stands then, and all accesses on the way.

The second half relates such runs to what is left of the text: a run that ends in front of a text, and whose
accesses stay within the whole text while its places never go back. -/

namespace OpCycle.Cursor

variable {ε σ α β : Type}

/-! ## Runs -/

/-- What a scanner does with its text. -/
inductive Access
  /-- It reads the byte at a place. -/
  | read (place : Nat)
  /-- It takes the piece between two places. -/
  | piece (start stop : Nat)
  /-- It searches for a separator from a place on. -/
  | search (start : Nat)
  /-- It moves to a place. -/
  | move (place : Nat)
  deriving DecidableEq, Repr

/-- How a scanner ends. -/
inductive Ending (ε α : Type)
  /-- With a value. -/
  | done (value : α)
  /-- With a fault. -/
  | failed (fault : ε)
  /-- In a loop, a round of which has brought the scanner no further in its text. -/
  | lost
  deriving DecidableEq, Repr

/-- The ending that says the same as an outcome: `done` for `ok`, `failed` for `error`. -/
def Ending.ofExcept : Except ε α → Ending ε α
  | .ok value => .done value
  | .error fault => .failed fault

/-- What a scanner did. -/
structure Run (ε α : Type) where
  /-- How it ended. -/
  ending : Ending ε α
  /-- Where it stood then. -/
  place : Nat
  /-- What it did with the text, in order. -/
  accesses : List Access
  deriving DecidableEq, Repr

/-- The `run` that goes on, when it is done, as `next` does with its value and from its place. -/
def Run.andThen (run : Run ε α) (next : α → Nat → Run ε β) : Run ε β :=
  match run.ending with
  | .done value =>
    ⟨(next value run.place).ending, (next value run.place).place,
      run.accesses ++ (next value run.place).accesses⟩
  | .failed fault => ⟨.failed fault, run.place, run.accesses⟩
  | .lost => ⟨.lost, run.place, run.accesses⟩

/-- A scanner runs on a text from a place in it. -/
def Scanner (ε α : Type) : Type := Text → Nat → Run ε α

/-- Scanners run one after another, from where the first one stopped, and stop at the first that fails. -/
instance : Monad (Scanner ε) where
  pure value := fun _ p => ⟨.done value, p, []⟩
  bind first next := fun s p => (first s p).andThen fun value q => next value s q

/-! ## Steps of scanners -/

/-- The length of the text. -/
def extent : Scanner ε Nat := fun s p => ⟨.done s.length, p, []⟩

/-- Where the scanner stands. -/
def position : Scanner ε Nat := fun _ p => ⟨.done p, p, []⟩

/-- The byte at `place`, whether there is one or not. -/
def byteAt (place : Nat) : Scanner ε UInt8 := fun s p =>
  -- Outside of the text anything may be read; NUL stands for it, and the access gives it away.
  ⟨.done (s.getD place Byte.nul), p, [.read place]⟩

/-- The piece of the text from `start` to `stop`. -/
def pieceOf (start stop : Nat) : Scanner ε Text :=
  fun s p => ⟨.done ((s.drop start).take (stop - start)), p, [.piece start stop]⟩

/-- The place of the first `separator` from `start` on. -/
def find (separator : Text) (start : Nat) : Scanner ε (Option Nat) := fun s p =>
  ⟨.done ((Text.cut? separator (s.drop start)).map fun (before, _) => start + before.length), p,
    [.search start]⟩

/-- Moves to `place`. -/
def moveTo (place : Nat) : Scanner ε Unit := fun _ _ => ⟨.done (), place, [.move place]⟩

/-- Stops with `fault`. -/
def fail (fault : ε) : Scanner ε α := fun _ p => ⟨.failed fault, p, []⟩

/-- Whether `position` is at the end of the text. -/
def atEnd : Scanner ε Bool := do
  let p ← position
  return !decide (p < (← extent))

/-- The byte at `position`, and NUL at the end. -/
def peek : Scanner ε UInt8 := do
  if ← atEnd then return Byte.nul else byteAt (← position)

/-- Reads the byte at `position`, whether there is one or not, and moves behind it. -/
def advance : Scanner ε UInt8 := do
  let p ← position
  let b ← byteAt p
  moveTo (p + 1)
  return b

/-- Moves behind the byte at `position` if it is the `expected` one. -/
def accept (expected : UInt8) : Scanner ε Bool := do
  if ← atEnd then return false
  else
    let p ← position
    if (← byteAt p) = expected then
      moveTo (p + 1)
      return true
    else return false

/-- What a round of a loop gives: the state of the next round, or the result of the loop. -/
inductive Round (σ α : Type)
  /-- There is another round. -/
  | again (state : σ)
  /-- This was the last round. -/
  | over (result : α)

/-- Goes on with rounds from `state` up to the last one. A round that ends where it began, or outside of the text,
would be followed by others without end. -/
def loop (round : σ → Scanner ε (Round σ α)) (state : σ) : Scanner ε α := fun s p =>
  (round state s p).andThen fun step q =>
    match step with
    | .over result => ⟨.done result, q, []⟩
    | .again next =>
      -- The test is no part of the scanner. It lets the recursion end, and `lost` shows where it was needed.
      if p < q ∧ q ≤ s.length then loop round next s q else ⟨.lost, q, []⟩
termination_by s p => s.length - p
decreasing_by omega

/-- Moves over the bytes with `keep`. -/
def skipWhile (keep : UInt8 → Bool) : Scanner ε Unit :=
  loop (fun () => do
    if ← atEnd then return .over ()
    else if keep (← peek) then
      let _ ← advance
      return .again ()
    else return .over ()) ()

/-! ## Accesses within a text -/

/-- The access stays within `s`: a byte that is read stands in it, a piece starts in it and does not end before its
start or beyond the text, and a search starts in it or at its end, as every place does. -/
def Access.Within (s : Text) : Access → Prop
  | .read place => place < s.length
  | .piece start stop => start < s.length ∧ start ≤ stop ∧ stop ≤ s.length
  | .search start => start ≤ s.length
  | .move place => place ≤ s.length

/-- Where a scanner that stood at `p` stands after an access. -/
def Access.next (p : Nat) : Access → Nat
  | .move place => place
  | _ => p

/-- Accesses that stay `Within` a text and lead from a place to another one, never back. -/
inductive Trail (s : Text) : Nat → List Access → Nat → Prop
  /-- No access. -/
  | nil {p} : p ≤ s.length → Trail s p [] p
  /-- An access and others after it. -/
  | cons {p q access accesses} : access.Within s → p ≤ access.next p → Trail s (access.next p) accesses q →
      Trail s p (access :: accesses) q

/-- The places that `accesses` move to, in order. -/
def moves (accesses : List Access) : List Nat :=
  accesses.filterMap fun
    | .move place => some place
    | _ => none

/-- The `run` from `p` stays within `s`. -/
structure Run.StaysWithin (run : Run ε α) (s : Text) (p : Nat) : Prop where
  /-- All that it reads, takes, searches and moves to stands in the text. -/
  accesses : ∀ access ∈ run.accesses, access.Within s
  /-- The place that it starts from and those that it moves to never go back. -/
  ascending : (p :: moves run.accesses).Pairwise (· ≤ ·)
  /-- It ends at the last of them. -/
  place : run.place = (moves run.accesses).getLastD p

variable {s t u v : Text} {p q r : Nat} {accesses others : List Access}

/-- One trail after another is a trail: `Trail s p (accesses ++ others) r`. -/
theorem Trail.append (first : Trail s p accesses q) (rest : Trail s q others r) :
    Trail s p (accesses ++ others) r := by
  induction first with
  | nil => exact rest
  | cons within ahead _ ih => exact .cons within ahead (ih rest)

/-- All accesses of a trail stay within the text: `∀ access ∈ accesses, access.Within s`. -/
theorem Trail.within (trail : Trail s p accesses q) : ∀ access ∈ accesses, access.Within s := by
  induction trail with
  | nil => exact fun _ mem => absurd mem List.not_mem_nil
  | cons within _ _ ih => exact List.forall_mem_cons.2 ⟨within, ih⟩

/-- The places of a trail never go back: `(p :: moves accesses).Pairwise (· ≤ ·)`. -/
theorem Trail.ascending (trail : Trail s p accesses q) : (p :: moves accesses).Pairwise (· ≤ ·) := by
  induction trail with
  | nil => exact List.pairwise_singleton _ _
  | @cons p q access accesses _ ahead _ ih =>
    cases access with
    | read _ | piece _ _ | search _ => exact ih
    | move place =>
      -- All later places are beyond the one moved to, which is not before the first one.
      refine List.pairwise_cons.2 ⟨fun later mem => ?_, ih⟩
      rcases List.mem_cons.1 mem with rfl | mem
      · exact ahead
      · exact Nat.le_trans ahead (List.rel_of_pairwise_cons ih mem)

/-- A trail leads to the last of its places: `q = (moves accesses).getLastD p`. -/
theorem Trail.stop_eq (trail : Trail s p accesses q) : q = (moves accesses).getLastD p := by
  induction trail with
  | nil => rfl
  | @cons p q access accesses _ _ _ ih =>
    cases access with
    | read _ | piece _ _ | search _ => exact ih
    | move place => exact ih.trans List.getLastD_cons.symm

/-- A run along a trail stays within the text: `run.StaysWithin s p`. -/
theorem Run.staysWithin {run : Run ε α} (trail : Trail s p run.accesses run.place) : run.StaysWithin s p :=
  ⟨trail.within, trail.ascending, trail.stop_eq⟩

/-! ## What is left of a text -/

/-- From `p` on, `left` is left of `s`. -/
def At (s : Text) (p : Nat) (left : Text) : Prop := p ≤ s.length ∧ s.drop p = left

/-- The whole text stands at its start: `At s 0 s`. -/
theorem at_start (s : Text) : At s 0 s := ⟨Nat.zero_le _, List.drop_zero⟩

/-- At a position within a text stands what is left without the bytes before it: `At s p (s.drop p)`. -/
theorem at_drop (inside : p ≤ s.length) : At s p (s.drop p) := ⟨inside, rfl⟩

/-- A position and the length of what stands there make the length of the text: `p + t.length = s.length`. -/
theorem At.length (here : At s p t) : p + t.length = s.length := by
  obtain ⟨inside, rfl⟩ := here
  rw [List.length_drop]
  omega

/-- As much is left at one place only: `p = q`. -/
theorem At.unique (here : At s p t) (there : At s q t) : p = q := by
  have := here.length
  have := there.length
  omega

/-- Behind a piece of what is left stands the rest of it: `At s (p + t.length) u`. -/
theorem At.append (here : At s p (t ++ u)) : At s (p + t.length) u := by
  have total := here.length
  rw [List.length_append] at total
  refine ⟨by omega, ?_⟩
  rw [← List.drop_drop, here.2, List.drop_left]

/-- What a text ends with is what is left at some place: `∃ q, At s q u`. -/
theorem exists_at (here : At s p t) (behind : u <:+ t) : ∃ q, At s q u := by
  obtain ⟨before, rfl⟩ := behind
  exact ⟨p + before.length, here.append⟩

/-- Behind a byte stands what follows it: `At s (p + 1) t`. -/
theorem At.cons {b : UInt8} (here : At s p (b :: t)) : At s (p + 1) t := At.append (t := [b]) here

/-- A position with a byte lies within the text: `p < s.length`. -/
theorem At.lt {b : UInt8} (here : At s p (b :: t)) : p < s.length := by
  have := here.length
  rw [List.length_cons] at this
  omega

/-- Where nothing is left the text ends: `¬ p < s.length`. -/
theorem At.not_lt (here : At s p []) : ¬ p < s.length := Nat.not_lt.2 (Nat.le_of_eq here.length.symm)

/-- At a place stands the first byte of what is left: `s.getD p Byte.nul = b`. -/
theorem At.getD {b : UInt8} (here : At s p (b :: t)) : s.getD p Byte.nul = b := by
  have first := congrArg List.head? here.2
  rw [List.head?_drop, List.head?_cons] at first
  rw [List.getD_eq_getElem?_getD, first, Option.getD_some]

/-! ## Runs and what they leave -/

/-- The `run` within `s` from `p` ends with `ending`, in front of `left`. -/
structure Run.Ends (run : Run ε α) (s : Text) (p : Nat) (ending : Ending ε α) (left : Text) : Prop where
  /-- How it ends. -/
  ending : run.ending = ending
  /-- Where it ends. -/
  place : At s run.place left
  /-- How it goes there. -/
  trail : Trail s p run.accesses run.place

/-- Wherever `t` is left of `s`, the `scanner` ends with `ending` and leaves `left`. -/
def Takes (s : Text) (scanner : Scanner ε α) (t : Text) (ending : Ending ε α) (left : Text) : Prop :=
  ∀ p, At s p t → (scanner s p).Ends s p ending left

variable {scanner : Scanner ε α} {next : α → Scanner ε β} {ending : Ending ε β} {value : α} {fault : ε}

/-- A value is given without moving: `Takes s (pure value : Scanner ε α) t (.done value) t`. -/
theorem takes_pure (value : α) (t : Text) : Takes s (pure value : Scanner ε α) t (.done value) t :=
  fun _ here => ⟨rfl, here, .nil here.1⟩

/-- A failure is raised without moving: `Takes s (fail fault : Scanner ε α) t (.failed fault) t`. -/
theorem takes_fail (fault : ε) (t : Text) : Takes s (fail fault : Scanner ε α) t (.failed fault) t :=
  fun _ here => ⟨rfl, here, .nil here.1⟩

/-- A scanner that is done hands its value and its place on to the next: `Takes s (scanner >>= next) t ending v`. -/
theorem Takes.bind (first : Takes s scanner t (.done value) u) (rest : Takes s (next value) u ending v) :
    Takes s (scanner >>= next) t ending v := by
  intro p here
  obtain ⟨done, place, trail⟩ := first p here
  obtain ⟨ends, place', trail'⟩ := rest _ place
  have run : (scanner >>= next) s p = (scanner s p).andThen fun value q => next value s q := rfl
  rw [run, Run.andThen, done]
  exact ⟨ends, place', trail.append trail'⟩

/-- After a scanner that fails the next one is not run: `Takes s (scanner >>= next) t (.failed fault) u`. -/
theorem Takes.bind_failed (first : Takes s scanner t (.failed fault) u) :
    Takes s (scanner >>= next) t (.failed fault) u := by
  intro p here
  obtain ⟨failed, place, trail⟩ := first p here
  have run : (scanner >>= next) s p = (scanner s p).andThen fun value q => next value s q := rfl
  rw [run, Run.andThen, failed]
  exact ⟨rfl, place, trail⟩

/-- A scanner that asks where it stands is told a place where the text is left:
`Takes s (position >>= next) t ending u`. -/
theorem takes_position {next : Nat → Scanner ε β} (rest : ∀ p, At s p t → Takes s (next p) t ending u) :
    Takes s (position >>= next) t ending u :=
  fun p here => rest p here p here

/-- The length of the text is given without moving: `Takes s (extent : Scanner ε Nat) t (.done s.length) t`. -/
theorem takes_extent (t : Text) : Takes s (extent : Scanner ε Nat) t (.done s.length) t :=
  fun _ here => ⟨rfl, here, .nil here.1⟩

/-- A byte may be read wherever there is one: `Takes s (byteAt q : Scanner ε UInt8) t (.done b) t`. -/
theorem takes_byteAt {b : UInt8} (there : At s q (b :: u)) (t : Text) :
    Takes s (byteAt q : Scanner ε UInt8) t (.done b) t :=
  fun _ here => ⟨congrArg Ending.done there.getD, here, .cons there.lt (Nat.le_refl _) (.nil here.1)⟩

/-- A piece may be taken between its places when its first place is not the end of the text:
`Takes s (pieceOf q r : Scanner ε Text) t (.done u) t`. -/
theorem takes_pieceOf (start : At s q (u ++ v)) (stop : At s r v) (nonempty : u ++ v ≠ []) (t : Text) :
    Takes s (pieceOf q r : Scanner ε Text) t (.done u) t := by
  intro p here
  have behind := start.append.unique stop
  -- Something is left at the first place, so it is not the end of the text.
  have inside : q < s.length := by
    have := start.length
    have := List.length_pos_iff.2 nonempty
    omega
  have piece : (s.drop q).take (r - q) = u := by
    rw [start.2, ← behind, Nat.add_sub_cancel_left, List.take_left]
  exact ⟨congrArg Ending.done piece, here, .cons ⟨inside, by omega, stop.1⟩ (Nat.le_refl _) (.nil here.1)⟩

/-- Searching a separator in place is `Text.cut?`, whose first piece tells how far ahead it stands. -/
theorem takes_find (separator : Text) (there : At s q u) (t : Text) :
    Takes s (find separator q : Scanner ε _) t
      (.done ((Text.cut? separator u).map fun (before, _) => q + before.length)) t := by
  intro p here
  obtain ⟨inside, rfl⟩ := there
  exact ⟨rfl, here, .cons inside (Nat.le_refl _) (.nil here.1)⟩

/-- A move may go to any place at which no more is left: `Takes s (moveTo q : Scanner ε Unit) t (.done ()) u`. -/
theorem takes_moveTo (there : At s q u) (ahead : u.length ≤ t.length) :
    Takes s (moveTo q : Scanner ε Unit) t (.done ()) u := by
  intro p here
  have forward : p ≤ q := by
    have := here.length
    have := there.length
    omega
  exact ⟨rfl, there, .cons there.1 forward (.nil there.1)⟩

/-- The end is reached when nothing is left: `Takes s (atEnd : Scanner ε Bool) t (.done t.isEmpty) t`. -/
theorem takes_atEnd (t : Text) : Takes s (atEnd : Scanner ε Bool) t (.done t.isEmpty) t := by
  refine takes_position fun p here => (takes_extent t).bind ?_
  have ended : (!decide (p < s.length)) = t.isEmpty := by
    cases t with
    | nil => rw [decide_eq_false here.not_lt]; rfl
    | cons b t => rw [decide_eq_true here.lt]; rfl
  rw [ended]
  exact takes_pure _ _

/-- At the end of the text the byte zero is seen: `Takes s (peek : Scanner ε UInt8) [] (.done Byte.nul) []`. -/
theorem takes_peek_nil : Takes s (peek : Scanner ε UInt8) [] (.done Byte.nul) [] :=
  (takes_atEnd _).bind (takes_pure _ _)

/-- Elsewhere the next byte is seen: `Takes s (peek : Scanner ε UInt8) (b :: t) (.done b) (b :: t)`. -/
theorem takes_peek_cons {b : UInt8} : Takes s (peek : Scanner ε UInt8) (b :: t) (.done b) (b :: t) :=
  (takes_atEnd _).bind (takes_position fun _ here => takes_byteAt here _)

/-- Advancing takes the next byte: `Takes s (advance : Scanner ε UInt8) (b :: t) (.done b) t`. -/
theorem takes_advance {b : UInt8} : Takes s (advance : Scanner ε UInt8) (b :: t) (.done b) t := by
  refine takes_position fun p here => (takes_byteAt here _).bind ?_
  exact (takes_moveTo here.cons (Nat.le_succ _)).bind (takes_pure _ _)

/-- The expected byte is accepted: `Takes s (accept expected : Scanner ε Bool) (expected :: t) (.done true) t`. -/
theorem takes_accept {expected : UInt8} :
    Takes s (accept expected : Scanner ε Bool) (expected :: t) (.done true) t := by
  refine (takes_atEnd _).bind (takes_position fun p here => (takes_byteAt here _).bind ?_)
  rw [if_pos rfl]
  exact (takes_moveTo here.cons (Nat.le_succ _)).bind (takes_pure _ _)

/-- At the end of the text nothing is accepted: `Takes s (accept expected : Scanner ε Bool) [] (.done false) []`. -/
theorem takes_accept_nil {expected : UInt8} :
    Takes s (accept expected : Scanner ε Bool) [] (.done false) [] :=
  (takes_atEnd _).bind (takes_pure _ _)

/-- Any other byte is left where it is:
`Takes s (accept expected : Scanner ε Bool) (b :: t) (.done false) (b :: t)`. -/
theorem takes_accept_cons {b expected : UInt8} (other : b ≠ expected) :
    Takes s (accept expected : Scanner ε Bool) (b :: t) (.done false) (b :: t) := by
  refine (takes_atEnd _).bind (takes_position fun p here => (takes_byteAt here _).bind ?_)
  rw [if_neg other]
  exact takes_pure _ _

section Loops

variable {round : σ → Scanner ε (Round σ α)} {state later : σ} {ending : Ending ε α} {result : α}

/-- A round that leaves less is followed by the others: `Takes s (loop round state) t ending v`. -/
theorem takes_loop_again (first : Takes s (round state) t (.done (.again later)) u)
    (ahead : u.length < t.length) (rest : Takes s (loop round later) u ending v) :
    Takes s (loop round state) t ending v := by
  intro p here
  obtain ⟨done, place, trail⟩ := first p here
  obtain ⟨ends, place', trail'⟩ := rest _ place
  have forward : p < (round state s p).place ∧ (round state s p).place ≤ s.length := by
    have := here.length
    have := place.length
    omega
  rw [loop, Run.andThen, done]
  dsimp only
  rw [if_pos forward]
  exact ⟨ends, place', trail.append trail'⟩

/-- A loop is over after the round that says so: `Takes s (loop round state) t (.done result) u`. -/
theorem takes_loop_over (last : Takes s (round state) t (.done (.over result)) u) :
    Takes s (loop round state) t (.done result) u := by
  intro p here
  obtain ⟨done, place, trail⟩ := last p here
  rw [loop, Run.andThen, done]
  exact ⟨rfl, place, trail.append (.nil place.1)⟩

/-- A loop fails with the round that fails: `Takes s (loop round state) t (.failed fault) u`. -/
theorem takes_loop_failed (last : Takes s (round state) t (.failed fault) u) :
    Takes s (loop round state) t (.failed fault) u := by
  intro p here
  obtain ⟨failed, place, trail⟩ := last p here
  rw [loop, Run.andThen, failed]
  exact ⟨rfl, place, trail⟩

end Loops

/-- The bytes of a class are skipped: `Takes s (skipWhile keep : Scanner ε Unit) t (.done ()) (t.dropWhile keep)`. -/
theorem takes_skipWhile (keep : UInt8 → Bool) (t : Text) :
    Takes s (skipWhile keep : Scanner ε Unit) t (.done ()) (t.dropWhile keep) := by
  induction t with
  | nil => exact takes_loop_over ((takes_atEnd _).bind (takes_pure _ _))
  | cons b t ih =>
    rw [List.dropWhile_cons]
    cases kept : keep b with
    | true =>
      refine takes_loop_again ?_ (Nat.lt_succ_self _) ih
      refine (takes_atEnd _).bind (takes_peek_cons.bind ?_)
      rw [if_pos kept]
      exact takes_advance.bind (takes_pure _ _)
    | false =>
      refine takes_loop_over ((takes_atEnd _).bind (takes_peek_cons.bind ?_))
      rw [kept]
      exact takes_pure _ _

end OpCycle.Cursor
