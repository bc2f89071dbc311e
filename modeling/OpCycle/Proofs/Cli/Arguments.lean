import OpCycle.Cli.Options
import OpCycle.Proofs.Outcome

/-! # Arguments in order
The reader goes through the arguments from left to right, each of them with the one behind it where that is its
value. So an option that alone governs some of what is asked for leaves there what its last value says, and each of
its values has been read.

* `pieces`, `Options.take`: the arguments with their values, and the step of the reader.
* `readAll_eq_foldlM`: the reader is a run of the step over the pieces.
* `Governs`, `Governs.foldlM_take`: the last value of an option counts. -/

namespace OpCycle.Cli

/-! ## One argument after another -/

/-- The argument takes the one behind it as its value: `--config`, `--cycles`, `--threads` and `--op` do. -/
def TakesValue (arg : Text) : Prop := arg = "--config" ∨ arg = "--cycles" ∨ arg = "--threads" ∨ arg = "--op"

/-- Whether an argument takes a value is decided by comparing it with the options that do. -/
instance (arg : Text) : Decidable (TakesValue arg) :=
  inferInstanceAs (Decidable (arg = "--config" ∨ arg = "--cycles" ∨ arg = "--threads" ∨ arg = "--op"))

/-- The arguments in order, each with the one behind it where it `TakesValue`. -/
def pieces : List Text → List (Text × Option Text)
  | [] => []
  | arg :: rest =>
    if TakesValue arg then
      match rest with
      | [] => [(arg, none)]
      | value :: rest => (arg, some value) :: pieces rest
    else (arg, none) :: pieces rest

/-- Sets the cycles as `readCycles? s` says, if it accepts `s`, and tells whether it does. -/
def Options.takeCycles (o : Options) (s : Text) : Bool × Options :=
  match readCycles? s with
  | some (start, stop) => (true, { o with start := some start, stop := some stop })
  | none => (false, o)

/-- Reads one argument, with its value if it has one, on top of `o`. -/
def Options.take (o : Options) : Text × Option Text → Except Text Options
  | (arg, value) =>
    if arg = "--config" then
      match value with
      | none => .error (missingValue arg)
      | some value => .ok { o with engine := name? value }
    else if arg = "--cycles" then
      match value with
      | none => .error (missingValue arg ++ "invalid cycle range\n")
      | some value =>
        match o.takeCycles value with
        | (true, o) => .ok o
        | (false, _) => .error "invalid cycle range\n"
    else if arg = "--threads" then
      match value with
      | none => .error (missingValue arg ++ "invalid thread count\n")
      | some value =>
        match readThreads? value with
        | some threads => .ok { o with threads := some threads }
        | none => .error "invalid thread count\n"
    else if arg = "--op" then
      match value with
      | none => .error (missingValue arg)
      | some value => .ok { o with op := name? value }
    else if arg = "--pretty" then .ok { o with pretty := true }
    else if arg = "--functions" then .ok { o with listFunctions := true }
    else if arg = "-h" ∨ arg = "--help" then .error []
    else if arg.contains Byte.equals then .ok { o with params := o.params ++ [arg] }
    else if o.workload.isNone then .ok { o with workload := name? arg }
    else .error ("unexpected argument: " ++ arg ++ "\n")

/-- An argument that takes a value is read with the one behind it:
`o.readAll (arg :: value :: rest) = o.take (arg, some value) >>= fun o => o.readAll rest`. -/
theorem readAll_given (o : Options) {arg : Text} (takes : TakesValue arg) (value : Text) (rest : List Text) :
    o.readAll (arg :: value :: rest) = o.take (arg, some value) >>= fun o => o.readAll rest := by
  rcases takes with rfl | rfl | rfl | rfl
  · rfl
  · show (match readCycles? value with
      | some (start, stop) => { o with start := some start, stop := some stop }.readAll rest
      | none => .error "invalid cycle range\n") = o.take ("--cycles", some value) >>= fun o => o.readAll rest
    rw [Options.take, if_neg (by decide), if_pos rfl, Options.takeCycles]
    cases readCycles? value with
    | none => rfl
    | some range => rfl
  · rw [Options.take, if_neg (by decide), if_neg (by decide), if_pos rfl, Options.readAll, if_neg (by decide),
      if_neg (by decide), if_pos rfl]
    cases readThreads? value with
    | none => rfl
    | some threads => rfl
  · rfl

/-- Where the value is missing, the argument is refused:
`o.readAll [arg] = o.take (arg, none) >>= fun o => o.readAll []`. -/
theorem readAll_missing (o : Options) {arg : Text} (takes : TakesValue arg) :
    o.readAll [arg] = o.take (arg, none) >>= fun o => o.readAll [] := by
  rcases takes with rfl | rfl | rfl | rfl <;> rfl

/-- Any other argument is read by itself:
`o.readAll (arg :: rest) = o.take (arg, none) >>= fun o => o.readAll rest`. -/
theorem readAll_alone (o : Options) {arg : Text} (alone : ¬ TakesValue arg) (rest : List Text) :
    o.readAll (arg :: rest) = o.take (arg, none) >>= fun o => o.readAll rest := by
  simp only [TakesValue, not_or] at alone
  obtain ⟨notEngine, notCycles, notThreads, notOp⟩ := alone
  rw [Options.readAll.eq_def, Options.take]
  dsimp only
  rw [if_neg notEngine, if_neg notCycles, if_neg notThreads, if_neg notOp, if_neg notEngine, if_neg notCycles,
    if_neg notThreads, if_neg notOp]
  -- The branches that are left test the same on both sides.
  repeat' split
  all_goals rfl

/-- Arguments are read one after another: `o.readAll args = (pieces args).foldlM Options.take o`. -/
theorem readAll_eq_foldlM (o : Options) (args : List Text) : o.readAll args = (pieces args).foldlM Options.take o := by
  fun_induction pieces args generalizing o with
  | case1 => rfl
  | case2 arg takes => exact readAll_missing o takes
  | case3 arg takes value rest ih =>
    rw [readAll_given o takes value rest, List.foldlM_cons]
    exact bind_congr ih
  | case4 arg rest alone ih =>
    rw [readAll_alone o alone, List.foldlM_cons]
    exact bind_congr ih

/-! ## What one argument changes -/

/-- `takeCycles` accepts a text exactly if `readCycles?` reads a range, and then that range is set and nothing
else. -/
theorem takeCycles_eq_true {o o' : Options} {s : Text} :
    o.takeCycles s = (true, o') ↔ ∃ start stop,
      readCycles? s = some (start, stop) ∧ o' = { o with start := some start, stop := some stop } := by
  rw [Options.takeCycles]
  cases readCycles? s with
  | none => simp
  | some range =>
    constructor
    · intro taken
      cases taken
      exact ⟨_, _, rfl, rfl⟩
    · rintro ⟨start, stop, read, rfl⟩
      cases read
      rfl

/-- A text that is refused as the cycles changes nothing:
`o.takeCycles s = (false, o') ↔ readCycles? s = none ∧ o' = o`. -/
theorem takeCycles_eq_false {o o' : Options} {s : Text} :
    o.takeCycles s = (false, o') ↔ readCycles? s = none ∧ o' = o := by
  rw [Options.takeCycles]
  cases readCycles? s with
  | none => simp [eq_comm]
  | some range => simp

/-- What `take` changes of the cycles and of the number of threads, where it accepts the argument. -/
theorem take_eq_ok {o o' : Options} {arg : Text} {value : Option Text} (taken : o.take (arg, value) = .ok o') :
    (arg = "--cycles" ∧ ∃ s, value = some s ∧ o.takeCycles s = (true, o')) ∨
    (arg = "--threads" ∧ ∃ s threads, value = some s ∧ readThreads? s = some threads ∧
      o' = { o with threads := some threads }) ∨
    (arg ≠ "--cycles" ∧ arg ≠ "--threads" ∧ o'.start = o.start ∧ o'.stop = o.stop ∧ o'.threads = o.threads) := by
  by_cases cycles : arg = "--cycles"
  · subst cycles
    rw [Options.take.eq_def] at taken
    dsimp only at taken
    rw [if_neg (by decide), if_pos rfl] at taken
    cases value with
    | none => cases taken
    | some s =>
      dsimp only at taken
      split at taken
      · next accepted =>
        cases taken
        exact .inl ⟨rfl, s, rfl, accepted⟩
      · cases taken
  by_cases threads : arg = "--threads"
  · subst threads
    rw [Options.take.eq_def] at taken
    dsimp only at taken
    rw [if_neg (by decide), if_neg (by decide), if_pos rfl] at taken
    cases value with
    | none => cases taken
    | some s =>
      dsimp only at taken
      split at taken
      · next threads read =>
        cases taken
        exact .inr (.inl ⟨rfl, s, threads, rfl, read, rfl⟩)
      · cases taken
  -- No other argument sets these fields, whichever branch reads it.
  refine .inr (.inr ⟨cycles, threads, ?_⟩)
  rw [Options.take.eq_def] at taken
  dsimp only at taken
  rw [if_neg cycles, if_neg threads] at taken
  repeat' split at taken
  all_goals cases taken <;> exact ⟨rfl, rfl, rfl⟩

/-! ## Options that govern a part -/

/-- The values that the pieces `given` give `option`, in order. -/
def valuesIn (option : Text) (given : List (Text × Option Text)) : List Text :=
  given.filterMap fun piece => if piece.1 = option then piece.2 else none

/-- A value given to an option is one of the option's values:
`valuesIn option ((option, some value) :: rest) = value :: valuesIn option rest`. -/
@[simp] theorem valuesIn_cons_self (option value : Text) (rest : List (Text × Option Text)) :
    valuesIn option ((option, some value) :: rest) = value :: valuesIn option rest := by
  simp [valuesIn]

/-- A value given to another option is not: `valuesIn option ((arg, value) :: rest) = valuesIn option rest`. -/
theorem valuesIn_cons_of_ne {option arg : Text} (other : arg ≠ option) (value : Option Text)
    (rest : List (Text × Option Text)) : valuesIn option ((arg, value) :: rest) = valuesIn option rest := by
  simp [valuesIn, other]

/-- The values that `args` give `option`, in order. -/
def valuesOf (option : Text) (args : List Text) : List Text := valuesIn option (pieces args)

/-- The `option` governs a `part` of the options if it alone sets this part, to what its value says:
`said (read value)`. -/
structure Governs {α β : Type} (option : Text) (read : Text → Option α) (part : Options → β)
    (said : Option α → β) : Prop where
  /-- The option is accepted with a value that can be read, and sets the part. -/
  given : ∀ {o o' : Options} {value : Option Text}, o.take (option, value) = .ok o' →
    ∃ s x, value = some s ∧ read s = some x ∧ part o' = said (some x)
  /-- Any other argument leaves the part alone. -/
  kept : ∀ {o o' : Options} {arg : Text} {value : Option Text}, arg ≠ option →
    o.take (arg, value) = .ok o' → part o' = part o

/-- The last value of an option that `Governs` a part says what the part is in the end, and every value can be
read. -/
theorem Governs.foldlM_take {α β : Type} {option : Text} {read : Text → Option α} {part : Options → β}
    {said : Option α → β} (governs : Governs option read part said) {given : List (Text × Option Text)}
    {o o' : Options} (taken : given.foldlM Options.take o = .ok o') :
    (∀ s ∈ valuesIn option given, (read s).isSome) ∧
      part o' = match (valuesIn option given).getLast? with
        | none => part o
        | some s => said (read s) := by
  induction given generalizing o with
  | nil =>
    cases taken
    exact ⟨fun s mem => (List.not_mem_nil mem).elim, rfl⟩
  | cons piece rest ih =>
    obtain ⟨arg, value⟩ := piece
    rw [List.foldlM_cons] at taken
    obtain ⟨between, first, taken⟩ := Outcome.bind_eq_ok.1 taken
    obtain ⟨readable, last⟩ := ih taken
    by_cases own : arg = option
    · subst own
      obtain ⟨s, x, rfl, known, set⟩ := governs.given first
      rw [valuesIn_cons_self, List.getLast?_cons]
      refine ⟨List.forall_mem_cons.2 ⟨by rw [known]; rfl, readable⟩, last.trans ?_⟩
      -- A later value overrides this one.
      cases (valuesIn arg rest).getLast? with
      | none => exact set.trans (congrArg said known.symm)
      | some later => rfl
    · rw [valuesIn_cons_of_ne own, ← governs.kept own first]
      exact ⟨readable, last⟩

/-- The cycles are governed by `--cycles`. -/
theorem governs_cycles :
    Governs "--cycles" readCycles? (fun o => (o.start, o.stop))
      fun range => (range.map Prod.fst, range.map Prod.snd) where
  given taken := by
    rcases take_eq_ok taken with ⟨-, s, rfl, accepted⟩ | ⟨other, -⟩ | ⟨other, -⟩
    · obtain ⟨start, stop, read, rfl⟩ := takeCycles_eq_true.1 accepted
      exact ⟨s, (start, stop), rfl, read, rfl⟩
    · exact absurd other (by decide)
    · exact absurd rfl other
  kept other taken := by
    rcases take_eq_ok taken with ⟨own, -⟩ | ⟨-, s, threads, -, -, rfl⟩ | ⟨-, -, start, stop, -⟩
    · exact absurd own other
    · rfl
    · rw [start, stop]

/-- The number of threads is governed by one option:
`Governs "--threads" readThreads? Options.threads id`. -/
theorem governs_threads : Governs "--threads" readThreads? Options.threads id where
  given taken := by
    rcases take_eq_ok taken with ⟨other, -⟩ | ⟨-, s, threads, rfl, read, rfl⟩ | ⟨-, other, -⟩
    · exact absurd other (by decide)
    · exact ⟨s, threads, rfl, read, rfl⟩
    · exact absurd rfl other
  kept other taken := by
    rcases take_eq_ok taken with ⟨-, s, -, accepted⟩ | ⟨own, -⟩ | ⟨-, -, -, -, threads⟩
    · obtain ⟨start, stop, -, rfl⟩ := takeCycles_eq_true.1 accepted
      rfl
    · exact absurd own other
    · exact threads

/-! ## What is asked for in the end -/

/-- A call that asks for rendering has read all of its arguments: `(pieces args).foldlM Options.take {} = .ok o`. -/
theorem foldlM_take_of_request {args : List Text} {workload : Text} {o : Options}
    (request : Request.read args = .ok (.render workload o)) : (pieces args).foldlM Options.take {} = .ok o := by
  rw [← readAll_eq_foldlM]
  unfold Request.read at request
  split at request
  · cases request
  · next o' read =>
    rw [read]
    split at request
    · next asked =>
      cases request
      rw [Options.request?] at asked
      split at asked
      · cases asked
      · obtain ⟨_, -, asked⟩ := Option.map_eq_some_iff.1 asked
        cases asked
        rfl
    · cases request

/-- An option that governs a part that nothing is said about at first leaves there what its last value says:
`(∀ s ∈ valuesOf option args, (read s).isSome) ∧ part o = said ((valuesOf option args).getLast?.bind read)`. -/
theorem Governs.of_request {α β : Type} {option : Text} {read : Text → Option α} {part : Options → β}
    {said : Option α → β} (governs : Governs option read part said) (initial : part {} = said none)
    {args : List Text} {workload : Text} {o : Options}
    (request : Request.read args = .ok (.render workload o)) :
    (∀ s ∈ valuesOf option args, (read s).isSome) ∧ part o = said ((valuesOf option args).getLast?.bind read) := by
  obtain ⟨readable, last⟩ := governs.foldlM_take (foldlM_take_of_request request)
  refine ⟨readable, last.trans ?_⟩
  rw [valuesOf]
  cases (valuesIn option (pieces args)).getLast? with
  | none => exact initial
  | some s => rfl

end OpCycle.Cli
