import OpCycle.Proofs.Cli.Arguments
import OpCycle.Proofs.Cli.Rendering

/-! # Dealing in machine integers
The number of workers and the bounds of their slices are exact if they come out as in exact integers, with every
result on the way in 64 bits. A number of threads is read in 64 bits and kept in 32, and neither it nor a range of
cycles is compared with what the dealing has room for. So the dealing is exact for the numbers of threads that fit
in 32 bits, or that lose nothing when cut, and for the ranges that fit when multiplied by the number of workers.

* `requestedThreads`, `FitsWord`: what is asked for, and what 64 bits hold.
* `Job.DealsExactly`: a machine deals a job out as exact integers would.
* `dealsExactly_iff`, `dealing_exact_iff`: when the machine of the program does. -/

namespace OpCycle.Cli

/-! ## The number of threads -/

/-- A number of threads is accepted if it is an integer from one on, and kept in 32 bits:
`readThreads? s = some threads ↔ ∃ n, Decimal.readInt64? s = some n ∧ 1 ≤ n ∧ threads = n.toInt32`. -/
theorem readThreads?_eq_some_iff {s : Text} {threads : Int32} :
    readThreads? s = some threads ↔ ∃ n, Decimal.readInt64? s = some n ∧ 1 ≤ n ∧ threads = n.toInt32 := by
  rw [readThreads?]
  constructor
  · intro read
    obtain ⟨n, said, kept⟩ := Option.bind_eq_some_iff.1 read
    split at kept
    · cases kept
    next positive =>
    cases kept
    exact ⟨n, said, Int64.not_lt.1 positive, rfl⟩
  · rintro ⟨n, said, positive, rfl⟩
    rw [said]
    exact if_neg (Int64.not_lt.2 positive)

/-- The number of threads that `args` ask for: what the last value of `--threads` says in full, and where there is
none what `job` got from its settings. -/
def requestedThreads (args : List Text) (job : Job) : Int :=
  match (valuesOf "--threads" args).getLast?.bind Decimal.readInt64? with
  | some n => n.toInt
  | none => job.threads.toInt

/-- The number of threads of a job is `requestedThreads`, cut to 32 bits, where a positive number that fits loses
nothing. -/
theorem threads_of_prepare {directory : Directory} {args : List Text} {workload : Text} {o : Options} {job : Job}
    (request : Request.read args = .ok (.render workload o)) (prepared : prepare directory workload o = .ok job) :
    job.threads.toInt = (requestedThreads args job).bmod (2 ^ 32) ∧
      (requestedThreads args job < 2 ^ 31 → job.threads.toInt = requestedThreads args job) := by
  obtain ⟨engine, w, activity, -, -, -, -, made⟩ := prepare_eq_ok prepared
  obtain ⟨readable, last⟩ := governs_threads.of_request rfl request
  have threads : job.threads =
      ((valuesOf "--threads" args).getLast?.bind readThreads?).getD
        (activity.readOr Value.toInt32? "threads" engine.render.threads) := by
    rw [made, jobOf, last]
    rfl
  rw [requestedThreads]
  cases final : (valuesOf "--threads" args).getLast? with
  | none => exact ⟨job.threads.toInt_bmod.symm, fun _ => rfl⟩
  | some s =>
    obtain ⟨kept, read⟩ := Option.isSome_iff_exists.1 (readable s (List.mem_of_getLast? final))
    obtain ⟨n, said, positive, rfl⟩ := readThreads?_eq_some_iff.1 read
    have least : 1 ≤ n.toInt := Int64.le_iff_toInt_le.1 positive
    rw [threads, final, Option.bind_some, Option.bind_some, read, said, Option.getD_some, Int64.toInt_toInt32]
    dsimp only
    exact ⟨rfl, fun few => Int.bmod_eq_of_le (by omega) (by omega)⟩

/-! ## Exact dealing -/

/-- The integer is in the range of 64 bits: `-2 ^ 63 ≤ n ∧ n < 2 ^ 63`. -/
def FitsWord (n : Int) : Prop := -2 ^ 63 ≤ n ∧ n < 2 ^ 63

/-- Whether an integer fits a word is decided by its two comparisons. -/
instance (n : Int) : Decidable (FitsWord n) := inferInstanceAs (Decidable (-2 ^ 63 ≤ n ∧ n < 2 ^ 63))

namespace Job

/-- The number of cycles of `job`, in exact integers. -/
def total (job : Job) : Int := job.stop.toInt - job.start.toInt

/-- The `machine` deals `job` out exactly to the number of threads that is `requested`. -/
structure DealsExactly (job : Job) (machine : Machine) (requested : Int) : Prop where
  /-- There are as many workers as are asked for, but no more than cycles, and at least one. -/
  workers : (machine.workers job : Int) = max 1 (min requested job.total)
  /-- The number of cycles fits. -/
  total : FitsWord job.total
  /-- Its products with the numbers up to the number of workers fit. -/
  products : ∀ worker ≤ machine.workers job, FitsWord (job.total * worker)
  /-- The bounds of the slices fit. -/
  sums : ∀ worker ≤ machine.workers job,
    FitsWord (job.start.toInt + job.total * worker / machine.workers job)
  /-- Each slice starts at its bound, and so each but the last stops at the next one. -/
  bounds : ∀ worker ≤ machine.workers job, (machine.sliceStart job worker).toInt =
    job.start.toInt + job.total * worker / machine.workers job

variable {job : Job} {room : Room}

/-- The number of workers, whatever fits:
`((Machine.words room).workers job : Int) = max 1 (min job.threads.toInt (job.total.bmod (2 ^ 64)))`. -/
theorem workers_words (job : Job) (room : Room) :
    ((Machine.words room).workers job : Int) = max 1 (min job.threads.toInt (job.total.bmod (2 ^ 64))) := by
  show ((workerCount job.threads (job.stop - job.start) : Nat) : Int) = _
  rw [workerCount, Int64.toInt_sub, total]
  omega

/-- The number of workers in exact integers is at least one:
`(job.workers : Int) = max 1 (min job.threads.toInt job.total)`. -/
theorem workers_eq (job : Job) : (job.workers : Int) = max 1 (min job.threads.toInt job.total) := by
  rw [workers, total]
  omega

/-- A range in order is dealt out exactly if the number of cycles times the number of workers fits, to the number of
threads of the job: `job.DealsExactly (.words room) job.threads.toInt`. -/
theorem dealsExactly_of_fits (ordered : job.start ≤ job.stop) (fits : job.total * job.workers < 2 ^ 63) :
    job.DealsExactly (.words room) job.threads.toInt := by
  have small := total_lt_of_fits ordered fits
  have nonneg : 0 ≤ job.total := total_nonneg ordered
  have used := Machine.workers_words ordered small room
  have low := job.start.le_toInt
  have high := job.stop.toInt_lt
  have bound_eq (worker : Nat) : job.start.toInt + job.total * worker / job.workers = job.bound worker := rfl
  -- `fits` bounds the largest product; every other value is at most it, or a position between the ends.
  refine ⟨by rw [used, workers_eq], ⟨by omega, small⟩, ?products, ?sums, ?bounds⟩
  all_goals
    rw [used]
    intro worker among
  case products =>
    have least : 0 ≤ job.total * worker := Int.mul_nonneg nonneg (Int.natCast_nonneg worker)
    have most : job.total * worker < 2 ^ 63 :=
      calc job.total * worker ≤ job.total * job.workers := Int.mul_le_mul_of_nonneg_left (by omega) nonneg
        _ < 2 ^ 63 := fits
    exact ⟨by omega, most⟩
  case sums =>
    obtain ⟨reached, within⟩ := bound_within ordered among
    rw [bound_eq]
    exact ⟨by omega, by omega⟩
  case bounds =>
    show (Cli.sliceStart job.start (job.stop - job.start) ((Machine.words room).workers job) worker).toInt = _
    rw [used, toInt_sliceStart ordered fits among, bound_eq]

/-- With a number of threads that the job keeps where it fits, `Machine.words` deals a range in order out exactly if
and only if the number of cycles times the number of workers `FitsWord` and no worker is lost to the cut. -/
theorem dealsExactly_iff (ordered : job.start ≤ job.stop) {requested : Int}
    (kept : requested < 2 ^ 31 → job.threads.toInt = requested) :
    job.DealsExactly (.words room) requested ↔
      (requested < 2 ^ 31 ∨ job.total ≤ max 1 job.threads.toInt) ∧ job.total * job.workers < 2 ^ 63 := by
  have few := job.threads.toInt_lt
  constructor
  · intro dealt
    -- The number of cycles fits, so the workers are as many as in exact integers.
    have used := Machine.workers_words ordered dealt.total.2 room
    have number := dealt.workers
    rw [used, workers_eq] at number
    refine ⟨?_, used ▸ (dealt.products _ (Nat.le_refl _)).2⟩
    -- A number that does not fit is greater than what is left of it.
    by_cases fits : requested < 2 ^ 31
    · exact .inl fits
    · exact .inr (by omega)
  · rintro ⟨harmless, fits⟩
    -- All but the number of workers is about the threads of the job alone.
    have dealt : job.DealsExactly (.words room) job.threads.toInt := dealsExactly_of_fits ordered fits
    refine ⟨dealt.workers.trans ?_, dealt.total, dealt.products, dealt.sums, dealt.bounds⟩
    by_cases small : requested < 2 ^ 31
    · rw [kept small]
    · have rest := harmless.resolve_left small
      omega

end Job

/-! ## The program -/

/-- **Dealing is exact where what is accepted fits.** Take a call with a job over a range in order. Each number of
threads that was given is an integer from one on, and the last of them is `requestedThreads`; the job keeps it cut to
32 bits, and takes as many workers as that, but no more than its number of cycles cut to 64 bits, and at least one.
The machine `DealsExactly` (the number of workers is the one for the number asked for, and the number of cycles, its
products and the bounds of the slices are those of exact integers, each of which `FitsWord`) exactly if the number
asked for fits in 32 bits, or is enough for all cycles even when cut, and the number of cycles times the number of
workers `FitsWord`. -/
theorem dealing_exact_iff {directory : Directory} {args : List Text} {workload : Text} {o : Options} {job : Job}
    (request : Request.read args = .ok (.render workload o)) (prepared : prepare directory workload o = .ok job)
    (ordered : job.start ≤ job.stop) :
    (∀ room, run directory args (.words room) = job.run (.words room)) ∧
    (∀ s ∈ valuesOf "--threads" args, ∃ n, Decimal.readInt64? s = some n ∧ 1 ≤ n) ∧
    job.threads.toInt = (requestedThreads args job).bmod (2 ^ 32) ∧
    ∀ room, ((Machine.words room).workers job : Int) =
        max 1 (min job.threads.toInt (job.total.bmod (2 ^ 64))) ∧
      (job.DealsExactly (.words room) (requestedThreads args job) ↔
        (requestedThreads args job < 2 ^ 31 ∨ job.total ≤ max 1 job.threads.toInt) ∧
          job.total * job.workers < 2 ^ 63) := by
  obtain ⟨cut, kept⟩ := threads_of_prepare request prepared
  refine ⟨fun room => ?_, fun s given => ?_, cut, fun room => ⟨job.workers_words room, Job.dealsExactly_iff ordered kept⟩⟩
  · rw [run_of_request request, prepared]
  · obtain ⟨readable, -⟩ := governs_threads.of_request rfl request
    obtain ⟨threads, read⟩ := Option.isSome_iff_exists.1 (readable s given)
    obtain ⟨n, said, positive, -⟩ := readThreads?_eq_some_iff.1 read
    exact ⟨n, said, positive⟩

/-- Three cycles are dealt out exactly to two workers. -/
theorem dealing_exact_iff_sample :
    ∃ job, Request.read countArgs = .ok (.render "w.yaml" countOptions) ∧
      prepare (opsDirectory [countOp]) "w.yaml" countOptions = .ok job ∧ job.start ≤ job.stop ∧ job.total = 3 ∧
      job.DealsExactly (.words ⟨2, 0⟩) 2 ∧ (Machine.words ⟨2, 0⟩).workers job = 2 := by
  obtain ⟨job, prepared, facts⟩ := Outcome.exists_ok_of_test
    (x := prepare (opsDirectory [countOp]) "w.yaml" countOptions)
    (fun job => decide (job.start ≤ job.stop ∧ job.total = 3 ∧ job.total * job.workers < 2 ^ 63 ∧
      (Machine.words ⟨2, 0⟩).workers job = 2)) (by decide +kernel)
  obtain ⟨ordered, three, fits, two⟩ := of_decide_eq_true facts
  have request : Request.read countArgs = .ok (.render "w.yaml" countOptions) := rfl
  have asked : requestedThreads countArgs job = 2 := rfl
  obtain ⟨-, -, -, dealing⟩ := dealing_exact_iff request prepared ordered
  obtain ⟨-, dealt_iff⟩ := dealing ⟨2, 0⟩
  rw [asked] at dealt_iff
  exact ⟨job, request, prepared, ordered, three, dealt_iff.2 ⟨.inl (by decide), fits⟩, two⟩

/-- There is no room for more lines than can be set aside: `room.holds plans start stop = false`. -/
theorem Room.holds_eq_false {room : Room} {plans : List Plan} {start stop : Int64}
    (crowded : room.lines < ((stop - start).toUInt64 * plans.length.toUInt64).toNat) :
    room.holds plans start stop = false := by
  rw [holds, decide_eq_false (Nat.not_le.2 crowded), Bool.false_and]

/-- A job with too little room for its first slice fails: `job.run machine = .failure 1`. -/
theorem Job.run_of_no_room {machine : Machine} (ordered : job.start ≤ job.stop) (some : 0 < machine.workers job)
    (full : machine.hasRoom job (machine.sliceStart job 0) (machine.sliceStart job 1) = false) :
    job.run machine = .failure 1 := by
  obtain ⟨others, count⟩ := Nat.exists_eq_add_of_lt some
  rw [run, if_neg (Int64.not_lt.2 ordered), lines, count, collect, slice, full]
  rfl

/-- The arguments that ask for a range over all of `Int64`. -/
def wideArgs : List Text := ["w.yaml", "--cycles", "-9223372036854775808..9223372036854775807"]

/-- The options that `wideArgs` read as. -/
def wideOptions : Options :=
  { workload := some "w.yaml", start := some (-9223372036854775808), stop := some 9223372036854775807 }

/-- The range of `wideArgs` is accepted although its number of cycles does not fit, and fails for want of room when
its lines are counted in 64 bits; and a number of threads past 32 bits is accepted although it is cut, here to one
worker in place of three. -/
theorem accepted_beyond_words :
    (∃ job, Request.read wideArgs = .ok (.render "w.yaml" wideOptions) ∧
      prepare (opsDirectory [countOp]) "w.yaml" wideOptions = .ok job ∧
      job.start ≤ job.stop ∧ ¬ FitsWord job.total ∧
      ∀ room : Room, room.lines < 2 ^ 64 - 1 →
        run (opsDirectory [countOp]) wideArgs (.words room) = .failure 1) ∧
    ∃ o job, Request.read ["w.yaml", "--threads", "4294967297", "--cycles", "0..3"] = .ok (.render "w.yaml" o) ∧
      prepare (opsDirectory [countOp]) "w.yaml" o = .ok job ∧ job.start ≤ job.stop ∧
      requestedThreads ["w.yaml", "--threads", "4294967297", "--cycles", "0..3"] job = 4294967297 ∧
      (max 1 (min 4294967297 job.total) : Int) = 3 ∧ ∀ room, (Machine.words room).workers job = 1 := by
  constructor
  · have request : Request.read wideArgs = .ok (.render "w.yaml" wideOptions) := rfl
    obtain ⟨job, prepared, facts⟩ := Outcome.exists_ok_of_test
      (x := prepare (opsDirectory [countOp]) "w.yaml" wideOptions)
      (fun job => decide (job.start ≤ job.stop ∧ ¬ FitsWord job.total ∧
        workerCount job.threads (job.stop - job.start) = 1 ∧
        (((Machine.words ⟨0, 0⟩).sliceStart job 1 - (Machine.words ⟨0, 0⟩).sliceStart job 0).toUInt64 *
          job.plans.length.toUInt64).toNat = 2 ^ 64 - 1)) (by decide +kernel)
    obtain ⟨ordered, wide, one, lines⟩ := of_decide_eq_true facts
    refine ⟨job, request, prepared, ordered, wide, fun room few => ?_⟩
    have workers : (Machine.words room).workers job = 1 := one
    -- Where a slice starts does not depend on the room.
    have full := Room.holds_eq_false (few.trans_eq lines.symm)
    rw [run_of_request request, prepared]
    exact Job.run_of_no_room ordered (workers ▸ Nat.one_pos) full
  · obtain ⟨job, prepared, facts⟩ := Outcome.exists_ok_of_test
      (x := prepare (opsDirectory [countOp]) "w.yaml"
        { workload := some "w.yaml", start := some 0, stop := some 3, threads := some 1 })
      (fun job => decide (job.start ≤ job.stop ∧ (max 1 (min 4294967297 job.total) : Int) = 3 ∧
        workerCount job.threads (job.stop - job.start) = 1)) (by decide +kernel)
    obtain ⟨ordered, three, one⟩ := of_decide_eq_true facts
    exact ⟨_, job, rfl, prepared, ordered, rfl, three, fun room => one⟩

end OpCycle.Cli
