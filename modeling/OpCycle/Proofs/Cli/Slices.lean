import Mathlib
import OpCycle.Cli.Render

/-! # Dealing cycles out to workers
In exact integers the slices of the workers start where the range starts, each stops where the next one
starts, and the last one stops where the range stops; so together they are the cycles of the range in
order, whatever the number of workers. The program deals in 64-bit arithmetic, which is exact as long as
the number of cycles times the number of workers fits.

* `Machine.unbounded`: the machine that deals in exact integers.
* `Machine.Serves`: a machine deals a job out as that one does, and has the room.
* `flatMap_bound`: the slices are the cycles of the range in order. -/

namespace OpCycle.Cli

/-! ## Cycles in a row -/

/-- The cycles from `start` on to before `stop`, in ascending order, for integers. -/
def span (start stop : Int) : List Int64 :=
  (List.range (stop - start).toNat).map fun i : Nat => Int64.ofInt (start + i)

/-- The cycles from `start` to before `stop`, in ascending order. -/
def cycles (start stop : Int64) : List Int64 := span start.toInt stop.toInt

/-- A span has as many integers as its ends are apart: `(span start stop).length = (stop - start).toNat`. -/
@[simp] theorem length_span (start stop : Int) : (span start stop).length = (stop - start).toNat := by
  rw [span, List.length_map, List.length_range]

/-- Spans that follow each other are one span: `span first next ++ span next last = span first last`. -/
theorem span_append {first next last : Int} (before : first ≤ next) (after : next ≤ last) :
    span first next ++ span next last = span first last := by
  have lengths : (last - first).toNat = (next - first).toNat + (last - next).toNat := by omega
  have second : span next last =
      ((List.range (last - next).toNat).map fun i => (next - first).toNat + i).map
        fun i : Nat => Int64.ofInt (first + i) := by
    rw [span, List.map_map]
    refine List.map_congr_left fun i _ => ?_
    have same : next + i = first + ((next - first).toNat + i : Nat) := by omega
    exact congrArg Int64.ofInt same
  rw [second, span, span, lengths, List.range_add, List.map_append]

/-- A cycle of a range is one that is not before the first and before the last:
`cycle ∈ cycles start stop ↔ start ≤ cycle ∧ cycle < stop`. -/
theorem mem_cycles {start stop cycle : Int64} :
    cycle ∈ cycles start stop ↔ start ≤ cycle ∧ cycle < stop := by
  rw [cycles, span, List.mem_map, Int64.le_iff_toInt_le, Int64.lt_iff_toInt_lt]
  have low := start.le_toInt
  have high := stop.toInt_lt
  constructor
  · rintro ⟨i, mem, rfl⟩
    rw [List.mem_range] at mem
    rw [Int64.toInt_ofInt_of_le (by omega) (by omega)]
    omega
  · rintro ⟨reached, before⟩
    refine ⟨(cycle.toInt - start.toInt).toNat, List.mem_range.2 (by omega), ?_⟩
    have same : start.toInt + ((cycle.toInt - start.toInt).toNat : Nat) = cycle.toInt := by omega
    rw [same, Int64.ofInt_toInt]

/-- Bounds that never fall from one to the next do not fall at all: `bound i ≤ bound j`. -/
theorem bounds_rise {bound : Nat → Int} (rises : ∀ i, bound i ≤ bound (i + 1)) {i j : Nat} (upTo : i ≤ j) :
    bound i ≤ bound j := by
  induction upTo with
  | refl => exact Int.le_refl _
  | step _ ih => exact Int.le_trans ih (rises _)

/-- Spans between bounds that do not fall are one span from the first bound to the last:
`((List.range count).flatMap fun i => span (bound i) (bound (i + 1))) = span (bound 0) (bound count)`. -/
theorem flatMap_span {bound : Nat → Int} (rises : ∀ i, bound i ≤ bound (i + 1)) (count : Nat) :
    ((List.range count).flatMap fun i => span (bound i) (bound (i + 1))) =
      span (bound 0) (bound count) := by
  induction count with
  | zero => simp [span]
  | succ count ih =>
    rw [List.range_succ, List.flatMap_append, ih, List.flatMap_singleton,
      span_append (bounds_rise rises (Nat.zero_le count)) (rises count)]

/-! ## The exact deal -/

namespace Job

/-- The number of workers of `job`, in exact integers. -/
def workers (job : Job) : Nat := (max 1 (min job.threads.toInt (job.stop.toInt - job.start.toInt))).toNat

/-- Where the slice of `worker` starts, in exact integers. -/
def bound (job : Job) (worker : Nat) : Int :=
  job.start.toInt + (job.stop.toInt - job.start.toInt) * worker / job.workers

variable {job : Job}

/-- There is at least one worker: `0 < job.workers`. -/
theorem workers_pos (job : Job) : 0 < job.workers := by
  unfold workers
  omega

/-- There are no more workers than 32 bits can count: `job.workers ≤ 2 ^ 31`. -/
theorem workers_le (job : Job) : job.workers ≤ 2 ^ 31 := by
  have limit := job.threads.toInt_lt
  unfold workers
  omega

/-- A range in order has no negative number of cycles: `0 ≤ job.stop.toInt - job.start.toInt`. -/
theorem total_nonneg (ordered : job.start ≤ job.stop) : 0 ≤ job.stop.toInt - job.start.toInt :=
  Int.sub_nonneg_of_le (Int64.le_iff_toInt_le.1 ordered)

/-- The first slice starts where the range does: `job.bound 0 = job.start.toInt`. -/
@[simp] theorem bound_zero (job : Job) : job.bound 0 = job.start.toInt := by
  simp [bound]

/-- Behind the last slice stands the end of the range: `job.bound job.workers = job.stop.toInt`. -/
@[simp] theorem bound_workers (job : Job) : job.bound job.workers = job.stop.toInt := by
  have positive := job.workers_pos
  rw [bound, Int.mul_ediv_cancel _ (by omega)]
  omega

/-- No slice stops before it starts: `job.bound worker ≤ job.bound (worker + 1)`. -/
theorem bound_rises (ordered : job.start ≤ job.stop) (worker : Nat) :
    job.bound worker ≤ job.bound (worker + 1) := by
  have positive := job.workers_pos
  refine Int.add_le_add_left (Int.ediv_le_ediv (by omega) ?_) _
  exact Int.mul_le_mul_of_nonneg_left (by omega) (total_nonneg ordered)

/-- Slices start within the range: `job.start.toInt ≤ job.bound worker ∧ job.bound worker ≤ job.stop.toInt`. -/
theorem bound_within (ordered : job.start ≤ job.stop) {worker : Nat} (among : worker ≤ job.workers) :
    job.start.toInt ≤ job.bound worker ∧ job.bound worker ≤ job.stop.toInt := by
  rw [← bound_zero job, ← bound_workers job]
  exact ⟨bounds_rise (bound_rises ordered) (Nat.zero_le worker), bounds_rise (bound_rises ordered) among⟩

/-- The slices in order are the cycles of the range in order: `((List.range job.workers).flatMap fun worker => span
(job.bound worker) (job.bound (worker + 1))) = cycles job.start job.stop`. -/
theorem flatMap_bound (ordered : job.start ≤ job.stop) :
    ((List.range job.workers).flatMap fun worker => span (job.bound worker) (job.bound (worker + 1))) =
      cycles job.start job.stop := by
  rw [flatMap_span (bound_rises ordered), bound_zero, bound_workers, cycles]

end Job

/-! ## Machines -/

/-- The machine that deals in exact integers, by `Job.workers` and `Job.bound`, and has room for everything. -/
def Machine.unbounded : Machine where
  workers := Job.workers
  sliceStart job worker := Int64.ofInt (job.bound worker)
  hasRoom _ _ _ := true

/-- The `machine` serves `job` if it deals the cycles out as `Machine.unbounded` and has room for all of the
slices. -/
structure Machine.Serves (machine : Machine) (job : Job) : Prop where
  /-- There are as many workers. -/
  workers : machine.workers job = job.workers
  /-- The slices start at the same cycles. -/
  bounds : ∀ worker ≤ job.workers, (machine.sliceStart job worker).toInt = job.bound worker
  /-- There is room for each slice. -/
  room : ∀ worker < job.workers,
    machine.hasRoom job (machine.sliceStart job worker) (machine.sliceStart job (worker + 1)) = true

/-- Whether a machine serves a job is decided worker by worker. -/
instance (machine : Machine) (job : Job) : Decidable (machine.Serves job) :=
  decidable_of_iff
    (machine.workers job = job.workers ∧
      (∀ worker ≤ job.workers, (machine.sliceStart job worker).toInt = job.bound worker) ∧
      ∀ worker < job.workers,
        machine.hasRoom job (machine.sliceStart job worker) (machine.sliceStart job (worker + 1)) = true)
    ⟨fun ⟨workers, bounds, room⟩ => ⟨workers, bounds, room⟩,
      fun ⟨workers, bounds, room⟩ => ⟨workers, bounds, room⟩⟩

variable {job : Job}

/-- The unbounded machine serves every job: `Machine.unbounded.Serves job`. -/
theorem Machine.unbounded_serves (ordered : job.start ≤ job.stop) : Machine.unbounded.Serves job where
  workers := rfl
  bounds worker among := by
    have within := Job.bound_within ordered among
    have low := job.start.le_toInt
    have high := job.stop.toInt_lt
    exact Int64.toInt_ofInt_of_le (by omega) (by omega)
  room _ _ := rfl

/-- A 64-bit number of cycles is exact where it does not exceed the greatest:
`(job.stop - job.start).toInt = job.stop.toInt - job.start.toInt`. -/
theorem toInt_total (ordered : job.start ≤ job.stop) (fits : job.stop.toInt - job.start.toInt < 2 ^ 63) :
    (job.stop - job.start).toInt = job.stop.toInt - job.start.toInt := by
  have total := Job.total_nonneg ordered
  rw [Int64.toInt_sub, Int.bmod_eq_of_le (by omega) (by omega)]

/-- The number of cycles fits where its product with the number of workers does:
`job.stop.toInt - job.start.toInt < 2 ^ 63`. -/
theorem total_lt_of_fits (ordered : job.start ≤ job.stop)
    (fits : (job.stop.toInt - job.start.toInt) * job.workers < 2 ^ 63) :
    job.stop.toInt - job.start.toInt < 2 ^ 63 := by
  have positive := job.workers_pos
  have alone : (job.stop.toInt - job.start.toInt) * 1 ≤ (job.stop.toInt - job.start.toInt) * job.workers :=
    Int.mul_le_mul_of_nonneg_left (by omega) (Job.total_nonneg ordered)
  omega

/-- 64-bit arithmetic starts a slice where exact integers do, as long as the number of cycles times the number of
workers fits: `(sliceStart job.start (job.stop - job.start) job.workers worker).toInt = job.bound worker`. -/
theorem toInt_sliceStart (ordered : job.start ≤ job.stop)
    (fits : (job.stop.toInt - job.start.toInt) * job.workers < 2 ^ 63) {worker : Nat}
    (among : worker ≤ job.workers) :
    (sliceStart job.start (job.stop - job.start) job.workers worker).toInt = job.bound worker := by
  have few := job.workers_le
  have total := toInt_total ordered (total_lt_of_fits ordered fits)
  have least : 0 ≤ (job.stop.toInt - job.start.toInt) * worker :=
    Int.mul_nonneg (Job.total_nonneg ordered) (by omega)
  have most : (job.stop.toInt - job.start.toInt) * worker ≤
      (job.stop.toInt - job.start.toInt) * job.workers :=
    Int.mul_le_mul_of_nonneg_left (by omega) (Job.total_nonneg ordered)
  -- Product, quotient and sum in the order the machine forms them, each shown not to wrap before the next.
  have product : ((job.stop - job.start) * Int64.ofNat worker).toInt =
      (job.stop.toInt - job.start.toInt) * worker := by
    rw [Int64.toInt_mul, total, Int64.toInt_ofNat_of_lt (by omega), Int.bmod_eq_of_le (by omega) (by omega)]
  have quotient : ((job.stop - job.start) * Int64.ofNat worker / Int64.ofNat job.workers).toInt =
      (job.stop.toInt - job.start.toInt) * worker / job.workers := by
    have small := Int.ediv_le_self (job.workers : Int) least
    have nonneg := Int.ediv_nonneg least (Int.natCast_nonneg job.workers)
    rw [Int64.toInt_div, product, Int64.toInt_ofNat_of_lt (by omega), Int.tdiv_eq_ediv_of_nonneg least,
      Int.bmod_eq_of_le (by omega) (by omega)]
  have within := Job.bound_within ordered among
  have low := job.start.le_toInt
  have high := job.stop.toInt_lt
  unfold Job.bound at within ⊢
  rw [sliceStart, Int64.toInt_add, quotient, Int.bmod_eq_of_le (by omega) (by omega)]

/-- In 64-bit arithmetic there are as many workers as in exact integers, as long as the number of cycles fits:
`(Machine.words room).workers job = job.workers`. -/
theorem Machine.workers_words (ordered : job.start ≤ job.stop)
    (fits : job.stop.toInt - job.start.toInt < 2 ^ 63) (room : Room) :
    (Machine.words room).workers job = job.workers := by
  show workerCount job.threads (job.stop - job.start) = _
  rw [workerCount, toInt_total ordered fits, Job.workers]

end OpCycle.Cli
