import OpCycle.Proofs.Cli.Slices
import OpCycle.Proofs.Plan.Compilation

/-! # Rendering is all or nothing
The lines of a job are those of its plans at its cycles, one after another. Dealt out to workers they are
the same lines in the same order, and a fault in any of them leaves nothing to print; so what is printed
does not depend on the number of threads.

* `Job.reference`: the lines of a job, cycle by cycle and op by op.
* `Blocked`: what keeps a call from rendering.
* `run_eq`, `rendering_all_or_nothing`: a job prints its `reference` or nothing. -/

namespace OpCycle.Cli

namespace Job

/-! ## The lines of a job -/

/-- Where the lines of `job` come from: each of the `chosen` cycles, with the plans one after another. -/
def places (job : Job) (chosen : List Int64) : List (Int64 × Plan) :=
  chosen.flatMap fun cycle => job.plans.map fun p => (cycle, p)

/-- The line at `place`. -/
def lineAt (job : Job) (place : Int64 × Plan) : Except LineFault Text := lineOf job.style place.2 place.1

/-- The lines of `job` one after another, up to the first with a `LineFault`. -/
def reference (job : Job) : Except LineFault (List Text) :=
  (job.places (cycles job.start job.stop)).mapM job.lineAt

variable {job : Job} {machine : Machine}

/-- A place of a job is a cycle with one of the plans:
`(cycle, p) ∈ job.places chosen ↔ cycle ∈ chosen ∧ p ∈ job.plans`. -/
theorem mem_places {chosen : List Int64} {cycle : Int64} {p : Plan} :
    (cycle, p) ∈ job.places chosen ↔ cycle ∈ chosen ∧ p ∈ job.plans := by
  simp [places]

/-- There is a place for each plan at each cycle: `(job.places chosen).length = chosen.length * job.plans.length`. -/
theorem length_places (job : Job) (chosen : List Int64) :
    (job.places chosen).length = chosen.length * job.plans.length := by
  simp [places, List.map_const']

/-- The places of cycles in pieces are those of all of them:
`job.places (items.flatMap pieces) = items.flatMap fun item => job.places (pieces item)`. -/
theorem places_flatMap {α : Type} (job : Job) (pieces : α → List Int64) (items : List α) :
    job.places (items.flatMap pieces) = items.flatMap fun item => job.places (pieces item) :=
  List.flatMap_assoc

/-! ## Slices -/

/-- The lines at a cycle are those of its places: `linesAt job.style job.plans cycle = (job.plans.map fun p => (cycle,
p)).mapM fun place => (job.lineAt place).toOption`. -/
theorem linesAt_eq (job : Job) (cycle : Int64) :
    linesAt job.style job.plans cycle =
      (job.plans.map fun p => (cycle, p)).mapM fun place => (job.lineAt place).toOption := by
  rw [linesAt, Outcome.toOption_mapM, List.mapM_map]
  rfl

/-- The lines of a slice are those of the places of its cycles:
`job.slice machine start stop = (job.places (cycles start stop)).mapM fun place => (job.lineAt place).toOption`. -/
theorem slice_eq {start stop : Int64} (room : machine.hasRoom job start stop = true) :
    job.slice machine start stop =
      (job.places (cycles start stop)).mapM fun place => (job.lineAt place).toOption := by
  have counted : cycles start stop =
      (List.range' 0 (stop.toInt - start.toInt).toNat).map fun i => start + Int64.ofNat i := by
    rw [cycles, span, List.range_eq_range']
    refine List.map_congr_left fun i _ => ?_
    rw [Int64.ofInt_add, Int64.ofInt_toInt, Int64.ofInt_eq_ofNat]
  rw [slice, if_pos room, places, Outcome.mapM_flatMap, counted, List.mapM_map]
  dsimp only
  rw [toList_collect]
  exact congrArg (Option.map List.flatten) (Outcome.mapM_congr fun i _ => linesAt_eq job _)

/-- A machine that serves a job gives its lines, and none if one of them has a fault:
`job.lines machine = job.reference.toOption`. -/
theorem lines_eq (ordered : job.start ≤ job.stop) (serves : machine.Serves job) :
    job.lines machine = job.reference.toOption := by
  have dealt : ∀ worker ∈ List.range' 0 job.workers,
      job.slice machine (machine.sliceStart job worker) (machine.sliceStart job (worker + 1)) =
        (job.places (span (job.bound worker) (job.bound (worker + 1)))).mapM fun place =>
          (job.lineAt place).toOption := by
    intro worker mem
    have among : worker < job.workers := by
      rwa [← List.range_eq_range', List.mem_range] at mem
    rw [slice_eq (serves.room worker among), cycles, serves.bounds worker (Nat.le_of_lt among),
      serves.bounds (worker + 1) among]
  -- The cycles of the reference are put together from the slices, and so its lines are too.
  rw [lines, serves.workers, toList_collect, Outcome.mapM_congr dealt, reference, Outcome.toOption_mapM,
    ← flatMap_bound ordered, places_flatMap, Outcome.mapM_flatMap, List.range_eq_range']
  rfl

/-! ## Runs -/

/-- A job that is served prints its lines, each on a line of its own, or nothing if one of them has a fault: `job.run
machine = match job.reference with | .ok lines => ⟨0, lines.flatMap (· ++ [Byte.lineFeed]), []⟩ | .error _ => .failure
1`. -/
theorem run_eq (ordered : job.start ≤ job.stop) (serves : machine.Serves job) :
    job.run machine =
      match job.reference with
      | .ok lines => ⟨0, lines.flatMap (· ++ [Byte.lineFeed]), []⟩
      | .error _ => .failure 1 := by
  rw [run, if_neg (Int64.not_lt.2 ordered), lines_eq ordered serves]
  cases job.reference with
  | error fault => rfl
  | ok lines => rfl

/-- The number of threads makes no difference to what a job prints where every job is served:
`{ job with threads := threads }.run .unbounded = job.run .unbounded`. -/
theorem run_threads (job : Job) (threads : Int32) :
    { job with threads := threads }.run .unbounded = job.run .unbounded := by
  by_cases ordered : job.start ≤ job.stop
  · let other : Job := { job with threads := threads }
    have served : other.run .unbounded = _ := run_eq ordered (Machine.unbounded_serves ordered)
    rw [run_eq ordered (Machine.unbounded_serves ordered)]
    exact served
  · rw [run, run, if_pos (Int64.not_le.1 ordered), if_pos (Int64.not_le.1 ordered)]

/-- The lines of a job can be given if none of them has a fault, and then there is one for each plan at each cycle:
`∃ lines, job.reference = .ok lines ∧ lines.length = (job.stop.toInt - job.start.toInt).toNat * job.plans.length`. -/
theorem reference_eq_ok
    (fine : ∀ cycle, job.start ≤ cycle → cycle < job.stop → ∀ p ∈ job.plans,
      ∃ line, lineOf job.style p cycle = .ok line) :
    ∃ lines, job.reference = .ok lines ∧
      lines.length = (job.stop.toInt - job.start.toInt).toNat * job.plans.length := by
  have succeeds : ∃ lines, job.reference = .ok lines := by
    refine Outcome.exists_ok_iff.2 fun failed => ?_
    obtain ⟨⟨cycle, p⟩, mem, fault⟩ := Outcome.mapM_fails_iff.1 failed
    obtain ⟨among, planned⟩ := mem_places.1 mem
    obtain ⟨reached, before⟩ := mem_cycles.1 among
    exact Outcome.exists_ok_iff.1 (fine cycle reached before p planned) fault
  obtain ⟨lines, made⟩ := succeeds
  refine ⟨lines, made, ?_⟩
  rw [Outcome.length_of_made made, length_places, cycles, length_span]

/-- The lines of a job cannot be given if one of them has a fault: `∃ first, job.reference = .error first`. -/
theorem reference_eq_error {cycle : Int64} (reached : job.start ≤ cycle) (before : cycle < job.stop)
    {p : Plan} (planned : p ∈ job.plans) {fault : LineFault} (failed : lineOf job.style p cycle = .error fault) :
    ∃ first, job.reference = .error first :=
  Outcome.mapM_fails_iff.2
    ⟨(cycle, p), mem_places.2 ⟨mem_cycles.2 ⟨reached, before⟩, planned⟩, fault, failed⟩

end Job

/-! ## The program -/

/-- What a job of `prepare` is made of: the plans of the selected ops in document order, at least one. -/
theorem prepare_eq_ok {directory : Directory} {workload : Text} {o : Options} {job : Job}
    (prepared : prepare directory workload o = .ok job) :
    ∃ engine w activity, load directory workload o = .ok (engine, w) ∧
      activityOf engine w o.params = some activity ∧
      ((selectOps w o.op).mapM fun op => Plan.compile op (some activity) [] Basics.catalog) =
        .ok job.plans ∧
      job.plans ≠ [] ∧ job = jobOf o engine activity job.plans := by
  obtain ⟨⟨engine, w⟩, loaded, prepared⟩ := Outcome.bind_eq_ok.1 prepared
  change prepareWorkload o engine w = .ok job at prepared
  unfold prepareWorkload at prepared
  cases combined : activityOf engine w o.params with
  | none =>
    rw [combined] at prepared
    cases prepared
  | some activity =>
    rw [combined] at prepared
    obtain ⟨plans, made, prepared⟩ := Outcome.bind_eq_ok.1 prepared
    split at prepared
    · cases prepared
    · next filled =>
      cases prepared
      exact ⟨engine, w, activity, loaded, combined, Outcome.mapError_eq_ok.1 made,
        fun empty => filled (List.isEmpty_iff.2 empty), rfl⟩

/-- With other `threads` in the options there is the same job with another number of threads, or the same obstacle. -/
theorem prepare_threads (directory : Directory) (workload : Text) (o : Options) (threads : Option Int32) :
    ∃ count, prepare directory workload { o with threads := threads } =
      (prepare directory workload o).map fun job => { job with threads := count } := by
  -- Loading never looks at the thread count; it is stored in the job and read nowhere before.
  have same : load directory workload { o with threads := threads } = load directory workload o := rfl
  rw [prepare, prepare, same]
  cases load directory workload o with
  | error obstacle => exact ⟨0, rfl⟩
  | ok loaded =>
    obtain ⟨engine, w⟩ := loaded
    simp only [Outcome.ok_bind, prepareWorkload]
    cases activityOf engine w o.params with
    | none => exact ⟨0, rfl⟩
    | some activity =>
      dsimp only
      refine ⟨threads.getD (activity.readOr Value.toInt32? "threads" engine.render.threads), ?_⟩
      cases (selectOps w o.op).mapM fun op => Plan.compile op (some activity) [] Basics.catalog with
      | error e => rfl
      | ok plans =>
        cases plans with
        | nil => rfl
        | cons p rest => rfl

/-- What keeps a call from rendering `workload`: loading fails, a parameter of the run is not accepted, a selected op
makes no plan, or no op is selected. -/
inductive Blocked (directory : Directory) (workload : Text) (o : Options) : Prop
  /-- The engine settings or the workload cannot be loaded. -/
  | load {obstacle : Obstacle} (failed : load directory workload o = .error obstacle)
  /-- A parameter of the run is not accepted. -/
  | params {engine : Engine} {w : Workload} (loaded : load directory workload o = .ok (engine, w))
      (refused : activityOf engine w o.params = none)
  /-- A selected op makes no plan. -/
  | op {engine : Engine} {w : Workload} {activity : Activity} {op : Op} {e : PlanError}
      (loaded : load directory workload o = .ok (engine, w))
      (combined : activityOf engine w o.params = some activity) (selected : op ∈ selectOps w o.op)
      (failed : Plan.compile op (some activity) [] Basics.catalog = .error e)
  /-- No op is selected. -/
  | noOps {engine : Engine} {w : Workload} (loaded : load directory workload o = .ok (engine, w))
      (empty : selectOps w o.op = [])

/-- A call has no job exactly if it is blocked:
`Blocked directory workload o ↔ ∃ obstacle, prepare directory workload o = .error obstacle`. -/
theorem blocked_iff {directory : Directory} {workload : Text} {o : Options} :
    Blocked directory workload o ↔ ∃ obstacle, prepare directory workload o = .error obstacle := by
  constructor
  · intro blocked
    refine Classical.byContradiction fun ready => ?_
    obtain ⟨job, prepared⟩ := Outcome.exists_ok_iff.2 ready
    obtain ⟨engine, w, activity, loaded, combined, made, filled, -⟩ := prepare_eq_ok prepared
    -- Whatever blocks the call contradicts one of the steps that the job went through.
    cases blocked with
    | load failed => cases loaded.symm.trans failed
    | params loaded' refused =>
      cases loaded.symm.trans loaded'
      cases combined.symm.trans refused
    | op loaded' combined' selected failed =>
      cases loaded.symm.trans loaded'
      cases combined.symm.trans combined'
      obtain ⟨p, compiled⟩ := Outcome.ok_of_mem made selected
      cases compiled.symm.trans failed
    | noOps loaded' empty =>
      cases loaded.symm.trans loaded'
      rw [empty] at made
      exact filled (Except.ok.inj made).symm
  · rintro ⟨obstacle, stuck⟩
    rcases Outcome.bind_eq_error.1 stuck with failed | ⟨⟨engine, w⟩, loaded, stuck⟩
    · exact .load failed
    · change prepareWorkload o engine w = .error obstacle at stuck
      unfold prepareWorkload at stuck
      cases combined : activityOf engine w o.params with
      | none => exact .params loaded combined
      | some activity =>
        rw [combined] at stuck
        rcases Outcome.bind_eq_error.1 stuck with failed | ⟨plans, made, stuck⟩
        · obtain ⟨e, failed, -⟩ := Outcome.mapError_eq_error.1 failed
          obtain ⟨op, selected, e, failed⟩ := Outcome.mapM_fails_iff.1 ⟨e, failed⟩
          exact .op loaded combined selected failed
        · split at stuck
          · next empty =>
            have ops := Outcome.map_of_made (Outcome.mapError_eq_ok.1 made) fun op p compiled =>
              Plan.op_of_compile compiled
            rw [List.isEmpty_iff.1 empty, List.map_id'] at ops
            exact .noOps loaded ops.symm
          · cases stuck

/-- Every obstacle makes the program fail: `obstacle.code ≠ 0`. -/
theorem Obstacle.code_ne_zero (obstacle : Obstacle) : obstacle.code ≠ 0 := by
  cases obstacle <;> exact Nat.succ_ne_zero _

/-- A call that asks for rendering runs the job that `prepare` gives, if it gives one. -/
theorem run_of_request {args : List Text} {workload : Text} {o : Options}
    (request : Request.read args = .ok (.render workload o)) (directory : Directory) (machine : Machine) :
    run directory args machine =
      match prepare directory workload o with
      | .error obstacle => .failure obstacle.code
      | .ok job => job.run machine := by
  rw [run, request]
  rfl

/-- **Rendering is all or nothing, whatever the number of threads.** A call that is `Blocked` prints nothing and
fails. Any other call has a job, with the plans of the selected ops in document order. Over cycles in order, on
`Machine.unbounded`, it prints the lines `job.reference`, cycle by cycle and op by op, and succeeds, if all of the
lines can be given; if one of them cannot, it prints nothing and fails. Any other number of threads makes no
difference, and neither does any other machine that `Serves` the job. Another call that differs in its number of
threads alone has the same outcome, blocked or not. -/
theorem rendering_all_or_nothing (directory : Directory) {args : List Text} {workload : Text} {o : Options}
    (request : Request.read args = .ok (.render workload o)) :
    (Blocked directory workload o → ∀ machine,
      (run directory args machine).output = [] ∧ (run directory args machine).code ≠ 0) ∧
    (¬ Blocked directory workload o → ∃ job, prepare directory workload o = .ok job ∧
      (∃ engine w, load directory workload o = .ok (engine, w) ∧
        job.plans.map Plan.op = selectOps w o.op) ∧
      (job.start ≤ job.stop →
        ((∀ cycle, job.start ≤ cycle → cycle < job.stop → ∀ p ∈ job.plans,
            ∃ line, lineOf job.style p cycle = .ok line) →
          ∃ lines, job.reference = .ok lines ∧
            lines.length = (job.stop.toInt - job.start.toInt).toNat * job.plans.length ∧
            run directory args .unbounded = ⟨0, lines.flatMap (· ++ [Byte.lineFeed]), []⟩) ∧
        ((∃ cycle, job.start ≤ cycle ∧ cycle < job.stop ∧ ∃ p ∈ job.plans,
            ∃ fault, lineOf job.style p cycle = .error fault) →
          (run directory args .unbounded).output = [] ∧ (run directory args .unbounded).code ≠ 0) ∧
        (∀ threads, run directory args .unbounded = { job with threads := threads }.run .unbounded) ∧
        ∀ machine : Machine, machine.Serves job →
          run directory args machine = run directory args .unbounded)) ∧
    ∀ args' threads, Request.read args' = .ok (.render workload { o with threads := threads }) →
      run directory args' .unbounded = run directory args .unbounded := by
  refine ⟨?blocked, ?free, ?threads⟩
  case blocked =>
    intro blocked machine
    obtain ⟨obstacle, stuck⟩ := blocked_iff.1 blocked
    rw [run_of_request request, stuck]
    exact ⟨rfl, obstacle.code_ne_zero⟩
  case free =>
    intro free
    obtain ⟨job, prepared⟩ := Outcome.exists_ok_iff.2 fun stuck => free (blocked_iff.2 stuck)
    obtain ⟨engine, w, activity, loaded, -, made, -, -⟩ := prepare_eq_ok prepared
    have ops := Outcome.map_of_made made fun op p compiled => Plan.op_of_compile compiled
    refine ⟨job, prepared, ⟨engine, w, loaded, ops.trans (List.map_id' _)⟩, fun ordered => ?_⟩
    have outcome (machine : Machine) : run directory args machine = job.run machine := by
      rw [run_of_request request, prepared]
    -- Threads and machine matter in `Job.run` only, and there the unbounded machine serves every job.
    have served := Job.run_eq ordered (Machine.unbounded_serves ordered)
    refine ⟨fun fine => ?_, ?_, fun threads => ?_, fun machine serves => ?_⟩
    · obtain ⟨lines, made, count⟩ := Job.reference_eq_ok fine
      refine ⟨lines, made, count, ?_⟩
      rw [outcome, served, made]
    · rintro ⟨cycle, reached, before, p, planned, fault, failed⟩
      obtain ⟨first, made⟩ := Job.reference_eq_error reached before planned failed
      rw [outcome, served, made]
      exact ⟨rfl, Nat.one_ne_zero⟩
    · exact (outcome _).trans (job.run_threads threads).symm
    · rw [outcome, outcome, served, Job.run_eq ordered serves]
  case threads =>
    intro args' threads other
    obtain ⟨count, prepared⟩ := prepare_threads directory workload o threads
    rw [run_of_request other, run_of_request request, prepared]
    cases prepare directory workload o with
    | error obstacle => rfl
    | ok job => exact job.run_threads count

/-- A directory with a workload of `ops` at `w.yaml`. -/
def opsDirectory (ops : List (Node × Node)) : Directory :=
  .ofList [("w.yaml", .tree (.mapping [(.plain "ops", .mapping ops)]))]

/-- An op with a field bound to `Identity()`. -/
def countOp : Node × Node :=
  (.plain "count", .mapping [(.plain "n", .quoted "\x7b\x7bIdentity()\x7d\x7d")])

/-- The arguments that render the ops over the cycles `2..5` with two threads. -/
def countArgs : List Text := ["w.yaml", "--cycles", "2..5", "--threads", "2"]

/-- The options that `countArgs` read as. -/
def countOptions : Options :=
  { workload := some "w.yaml", start := some 2, stop := some 5, threads := some 2 }

/-- Three lines are printed, on the machine of the program with room for as many lines as on the unbounded one, and
with seven threads as with two. -/
theorem rendering_all_or_nothing_sample :
    ∃ job lines, Request.read countArgs = .ok (.render "w.yaml" countOptions) ∧
      prepare (opsDirectory [countOp]) "w.yaml" countOptions = .ok job ∧ job.start ≤ job.stop ∧
      job.reference = .ok lines ∧ lines.length = 3 ∧
      run (opsDirectory [countOp]) countArgs .unbounded = ⟨0, lines.flatMap (· ++ [Byte.lineFeed]), []⟩ ∧
      run (opsDirectory [countOp]) countArgs (.words ⟨3, 0⟩) =
        run (opsDirectory [countOp]) countArgs .unbounded ∧
      run (opsDirectory [countOp]) ["w.yaml", "--threads", "7", "--cycles", "2..5"] .unbounded =
        run (opsDirectory [countOp]) countArgs .unbounded := by
  have request : Request.read countArgs = .ok (.render "w.yaml" countOptions) := rfl
  have outcome : (prepare (opsDirectory [countOp]) "w.yaml" countOptions).toOption.any
      (fun job => decide (job.start ≤ job.stop ∧ (Machine.words ⟨3, 0⟩).Serves job ∧
        (job.stop.toInt - job.start.toInt).toNat * job.plans.length = 3 ∧
        job.reference.toOption.any (fun _ => true) = true)) = true := by
    decide +kernel
  obtain ⟨job, prepared, facts⟩ := Outcome.exists_ok_of_test _ outcome
  obtain ⟨ordered, serves, count, fine⟩ := of_decide_eq_true facts
  have free : ¬ Blocked (opsDirectory [countOp]) "w.yaml" countOptions := by
    intro blocked
    obtain ⟨obstacle, stuck⟩ := blocked_iff.1 blocked
    cases prepared.symm.trans stuck
  obtain ⟨-, renders, threads⟩ := rendering_all_or_nothing (opsDirectory [countOp]) request
  obtain ⟨job', prepared', -, rest⟩ := renders free
  cases prepared.symm.trans prepared'
  obtain ⟨prints, -, -, agrees⟩ := rest ordered
  obtain ⟨given, reference, -⟩ := Outcome.exists_ok_of_test _ fine
  obtain ⟨lines, made, length, printed⟩ := prints fun cycle reached before p planned =>
    Outcome.ok_of_mem reference (Job.mem_places.2 ⟨mem_cycles.2 ⟨reached, before⟩, planned⟩)
  exact ⟨job, lines, request, prepared, ordered, made, length.trans count, printed, agrees _ serves,
    threads _ (some 7) rfl⟩

example :
    run (.ofList [("w.yaml", .tree (.mapping [(.plain "ops", .mapping [(.plain "count",
        .mapping [(.plain "n", .quoted "\x7b\x7bIdentity()\x7d\x7d")])])]))])
      ["w.yaml", "--cycles", "2..4", "--threads", "2"] (.words ⟨1, 0⟩) = ⟨0,
        "\x7b\"op\":\"count\",\"cycle\":2,\"fields\":\x7b\"n\":2\x7d\x7d\n" ++
        "\x7b\"op\":\"count\",\"cycle\":3,\"fields\":\x7b\"n\":3\x7d\x7d\n", []⟩ := by
  decide +kernel

/-- Without ops there is nothing that could fail and `job.reference` is empty, and still the call fails. -/
theorem no_ops_fails :
    ∃ o engine w activity, Request.read ["w.yaml"] = .ok (.render "w.yaml" o) ∧
      load (opsDirectory []) "w.yaml" o = .ok (engine, w) ∧ activityOf engine w o.params = some activity ∧
      selectOps w o.op = [] ∧
      (jobOf o engine activity []).start ≤ (jobOf o engine activity []).stop ∧
      (jobOf o engine activity []).reference = .ok [] ∧
      run (opsDirectory []) ["w.yaml"] .unbounded = .failure 1 := by
  refine ⟨{ workload := some "w.yaml" }, _, _, _, rfl, rfl, rfl, rfl, ?_, ?_, ?_⟩
  · decide +kernel
  · simp [Job.reference, Job.places, jobOf]
    rfl
  · decide +kernel

end OpCycle.Cli
