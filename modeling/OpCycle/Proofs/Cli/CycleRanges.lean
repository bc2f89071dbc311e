import OpCycle.Proofs.Cli.Arguments
import OpCycle.Proofs.Cli.Rendering
import OpCycle.Proofs.Text.Numeral

/-! # Ranges of cycles on the command line
A text says a range of cycles as a count from zero on or by its two ends, and it is accepted exactly then; a text
that is refused changes nothing. The ends have to be in order. A count is not compared with zero, where it starts,
so the one kind of text that says cycles out of order is a negative count, and the program finds out only when it
is about to render.

* `SaysCycles`: what a text says as a range of cycles.
* `cycles_of_prepare`: where the cycles of a job come from.
* `cycle_ranges_checked`: a range is checked when it is read, but for a negative count. -/

namespace OpCycle.Cli

/-! ## Texts that say cycles -/

/-- The text `s` says the cycles from a first one to before a last one: `count` or `start..stop`. -/
inductive SaysCycles (s : Text) : Int64 → Int64 → Prop
  /-- An integer is the number of cycles from zero on. -/
  | count {count : Int64} (read : Decimal.readInt64? s = some count) : SaysCycles s 0 count
  /-- Two integers in order, in front of the first two dots in a row and behind them. -/
  | range {before after : Text} {start stop : Int64} (cut : s = before ++ (".." ++ after))
      (first : ¬ (".." : Text) <:+: before ++ ("." : Text)) (startRead : Decimal.readInt64? before = some start)
      (stopRead : Decimal.readInt64? after = some stop) (ordered : start ≤ stop) : SaysCycles s start stop

/-- An integer has no dots: `¬ ".." <:+: s`. -/
theorem no_dots_of_readInt64? {s : Text} {n : Int64} (read : Decimal.readInt64? s = some n) : ¬ (".." : Text) <:+: s := by
  intro dots
  have dot : 0x2E ∈ s := dots.subset (List.mem_cons_self : (0x2E : UInt8) ∈ ([0x2E, 0x2E] : Text))
  rcases Decimal.byte_of_readInt64? read dot with blank | sign | digit
  · exact absurd blank (by decide)
  · exact absurd sign (by decide)
  · exact absurd digit (by decide)

/-- The texts that are accepted are those that say cycles:
`readCycles? s = some (start, stop) ↔ SaysCycles s start stop`. -/
theorem readCycles?_eq_some_iff {s : Text} {start stop : Int64} :
    readCycles? s = some (start, stop) ↔ SaysCycles s start stop := by
  have nonempty : (".." : Text) ≠ [] := by decide
  rw [readCycles?]
  constructor
  · intro read
    -- The first `..` decides the form; a count that reads as an integer has none.
    cases cut : Text.cut? ".." s with
    | none =>
      rw [cut] at read
      obtain ⟨count, read, same⟩ := Option.map_eq_some_iff.1 read
      cases same
      exact .count read
    | some parts =>
      obtain ⟨before, after⟩ := parts
      rw [cut] at read
      obtain ⟨start', startRead, read⟩ := Option.bind_eq_some_iff.1 read
      obtain ⟨stop', stopRead, read⟩ := Option.bind_eq_some_iff.1 read
      split at read
      · cases read
      next ordered =>
      cases read
      obtain ⟨same, first⟩ := (Text.cut?_eq_some_iff nonempty).1 cut
      exact .range same first startRead stopRead (Int64.not_lt.1 ordered)
  · intro said
    cases said with
    | count read =>
      rw [(Text.cut?_eq_none_iff nonempty).2 (no_dots_of_readInt64? read), read]
      rfl
    | @range before after _ _ cut first startRead stopRead ordered =>
      rw [(Text.cut?_eq_some_iff nonempty).2 ⟨cut, first⟩]
      dsimp only
      rw [startRead, stopRead]
      exact if_neg (Int64.not_lt.2 ordered)

/-- The texts that are refused are those that say no cycles:
`readCycles? s = none ↔ ¬ ∃ start stop, SaysCycles s start stop`. -/
theorem readCycles?_eq_none_iff {s : Text} : readCycles? s = none ↔ ¬ ∃ start stop, SaysCycles s start stop := by
  simp only [← readCycles?_eq_some_iff]
  cases readCycles? s with
  | none => simp
  | some range => simp [Prod.ext_iff]

/-- Cycles out of order are said by a negative count, and by nothing else:
`stop < start ↔ Decimal.readInt64? s = some stop ∧ stop < 0`. -/
theorem SaysCycles.lt_iff {s : Text} {start stop : Int64} (said : SaysCycles s start stop) :
    stop < start ↔ Decimal.readInt64? s = some stop ∧ stop < 0 := by
  cases said with
  | count read => exact ⟨fun negative => ⟨read, negative⟩, And.right⟩
  | @range before after _ _ cut first startRead stopRead ordered =>
    refine ⟨fun reversed => absurd ordered (Int64.not_le.2 reversed), fun ⟨read, _⟩ => ?_⟩
    -- The text has the dots of a range, so it is no integer.
    exact absurd ⟨before, after, by rw [cut, List.append_assoc]⟩ (no_dots_of_readInt64? read)

/-! ## The program -/

/-- A value of `--cycles` that says no cycles ends the reading of the arguments. -/
theorem run_of_refused_cycles {args : List Text} {front back : List (Text × Option Text)} {s : Text} {o : Options}
    (place : pieces args = front ++ (("--cycles" : Text), some s) :: back) (reached : front.foldlM Options.take {} = .ok o)
    (refused : readCycles? s = none) (directory : Directory) (machine : Machine) :
    run directory args machine = ⟨2, [], "invalid cycle range\n" ++ usage⟩ := by
  have taken : o.take ("--cycles", some s) = .error "invalid cycle range\n" := by
    rw [Options.take, if_neg (by decide), if_pos rfl, takeCycles_eq_false.2 ⟨refused, rfl⟩]
  have stuck : ({} : Options).readAll args = .error "invalid cycle range\n" := by
    rw [readAll_eq_foldlM, place, List.foldlM_append, reached, Outcome.ok_bind, List.foldlM_cons, taken,
      Outcome.error_bind]
  rw [run, Request.read, stuck]

/-- The cycles of `job` are those of the parameters of the run and, where these have none, of the engine. -/
def CyclesFromSettings (directory : Directory) (workload : Text) (o : Options) (job : Job) : Prop :=
  ∃ engine w activity, load directory workload o = .ok (engine, w) ∧
    activityOf engine w o.params = some activity ∧
    job.start = activity.readOr Value.toInt64? "cycles_start" engine.render.start ∧
    job.stop = activity.readOr Value.toInt64? "cycles_end" engine.render.stop

/-- The cycles of a job are what the last value of `--cycles` says, and `CyclesFromSettings` only where the option is
not given. -/
theorem cycles_of_prepare {directory : Directory} {args : List Text} {workload : Text} {o : Options} {job : Job}
    (request : Request.read args = .ok (.render workload o)) (prepared : prepare directory workload o = .ok job) :
    (valuesOf "--cycles" args = [] → CyclesFromSettings directory workload o job) ∧
      ∀ s, (valuesOf "--cycles" args).getLast? = some s → SaysCycles s job.start job.stop := by
  obtain ⟨engine, w, activity, loaded, combined, -, -, made⟩ := prepare_eq_ok prepared
  obtain ⟨readable, last⟩ := governs_cycles.of_request rfl request
  obtain ⟨start, stop⟩ := Prod.mk.inj last
  -- The settings stand in only for ends that the options leave open.
  rw [made]
  refine ⟨fun absent => ⟨engine, w, activity, loaded, combined, ?_, ?_⟩, fun s final => ?_⟩
  · rw [jobOf, start, absent]
    rfl
  · rw [jobOf, stop, absent]
    rfl
  · obtain ⟨⟨low, high⟩, read⟩ := Option.isSome_iff_exists.1 (readable s (List.mem_of_getLast? final))
    rw [jobOf, start, stop, final, Option.bind_some, read]
    exact readCycles?_eq_some_iff.1 read

/-- **Ranges of cycles are checked.** `Options.takeCycles` accepts a text exactly if it `SaysCycles`, an integer from
zero up to it and two integers around the first two dots from the one up to the other, and then the two ends are set
to what it says and nothing else changes; a text that is refused changes nothing, and the call ends with its message.
What is accepted is in order, but for a negative count. So where the cycles of a job turn out not to be in order and
the call fails for it, they are `CyclesFromSettings`, with no range on the command line at all, or the last one on the
command line is a negative count. -/
theorem cycle_ranges_checked (directory : Directory) (machine : Machine) :
    (∀ (s : Text) (o o' : Options),
      (o.takeCycles s = (true, o') ↔
        ∃ start stop, SaysCycles s start stop ∧ o' = { o with start := some start, stop := some stop }) ∧
      (o.takeCycles s = (false, o') ↔ (¬ ∃ start stop, SaysCycles s start stop) ∧ o' = o)) ∧
    (∀ (s : Text) (start stop : Int64), SaysCycles s start stop →
      (stop < start ↔ Decimal.readInt64? s = some stop ∧ stop < 0)) ∧
    (∀ (args : List Text) (front back : List (Text × Option Text)) (s : Text) (o : Options),
      pieces args = front ++ (("--cycles" : Text), some s) :: back → front.foldlM Options.take {} = .ok o →
      (¬ ∃ start stop, SaysCycles s start stop) →
        run directory args machine = ⟨2, [], "invalid cycle range\n" ++ usage⟩) ∧
    ∀ (args : List Text) (workload : Text) (o : Options) (job : Job),
      Request.read args = .ok (.render workload o) → prepare directory workload o = .ok job →
        (∀ s, (valuesOf "--cycles" args).getLast? = some s → SaysCycles s job.start job.stop) ∧
        (job.stop < job.start → run directory args machine = .failure 1 ∧
          ((valuesOf "--cycles" args = [] ∧ CyclesFromSettings directory workload o job) ∨
            ∃ s, (valuesOf "--cycles" args).getLast? = some s ∧ Decimal.readInt64? s = some job.stop ∧
              job.stop < 0)) := by
  refine ⟨fun s o o' => ⟨?_, ?_⟩, fun s start stop said => said.lt_iff, ?refusal, ?jobs⟩
  · simp only [takeCycles_eq_true, readCycles?_eq_some_iff]
  · rw [takeCycles_eq_false, readCycles?_eq_none_iff]
  case refusal =>
    intro args front back s o place reached refused
    exact run_of_refused_cycles place reached (readCycles?_eq_none_iff.2 refused) directory machine
  case jobs =>
    intro args workload o job request prepared
    obtain ⟨settings, last⟩ := cycles_of_prepare request prepared
    refine ⟨last, fun reversed => ⟨?_, ?_⟩⟩
    · rw [run_of_request request, prepared]
      exact if_pos reversed
    · cases final : (valuesOf "--cycles" args).getLast? with
      | none =>
        have absent := List.getLast?_eq_none_iff.1 final
        exact .inl ⟨absent, settings absent⟩
      | some s => exact .inr ⟨s, rfl, (last s final).lt_iff.1 reversed⟩

/-- A range is taken, one out of order is refused, and cycles out of order may also come from parameters of the
run. -/
theorem cycle_ranges_checked_sample :
    (∃ job, Request.read countArgs = .ok (.render "w.yaml" countOptions) ∧
      prepare (opsDirectory [countOp]) "w.yaml" countOptions = .ok job ∧ SaysCycles "2..5" job.start job.stop ∧
      job.start = 2 ∧ job.stop = 5) ∧
    ({} : Options).takeCycles "2..5" = (true, { start := some 2, stop := some 5 }) ∧
    countOptions.takeCycles "5..2" = (false, countOptions) ∧
    run (opsDirectory [countOp]) ["w.yaml", "--cycles", "5..2"] .unbounded =
      ⟨2, [], "invalid cycle range\n" ++ usage⟩ ∧
    run (opsDirectory [countOp]) ["w.yaml", "cycles_start=9", "cycles_end=3"] .unbounded = .failure 1 := by
  obtain ⟨texts, orders, refusals, jobs⟩ := cycle_ranges_checked (opsDirectory [countOp]) .unbounded
  have refused : ¬ ∃ start stop, SaysCycles "5..2" start stop := readCycles?_eq_none_iff.1 (by decide)
  have ordered : SaysCycles "2..5" 2 5 := readCycles?_eq_some_iff.1 (by decide)
  obtain ⟨job, prepared, bounds⟩ := Outcome.exists_ok_of_test
    (x := prepare (opsDirectory [countOp]) "w.yaml" countOptions)
    (fun job => decide (job.start = 2 ∧ job.stop = 5)) (by decide +kernel)
  obtain ⟨start, stop⟩ := of_decide_eq_true bounds
  obtain ⟨last, -⟩ := jobs countArgs "w.yaml" countOptions job rfl prepared
  obtain ⟨other, settled, reversed⟩ := Outcome.exists_ok_of_test
    (x := prepare (opsDirectory [countOp]) "w.yaml"
      { workload := some "w.yaml", params := ["cycles_start=9", "cycles_end=3"] })
    (fun job => decide (job.stop < job.start)) (by decide +kernel)
  refine ⟨⟨job, rfl, prepared, last "2..5" rfl, start, stop⟩, (texts _ _ _).1.2 ⟨2, 5, ordered, rfl⟩,
    (texts _ _ _).2.2 ⟨refused, rfl⟩, refusals _ [("w.yaml", none)] [] _ _ rfl rfl refused, ?_⟩
  exact ((jobs _ "w.yaml" _ other rfl settled).2 (of_decide_eq_true reversed)).1

/-- The count `-5` is accepted although it says no cycles in order, and the call fails only when it is about to
render. -/
theorem negative_count_accepted :
    (∃ o, ({} : Options).takeCycles "-5" = (true, o) ∧ o.start = some 0 ∧ o.stop = some (-5) ∧
      ¬ (0 : Int64) ≤ -5) ∧
    ∃ o job, Request.read ["w.yaml", "--cycles", "-5"] = .ok (.render "w.yaml" o) ∧
      prepare (opsDirectory [countOp]) "w.yaml" o = .ok job ∧ job.stop < job.start ∧
      ∀ machine, run (opsDirectory [countOp]) ["w.yaml", "--cycles", "-5"] machine = .failure 1 := by
  have request : Request.read ["w.yaml", "--cycles", "-5"] =
      .ok (.render "w.yaml" { workload := some "w.yaml", start := some 0, stop := some (-5) }) := rfl
  obtain ⟨job, prepared, reversed⟩ := Outcome.exists_ok_of_test
    (x := prepare (opsDirectory [countOp]) "w.yaml"
      { workload := some "w.yaml", start := some 0, stop := some (-5) })
    (fun job => decide (job.stop < job.start)) (by decide +kernel)
  refine ⟨⟨_, rfl, rfl, rfl, by decide⟩, _, job, request, prepared, of_decide_eq_true reversed, fun machine => ?_⟩
  rw [run_of_request request, prepared]
  exact if_pos (of_decide_eq_true reversed)

end OpCycle.Cli
