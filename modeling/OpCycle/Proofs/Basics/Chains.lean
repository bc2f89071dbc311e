import OpCycle.Proofs.Basics.Shapes
import OpCycle.Proofs.Spec.Recognition
import OpCycle.Proofs.Value.Integers

/-! # Kinds of values in chains of built-in functions
The kind that resolving tracks is the kind of the value that flows at every cycle. Where it tracks none, the
value is a boolean or a float from a fixed value, and such a value is all that a step for integers can
refuse. So whether a chain raises an error can be read off its calls.

* `Stray`: what flows as `.any` and does not convert to an integer.
* `step_ok`: what flows out of a step has the kind that is tracked behind it.
* `run_error_iff`, `chain_type_sound`: a chain raises an error exactly if `StrayReachesInt` holds of its calls. -/

namespace OpCycle.Basics

open Catalog (resolveCall_eq_ok resolveCalls_cons_eq_ok)

/-! ## Stray values -/

/-- The `call` is of a function whose `input` is an integer. -/
def TakesInt (call : Spec.Call) : Prop := ∃ d, catalog.find? call.name = some d ∧ d.input = .int

/-- The value is a boolean, or a float that is not the value of an `Int64`. -/
def Stray (v : Value) : Prop :=
  (∃ b, v = .bool b) ∨ ∃ x, v = .float x ∧ ¬ ∃ n : Int64, Binary64.toInt? x = some n.toInt

/-- The first of the calls that is not to `Identity` takes an integer. -/
def ReachesInt (calls : List Spec.Call) : Prop :=
  ∃ between target after, calls = between ++ target :: after ∧
    (∀ call ∈ between, call.name = ("Identity" : Text)) ∧ TakesInt target

/-- Some call that takes an integer has as its nearest earlier call other than `Identity` a fixed stray
value. -/
def StrayReachesInt (calls : List Spec.Call) : Prop :=
  ∃ before v after, calls = before ++ ⟨"FixedValue", [v]⟩ :: after ∧ Stray v ∧ ReachesInt after

/-- The value is not the float `2 ^ 63`, the one float out of range that converts to an integer all the
same. -/
def Faithful (v : Value) : Prop :=
  ∀ x, v = .float x → Binary64.toInt? x ≠ some (Int64.maxValue.toInt + 1)

/-- No calls reach no step for integers: `¬ ReachesInt []`. -/
theorem reachesInt_nil : ¬ ReachesInt [] := by
  rintro ⟨between, target, after, split, -⟩
  exact absurd split.symm (List.append_ne_nil_of_right_ne_nil _ (List.cons_ne_nil _ _))

/-- A value reaches a step for integers if the first call takes an integer, or passes the value on to others that it
reaches: `ReachesInt (call :: rest) ↔ TakesInt call ∨ call.name = "Identity" ∧ ReachesInt rest`. -/
theorem reachesInt_cons {call : Spec.Call} {rest : List Spec.Call} :
    ReachesInt (call :: rest) ↔ TakesInt call ∨ call.name = ("Identity" : Text) ∧ ReachesInt rest := by
  constructor
  · rintro ⟨between, target, after, split, identities, takes⟩
    cases between with
    | nil =>
      cases split
      exact .inl takes
    | cons first between =>
      cases split
      exact .inr ⟨identities call List.mem_cons_self, between, target, after, rfl,
        fun c mem => identities c (List.mem_cons_of_mem _ mem), takes⟩
  · rintro (takes | ⟨same, between, target, after, rfl, identities, takes⟩)
    -- The call itself is the target, or it is one more identity in front of it.
    · exact ⟨[], call, rest, rfl, fun c mem => absurd mem List.not_mem_nil, takes⟩
    · refine ⟨call :: between, target, after, rfl, ?_, takes⟩
      intro c mem
      rcases List.mem_cons.1 mem with rfl | mem
      · exact same
      · exact identities c mem

/-- No stray value flows through no calls: `¬ StrayReachesInt []`. -/
theorem strayReachesInt_nil : ¬ StrayReachesInt [] := by
  rintro ⟨before, v, after, split, -⟩
  exact absurd split.symm (List.append_ne_nil_of_right_ne_nil _ (List.cons_ne_nil _ _))

/-- A stray value reaches a step for integers from the first call, where this fixes it, or from a later one:
`StrayReachesInt (call :: rest) ↔ (∃ v, call = ⟨"FixedValue", [v]⟩ ∧ Stray v ∧ ReachesInt rest) ∨ StrayReachesInt
rest`. -/
theorem strayReachesInt_cons {call : Spec.Call} {rest : List Spec.Call} :
    StrayReachesInt (call :: rest) ↔
      (∃ v, call = ⟨"FixedValue", [v]⟩ ∧ Stray v ∧ ReachesInt rest) ∨ StrayReachesInt rest := by
  constructor
  · rintro ⟨before, v, after, split, stray, reaches⟩
    cases before with
    | nil =>
      cases split
      exact .inl ⟨v, rfl, stray, reaches⟩
    | cons first before =>
      cases split
      exact .inr ⟨before, v, after, rfl, stray, reaches⟩
  · rintro (⟨v, rfl, stray, reaches⟩ | ⟨before, v, after, rfl, stray, reaches⟩)
    · exact ⟨[], v, rest, rfl, stray, reaches⟩
    · exact ⟨call :: before, v, after, rfl, stray, reaches⟩

/-! ## Values of a kind -/

/-- Integers and texts are not stray: `¬ Stray v`. -/
theorem not_stray {kind : FlowKind} {v : Value} (settled : kind = .int ∨ kind = .text)
    (carries : kind.Carries v) : ¬ Stray v := by
  rcases settled with rfl | rfl
  · obtain ⟨n, rfl⟩ := carries
    rintro (⟨b, same⟩ | ⟨x, same, -⟩) <;> cases same
  · obtain ⟨s, rfl⟩ := carries
    rintro (⟨b, same⟩ | ⟨x, same, -⟩) <;> cases same

/-- Integers and texts are no floats: `Faithful v`. -/
theorem faithful_of_settled {kind : FlowKind} {v : Value} (settled : kind = .int ∨ kind = .text)
    (carries : kind.Carries v) : Faithful v := by
  rintro x rfl
  rcases settled with rfl | rfl <;> (obtain ⟨_, same⟩ := carries; cases same)

/-- A written value flows as the kind that is announced for it: `(fixedKind [v]).Carries v`. -/
theorem fixedKind_carries {v : Value} (written : Spec.Written v) : (fixedKind [v]).Carries v := by
  cases written with
  | bool b => exact .inl ⟨b, rfl⟩
  | int n => exact ⟨n, rfl⟩
  | float x => exact .inr ⟨x, rfl⟩
  | text s => exact ⟨s, rfl⟩

/-- Any other float converts to an integer when it is the value of one:
`(Value.integralFloat? x).isSome ↔ ∃ n : Int64, Binary64.toInt? x = some n.toInt`. -/
theorem integralFloat?_isSome_iff {x : Float} (faithful : Faithful (.float x)) :
    (Value.integralFloat? x).isSome = true ↔ ∃ n : Int64, Binary64.toInt? x = some n.toInt := by
  have notAbove : Binary64.toInt? x ≠ some (2 ^ 63) := faithful x rfl
  rw [Option.isSome_iff_exists]
  constructor
  · rintro ⟨n, cast⟩
    rcases Value.integralFloat?_eq_some_iff.1 cast with denotes | ⟨above, -⟩
    · exact ⟨n, denotes⟩
    · exact absurd above notAbove
  · rintro ⟨n, denotes⟩
    exact ⟨n, Value.integralFloat?_eq_some_iff.2 (.inl denotes)⟩

/-- What flows, and is no text, is refused as an integer exactly when it is stray:
`(∃ e, v.toInt64 = .error e) ↔ Stray v`. -/
theorem toInt64_error_iff {kind : FlowKind} {v : Value} (carries : kind.Carries v) (notText : kind ≠ .text)
    (faithful : Faithful v) : (∃ e, v.toInt64 = .error e) ↔ Stray v := by
  have refused : (∃ e, v.toInt64 = .error e) ↔ ¬ v.toInt64?.isSome = true := by
    constructor
    · rintro ⟨e, failed⟩ some
      obtain ⟨n, converts⟩ := Option.isSome_iff_exists.1 some
      have converted : v.toInt64 = .ok n := Value.toInt64_eq_ok_iff_toInt64?.2 converts
      rw [converted] at failed
      cases failed
    · intro none
      cases converts : v.toInt64 with
      | error e => exact ⟨e, rfl⟩
      | ok n => exact absurd (Option.isSome_iff_exists.2 ⟨n, Value.toInt64_eq_ok_iff_toInt64?.1 converts⟩) none
  rw [refused]
  -- An integer always converts; a value of unknown kind is strayed when it is a truth value or not whole.
  cases kind with
  | int =>
    obtain ⟨n, rfl⟩ := carries
    constructor
    · intro none
      exact absurd rfl none
    · intro stray
      exact absurd stray (not_stray (.inl rfl) ⟨n, rfl⟩)
  | text => exact absurd rfl notText
  | same => exact carries.elim
  | any =>
    rcases carries with ⟨b, rfl⟩ | ⟨x, rfl⟩
    · exact ⟨fun _ => .inl ⟨b, rfl⟩, fun _ => Bool.false_ne_true⟩
    · show ¬ (Value.integralFloat? x).isSome = true ↔ _
      rw [integralFloat?_isSome_iff faithful]
      constructor
      · intro none
        exact .inr ⟨x, rfl, none⟩
      · rintro (⟨b, same⟩ | ⟨y, same, none⟩)
        · cases same
        · cases same
          exact none

/-! ## Steps -/

/-- The two names are different: `fixing.name ≠ identity.name`. -/
theorem fixing_name_ne : fixing.name ≠ identity.name := by decide

section Steps

variable {allowUnsafe : Bool} {flow after : Flow} {call : Spec.Call} {step : Step} {v : Value}

/-- A call takes an integer when the definition that is found for it does: `TakesInt call ↔ d.input = .int`. -/
theorem takesInt_iff {d : Definition} (found : catalog.find? call.name = some d) :
    TakesInt call ↔ d.input = .int := by
  constructor
  · rintro ⟨d', found', input⟩
    rw [found] at found'
    cases found'
    exact input
  · intro input
    exact ⟨d, found, input⟩

/-- A step refuses what flows in exactly when it takes an integer and this is stray:
`(∃ e, step v = .error e) ↔ Stray v ∧ TakesInt call`. -/
theorem step_error_iff (resolved : catalog.resolveCall allowUnsafe flow call = .ok (step, after))
    (carries : flow.kind.Carries v) (faithful : Faithful v) :
    (∃ e, step v = .error e) ↔ Stray v ∧ TakesInt call := by
  obtain ⟨d, make, found, has, made, takes, -⟩ := resolveCall_eq_ok resolved
  rw [takesInt_iff found]
  -- Only a step on integers can refuse.
  have passes : d.input ≠ .int → (∃ v', step v = .ok v') →
      ((∃ e, step v = .error e) ↔ Stray v ∧ d.input = .int) := by
    rintro input ⟨v', yields⟩
    constructor
    · rintro ⟨e, refused⟩
      rw [yields] at refused
      cases refused
    · rintro ⟨-, same⟩
      exact absurd same input
  cases (shape_of_find? found has made).2 with
  | onInt kind f input _ _ run =>
    have notText : flow.kind ≠ .text := fun same => takes ⟨input, same⟩
    rw [run, ← toInt64_error_iff carries notText faithful]
    constructor
    · rintro ⟨e, refused⟩
      exact ⟨⟨e, Outcome.map_eq_error.1 refused⟩, input⟩
    · rintro ⟨⟨e, refused⟩, -⟩
      exact ⟨e, Outcome.map_eq_error.2 refused⟩
  | onText f input _ run =>
    -- What flows in a chain of built-in functions has a text.
    obtain ⟨s, written⟩ := carries.exists_toText
    exact passes input ⟨.text (f s), by rw [run, written, Outcome.map_ok]⟩
  | identity input _ _ run => exact passes input ⟨_, run v⟩
  | fixed a input _ _ _ run => exact passes input ⟨_, run v⟩

/-- What flows out of a step has the kind that is tracked behind it, and it is stray exactly when it
flowed through `Identity` or is the argument of `FixedValue`. -/
theorem step_ok (resolved : catalog.resolveCall allowUnsafe flow call = .ok (step, after))
    (fixed : ∀ a, call = ⟨"FixedValue", [a]⟩ → Spec.Written a ∧ Faithful a)
    (carries : flow.kind.Carries v) (faithful : Faithful v) {v' : Value} (yields : step v = .ok v') :
    after.kind.Carries v' ∧ Faithful v' ∧
      (Stray v' ↔ (call.name = ("Identity" : Text) ∧ Stray v) ∨
        ∃ a, call = ⟨"FixedValue", [a]⟩ ∧ Stray a) := by
  obtain ⟨d, make, found, has, made, -, rfl⟩ := resolveCall_eq_ok resolved
  obtain ⟨name, shape⟩ := shape_of_find? found has made
  -- A settled kind is not stray, and its call is neither of the two.
  have settled : ∀ {kind : FlowKind}, Announces d kind → kind.Carries v' →
      (d.kindAfter call.args flow.kind).Carries v' ∧ Faithful v' ∧
        (Stray v' ↔ (call.name = ("Identity" : Text) ∧ Stray v) ∨
          ∃ a, call = ⟨"FixedValue", [a]⟩ ∧ Stray a) := by
    intro kind announces carries'
    rw [announces.kindAfter]
    refine ⟨carries', faithful_of_settled announces.settled carries', ?_⟩
    constructor
    · intro stray
      exact absurd stray (not_stray announces.settled carries')
    · rintro (⟨same, -⟩ | ⟨a, rfl, -⟩)
      · exact absurd (name.symm.trans same) announces.notIdentity
      · exact absurd name.symm announces.notFixing
  cases shape with
  | onInt kind f _ announces yield run =>
    -- What the step yields is settled, whatever integer it got.
    rw [run] at yields
    obtain ⟨n, -, rfl⟩ := Spec.map_eq_ok yields
    exact settled announces (yield n)
  | onText f _ announces run =>
    rw [run] at yields
    obtain ⟨s, -, rfl⟩ := Spec.map_eq_ok yields
    exact settled announces ⟨f s, rfl⟩
  | identity _ same kindAfter run =>
    -- The kind and the value both stay, so what was stray still is.
    rw [run] at yields
    cases yields
    rw [kindAfter]
    refine ⟨carries, faithful, ?_⟩
    constructor
    · intro stray
      exact .inl ⟨name.trans same, stray⟩
    · rintro (⟨-, stray⟩ | ⟨a, rfl, -⟩)
      · exact stray
      · exact absurd (name.trans same) fixing_name_ne
  | fixed a _ same args kindAfter run =>
    -- The argument replaces what flowed in, so only the argument counts.
    rw [run] at yields
    obtain rfl : a = v' := Except.ok.inj yields
    have whole : call = ⟨"FixedValue", [a]⟩ := by
      obtain ⟨callName, callArgs⟩ := call
      cases name.trans same
      cases args
      rfl
    obtain ⟨isWritten, isFaithful⟩ := fixed a whole
    rw [kindAfter]
    refine ⟨fixedKind_carries isWritten, isFaithful, ?_⟩
    constructor
    · intro stray
      exact .inr ⟨a, whole, stray⟩
    · rintro (⟨identity, -⟩ | ⟨b, same', stray⟩)
      · rw [whole] at identity
        exact absurd identity fixing_name_ne
      · rw [whole] at same'
        cases same'
        exact stray

end Steps

/-! ## Runs -/

section Runs

variable {allowUnsafe : Bool} {flow after : Flow} {calls : List Spec.Call} {steps : List Step} {v : Value}

/-- What flows out of a run has the kind that is tracked at its end: `after.kind.Carries v'`. -/
theorem run_carries (resolved : catalog.resolveCalls allowUnsafe flow calls = .ok (steps, after))
    (fixed : ∀ a, (⟨"FixedValue", [a]⟩ : Spec.Call) ∈ calls → Spec.Written a ∧ Faithful a)
    (carries : flow.kind.Carries v) (faithful : Faithful v) {v' : Value}
    (yields : Step.runAll steps v = .ok v') : after.kind.Carries v' := by
  induction calls generalizing flow steps v with
  | nil =>
    cases resolved
    cases yields
    exact carries
  | cons call rest ih =>
    obtain ⟨step, between, others, head, tail, rfl⟩ := resolveCalls_cons_eq_ok resolved
    rw [Step.runAll_cons] at yields
    obtain ⟨next, stepped, yields⟩ := Outcome.bind_eq_ok.1 yields
    obtain ⟨carriesNext, faithfulNext, -⟩ :=
      step_ok head (fun a same => fixed a (same ▸ List.mem_cons_self)) carries faithful stepped
    exact ih tail (fun a mem => fixed a (List.mem_cons_of_mem _ mem)) carriesNext faithfulNext yields

/-- A run raises an error exactly when what flows in is stray and reaches a step for integers, or a stray value fixed
on the way does: `(∃ e, Step.runAll steps v = .error e) ↔ (Stray v ∧ ReachesInt calls) ∨ StrayReachesInt calls`. -/
theorem run_error_iff (resolved : catalog.resolveCalls allowUnsafe flow calls = .ok (steps, after))
    (fixed : ∀ a, (⟨"FixedValue", [a]⟩ : Spec.Call) ∈ calls → Spec.Written a ∧ Faithful a)
    (carries : flow.kind.Carries v) (faithful : Faithful v) :
    (∃ e, Step.runAll steps v = .error e) ↔ (Stray v ∧ ReachesInt calls) ∨ StrayReachesInt calls := by
  induction calls generalizing flow steps v with
  | nil =>
    cases resolved
    constructor
    · rintro ⟨e, refused⟩
      cases refused
    · rintro (⟨-, reaches⟩ | strays)
      · exact absurd reaches reachesInt_nil
      · exact absurd strays strayReachesInt_nil
  | cons call rest ih =>
    obtain ⟨step, between, others, head, tail, rfl⟩ := resolveCalls_cons_eq_ok resolved
    rw [Step.runAll_cons, reachesInt_cons, strayReachesInt_cons]
    have refuses := step_error_iff head carries faithful
    cases stepped : step v with
    | error e =>
      -- The first step refuses, and nothing behind it can mend that.
      obtain ⟨stray, takes⟩ := refuses.1 ⟨e, stepped⟩
      exact ⟨fun _ => .inl ⟨stray, .inl takes⟩, fun _ => ⟨e, rfl⟩⟩
    | ok next =>
      -- What comes next is stray when it passed an identity or was fixed here, which is how both sides
      -- unfold.
      have passed : ¬ (Stray v ∧ TakesInt call) := by
        intro stray
        obtain ⟨e, refused⟩ := refuses.2 stray
        rw [stepped] at refused
        cases refused
      obtain ⟨carriesNext, faithfulNext, strayNext⟩ :=
        step_ok head (fun a same => fixed a (same ▸ List.mem_cons_self)) carries faithful stepped
      have rests := ih tail (fun a mem => fixed a (List.mem_cons_of_mem _ mem)) carriesNext faithfulNext
      show (∃ e, Step.runAll others next = .error e) ↔ _
      rw [rests, strayNext]
      constructor
      · rintro (⟨⟨identity, stray⟩ | ⟨a, same, stray⟩, reaches⟩ | strays)
        · exact .inl ⟨stray, .inr ⟨identity, reaches⟩⟩
        · exact .inr (.inl ⟨a, same, stray, reaches⟩)
        · exact .inr (.inr strays)
      · rintro (⟨stray, takes | ⟨identity, reaches⟩⟩ | ⟨a, same, stray, reaches⟩ | strays)
        · exact absurd ⟨stray, takes⟩ passed
        · exact .inl ⟨.inl ⟨identity, stray⟩, reaches⟩
        · exact .inl ⟨.inr ⟨a, same, stray⟩, reaches⟩
        · exact .inr strays

end Runs

/-! ## Chains -/

/-- What a parsed specification fixes is a written value, and none of these is `2 ^ 63`. -/
theorem fixed_of_parse {spec : Text} {calls : List Spec.Call} (parsed : Spec.parse spec = .ok calls)
    (faithful : ∀ x, (⟨"FixedValue", [.float x]⟩ : Spec.Call) ∈ calls →
      Binary64.toInt? x ≠ some (Int64.maxValue.toInt + 1)) :
    ∀ a, (⟨"FixedValue", [a]⟩ : Spec.Call) ∈ calls → Spec.Written a ∧ Faithful a := by
  intro a mem
  constructor
  · exact (Spec.parse_eq_ok_iff.1 parsed).written _ mem a List.mem_cons_self
  · rintro x rfl
    exact faithful x mem

/-- The cycle number is not stray: `¬ Stray (.int cycle)`. -/
theorem not_stray_cycle (cycle : Int64) : ¬ Stray (.int cycle) := not_stray (.inl rfl) ⟨cycle, rfl⟩

/-- The cycle number is no float: `Faithful (.int cycle)`. -/
theorem faithful_cycle (cycle : Int64) : Faithful (.int cycle) :=
  faithful_of_settled (.inl rfl) ⟨cycle, rfl⟩

/-- No text flows into a call that takes an integer:
`Step.runAll (steps.take before.length) (.int cycle) ≠ .ok (.text s)`. -/
theorem run_ne_text {allowUnsafe : Bool} {before after : List Spec.Call} {target : Spec.Call}
    {steps : List Step} {flow : Flow}
    (resolved : catalog.resolveCalls allowUnsafe Flow.start (before ++ target :: after) = .ok (steps, flow))
    (fixed : ∀ a, (⟨"FixedValue", [a]⟩ : Spec.Call) ∈ before → Spec.Written a ∧ Faithful a)
    (takes : TakesInt target) (cycle : Int64) (s : Text) :
    Step.runAll (steps.take before.length) (.int cycle) ≠ .ok (.text s) := by
  intro yields
  obtain ⟨first, between, others, head, tail, rfl, length⟩ := Catalog.resolveCalls_append_eq_ok resolved
  obtain ⟨step, next, rest, call, -, -⟩ := resolveCalls_cons_eq_ok tail
  obtain ⟨d, make, found, -, -, check, -⟩ := resolveCall_eq_ok call
  rw [← length, List.take_left] at yields
  have carries := run_carries head fixed ⟨cycle, rfl⟩ (faithful_cycle cycle) yields
  -- A text flows as a text only, and the call has been checked for that.
  cases kind : between.kind with
  | text => exact check ⟨(takesInt_iff found).1 takes, kind⟩
  | int =>
    rw [kind] at carries
    obtain ⟨n, same⟩ := carries
    cases same
  | any =>
    rw [kind] at carries
    rcases carries with ⟨b, same⟩ | ⟨x, same⟩ <;> cases same
  | same =>
    rw [kind] at carries
    exact carries

/-- Chains over the built-in functions are type sound, the fixed float `2 ^ 63` aside. A chain raises an
error, and then at every cycle, exactly when a fixed value that is a boolean or no 64-bit integer reaches a
step for integers; no text flows into such a step; and the kind that resolving tracks at the end is the
kind of the value at every cycle at which there is one. -/
theorem chain_type_sound {spec : Text} {allowUnsafe : Bool} {chain : Chain} {calls : List Spec.Call}
    (resolved : catalog.resolve spec allowUnsafe = .ok chain) (parsed : Spec.parse spec = .ok calls)
    (faithful : ∀ x, (⟨"FixedValue", [.float x]⟩ : Spec.Call) ∈ calls →
      Binary64.toInt? x ≠ some (Int64.maxValue.toInt + 1)) :
    (∀ cycle, (∃ e, chain.apply cycle = .error e) ↔ StrayReachesInt calls) ∧
      (∀ before target after, calls = before ++ target :: after → TakesInt target → ∀ cycle s,
        Step.runAll (chain.steps.take before.length) (.int cycle) ≠ .ok (.text s)) ∧
      ∃ flow, catalog.resolveSteps allowUnsafe spec = .ok (chain.steps, flow) ∧
        (¬ StrayReachesInt calls → ∀ cycle,
          (flow.kind = .int → ∃ n, chain.apply cycle = .ok (.int n)) ∧
          (flow.kind = .text → ∃ s, chain.apply cycle = .ok (.text s))) := by
  obtain ⟨flow, resolvedSteps, resolvedCalls⟩ := Catalog.resolve_eq_ok resolved parsed
  have fixed := fixed_of_parse parsed faithful
  have raises : ∀ cycle, (∃ e, chain.apply cycle = .error e) ↔ StrayReachesInt calls := by
    intro cycle
    have run := run_error_iff resolvedCalls fixed ⟨cycle, rfl⟩ (faithful_cycle cycle)
    rw [Chain.apply, run]
    constructor
    · rintro (⟨stray, -⟩ | strays)
      · exact absurd stray (not_stray_cycle cycle)
      · exact strays
    · exact .inr
  refine ⟨raises, ?_, flow, resolvedSteps, ?_⟩
  · rintro before target after rfl takes cycle s
    exact run_ne_text resolvedCalls (fun a mem => fixed a (List.mem_append_left _ mem)) takes cycle s
  · intro none cycle
    cases run : chain.apply cycle with
    | error e => exact absurd ((raises cycle).1 ⟨e, run⟩) none
    | ok v =>
      have carries := run_carries resolvedCalls fixed ⟨cycle, rfl⟩ (faithful_cycle cycle) run
      constructor
      · intro kind
        rw [kind] at carries
        obtain ⟨n, rfl⟩ := carries
        exact ⟨n, rfl⟩
      · intro kind
        rw [kind] at carries
        obtain ⟨s, rfl⟩ := carries
        exact ⟨s, rfl⟩

/-- A chain with a fixed boolean in front of an integer function: it raises an error at one cycle, and so
at every cycle. -/
theorem chain_type_sound_sample :
    ∃ chain calls, catalog.resolve "FixedValue(true); Identity(); Hash()" false = .ok chain ∧
      Spec.parse "FixedValue(true); Identity(); Hash()" = .ok calls ∧
      (∀ x, (⟨"FixedValue", [.float x]⟩ : Spec.Call) ∈ calls →
        Binary64.toInt? x ≠ some (Int64.maxValue.toInt + 1)) ∧
      ∀ cycle, ∃ e, chain.apply cycle = .error e := by
  have outcome : (match catalog.resolve "FixedValue(true); Identity(); Hash()" false,
        Spec.parse "FixedValue(true); Identity(); Hash()" with
      | .ok chain, .ok calls =>
        !(chain.apply 7).toBool && calls.all fun call => call.args.all fun v => v.kind != .float
      | _, _ => false) = true := by
    decide +kernel
  cases resolved : catalog.resolve "FixedValue(true); Identity(); Hash()" false with
  | error e =>
    rw [resolved] at outcome
    cases outcome
  | ok chain =>
    cases parsed : Spec.parse "FixedValue(true); Identity(); Hash()" with
    | error e =>
      rw [resolved, parsed] at outcome
      cases outcome
    | ok calls =>
      rw [resolved, parsed] at outcome
      obtain ⟨raises, noFloats⟩ := Bool.and_eq_true_iff.1 outcome
      have faithful : ∀ x, (⟨"FixedValue", [.float x]⟩ : Spec.Call) ∈ calls →
          Binary64.toInt? x ≠ some (Int64.maxValue.toInt + 1) := by
        intro x mem
        have kinds := List.all_eq_true.1 (List.all_eq_true.1 noFloats _ mem) (.float x) List.mem_cons_self
        cases kinds
      have sound := (chain_type_sound resolved parsed faithful).1
      refine ⟨chain, calls, rfl, rfl, faithful, fun cycle => (sound cycle).2 ((sound 7).1 ?_)⟩
      cases run : chain.apply 7 with
      | error e => exact ⟨e, rfl⟩
      | ok v =>
        rw [run] at raises
        cases raises

end OpCycle.Basics
