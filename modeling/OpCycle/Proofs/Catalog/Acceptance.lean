import OpCycle.Basics.Library
import OpCycle.Proofs.Catalog.Resolution

/-! # Which specifications resolve
A specification resolves exactly if it parses, each of its calls fits the definition that it names, and no
step for integers is behind a step that is taken to yield a text. What a step yields is tracked along the
chain; a definition that passes on whatever comes in says so by the kind `same`. Where that kind is announced
by the definition itself, the tracking passes on what came in. Where it is computed from the arguments, the
tracking stops at `same`, and a text that comes in is no longer seen.

* `Definition.Fits`, `CallsFit`: definitions that make the steps of calls.
* `TextReaches`: a text flows to a call, by a rule for what flows out of calls.
* `resolve_accepts`: what resolves, and what would without a hidden text. -/

namespace OpCycle

open Spec (Call)

/-- What `d` announces for a call with these `args`: what `d.outputOf` says, or else `d.output`. -/
def Definition.announced (d : Definition) (args : List Value) : FlowKind :=
  match d.outputOf with
  | some outputOf => outputOf args
  | none => d.output

/-- What flows out of a step that takes this in, where the kind `same` passes on what comes in, whether the
definition or the arguments of the call announce it. -/
def Definition.kindPassed (d : Definition) (args : List Value) (incoming : FlowKind) : FlowKind :=
  if d.announced args = .same then incoming else d.announced args

/-- The definition `d` makes `step` for a call with these `args`. -/
structure Definition.Fits (d : Definition) (allowUnsafe : Bool) (args : List Value) (step : Step) : Prop where
  /-- The function is safe to share, or unsafe ones are allowed. -/
  safe : d.threadSafe = true ∨ allowUnsafe = true
  /-- There are no fewer arguments than it takes. -/
  enough : d.minArgs ≤ args.length
  /-- There are no more arguments than it takes. -/
  notTooMany : args.length ≤ d.maxArgs
  /-- It accepts the arguments. -/
  accepts : ∃ make, d.maker = some make ∧ make args = .ok step

namespace Catalog

variable {c : Catalog} {allowUnsafe : Bool}

/-- Each of the `calls` names a definition that `Fits` it. -/
def CallsFit (c : Catalog) (allowUnsafe : Bool) (calls : List Call) : Prop :=
  ∀ call ∈ calls, ∃ d step, c.find? call.name = some d ∧ d.Fits allowUnsafe call.args step

/-- What flows out of `call`, by a `rule` for the definition that it names. -/
def kindBehind (c : Catalog) (rule : Definition → List Value → FlowKind → FlowKind) (incoming : FlowKind)
    (call : Call) : FlowKind :=
  match c.find? call.name with
  | some d => rule d call.args incoming
  | none => incoming

/-- What flows out of `calls` in a row, by `rule`. -/
def flowing (c : Catalog) (rule : Definition → List Value → FlowKind → FlowKind) (incoming : FlowKind)
    (calls : List Call) : FlowKind :=
  calls.foldl (c.kindBehind rule) incoming

/-- By `rule`, a text flows to one of the `calls` whose definition meets the `condition`. -/
def TextReaches (c : Catalog) (rule : Definition → List Value → FlowKind → FlowKind)
    (condition : Definition → List Value → Prop) (incoming : FlowKind) (calls : List Call) : Prop :=
  ∃ before call after d, calls = before ++ call :: after ∧ c.find? call.name = some d ∧
    condition d call.args ∧ c.flowing rule incoming before = .text

/-! ## One call -/

/-- **What a call does.** It resolves exactly if the definition that it names `Fits` its arguments and no text flows
into a step for integers, and what flows out is `d.kindAfter`. -/
theorem resolveCall_eq_ok_iff {flow after : Flow} {call : Call} {step : Step} :
    c.resolveCall allowUnsafe flow call = .ok (step, after) ↔
      ∃ d, c.find? call.name = some d ∧ d.Fits allowUnsafe call.args step ∧
        ¬ (d.input = .int ∧ flow.kind = .text) ∧
        after = ⟨d.kindAfter call.args flow.kind, call.name⟩ := by
  unfold resolveCall
  cases found : c.find? call.name with
  | none =>
    constructor
    · intro h
      cases h
    · rintro ⟨d, named, -⟩
      cases named
  | some d =>
    dsimp only
    have unsafe_iff : (!d.threadSafe && !allowUnsafe) = true ↔
        ¬ (d.threadSafe = true ∨ allowUnsafe = true) := by
      cases d.threadSafe <;> cases allowUnsafe <;> decide
    constructor
    · intro h
      -- The checks in order: safety, the number of arguments, the flow of text, the maker, its arguments.
      split at h
      · cases h
      next safe =>
      split at h
      · cases h
      next count =>
      split at h
      · cases h
      next takes =>
      split at h
      · cases h
      next make has =>
      split at h
      · cases h
      next made accepted =>
      cases h
      rw [unsafe_iff, Decidable.not_not] at safe
      rw [not_or, Nat.not_lt, Nat.not_lt] at count
      exact ⟨d, rfl, ⟨safe, count.1, count.2, make, has, accepted⟩, takes, rfl⟩
    · rintro ⟨d', named, ⟨safe, enough, notTooMany, make, has, accepted⟩, takes, rfl⟩
      cases named
      have count : ¬ (call.args.length < d.minArgs ∨ d.maxArgs < call.args.length) := by
        rw [not_or, Nat.not_lt, Nat.not_lt]
        exact ⟨enough, notTooMany⟩
      rw [if_neg (fun refused => unsafe_iff.1 refused safe), if_neg count, if_neg takes, has]
      dsimp only
      rw [accepted]

/-! ## Calls in a row -/

/-- No text reaches a step for integers where there are no calls: `¬ c.TextReaches rule condition incoming []`. -/
theorem textReaches_nil {rule : Definition → List Value → FlowKind → FlowKind}
    {condition : Definition → List Value → Prop} {incoming : FlowKind} :
    ¬ c.TextReaches rule condition incoming [] := by
  rintro ⟨before, call, after, d, split, -⟩
  exact absurd split.symm (List.append_ne_nil_of_right_ne_nil _ (List.cons_ne_nil _ _))

/-- `TextReaches` holds of the first of some calls, or of the others behind it. -/
theorem textReaches_cons {rule : Definition → List Value → FlowKind → FlowKind}
    {condition : Definition → List Value → Prop} {incoming : FlowKind} {call : Call} {rest : List Call}
    {d : Definition} (found : c.find? call.name = some d) :
    c.TextReaches rule condition incoming (call :: rest) ↔
      condition d call.args ∧ incoming = .text ∨
        c.TextReaches rule condition (rule d call.args incoming) rest := by
  have behind : c.kindBehind rule incoming call = rule d call.args incoming := by
    rw [kindBehind, found]
  constructor
  · rintro ⟨before, target, after, d', split, found', met, text⟩
    -- The text reaches the first call, or a call behind it with the kind that the first leaves.
    cases before with
    | nil =>
      cases split
      cases found.symm.trans found'
      exact .inl ⟨met, text⟩
    | cons first before =>
      cases split
      rw [flowing, List.foldl_cons, behind] at text
      exact .inr ⟨before, target, after, d', rfl, found', met, text⟩
  · rintro (⟨met, text⟩ | ⟨before, target, after, d', rfl, found', met, text⟩)
    · exact ⟨[], call, rest, d, rfl, found, met, text⟩
    · refine ⟨call :: before, target, after, d', rfl, found', met, ?_⟩
      rw [flowing, List.foldl_cons, behind]
      exact text

/-- Calls in a row resolve exactly if `CallsFit` holds and no text is seen to flow into a step for integers, by
`Definition.kindAfter`. -/
theorem resolveCalls_succeeds_iff {calls : List Call} {flow : Flow} :
    (∃ made, c.resolveCalls allowUnsafe flow calls = .ok made) ↔
      c.CallsFit allowUnsafe calls ∧
        ¬ c.TextReaches Definition.kindAfter (fun d _ => d.input = .int) flow.kind calls := by
  induction calls generalizing flow with
  | nil => exact ⟨fun _ => ⟨fun call mem => absurd mem List.not_mem_nil, textReaches_nil⟩, fun _ => ⟨_, rfl⟩⟩
  | cons call rest ih =>
    constructor
    · rintro ⟨⟨steps, last⟩, resolved⟩
      obtain ⟨step, between, others, head, tail, rfl⟩ := resolveCalls_cons_eq_ok resolved
      obtain ⟨d, found, fits, takes, rfl⟩ := resolveCall_eq_ok_iff.1 head
      obtain ⟨restFits, restTakes⟩ := ih.1 ⟨_, tail⟩
      refine ⟨?_, ?_⟩
      · intro other mem
        rcases List.mem_cons.1 mem with rfl | mem
        · exact ⟨d, step, found, fits⟩
        · exact restFits other mem
      · rw [textReaches_cons found]
        exact not_or.2 ⟨takes, restTakes⟩
    · rintro ⟨fit, takes⟩
      obtain ⟨d, step, found, fits⟩ := fit call List.mem_cons_self
      rw [textReaches_cons found, not_or] at takes
      have head := resolveCall_eq_ok_iff.2 ⟨d, found, fits, takes.1, rfl⟩
      have resolved : ∃ made, c.resolveCalls allowUnsafe ⟨d.kindAfter call.args flow.kind, call.name⟩ rest =
          .ok made := ih.2 ⟨fun other mem => fit other (List.mem_cons_of_mem _ mem), takes.2⟩
      obtain ⟨⟨others, last⟩, tail⟩ := resolved
      refine ⟨(step :: others, last), ?_⟩
      rw [resolveCalls, head, Outcome.ok_bind]
      dsimp only
      rw [tail]
      rfl

/-! ## The kind that passes on what comes in -/

/-- The arguments of a call, by `d.outputOf`, announce that whatever comes in is passed on. -/
def SameFromArguments (d : Definition) (args : List Value) : Prop :=
  ∃ outputOf, d.outputOf = some outputOf ∧ outputOf args = .same

variable {d : Definition} {args : List Value} {tracked incoming : FlowKind}

/-- What the arguments announce is tracked as it is: `d.kindAfter args tracked = .same`. -/
theorem SameFromArguments.kindAfter (same : SameFromArguments d args) : d.kindAfter args tracked = .same := by
  obtain ⟨outputOf, computed, same⟩ := same
  simp only [Definition.kindAfter, computed, same]

/-- What the arguments announce to be passed on is passed on: `d.kindPassed args incoming = incoming`. -/
theorem SameFromArguments.kindPassed (same : SameFromArguments d args) :
    d.kindPassed args incoming = incoming := by
  obtain ⟨outputOf, computed, same⟩ := same
  simp only [Definition.kindPassed, Definition.announced, computed, same, if_true]

/-- Whatever else is announced, what flows out is tracked: `d.kindAfter args tracked = d.kindPassed args tracked`. -/
theorem kindAfter_eq_kindPassed (other : ¬ SameFromArguments d args) :
    d.kindAfter args tracked = d.kindPassed args tracked := by
  unfold Definition.kindAfter Definition.kindPassed Definition.announced
  cases computed : d.outputOf with
  | none => rfl
  | some outputOf =>
    have notSame : outputOf args ≠ .same := fun same => other ⟨outputOf, computed, same⟩
    simp only [if_neg notSame]

/-- A step that yields a text does so also when a text comes in: `d.kindPassed args incoming = .text`. -/
theorem kindPassed_text_mono (below : tracked = .text → incoming = .text)
    (text : d.kindPassed args tracked = .text) : d.kindPassed args incoming = .text := by
  unfold Definition.kindPassed at text ⊢
  split at text
  · next same => rw [if_pos same, below text]
  · next other => rw [if_neg other, text]

/-- Where a text is tracked behind a step, one does flow there: `d.kindPassed args incoming = .text`. -/
theorem kindPassed_of_kindAfter (below : tracked = .text → incoming = .text)
    (text : d.kindAfter args tracked = .text) : d.kindPassed args incoming = .text := by
  by_cases same : SameFromArguments d args
  · rw [same.kindAfter] at text
    cases text
  · rw [kindAfter_eq_kindPassed same] at text
    exact kindPassed_text_mono below text

/-- Unless its arguments announce that it passes on a text, a step yields a text only where one is tracked:
`d.kindAfter args tracked = .text`. -/
theorem kindAfter_of_kindPassed (above : incoming = .text → tracked = .text)
    (seen : ¬ (SameFromArguments d args ∧ incoming = .text)) (text : d.kindPassed args incoming = .text) :
    d.kindAfter args tracked = .text := by
  by_cases same : SameFromArguments d args
  · rw [same.kindPassed] at text
    exact absurd ⟨same, text⟩ seen
  · rw [kindAfter_eq_kindPassed same]
    exact kindPassed_text_mono above text

/-- A text that is tracked to a call does flow there:
`c.TextReaches Definition.kindPassed condition incoming calls`. -/
theorem TextReaches.flows {condition : Definition → List Value → Prop} {calls : List Call}
    (fit : c.CallsFit allowUnsafe calls)
    (below : tracked = .text → incoming = .text)
    (reaches : c.TextReaches Definition.kindAfter condition tracked calls) :
    c.TextReaches Definition.kindPassed condition incoming calls := by
  induction calls generalizing tracked incoming with
  | nil => exact absurd reaches textReaches_nil
  | cons call rest ih =>
    obtain ⟨d, step, found, -⟩ := fit call List.mem_cons_self
    rw [textReaches_cons found] at reaches ⊢
    rcases reaches with ⟨met, text⟩ | later
    · exact .inl ⟨met, below text⟩
    · exact .inr (ih (fun other mem => fit other (List.mem_cons_of_mem _ mem)) (kindPassed_of_kindAfter below) later)

/-- A text that flows to a call is tracked there, unless it flows through a step whose arguments announce that it is
passed on: `c.TextReaches Definition.kindAfter condition tracked calls`. -/
theorem TextReaches.isTracked {condition : Definition → List Value → Prop} {calls : List Call}
    (fit : c.CallsFit allowUnsafe calls)
    (above : incoming = .text → tracked = .text)
    (seen : ¬ c.TextReaches Definition.kindPassed SameFromArguments incoming calls)
    (reaches : c.TextReaches Definition.kindPassed condition incoming calls) :
    c.TextReaches Definition.kindAfter condition tracked calls := by
  induction calls generalizing tracked incoming with
  | nil => exact absurd reaches textReaches_nil
  | cons call rest ih =>
    obtain ⟨d, step, found, -⟩ := fit call List.mem_cons_self
    rw [textReaches_cons found, not_or] at seen
    rw [textReaches_cons found] at reaches ⊢
    rcases reaches with ⟨met, text⟩ | later
    · exact .inl ⟨met, above text⟩
    · exact .inr (ih (fun other mem => fit other (List.mem_cons_of_mem _ mem))
        (kindAfter_of_kindPassed above seen.1) seen.2 later)

/-! ## Specifications -/

/-- A specification resolves exactly if `Spec.parse` gives calls that resolve. -/
theorem resolve_succeeds_iff {spec : Text} :
    (∃ chain, c.resolve spec allowUnsafe = .ok chain) ↔
      ∃ calls, Spec.parse spec = .ok calls ∧
        ∃ made, c.resolveCalls allowUnsafe Flow.start calls = .ok made := by
  unfold resolve resolveSteps
  cases parsed : Spec.parse spec with
  | error e =>
    constructor
    · rintro ⟨chain, resolved⟩
      cases resolved
    · rintro ⟨calls, other, -⟩
      cases other
  | ok calls =>
    dsimp only
    constructor
    · rintro ⟨chain, resolved⟩
      cases made : c.resolveCalls allowUnsafe Flow.start calls with
      | error fault =>
        rw [made] at resolved
        cases resolved
      | ok steps => exact ⟨calls, rfl, steps, made⟩
    · rintro ⟨_, same, ⟨steps, last⟩, made⟩
      cases same
      exact ⟨⟨spec, steps⟩, by rw [made]⟩

/-- A specification that does not resolve is reported as the one that it is: `e.spec = spec`. -/
theorem resolve_eq_error_spec {spec : Text} {e : SpecError} (failed : c.resolve spec allowUnsafe = .error e) :
    e.spec = spec := by
  unfold resolve at failed
  split at failed
  · cases failed
    rfl
  · cases failed

/-- The specification `spec` parses into calls with `CallsFit`, and by `rule` no text flows into a step for
integers. -/
def WellKinded (c : Catalog) (rule : Definition → List Value → FlowKind → FlowKind) (allowUnsafe : Bool)
    (spec : Text) : Prop :=
  ∃ calls, Spec.parse spec = .ok calls ∧ c.CallsFit allowUnsafe calls ∧
    ¬ c.TextReaches rule (fun d _ => d.input = .int) .int calls

/-- The specification `spec` passes a text through a step with `SameFromArguments`: its arguments, and not its
definition, announce that it passes on what comes in. -/
def HidesText (c : Catalog) (spec : Text) : Prop :=
  ∃ calls, Spec.parse spec = .ok calls ∧ c.TextReaches Definition.kindPassed SameFromArguments .int calls

/-- **Resolving accepts the well-kinded specifications.** What it accepts are those that are well-kinded by
the kinds that it tracks. All that are well-kinded where every `same` passes on what comes in are among
them, and unless one hides a text there are no others. What is not accepted is reported as a specification
that does not resolve. -/
theorem resolve_accepts (c : Catalog) (allowUnsafe : Bool) (spec : Text) :
    ((∃ chain, c.resolve spec allowUnsafe = .ok chain) ↔
      c.WellKinded Definition.kindAfter allowUnsafe spec) ∧
    (c.WellKinded Definition.kindPassed allowUnsafe spec → ∃ chain, c.resolve spec allowUnsafe = .ok chain) ∧
    (¬ c.HidesText spec →
      ((∃ chain, c.resolve spec allowUnsafe = .ok chain) ↔
        c.WellKinded Definition.kindPassed allowUnsafe spec)) ∧
    ((∃ chain, c.resolve spec allowUnsafe = .ok chain) ∨
      ∃ fault, c.resolve spec allowUnsafe = .error ⟨spec, fault⟩) := by
  have exact : (∃ chain, c.resolve spec allowUnsafe = .ok chain) ↔
      c.WellKinded Definition.kindAfter allowUnsafe spec := by
    simp only [resolve_succeeds_iff, resolveCalls_succeeds_iff]
    exact Iff.rfl
  -- `kindPassed` reaches every kind that `kindAfter` reaches; the converse needs that no text is hidden.
  have enough : c.WellKinded Definition.kindPassed allowUnsafe spec →
      c.WellKinded Definition.kindAfter allowUnsafe spec := by
    rintro ⟨calls, parsed, fit, takes⟩
    exact ⟨calls, parsed, fit, fun reaches => takes (reaches.flows fit id)⟩
  refine ⟨exact, fun wellKinded => exact.2 (enough wellKinded), ?_, ?_⟩
  · intro plain
    rw [exact]
    refine ⟨?_, enough⟩
    rintro ⟨calls, parsed, fit, takes⟩
    have seen := fun hidden => plain ⟨calls, parsed, hidden⟩
    exact ⟨calls, parsed, fit, fun reaches => takes (reaches.isTracked fit id seen)⟩
  · cases outcome : c.resolve spec allowUnsafe with
    | ok chain => exact .inl ⟨chain, rfl⟩
    | error e =>
      obtain ⟨spec', fault⟩ := e
      cases resolve_eq_error_spec outcome
      exact .inr ⟨fault, rfl⟩

/-- A function `Pass` that gives back what comes in, which it says only when it is called. -/
def passing : Definition :=
  { name := "Pass", maker := some fun _ => .ok { run := .ok }, outputOf := some fun _ => .same }

/-- The built-in functions and `passing`. -/
def passingCatalog : Catalog := Basics.catalog.addLibrary ⟨"custom", [passing]⟩

/-- A text that passes through such a function reaches a step for integers: the specification resolves, and
it is not well-kinded where every `same` passes on what comes in. -/
theorem hidden_text_accepted :
    (∃ chain, passingCatalog.resolve "ToString(); Pass(); Add(1)" false = .ok chain) ∧
      ¬ passingCatalog.WellKinded Definition.kindPassed false "ToString(); Pass(); Add(1)" := by
  have resolves : (passingCatalog.resolve "ToString(); Pass(); Add(1)" false).toOption.any
      (fun _ => true) = true := by
    decide +kernel
  obtain ⟨chain, resolved, -⟩ := Outcome.exists_ok_of_test _ resolves
  refine ⟨⟨chain, resolved⟩, ?_⟩
  rintro ⟨calls, parsed, -, takes⟩
  -- Behind the first two calls a text flows, and the third takes an integer.
  have reaches : (Spec.parse "ToString(); Pass(); Add(1)").toOption.any (fun calls => calls[2]?.any fun third =>
      passingCatalog.flowing Definition.kindPassed .int (calls.take 2) = .text &&
        (passingCatalog.find? third.name).any fun d => d.input = .int) = true := by
    decide +kernel
  rw [parsed] at reaches
  dsimp only [Except.toOption, Option.any_some] at reaches
  obtain ⟨third, atTwo, met⟩ := (Option.any_eq_true _ _).1 reaches
  rw [Bool.and_eq_true, decide_eq_true_iff, Option.any_eq_true] at met
  obtain ⟨text, d, found, int⟩ := met
  obtain ⟨bound, rfl⟩ := List.getElem?_eq_some_iff.1 atTwo
  have split : calls = calls.take 2 ++ calls[2] :: calls.drop 3 := by
    rw [← List.drop_eq_getElem_cons bound, List.take_append_drop]
  exact takes ⟨calls.take 2, calls[2], calls.drop 3, d, split, found, of_decide_eq_true int, text⟩

end Catalog

end OpCycle
