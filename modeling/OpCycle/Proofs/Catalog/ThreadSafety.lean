import OpCycle.Proofs.Catalog.Resolution

/-! # The thread-safety check when resolving
Whether unsafe functions are allowed matters to a specification only if it calls one. Without the
permission a specification resolves exactly if it resolves with it and all its calls name functions that
are safe to share, and then to the same chain.

* `SafeSpec`, `UnsafeSpec`: specifications whose calls are all safe, or one of which is unsafe.
* `resolve_permission`: without unsafe calls the permission makes no difference. -/

namespace OpCycle.Catalog

variable {c : Catalog}

/-- The `call` names a definition that is safe to share between threads. -/
def SafeCall (c : Catalog) (call : Spec.Call) : Prop :=
  ∃ d, c.find? call.name = some d ∧ d.threadSafe = true

/-- The `call` names a definition that is not safe to share between threads. -/
def UnsafeCall (c : Catalog) (call : Spec.Call) : Prop :=
  ∃ d, c.find? call.name = some d ∧ d.threadSafe = false

/-- The specification `spec` parses into calls with `SafeCall`. -/
def SafeSpec (c : Catalog) (spec : Text) : Prop :=
  ∃ calls, Spec.parse spec = .ok calls ∧ ∀ call ∈ calls, c.SafeCall call

/-- The specification `spec` parses, and `UnsafeCall` holds of one of its calls. -/
def UnsafeSpec (c : Catalog) (spec : Text) : Prop :=
  ∃ calls, Spec.parse spec = .ok calls ∧ ∃ call ∈ calls, c.UnsafeCall call

/-- A safe call is not unsafe: `¬ c.UnsafeCall call`. -/
theorem SafeCall.not_unsafeCall {call : Spec.Call} (safe : c.SafeCall call) : ¬ c.UnsafeCall call := by
  rintro ⟨d', found', shaky⟩
  obtain ⟨d, found, safe⟩ := safe
  cases found.symm.trans found'
  cases safe.symm.trans shaky

/-- A specification with safe calls only has no unsafe call: `¬ c.UnsafeSpec spec`. -/
theorem SafeSpec.not_unsafeSpec {spec : Text} (safe : c.SafeSpec spec) : ¬ c.UnsafeSpec spec := by
  rintro ⟨calls', parsed', call, mem, shaky⟩
  obtain ⟨calls, parsed, safe⟩ := safe
  cases parsed.symm.trans parsed'
  exact (safe call mem).not_unsafeCall shaky

/-! ## One call -/

/-- The permission makes no difference to a call that is not unsafe:
`c.resolveCall before flow call = c.resolveCall after flow call`. -/
theorem resolveCall_permission {call : Spec.Call} (fine : ¬ c.UnsafeCall call) (flow : Flow)
    (before after : Bool) : c.resolveCall before flow call = c.resolveCall after flow call := by
  unfold resolveCall
  cases found : c.find? call.name with
  | none => rfl
  | some d =>
    cases safe : d.threadSafe with
    | true => simp only [safe, Bool.not_true, Bool.false_and]
    | false => exact absurd ⟨d, found, safe⟩ fine

/-- Without the permission every call that resolves is safe: `c.SafeCall call`. -/
theorem safe_of_resolveCall {flow : Flow} {call : Spec.Call} {made : Step × Flow}
    (resolved : c.resolveCall false flow call = .ok made) : c.SafeCall call := by
  unfold resolveCall at resolved
  cases found : c.find? call.name with
  | none =>
    rw [found] at resolved
    cases resolved
  | some d =>
    cases safe : d.threadSafe with
    | true => exact ⟨d, found, safe⟩
    | false =>
      rw [found] at resolved
      simp only [safe, Bool.not_false, Bool.and_self, if_true] at resolved
      cases resolved

/-! ## Calls in a row -/

/-- The permission makes no difference to calls none of which is unsafe:
`c.resolveCalls before flow calls = c.resolveCalls after flow calls`. -/
theorem resolveCalls_permission {calls : List Spec.Call} (fine : ∀ call ∈ calls, ¬ c.UnsafeCall call)
    (flow : Flow) (before after : Bool) :
    c.resolveCalls before flow calls = c.resolveCalls after flow calls := by
  induction calls generalizing flow with
  | nil => rfl
  | cons call rest ih =>
    rw [resolveCalls, resolveCalls, resolveCall_permission (fine call List.mem_cons_self) flow before after]
    have rest_same (flow : Flow) : c.resolveCalls before flow rest = c.resolveCalls after flow rest :=
      ih (fun other mem => fine other (List.mem_cons_of_mem _ mem)) flow
    simp only [rest_same]

/-- Without the permission all of the calls that resolve are safe: `∀ call ∈ calls, c.SafeCall call`. -/
theorem safe_of_resolveCalls {calls : List Spec.Call} {flow : Flow} {made : List Step × Flow}
    (resolved : c.resolveCalls false flow calls = .ok made) : ∀ call ∈ calls, c.SafeCall call := by
  induction calls generalizing flow made with
  | nil => exact fun _ mem => absurd mem List.not_mem_nil
  | cons call rest ih =>
    obtain ⟨step, between, others, head, tail, -⟩ := resolveCalls_cons_eq_ok resolved
    intro other mem
    rcases List.mem_cons.1 mem with rfl | mem
    · exact safe_of_resolveCall head
    · exact ih tail other mem

/-! ## Specifications -/

/-- The permission makes no difference to a specification without unsafe calls:
`c.resolve spec before = c.resolve spec after`. -/
theorem resolve_permission {spec : Text} (fine : ¬ c.UnsafeSpec spec) (before after : Bool) :
    c.resolve spec before = c.resolve spec after := by
  have steps : c.resolveSteps before spec = c.resolveSteps after spec := by
    unfold resolveSteps
    cases parsed : Spec.parse spec with
    | error e => rfl
    | ok calls =>
      refine resolveCalls_permission ?_ Flow.start before after
      exact fun call mem shaky => fine ⟨calls, parsed, call, mem, shaky⟩
  unfold resolve
  rw [steps]

/-- Without the permission every specification that resolves has safe calls only: `c.SafeSpec spec`. -/
theorem safe_of_resolve {spec : Text} {chain : Chain} (resolved : c.resolve spec false = .ok chain) :
    c.SafeSpec spec := by
  cases parsed : Spec.parse spec with
  | error e =>
    simp only [resolve, resolveSteps, parsed] at resolved
    cases resolved
  | ok calls =>
    obtain ⟨flow, -, resolved⟩ := resolve_eq_ok resolved parsed
    exact ⟨calls, parsed, safe_of_resolveCalls resolved⟩

end OpCycle.Catalog
