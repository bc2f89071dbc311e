import OpCycle.Catalog.Resolve
import OpCycle.Proofs.Outcome

/-! # What resolved specifications are made of
A definition that a catalog finds was entered under that name, and a specification that resolves has a step
for each of its calls, made by the definition that the call names. -/

namespace OpCycle.Catalog

/-! ## Finding definitions -/

/-- Entering a definition changes what is found under its name only:
`(found = d ∧ name = d.name) ∨ c.find? name = some found`. -/
theorem find?_define {c : Catalog} {d found : Definition} {name : Text}
    (h : (c.define d).find? name = some found) :
    (found = d ∧ name = d.name) ∨ c.find? name = some found := by
  unfold define at h
  split at h
  · rw [find?, SortedMap.find?_insert] at h
    split at h
    · next same => exact .inl ⟨(Option.some.inj h).symm, same⟩
    · exact .inr h
  · exact .inr h

/-- What is found after entering definitions is one of them under its name, or was found before:
`(found ∈ definitions ∧ name = found.name) ∨ c.find? name = some found`. -/
theorem find?_foldl_define {definitions : List Definition} {c : Catalog} {found : Definition} {name : Text}
    (h : (definitions.foldl define c).find? name = some found) :
    (found ∈ definitions ∧ name = found.name) ∨ c.find? name = some found := by
  induction definitions generalizing c with
  | nil => exact .inr h
  | cons d rest ih =>
    rcases ih h with ⟨mem, same⟩ | before
    · exact .inl ⟨List.mem_cons_of_mem d mem, same⟩
    · rcases find?_define before with ⟨rfl, same⟩ | before
      · exact .inl ⟨List.mem_cons_self, same⟩
      · exact .inr before

/-- What a catalog of one library finds is a definition of the library under its name:
`found ∈ library.definitions ∧ name = found.name`. -/
theorem find?_addLibrary_empty {library : Library} {found : Definition} {name : Text}
    (h : ((∅ : Catalog).addLibrary library).find? name = some found) :
    found ∈ library.definitions ∧ name = found.name := by
  rcases find?_foldl_define h with found | none
  · exact found
  · cases none

/-! ## Resolving -/

variable {c : Catalog} {allowUnsafe : Bool}

/-- A call that resolves names a definition that takes what flows in, and its `maker` makes the step. -/
theorem resolveCall_eq_ok {flow after : Flow} {call : Spec.Call} {step : Step}
    (h : c.resolveCall allowUnsafe flow call = .ok (step, after)) :
    ∃ d make, c.find? call.name = some d ∧ d.maker = some make ∧ make call.args = .ok step ∧
      ¬ (d.input = .int ∧ flow.kind = .text) ∧
      after = ⟨d.kindAfter call.args flow.kind, call.name⟩ := by
  unfold resolveCall at h
  -- The checks in order: the name, safety, the flow of text, the maker, and its arguments.
  split at h
  · cases h
  next d found =>
  split at h
  · cases h
  split at h
  · cases h
  split at h
  · cases h
  next takes =>
  split at h
  · cases h
  next make has =>
  split at h
  · cases h
  next step' made =>
  cases h
  exact ⟨d, make, found, has, made, takes, rfl⟩

/-- The calls `call :: rest` resolve to the step of `call` and those of `rest`. -/
theorem resolveCalls_cons_eq_ok {flow after : Flow} {call : Spec.Call} {rest : List Spec.Call}
    {steps : List Step} (h : c.resolveCalls allowUnsafe flow (call :: rest) = .ok (steps, after)) :
    ∃ step between others, c.resolveCall allowUnsafe flow call = .ok (step, between) ∧
      c.resolveCalls allowUnsafe between rest = .ok (others, after) ∧ steps = step :: others := by
  rw [resolveCalls] at h
  obtain ⟨⟨step, between⟩, head, h⟩ := Outcome.bind_eq_ok.1 h
  obtain ⟨⟨others, after'⟩, tail, h⟩ := Outcome.bind_eq_ok.1 h
  cases h
  exact ⟨step, between, others, head, tail, rfl⟩

/-- Resolving `first ++ second` is resolving `first`, and then `second` with what flows out of it. -/
theorem resolveCalls_append (flow : Flow) (first second : List Spec.Call) :
    c.resolveCalls allowUnsafe flow (first ++ second) =
      c.resolveCalls allowUnsafe flow first >>= fun made =>
        (c.resolveCalls allowUnsafe made.2 second).map fun made' => (made.1 ++ made'.1, made'.2) := by
  induction first generalizing flow with
  | nil =>
    rw [List.nil_append, resolveCalls, Outcome.ok_bind]
    cases c.resolveCalls allowUnsafe flow second with
    | error fault => rfl
    | ok made => rfl
  | cons call rest ih =>
    rw [List.cons_append, resolveCalls, resolveCalls]
    cases c.resolveCall allowUnsafe flow call with
    | error fault => rfl
    | ok made =>
      rw [Outcome.ok_bind, Outcome.ok_bind]
      dsimp only
      rw [ih]
      cases c.resolveCalls allowUnsafe made.2 rest with
      | error fault => rfl
      | ok made' =>
        rw [Outcome.ok_bind, Outcome.ok_bind]
        show _ = (c.resolveCalls allowUnsafe made'.2 second).map _
        cases c.resolveCalls allowUnsafe made'.2 second with
        | error fault => rfl
        | ok made'' => rfl

/-- There is a step for each call: `steps.length = calls.length`. -/
theorem length_of_resolveCalls {flow after : Flow} {calls : List Spec.Call} {steps : List Step}
    (h : c.resolveCalls allowUnsafe flow calls = .ok (steps, after)) : steps.length = calls.length := by
  induction calls generalizing flow steps with
  | nil =>
    cases h
    rfl
  | cons call rest ih =>
    obtain ⟨step, between, others, -, tail, rfl⟩ := resolveCalls_cons_eq_ok h
    exact congrArg (· + 1) (ih tail)

/-- The steps of `first ++ second` are those of `first` and those of `second`. -/
theorem resolveCalls_append_eq_ok {flow after : Flow} {first second : List Spec.Call} {steps : List Step}
    (h : c.resolveCalls allowUnsafe flow (first ++ second) = .ok (steps, after)) :
    ∃ before between others, c.resolveCalls allowUnsafe flow first = .ok (before, between) ∧
      c.resolveCalls allowUnsafe between second = .ok (others, after) ∧ steps = before ++ others ∧
      before.length = first.length := by
  rw [resolveCalls_append] at h
  obtain ⟨⟨before, between⟩, head, h⟩ := Outcome.bind_eq_ok.1 h
  obtain ⟨⟨others, last⟩, tail, same⟩ := Spec.map_eq_ok h
  cases same
  exact ⟨before, between, others, head, tail, rfl, length_of_resolveCalls head⟩

/-- A specification that resolves parses, and `chain.steps` are those of its calls. -/
theorem resolve_eq_ok {spec : Text} {chain : Chain} {calls : List Spec.Call}
    (h : c.resolve spec allowUnsafe = .ok chain) (parsed : Spec.parse spec = .ok calls) :
    ∃ flow, c.resolveSteps allowUnsafe spec = .ok (chain.steps, flow) ∧
      c.resolveCalls allowUnsafe Flow.start calls = .ok (chain.steps, flow) := by
  unfold resolve at h
  split at h
  · cases h
  next steps flow resolved =>
  cases h
  refine ⟨flow, resolved, ?_⟩
  unfold resolveSteps at resolved
  rw [parsed] at resolved
  exact resolved

end OpCycle.Catalog
