import OpCycle.Proofs.Catalog.Acceptance
import OpCycle.Proofs.Spec.Joining

/-! # Joined specifications compose
A specification made of two with a semicolon between them resolves call by call like the first and then like
the second, which takes what flows out of the first. Where that is an integer, the second is run as if the
integer were its cycle.

* `Yields`: a specification resolves to a chain with a kind at its end.
* `joined_eq_ok_iff`: the steps of a joined specification.
* `joined_composes`: the second is run as if the value of the first were its cycle. -/

namespace OpCycle.Catalog

variable {c : Catalog} {allowUnsafe : Bool} {spec s₁ s₂ : Text} {calls calls₁ calls₂ : List Spec.Call}
  {chain chain₁ chain₂ : Chain}

/-- The specification `spec` resolves to `chain`, at the end of which `kind` is tracked. -/
def Yields (c : Catalog) (allowUnsafe : Bool) (spec : Text) (chain : Chain) (kind : FlowKind) : Prop :=
  c.resolve spec allowUnsafe = .ok chain ∧
    ∃ flow, c.resolveSteps allowUnsafe spec = .ok (chain.steps, flow) ∧ flow.kind = kind

/-! ## From calls to chains -/

/-- The steps of a specification are those of its calls:
`c.resolveSteps allowUnsafe spec = c.resolveCalls allowUnsafe Flow.start calls`. -/
theorem resolveSteps_of_parse (parsed : Spec.parse spec = .ok calls) :
    c.resolveSteps allowUnsafe spec = c.resolveCalls allowUnsafe Flow.start calls := by
  rw [resolveSteps, parsed]

/-- A specification that parses resolves to the chain of the steps of its calls, those that `resolveCalls` gives. -/
theorem resolve_eq_ok_iff (parsed : Spec.parse spec = .ok calls) :
    c.resolve spec allowUnsafe = .ok chain ↔
      chain.spec = spec ∧ ∃ flow, c.resolveCalls allowUnsafe Flow.start calls = .ok (chain.steps, flow) := by
  rw [resolve, resolveSteps_of_parse parsed]
  cases c.resolveCalls allowUnsafe Flow.start calls with
  | error fault =>
    constructor
    · intro h
      cases h
    · rintro ⟨-, flow, h⟩
      cases h
  | ok made =>
    obtain ⟨steps, last⟩ := made
    constructor
    · intro h
      cases h
      exact ⟨rfl, last, rfl⟩
    · rintro ⟨rfl, flow, h⟩
      cases h
      rfl

/-- What steps calls have depends on the kind that flows in; what produced it shows in errors only:
`∃ after', c.resolveCalls allowUnsafe flow' calls = .ok (steps, after')`. -/
theorem resolveCalls_of_kind {flow after : Flow} (flow' : Flow) {steps : List Step}
    (same : flow.kind = flow'.kind) (h : c.resolveCalls allowUnsafe flow calls = .ok (steps, after)) :
    ∃ after', c.resolveCalls allowUnsafe flow' calls = .ok (steps, after') := by
  cases calls with
  | nil =>
    cases h
    exact ⟨flow', rfl⟩
  | cons call rest =>
    obtain ⟨step, between, others, head, tail, rfl⟩ := resolveCalls_cons_eq_ok h
    rw [resolveCall_eq_ok_iff, same, ← resolveCall_eq_ok_iff] at head
    refine ⟨after, ?_⟩
    rw [resolveCalls, head, Outcome.ok_bind]
    dsimp only
    rw [tail]
    rfl

/-! ## Chains of joined specifications -/

section Joined

variable (first : Spec.parse s₁ = .ok calls₁) (second : Spec.parse s₂ = .ok calls₂)
  (unclosed : ¬ Spec.EndsIn Byte.semicolon s₁)

include first second unclosed

/-- If the joined specification resolves, so does the first, and there are steps for the calls of both:
`(∃ chain₁, c.resolve s₁ allowUnsafe = .ok chain₁) ∧ chain.steps.length = calls₁.length + calls₂.length`. -/
theorem resolve_of_joined (resolved : c.resolve (Spec.join s₁ s₂) allowUnsafe = .ok chain) :
    (∃ chain₁, c.resolve s₁ allowUnsafe = .ok chain₁) ∧
      chain.steps.length = calls₁.length + calls₂.length := by
  have parsed := (Spec.parse_join_iff first second).2 unclosed
  obtain ⟨-, flow, made⟩ := (resolve_eq_ok_iff parsed).1 resolved
  obtain ⟨before, between, others, head, -, -, -⟩ := resolveCalls_append_eq_ok made
  refine ⟨⟨⟨s₁, before⟩, (resolve_eq_ok_iff first).2 ⟨rfl, between, head⟩⟩, ?_⟩
  rw [length_of_resolveCalls made, List.length_append]

/-- Behind an integer `s₂` is resolved as on its own: the steps of `Spec.join s₁ s₂` are those of both. -/
theorem joined_eq_ok_iff (yields : c.Yields allowUnsafe s₁ chain₁ .int) :
    c.resolve (Spec.join s₁ s₂) allowUnsafe = .ok chain ↔
      chain.spec = Spec.join s₁ s₂ ∧ ∃ steps₂, c.resolve s₂ allowUnsafe = .ok ⟨s₂, steps₂⟩ ∧
        chain.steps = chain₁.steps ++ steps₂ := by
  have parsed := (Spec.parse_join_iff first second).2 unclosed
  obtain ⟨-, flow, head, int⟩ := yields
  rw [resolveSteps_of_parse first] at head
  rw [resolve_eq_ok_iff parsed]
  refine and_congr_right fun _ => ?_
  constructor
  · rintro ⟨after, made⟩
    rw [resolveCalls_append, head, Outcome.ok_bind] at made
    obtain ⟨⟨steps₂, last⟩, tail, same⟩ := Spec.map_eq_ok made
    obtain ⟨after', tail'⟩ := resolveCalls_of_kind Flow.start int tail
    exact ⟨steps₂, (resolve_eq_ok_iff second).2 ⟨rfl, after', tail'⟩, (Prod.mk.inj same).1.symm⟩
  · rintro ⟨steps₂, resolved, same⟩
    obtain ⟨-, after, tail⟩ := (resolve_eq_ok_iff second).1 resolved
    obtain ⟨after', tail'⟩ := resolveCalls_of_kind flow int.symm tail
    refine ⟨after', ?_⟩
    rw [resolveCalls_append, head, Outcome.ok_bind]
    dsimp only
    rw [tail', same]
    rfl

end Joined

/-- **Joining specifications composes functions.** `Spec.join s₁ s₂` has the calls of both exactly if `s₁` does not
end in a semicolon of its own. Then a chain of the joined text has a step for each call, and there is one for `s₁`.
Where an integer is tracked at the end of `s₁`, by `Yields`, the joined text resolves exactly if `s₂` does, and its
chain does at a cycle what that of `s₂` does at the integer that the one of `s₁` gives there. -/
theorem joined_composes {s₁ s₂ : Text} {calls₁ calls₂ : List Spec.Call}
    (first : Spec.parse s₁ = .ok calls₁) (second : Spec.parse s₂ = .ok calls₂) :
    (Spec.parse (Spec.join s₁ s₂) = .ok (calls₁ ++ calls₂) ↔ ¬ Spec.EndsIn Byte.semicolon s₁) ∧
    (¬ Spec.EndsIn Byte.semicolon s₁ → ∀ (c : Catalog) (allowUnsafe : Bool),
      (∀ chain, c.resolve (Spec.join s₁ s₂) allowUnsafe = .ok chain →
        (∃ chain₁, c.resolve s₁ allowUnsafe = .ok chain₁) ∧
          chain.steps.length = calls₁.length + calls₂.length) ∧
      ∀ chain₁, c.Yields allowUnsafe s₁ chain₁ .int →
        ((∃ chain, c.resolve (Spec.join s₁ s₂) allowUnsafe = .ok chain) ↔
          ∃ chain₂, c.resolve s₂ allowUnsafe = .ok chain₂) ∧
        ∀ chain chain₂, c.resolve (Spec.join s₁ s₂) allowUnsafe = .ok chain →
          c.resolve s₂ allowUnsafe = .ok chain₂ →
          ∀ cycle n, chain₁.apply cycle = .ok (.int n) → chain.apply cycle = chain₂.apply n) := by
  refine ⟨Spec.parse_join_iff first second, fun unclosed c allowUnsafe => ⟨?_, ?_⟩⟩
  · exact fun chain resolved => resolve_of_joined first second unclosed resolved
  -- With an integer between them, the joined chain runs the steps of one and then those of the other.
  intro chain₁ yields
  refine ⟨⟨?_, ?_⟩, ?_⟩
  · rintro ⟨chain, resolved⟩
    obtain ⟨-, steps₂, resolved₂, -⟩ := (joined_eq_ok_iff first second unclosed yields).1 resolved
    exact ⟨_, resolved₂⟩
  · rintro ⟨⟨spec, steps₂⟩, resolved₂⟩
    obtain ⟨rfl, -⟩ := (resolve_eq_ok_iff second).1 resolved₂
    exact ⟨⟨Spec.join s₁ spec, chain₁.steps ++ steps₂⟩,
      (joined_eq_ok_iff first second unclosed yields).2 ⟨rfl, steps₂, resolved₂, rfl⟩⟩
  · intro chain chain₂ resolved resolved₂ cycle n value
    obtain ⟨-, steps₂, resolvedSteps₂, same⟩ := (joined_eq_ok_iff first second unclosed yields).1 resolved
    cases resolved₂.symm.trans resolvedSteps₂
    rw [Chain.apply] at value
    rw [Chain.apply, same, Step.runAll_append, value]
    rfl

/-- Two specifications, white space and a semicolon at their ends included: the joined one does at 17 what the
second does at the 7 that the first gives there. -/
theorem joined_composes_sample :
    ∃ calls₁ calls₂ chain chain₁ chain₂, Spec.parse "Mod(10) " = .ok calls₁ ∧
      Spec.parse " Add(1); ToString();" = .ok calls₂ ∧
      Spec.parse "Mod(10) ; Add(1); ToString();" = .ok (calls₁ ++ calls₂) ∧
      Basics.catalog.Yields false "Mod(10) " chain₁ .int ∧
      Basics.catalog.resolve " Add(1); ToString();" false = .ok chain₂ ∧
      Basics.catalog.resolve "Mod(10) ; Add(1); ToString();" false = .ok chain ∧
      chain.steps.length = calls₁.length + calls₂.length ∧ chain.apply 17 = chain₂.apply 7 := by
  obtain ⟨calls₁, first, -⟩ := Outcome.exists_ok_of_test (x := Spec.parse "Mod(10) ") (fun _ => true)
    (by decide +kernel)
  obtain ⟨calls₂, second, -⟩ := Outcome.exists_ok_of_test (x := Spec.parse " Add(1); ToString();")
    (fun _ => true) (by decide +kernel)
  have unclosed : ¬ Spec.EndsIn Byte.semicolon "Mod(10) " := by
    intro ends
    have last : Spec.EndsIn Byte.closeParen "Mod(10) " := by
      refine ⟨"Mod(10", [Byte.space], by decide, ?_⟩
      intro b mem
      rw [List.mem_singleton.1 mem]
      rfl
    cases ends.unique last rfl rfl
  -- The first specification gives 7 at 17, and an integer is tracked at its end.
  obtain ⟨⟨steps₁, flow⟩, made, passed⟩ := Outcome.exists_ok_of_test
    (x := Basics.catalog.resolveSteps false "Mod(10) ")
    (fun made => made.2.kind = .int ∧ (Step.runAll made.1 (.int 17)).toOption.any (· == .int 7))
    (by decide +kernel)
  obtain ⟨int, value⟩ := of_decide_eq_true passed
  have yields : Basics.catalog.Yields false "Mod(10) " ⟨"Mod(10) ", steps₁⟩ .int := by
    refine ⟨?_, flow, made, int⟩
    rw [resolve, made]
  have seven : (⟨"Mod(10) ", steps₁⟩ : Chain).apply 17 = .ok (.int 7) := by
    obtain ⟨v, run, seven⟩ := Outcome.exists_ok_of_test _ value
    exact run.trans (congrArg Except.ok (Value.beq_int_iff.1 seven))
  obtain ⟨chain₂, resolved₂, -⟩ := Outcome.exists_ok_of_test
    (x := Basics.catalog.resolve " Add(1); ToString();" false) (fun _ => true) (by decide +kernel)
  obtain ⟨parts, composes⟩ := joined_composes first second
  obtain ⟨lengths, behind⟩ := composes unclosed Basics.catalog false
  obtain ⟨resolves, values⟩ := behind _ yields
  obtain ⟨chain, resolved⟩ := resolves.2 ⟨chain₂, resolved₂⟩
  exact ⟨calls₁, calls₂, chain, _, chain₂, first, second, parts.2 unclosed, yields, resolved₂, resolved,
    (lengths chain resolved).2, values chain chain₂ resolved resolved₂ 17 7 seven⟩

end OpCycle.Catalog
