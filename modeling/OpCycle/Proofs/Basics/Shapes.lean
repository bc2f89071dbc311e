import OpCycle.Basics.Library
import OpCycle.Proofs.Catalog.Resolution
import OpCycle.Proofs.Value.Texts

/-! # The shapes of the built-in functions
Every built-in function is of one of four shapes: it converts what flows in to an integer and yields an
integer or a text, it makes a text of the text of anything that has one, it yields what flows in, or it yields
its argument. The kind that its definition announces is the kind of what it yields.

* `FlowKind.Carries`: what flows as a kind.
* `Shape`: the four shapes.
* `shape_of_mem`, `shape_of_find?`: every step of the library has one of them. -/

namespace OpCycle

/-- What flows as this kind: integers as `.int`, texts as `.text`, and booleans and floats, whose kind is not
announced, as `.any`. -/
def FlowKind.Carries : FlowKind → Value → Prop
  | .int, v => ∃ n, v = .int n
  | .text, v => ∃ s, v = .text s
  | .any, v => (∃ b, v = .bool b) ∨ ∃ x, v = .float x
  | .same, _ => False

/-- What flows in a chain of built-in functions has a text: `∃ s, v.toText = .ok s`. -/
theorem FlowKind.Carries.exists_toText {kind : FlowKind} {v : Value} (carries : kind.Carries v) :
    ∃ s, v.toText = .ok s := by
  -- Texts are texts, and the JSON of the others has no string in it.
  cases kind with
  | int =>
    obtain ⟨n, rfl⟩ := carries
    exact Value.exists_toText_iff.2 (.inr rfl)
  | text =>
    obtain ⟨s, rfl⟩ := carries
    exact Value.exists_toText_iff.2 (.inl rfl)
  | any => obtain ⟨b, rfl⟩ | ⟨x, rfl⟩ := carries <;> exact Value.exists_toText_iff.2 (.inr rfl)
  | same => exact carries.elim

namespace Basics

/-! ## Makers -/

variable {args : List Value} {step : Step}

/-- A maker without arguments makes its one step: `step = made`. -/
theorem noArguments_eq_ok {made : Step} (h : noArguments made args = .ok step) : step = made := by
  unfold noArguments at h
  split at h
  · exact (Except.ok.inj h).symm
  · cases h

/-- A maker with one argument has been given one: `∃ a, args = [a] ∧ make a = .ok step`. -/
theorem oneArgument_eq_ok {make : Value → Except Refusal Step} (h : oneArgument make args = .ok step) :
    ∃ a, args = [a] ∧ make a = .ok step := by
  unfold oneArgument at h
  split at h
  · next a => exact ⟨a, rfl, h⟩
  · cases h

/-- A maker with two arguments has been given two: `∃ a b, args = [a, b] ∧ make a b = .ok step`. -/
theorem twoArguments_eq_ok {make : Value → Value → Except Refusal Step}
    (h : twoArguments make args = .ok step) : ∃ a b, args = [a, b] ∧ make a b = .ok step := by
  unfold twoArguments at h
  split at h
  · next a b => exact ⟨a, b, rfl, h⟩
  · cases h

/-! ## Shapes -/

/-- A definition `d` that is neither the identity nor a fixed value, and always announces `kind`, an integer or a
text. -/
structure Announces (d : Definition) (kind : FlowKind) : Prop where
  /-- The kind of what flows out is that of the definition. -/
  output : d.output = kind
  /-- It does not depend on the arguments. -/
  outputOf : d.outputOf = none
  /-- It is an integer or a text. -/
  settled : kind = .int ∨ kind = .text
  /-- The definition is not the identity. -/
  notIdentity : d.name ≠ identity.name
  /-- Nor is it a fixed value. -/
  notFixing : d.name ≠ fixing.name

/-- What flows out of a step of such a definition is of the kind that is announced, whatever flows in:
`d.kindAfter args incoming = kind`. -/
theorem Announces.kindAfter {d : Definition} {kind : FlowKind} (h : Announces d kind) (incoming : FlowKind) :
    d.kindAfter args incoming = kind := by
  have settled : kind ≠ .same := by
    rcases h.settled with rfl | rfl <;> decide
  rw [← h.output] at settled ⊢
  rw [Definition.kindAfter, h.outputOf]
  exact if_neg settled

/-- How the `step` that `d` makes of `args` treats what flows in, and what `d` announces. -/
inductive Shape (d : Definition) (args : List Value) (step : Step) : Prop
  /-- The step takes an integer, and refuses what does not convert to one. -/
  | onInt (kind : FlowKind) (f : Int64 → Value) : d.input = .int → Announces d kind →
      (∀ n, kind.Carries (f n)) → (∀ v, step v = v.toInt64.map f) → Shape d args step
  /-- The step takes anything that has a text, and makes a text of that. -/
  | onText (f : Text → Text) : d.input ≠ .int → Announces d .text →
      (∀ v, step v = v.toText.map fun s => .text (f s)) → Shape d args step
  /-- The step changes nothing. -/
  | identity : d.input ≠ .int → d.name = identity.name →
      (∀ incoming, d.kindAfter args incoming = incoming) → (∀ v, step v = .ok v) → Shape d args step
  /-- The step yields the argument. -/
  | fixed (a : Value) : d.input ≠ .int → d.name = fixing.name → args = [a] →
      (∀ incoming, d.kindAfter args incoming = fixedKind [a]) → (∀ v, step v = .ok a) →
      Shape d args step

/-- A step on integers that yields integers: `Shape d args step`. -/
theorem Shape.onInt_int {d : Definition} (announces : Announces d .int) (input : d.input = .int)
    (f : Int64 → Int64) (run : ∀ v, step v = v.toInt64.map fun n => .int (f n)) : Shape d args step := by
  refine .onInt _ _ input announces ?_ run
  intro n
  exact ⟨f n, rfl⟩

/-- A step on integers that yields texts: `Shape d args step`. -/
theorem Shape.onInt_text {d : Definition} (announces : Announces d .text) (input : d.input = .int)
    (f : Int64 → Text) (run : ∀ v, step v = v.toInt64.map fun n => .text (f n)) : Shape d args step := by
  refine .onInt _ _ input announces ?_ run
  intro n
  exact ⟨f n, rfl⟩

/-- Each definition of the library makes steps of one of the shapes: `Shape d args step`. -/
theorem shape_of_mem {d : Definition} {make : Maker} (mem : d ∈ library.definitions)
    (has : d.maker = some make) (made : make args = .ok step) : Shape d args step := by
  simp only [library, List.mem_cons, List.not_mem_nil, or_false] at mem
  rcases mem with rfl | rfl | rfl | rfl | rfl | rfl | rfl | rfl | rfl | rfl | rfl | rfl | rfl | rfl | rfl
    <;> cases has
  -- One case for each definition, in the order of the library. The argument of each is taken as its maker
  -- takes it, and the step that is left is of its shape by definition.
  · cases noArguments_eq_ok made
    exact .identity (by decide) rfl (fun _ => rfl) (fun _ => rfl)
  · cases noArguments_eq_ok made
    exact .onInt_int ⟨rfl, rfl, by decide, by decide, by decide⟩ rfl hash (fun _ => rfl)
  · obtain ⟨a, -, made⟩ := oneArgument_eq_ok made
    obtain ⟨modulus, -, made⟩ := Outcome.bind_eq_ok.1 made
    cases made
    exact .onInt_int ⟨rfl, rfl, by decide, by decide, by decide⟩ rfl (modulo modulus) (fun _ => rfl)
  · obtain ⟨a, -, made⟩ := oneArgument_eq_ok made
    obtain ⟨addend, -, made⟩ := Outcome.bind_eq_ok.1 made
    cases made
    exact .onInt_int ⟨rfl, rfl, by decide, by decide, by decide⟩ rfl (· + addend) (fun _ => rfl)
  · obtain ⟨a, -, made⟩ := oneArgument_eq_ok made
    obtain ⟨factor, -, made⟩ := Outcome.bind_eq_ok.1 made
    cases made
    exact .onInt_int ⟨rfl, rfl, by decide, by decide, by decide⟩ rfl (· * factor) (fun _ => rfl)
  · obtain ⟨a, -, made⟩ := oneArgument_eq_ok made
    obtain ⟨divisor, -, made⟩ := Outcome.bind_eq_ok.1 made
    split at made
    · -- A divisor of zero makes no step.
      cases made
    · cases made
      exact .onInt_int ⟨rfl, rfl, by decide, by decide, by decide⟩ rfl (divide divisor) (fun _ => rfl)
  · obtain ⟨a, b, -, made⟩ := twoArguments_eq_ok made
    obtain ⟨⟨low, high⟩, -, made⟩ := Outcome.bind_eq_ok.1 made
    cases made
    exact .onInt_int ⟨rfl, rfl, by decide, by decide, by decide⟩ rfl (clamp low high) (fun _ => rfl)
  · obtain ⟨a, b, -, made⟩ := twoArguments_eq_ok made
    obtain ⟨⟨low, high⟩, -, made⟩ := Outcome.bind_eq_ok.1 made
    cases made
    exact .onInt_int ⟨rfl, rfl, by decide, by decide, by decide⟩ rfl (hashRange low high) (fun _ => rfl)
  · cases noArguments_eq_ok made
    exact .onText id (by decide) ⟨rfl, rfl, by decide, by decide, by decide⟩ (fun _ => rfl)
  · cases noArguments_eq_ok made
    exact .onInt_text ⟨rfl, rfl, by decide, by decide, by decide⟩ rfl numberName (fun _ => rfl)
  · obtain ⟨a, -, made⟩ := oneArgument_eq_ok made
    obtain ⟨length, -, made⟩ := Outcome.bind_eq_ok.1 made
    cases made
    exact .onInt_text ⟨rfl, rfl, by decide, by decide, by decide⟩ rfl (alphaNumeric length) (fun _ => rfl)
  · obtain ⟨a, rfl, made⟩ := oneArgument_eq_ok made
    cases made
    exact .fixed a (by decide) rfl rfl (fun _ => rfl) (fun _ => rfl)
  · obtain ⟨a, -, made⟩ := oneArgument_eq_ok made
    obtain ⟨front, -, made⟩ := Outcome.bind_eq_ok.1 made
    cases made
    exact .onText (front ++ ·) (by decide) ⟨rfl, rfl, by decide, by decide, by decide⟩ (fun _ => rfl)
  · obtain ⟨a, -, made⟩ := oneArgument_eq_ok made
    obtain ⟨back, -, made⟩ := Outcome.bind_eq_ok.1 made
    cases made
    exact .onText (· ++ back) (by decide) ⟨rfl, rfl, by decide, by decide, by decide⟩ (fun _ => rfl)
  · obtain ⟨a, -, made⟩ := oneArgument_eq_ok made
    obtain ⟨items, -, made⟩ := Outcome.bind_eq_ok.1 made
    obtain ⟨table, -, made⟩ := Outcome.bind_eq_ok.1 made
    cases made
    exact .onInt_text ⟨rfl, rfl, by decide, by decide, by decide⟩ rfl table.pick (fun _ => rfl)

/-- What the catalog of built-in functions finds makes steps of one of the shapes:
`name = d.name ∧ Shape d args step`. -/
theorem shape_of_find? {d : Definition} {name : Text} {make : Maker} (found : catalog.find? name = some d)
    (has : d.maker = some make) (made : make args = .ok step) : name = d.name ∧ Shape d args step := by
  obtain ⟨mem, same⟩ := Catalog.find?_addLibrary_empty found
  exact ⟨same, shape_of_mem mem has made⟩

end Basics

end OpCycle
