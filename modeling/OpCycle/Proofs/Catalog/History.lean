import Mathlib.Data.List.Induction
import OpCycle.Proofs.Catalog.Resolution

/-! # Catalogs over time
What a catalog holds after any registrations on the empty one. Under a name there is the last usable definition
that was entered with it, by itself or by a library, and a specification sees nothing else than what is under the
names that it calls.

* `Registration`, `filled`: calls that fill a catalog, and the catalog after them.
* `LastUsable`: the definition that is found.
* `filled_holds_last`: what a filled catalog holds, and what resolving sees of it. -/

namespace OpCycle

/-- A definition is usable if it has a `maker`. -/
def Definition.IsUsable (d : Definition) : Prop := d.maker.isSome = true

/-- Whether a definition is usable is decided by looking for its maker. -/
instance (d : Definition) : Decidable d.IsUsable := inferInstanceAs (Decidable (d.maker.isSome = true))

namespace Catalog

/-- A call that fills a catalog. -/
inductive Registration
  /-- Enters a definition. -/
  | define (d : Definition)
  /-- Enters the definitions of a library. -/
  | addLibrary (library : Library)

namespace Registration

/-- The catalog after the call on `c`. -/
def perform (c : Catalog) : Registration → Catalog
  | .define d => c.define d
  | .addLibrary library => c.addLibrary library

/-- The definitions that the call enters, in order. -/
def definitions : Registration → List Definition
  | .define d => [d]
  | .addLibrary library => library.definitions

/-- The name of the library that the call adds, if it adds one. -/
def libraries : Registration → List Text
  | .define _ => []
  | .addLibrary library => [library.name]

end Registration

/-- The catalog after `registrations` on the empty one. -/
def filled (registrations : List Registration) : Catalog := registrations.foldl Registration.perform ∅

/-- The definitions that `registrations` enter, in order. -/
def entered (registrations : List Registration) : List Definition :=
  registrations.flatMap Registration.definitions

/-- The names of the libraries that `registrations` add, in order. -/
def added (registrations : List Registration) : List Text := registrations.flatMap Registration.libraries

/-- The definition `d` is the last usable one of `definitions` with the name `name`. -/
def LastUsable (name : Text) (d : Definition) (definitions : List Definition) : Prop :=
  ∃ before after, definitions = before ++ d :: after ∧ d.name = name ∧ d.IsUsable ∧
    ∀ later ∈ after, later.name = name → ¬ later.IsUsable

/-- The names that `spec` calls; one that does not parse calls none. -/
def calledNames (spec : Text) : List Text :=
  match Spec.parse spec with
  | .ok calls => calls.map Spec.Call.name
  | .error _ => []

/-! ## Entering definitions -/

/-- What `definitions` are stored as: the usable ones, each under its name. -/
def entriesOf (definitions : List Definition) : List (Text × Definition) :=
  (definitions.filter fun d => d.IsUsable).map fun d => (d.name, d)

/-- The entries of two lists of definitions in a row:
`entriesOf (first ++ second) = entriesOf first ++ entriesOf second`. -/
theorem entriesOf_append (first second : List Definition) :
    entriesOf (first ++ second) = entriesOf first ++ entriesOf second := by
  rw [entriesOf, List.filter_append, List.map_append]
  rfl

/-- The entries of definitions in reverse order: `entriesOf definitions.reverse = (entriesOf definitions).reverse`. -/
theorem entriesOf_reverse (definitions : List Definition) :
    entriesOf definitions.reverse = (entriesOf definitions).reverse := by
  rw [entriesOf, List.filter_reverse, List.map_reverse]
  rfl

/-- Among what definitions are stored as, the first usable one with a name is found:
`(entriesOf definitions).lookup name = definitions.find? fun d => d.name = name ∧ d.IsUsable`. -/
theorem lookup_entriesOf (definitions : List Definition) (name : Text) :
    (entriesOf definitions).lookup name = definitions.find? fun d => d.name = name ∧ d.IsUsable := by
  induction definitions with
  | nil => rfl
  | cons d rest ih =>
    rw [entriesOf] at ih ⊢
    by_cases usable : d.IsUsable
    · by_cases same : d.name = name
      · simp [usable, same]
      · simp [usable, same, List.lookup_cons, beq_eq_false_iff_ne.2 (Ne.symm same), ih]
    · simp [usable, ih]

variable (c : Catalog)

/-- Entering a definition stores it if it is usable:
`(c.define d).definitions = c.definitions.insertAll (entriesOf [d])`. -/
theorem definitions_define (d : Definition) :
    (c.define d).definitions = c.definitions.insertAll (entriesOf [d]) := by
  by_cases usable : d.IsUsable
  · have has : d.maker.isSome = true := usable
    have kept : entriesOf [d] = [(d.name, d)] := by simp [entriesOf, usable]
    rw [define, if_pos has, kept]
    rfl
  · have lacks : ¬ d.maker.isSome = true := usable
    have dropped : entriesOf [d] = [] := by simp [entriesOf, usable]
    rw [define, if_neg lacks, dropped]
    rfl

/-- Entering definitions one after another stores the usable ones:
`(definitions.foldl define c).definitions = c.definitions.insertAll (entriesOf definitions)`. -/
theorem definitions_foldl_define (definitions : List Definition) :
    (definitions.foldl define c).definitions = c.definitions.insertAll (entriesOf definitions) := by
  induction definitions generalizing c with
  | nil => rfl
  | cons d rest ih =>
    rw [List.foldl_cons, ih, definitions_define, ← SortedMap.insertAll_append, ← entriesOf_append,
      List.singleton_append]

/-- Entering definitions adds no library: `(definitions.foldl define c).libraries = c.libraries`. -/
theorem libraries_foldl_define (definitions : List Definition) :
    (definitions.foldl define c).libraries = c.libraries := by
  induction definitions generalizing c with
  | nil => rfl
  | cons d rest ih =>
    rw [List.foldl_cons, ih, define]
    split <;> rfl

/-! ## Registrations in a row -/

/-- A call stores the usable definitions that it enters:
`(r.perform c).definitions = c.definitions.insertAll (entriesOf r.definitions)`. -/
theorem definitions_perform (r : Registration) :
    (r.perform c).definitions = c.definitions.insertAll (entriesOf r.definitions) := by
  cases r with
  | define d => exact definitions_define c d
  | addLibrary library => exact definitions_foldl_define c library.definitions

/-- A call adds its library behind the others: `(r.perform c).libraries = c.libraries ++ r.libraries`. -/
theorem libraries_perform (r : Registration) : (r.perform c).libraries = c.libraries ++ r.libraries := by
  cases r with
  | define d => exact (libraries_foldl_define c [d]).trans (List.append_nil _).symm
  | addLibrary library => exact congrArg (· ++ [library.name]) (libraries_foldl_define c library.definitions)

variable (registrations : List Registration)

/-- One more registration is performed on the catalog that the others left:
`filled (registrations ++ [r]) = r.perform (filled registrations)`. -/
theorem filled_concat (r : Registration) : filled (registrations ++ [r]) = r.perform (filled registrations) := by
  rw [filled, List.foldl_append]
  rfl

/-- A catalog stores the usable definitions that were entered:
`(filled registrations).definitions = .ofList (entriesOf (entered registrations))`. -/
theorem definitions_filled :
    (filled registrations).definitions = .ofList (entriesOf (entered registrations)) := by
  -- The call that comes last is the one that is performed on the catalog so far.
  induction registrations using List.reverseRecOn with
  | nil => rfl
  | append_singleton registrations r ih =>
    rw [filled_concat, definitions_perform, ih, SortedMap.ofList, SortedMap.ofList, ← SortedMap.insertAll_append,
      ← entriesOf_append, entered, entered, List.flatMap_append, List.flatMap_singleton]

/-- A catalog lists the libraries that were added: `(filled registrations).libraries = added registrations`. -/
theorem libraries_filled : (filled registrations).libraries = added registrations := by
  induction registrations using List.reverseRecOn with
  | nil => rfl
  | append_singleton registrations r ih =>
    rw [filled_concat, libraries_perform, ih, added, added, List.flatMap_append, List.flatMap_singleton]

/-- Under a name the usable definition that is first from the end is found:
`(filled registrations).find? name = (entered registrations).reverse.find? fun d => d.name = name ∧ d.IsUsable`. -/
theorem find?_filled (name : Text) :
    (filled registrations).find? name =
      (entered registrations).reverse.find? fun d => d.name = name ∧ d.IsUsable := by
  rw [find?, definitions_filled, SortedMap.find?_ofList, ← entriesOf_reverse, lookup_entriesOf]

/-- What is first from the end is the last one:
`(definitions.reverse.find? fun d => d.name = name ∧ d.IsUsable) = some d ↔ LastUsable name d definitions`. -/
theorem find?_reverse_eq_some_iff {definitions : List Definition} {name : Text} {d : Definition} :
    (definitions.reverse.find? fun d => d.name = name ∧ d.IsUsable) = some d ↔ LastUsable name d definitions := by
  rw [List.find?_eq_some_iff_append]
  simp only [decide_eq_true_eq, Bool.not_eq_true', decide_eq_false_iff_not, not_and]
  constructor
  · rintro ⟨⟨named, usable⟩, behind, front, split, others⟩
    refine ⟨front.reverse, behind.reverse, ?_, named, usable, fun later mem => ?_⟩
    · rw [← List.reverse_reverse definitions, split, List.reverse_append, List.reverse_cons, List.append_assoc,
        List.singleton_append]
    · exact others later (List.mem_reverse.1 mem)
  · rintro ⟨before, after, rfl, named, usable, others⟩
    refine ⟨⟨named, usable⟩, after.reverse, before.reverse, ?_, fun later mem => ?_⟩
    · rw [List.reverse_append, List.reverse_cons, List.append_assoc, List.singleton_append]
    · exact others later (List.mem_reverse.1 mem)

/-- Something is found under a name exactly if a usable definition was entered with it:
`(∃ d, (filled registrations).find? name = some d) ↔ ∃ d ∈ entered registrations, d.name = name ∧ d.IsUsable`. -/
theorem exists_find?_filled_iff {name : Text} :
    (∃ d, (filled registrations).find? name = some d) ↔
      ∃ d ∈ entered registrations, d.name = name ∧ d.IsUsable := by
  rw [find?_filled, ← Option.isSome_iff_exists, List.find?_isSome]
  simp only [List.mem_reverse, decide_eq_true_eq]

/-- What is found under a name depends on the definitions with this name only:
`(filled registrations).find? name = (filled others).find? name`. -/
theorem find?_filled_congr {registrations others : List Registration} {names : List Text}
    (same : ((entered registrations).filter fun d => d.name ∈ names) =
      (entered others).filter fun d => d.name ∈ names) {name : Text} (mem : name ∈ names) :
    (filled registrations).find? name = (filled others).find? name := by
  -- A definition with the name is also the one looked for among those with any of the names.
  have among (definitions : List Definition) :
      (definitions.reverse.find? fun d => d.name = name ∧ d.IsUsable) =
        (definitions.filter fun d => d.name ∈ names).reverse.find? fun d => d.name = name ∧ d.IsUsable := by
    rw [← List.filter_reverse, List.find?_filter]
    refine congrArg (List.find? · definitions.reverse) (funext fun d => ?_)
    simp only [decide_eq_true_eq, decide_eq_decide]
    exact ⟨fun met => ⟨met.1 ▸ mem, met⟩, fun met => met.2⟩
  rw [find?_filled, find?_filled, among, same, ← among]

/-! ## Resolving -/

variable {c} {c' : Catalog} {allowUnsafe : Bool}

/-- A call resolves alike where the same is found under its name:
`c.resolveCall allowUnsafe flow call = c'.resolveCall allowUnsafe flow call`. -/
theorem resolveCall_congr {call : Spec.Call} (same : c.find? call.name = c'.find? call.name) (flow : Flow) :
    c.resolveCall allowUnsafe flow call = c'.resolveCall allowUnsafe flow call := by
  rw [resolveCall, resolveCall, same]

/-- Calls in a row resolve alike where the same is found under each of their names:
`c.resolveCalls allowUnsafe flow calls = c'.resolveCalls allowUnsafe flow calls`. -/
theorem resolveCalls_congr {calls : List Spec.Call} (same : ∀ call ∈ calls, c.find? call.name = c'.find? call.name)
    (flow : Flow) : c.resolveCalls allowUnsafe flow calls = c'.resolveCalls allowUnsafe flow calls := by
  induction calls generalizing flow with
  | nil => rfl
  | cons call rest ih =>
    have later (flow : Flow) : c.resolveCalls allowUnsafe flow rest = c'.resolveCalls allowUnsafe flow rest :=
      ih (fun other mem => same other (List.mem_cons_of_mem _ mem)) flow
    simp only [resolveCalls, resolveCall_congr (same call List.mem_cons_self), later]

/-- A specification resolves alike where the same is found under each of the names that it calls:
`c.resolve spec allowUnsafe = c'.resolve spec allowUnsafe`. -/
theorem resolve_congr {spec : Text} (same : ∀ name ∈ calledNames spec, c.find? name = c'.find? name) :
    c.resolve spec allowUnsafe = c'.resolve spec allowUnsafe := by
  have steps : c.resolveSteps allowUnsafe spec = c'.resolveSteps allowUnsafe spec := by
    unfold resolveSteps
    -- A text that does not parse fails before any name is looked up.
    cases parsed : Spec.parse spec with
    | error e => rfl
    | ok calls =>
      refine resolveCalls_congr (fun call mem => same call.name ?_) Flow.start
      rw [calledNames, parsed]
      exact List.mem_map_of_mem mem
  rw [resolve, resolve, steps]

/-- **A catalog holds the last usable definition of each name.** After any `registrations` on the empty catalog its
names are, in strictly increasing byte order, those that a usable definition was entered with, under each of them the
`LastUsable` definition is found, and under other names there is nothing. The libraries are listed in the order in
which they were `added`. Definitions without a maker make no difference, wherever they are entered. How a
specification resolves follows from what is found under its `calledNames`; so it follows from the definitions with
these names, and no registration of other names changes it. -/
theorem filled_holds_last :
    ((filled registrations).names.Pairwise (· < ·) ∧
      ∀ name, name ∈ (filled registrations).names ↔ ∃ d ∈ entered registrations, d.name = name ∧ d.IsUsable) ∧
    (∀ name d, (filled registrations).find? name = some d ↔ LastUsable name d (entered registrations)) ∧
    (∀ name, (filled registrations).find? name = none ↔
      ¬ ∃ d ∈ entered registrations, d.name = name ∧ d.IsUsable) ∧
    (filled registrations).libraries = added registrations ∧
    (∀ others, ((entered others).filter fun d => d.IsUsable) = ((entered registrations).filter fun d => d.IsUsable) →
      added others = added registrations → filled others = filled registrations) ∧
    (∀ spec others, (∀ name ∈ calledNames spec, (filled others).find? name = (filled registrations).find? name) →
      ∀ allowUnsafe, (filled others).resolve spec allowUnsafe = (filled registrations).resolve spec allowUnsafe) ∧
    ∀ spec others, ((entered others).filter fun d => d.name ∈ calledNames spec) =
        ((entered registrations).filter fun d => d.name ∈ calledNames spec) →
      ∀ allowUnsafe, (filled others).resolve spec allowUnsafe = (filled registrations).resolve spec allowUnsafe := by
  refine ⟨⟨(filled registrations).definitions.keys_sorted, fun name => ?names⟩, fun name d => ?last, fun name => ?none,
    libraries_filled registrations, fun others usable libraries => ?unusable,
    fun spec others same allowUnsafe => resolve_congr same, fun spec others same allowUnsafe => ?frame⟩
  case names =>
    rw [← exists_find?_filled_iff]
    exact SortedMap.mem_keys_iff
  case last =>
    rw [find?_filled]
    exact find?_reverse_eq_some_iff
  case none => rw [← exists_find?_filled_iff, ← Option.isSome_iff_exists, Option.not_isSome_iff_eq_none]
  case unusable =>
    have definitions : (filled others).definitions = (filled registrations).definitions := by
      rw [definitions_filled, definitions_filled, entriesOf, usable, ← entriesOf]
    rw [← libraries_filled, ← libraries_filled] at libraries
    cases first : filled others
    cases second : filled registrations
    rw [first, second] at definitions libraries
    exact congrArg₂ Catalog.mk definitions libraries
  case frame => exact resolve_congr fun name mem => find?_filled_congr same mem

/-- A function that gives back what comes in, with this `name` and `category`. -/
def echo (name category : Text) : Definition :=
  { name := name, category := category, maker := some fun _ => .ok { run := .ok } }

/-- A function `Echo` entered by itself, and again by a library that also enters it without a maker. -/
def echoRegistrations : List Registration :=
  [.define (echo "Echo" "old"),
    .addLibrary ⟨"echoes", [echo "Echo" "new", { echo "Echo" "broken" with maker := none }]⟩]

/-- The usable definition of the library is the last one under the name, and another function entered behind it
changes nothing for a specification that does not call it. -/
theorem filled_holds_last_sample :
    LastUsable "Echo" (echo "Echo" "new") (entered echoRegistrations) ∧
    (filled echoRegistrations).find? "Echo" = some (echo "Echo" "new") ∧
    (filled echoRegistrations).find? "Other" = none ∧
    (filled echoRegistrations).libraries = [Text.ofString "echoes"] ∧
    filled [.define (echo "Echo" "old"), .addLibrary ⟨"echoes", [echo "Echo" "new"]⟩] = filled echoRegistrations ∧
    (filled (echoRegistrations ++ [.define (echo "Other" "new")])).resolve "Echo()" false =
      (filled echoRegistrations).resolve "Echo()" false := by
  obtain ⟨-, last, none, libraries, unusable, -, frame⟩ := filled_holds_last echoRegistrations
  have isLast : LastUsable "Echo" (echo "Echo" "new") (entered echoRegistrations) := by
    refine ⟨[echo "Echo" "old"], [{ echo "Echo" "broken" with maker := Option.none }], rfl, rfl, rfl, ?_⟩
    intro later mem _ usable
    rw [List.mem_singleton.1 mem] at usable
    cases usable
  have called : calledNames "Echo()" = [Text.ofString "Echo"] := by decide +kernel
  refine ⟨isLast, (last _ _).2 isLast, (none "Other").2 ?_, libraries, unusable _ rfl rfl, frame _ _ ?_ false⟩
  · rintro ⟨d, mem, named, -⟩
    have names : ∀ d ∈ entered echoRegistrations, d.name = Text.ofString "Echo" := by
      intro d mem
      simp only [entered, echoRegistrations, List.flatMap_cons, Registration.definitions, List.flatMap_nil,
        List.mem_append, List.mem_cons, List.not_mem_nil, or_false] at mem
      rcases mem with rfl | rfl | rfl <;> rfl
    exact absurd ((names d mem).symm.trans named) (by decide)
  · rw [called]
    rfl

end Catalog

end OpCycle
