/-! # Outcomes
How the outcome of a computation that may stop with an error follows from the outcomes of its parts:
sequencing, mapping, renaming the error, and running over a list up to the first error. -/

namespace OpCycle.Outcome

variable {ε ε' α β γ : Type}

/-- After a success the sequence goes on: `(.ok x >>= f) = f x`. -/
@[simp] theorem ok_bind (x : α) (f : α → Except ε β) : (Except.ok x >>= f) = f x := rfl

/-- After a failure it does not: `(.error e >>= f) = .error e`. -/
@[simp] theorem error_bind (e : ε) (f : α → Except ε β) : (Except.error e >>= f) = .error e := rfl

/-- A success is mapped: `(.ok x).map f = .ok (f x)`. -/
@[simp] theorem map_ok (f : α → β) (x : α) : (Except.ok x : Except ε α).map f = .ok (f x) := rfl

/-- A failure is not: `(.error e).map f = .error e`. -/
@[simp] theorem map_error (f : α → β) (e : ε) : (Except.error e).map f = .error e := rfl

/-- Renaming the error leaves a success alone: `(.ok x).mapError f = .ok x`. -/
@[simp] theorem mapError_ok (f : ε → ε') (x : α) : (Except.ok x).mapError f = .ok x := rfl

/-- Successes are the same exactly if what they give is: `(Except.ok x : Except ε α) = .ok y ↔ x = y`. -/
theorem ok_inj {x y : α} : (Except.ok x : Except ε α) = .ok y ↔ x = y := by
  rw [Except.ok.injEq]

/-- A sequence succeeds exactly when both of its halves do: `(x >>= f) = .ok y ↔ ∃ a, x = .ok a ∧ f a = .ok y`. -/
theorem bind_eq_ok {x : Except ε α} {f : α → Except ε β} {y : β} :
    (x >>= f) = .ok y ↔ ∃ a, x = .ok a ∧ f a = .ok y := by
  cases x with
  | error e =>
    rw [error_bind]
    constructor
    · intro h
      cases h
    · rintro ⟨a, h, -⟩
      cases h
  | ok a =>
    rw [ok_bind]
    constructor
    · intro h
      exact ⟨a, rfl, h⟩
    · rintro ⟨b, hb, h⟩
      cases hb
      exact h

/-- Renaming the error changes no success: `x.mapError f = .ok y ↔ x = .ok y`. -/
theorem mapError_eq_ok {x : Except ε α} {f : ε → ε'} {y : α} : x.mapError f = .ok y ↔ x = .ok y := by
  cases x with
  | error e => exact ⟨fun h => (by cases h), fun h => (by cases h)⟩
  | ok a => rw [mapError_ok, Except.ok.injEq, Except.ok.injEq]

/-- Renaming the error keeps every failure: `x.mapError f = .error e' ↔ ∃ e, x = .error e ∧ f e = e'`. -/
theorem mapError_eq_error {x : Except ε α} {f : ε → ε'} {e' : ε'} :
    x.mapError f = .error e' ↔ ∃ e, x = .error e ∧ f e = e' := by
  cases x with
  | error e =>
    constructor
    · intro h
      exact ⟨e, rfl, Except.error.inj h⟩
    · rintro ⟨_, h, rfl⟩
      cases h
      rfl
  | ok a => exact ⟨fun h => (by cases h), fun ⟨_, h, _⟩ => (by cases h)⟩

/-- A sequence fails when its first half does, or its second half after that:
`(x >>= f) = .error e ↔ x = .error e ∨ ∃ a, x = .ok a ∧ f a = .error e`. -/
theorem bind_eq_error {x : Except ε α} {f : α → Except ε β} {e : ε} :
    (x >>= f) = .error e ↔ x = .error e ∨ ∃ a, x = .ok a ∧ f a = .error e := by
  cases x with
  | error e' =>
    rw [error_bind, Except.error.injEq, Except.error.injEq]
    constructor
    · exact .inl
    · rintro (h | ⟨a, h, -⟩)
      · exact h
      · cases h
  | ok a =>
    rw [ok_bind]
    constructor
    · exact fun h => .inr ⟨a, rfl, h⟩
    · rintro (h | ⟨b, hb, h⟩)
      · cases h
      · cases hb
        exact h

/-- A computation succeeds unless it fails: `(∃ a, x = .ok a) ↔ ¬ ∃ e, x = .error e`. -/
theorem exists_ok_iff {x : Except ε α} : (∃ a, x = .ok a) ↔ ¬ ∃ e, x = .error e := by
  cases x with
  | error e => exact ⟨fun ⟨_, h⟩ => (by cases h), fun h => absurd ⟨e, rfl⟩ h⟩
  | ok a => exact ⟨fun _ ⟨_, h⟩ => (by cases h), fun _ => ⟨a, rfl⟩⟩

/-- Mapping the success changes no error: `x.map f = .error e ↔ x = .error e`. -/
theorem map_eq_error {x : Except ε α} {f : α → β} {e : ε} : x.map f = .error e ↔ x = .error e := by
  cases x with
  | error e' => rw [map_error, Except.error.injEq, Except.error.injEq]
  | ok a => exact ⟨fun h => (by cases h), fun h => (by cases h)⟩

/-- Mapping the success and renaming the error may be done in either order:
`(x.map f).mapError g = (x.mapError g).map f`. -/
theorem mapError_map (f : α → β) (g : ε → ε') (x : Except ε α) :
    (x.map f).mapError g = (x.mapError g).map f := by
  cases x with
  | error e => rfl
  | ok a => rfl

/-- Renaming the error of a sequence renames the errors of both of its halves:
`(x >>= f).mapError g = x.mapError g >>= fun a => (f a).mapError g`. -/
theorem mapError_bind (g : ε → ε') (x : Except ε α) (f : α → Except ε β) :
    (x >>= f).mapError g = x.mapError g >>= fun a => (f a).mapError g := by
  cases x with
  | error e => rfl
  | ok a => rfl

/-- Renaming the error of a run over a list renames the errors of its items:
`(items.mapM f).mapError g = items.mapM fun item => (f item).mapError g`. -/
theorem mapError_mapM (g : ε → ε') (f : α → Except ε β) (items : List α) :
    (items.mapM f).mapError g = items.mapM fun item => (f item).mapError g := by
  induction items with
  | nil => rfl
  | cons item rest ih =>
    rw [List.mapM_cons, List.mapM_cons, ← ih]
    cases f item with
    | error e => rfl
    | ok b =>
      cases rest.mapM f with
      | error e => rfl
      | ok bs => rfl

/-- A run over what another run made is a run over the items of that one: `made.mapM g = items.mapM h`. -/
theorem mapM_of_made {f : α → Except ε β} {g : β → Except ε' γ} {h : α → Except ε' γ}
    {items : List α} {made : List β} (run : items.mapM f = .ok made)
    (same : ∀ item x, f item = .ok x → g x = h item) : made.mapM g = items.mapM h := by
  induction items generalizing made with
  | nil =>
    cases run
    rfl
  | cons item rest ih =>
    rw [List.mapM_cons] at run
    obtain ⟨x, head, run⟩ := bind_eq_ok.1 run
    obtain ⟨others, tail, run⟩ := bind_eq_ok.1 run
    cases run
    rw [List.mapM_cons, List.mapM_cons, same item x head, ih tail]

/-- What a run made agrees with its items on what every single outcome agrees on: `made.map g = items.map h`. -/
theorem map_of_made {f : α → Except ε β} {g : β → γ} {h : α → γ} {items : List α} {made : List β}
    (run : items.mapM f = .ok made) (same : ∀ item x, f item = .ok x → g x = h item) :
    made.map g = items.map h := by
  induction items generalizing made with
  | nil =>
    cases run
    rfl
  | cons item rest ih =>
    rw [List.mapM_cons] at run
    obtain ⟨x, head, run⟩ := bind_eq_ok.1 run
    obtain ⟨others, tail, run⟩ := bind_eq_ok.1 run
    cases run
    rw [List.map_cons, List.map_cons, same item x head, ih tail]

/-- A run over a list makes one thing out of each item: `made.length = items.length`. -/
theorem length_of_made {f : α → Except ε β} {items : List α} {made : List β}
    (run : items.mapM f = .ok made) : made.length = items.length := by
  have same : made.map (fun _ => ()) = items.map fun _ => () := map_of_made run fun _ _ _ => rfl
  rw [← List.length_map, same, List.length_map]

/-- What a run made at a position is the outcome of the item at that position:
`∃ item, items[i]? = some item ∧ f item = .ok y`. -/
theorem getElem?_of_made {f : α → Except ε β} {items : List α} {made : List β}
    (run : items.mapM f = .ok made) {i : Nat} {y : β} (found : made[i]? = some y) :
    ∃ item, items[i]? = some item ∧ f item = .ok y := by
  induction items generalizing made i with
  | nil =>
    cases run
    cases found
  | cons item rest ih =>
    rw [List.mapM_cons] at run
    obtain ⟨x, head, run⟩ := bind_eq_ok.1 run
    obtain ⟨others, tail, run⟩ := bind_eq_ok.1 run
    cases run
    cases i with
    | zero =>
      cases found
      exact ⟨item, rfl, head⟩
    | succ i => exact ih tail found

/-- A run over a list that succeeds has succeeded on every item: `∃ x, f item = .ok x`. -/
theorem ok_of_mem {f : α → Except ε β} {items : List α} {made : List β}
    (run : items.mapM f = .ok made) {item : α} (mem : item ∈ items) : ∃ x, f item = .ok x := by
  induction items generalizing made with
  | nil => exact absurd mem List.not_mem_nil
  | cons first rest ih =>
    rw [List.mapM_cons] at run
    obtain ⟨x, head, run⟩ := bind_eq_ok.1 run
    obtain ⟨others, tail, -⟩ := bind_eq_ok.1 run
    rcases List.mem_cons.1 mem with rfl | mem
    · exact ⟨x, head⟩
    · exact ih tail mem

/-- The first item for which `Q` holds, with `P` before it, is the head, or `P` holds of the head and it is among the
rest. -/
theorem exists_first_cons_iff {P Q : α → Prop} {head : α} {rest : List α} :
    (∃ before item after, head :: rest = before ++ item :: after ∧ (∀ earlier ∈ before, P earlier) ∧ Q item) ↔
      Q head ∨ P head ∧
        ∃ before item after, rest = before ++ item :: after ∧ (∀ earlier ∈ before, P earlier) ∧ Q item := by
  constructor
  · rintro ⟨before, item, after, split, fine, met⟩
    cases before with
    | nil =>
      cases split
      exact .inl met
    | cons _ before =>
      cases split
      obtain ⟨first, fine⟩ := List.forall_mem_cons.1 fine
      exact .inr ⟨first, before, item, after, rfl, fine, met⟩
  · rintro (met | ⟨first, before, item, after, rfl, fine, met⟩)
    · exact ⟨[], head, rest, rfl, fun _ mem => absurd mem List.not_mem_nil, met⟩
    · exact ⟨head :: before, item, after, rfl, List.forall_mem_cons.2 ⟨first, fine⟩, met⟩

/-- A run fails at its first item, or has an outcome for it and fails in the rest:
`(item :: rest).mapM f = .error e ↔ f item = .error e ∨ (∃ y, f item = .ok y) ∧ rest.mapM f = .error e`. -/
theorem mapM_cons_eq_error_iff {f : α → Except ε β} {item : α} {rest : List α} {e : ε} :
    (item :: rest).mapM f = .error e ↔ f item = .error e ∨ (∃ y, f item = .ok y) ∧ rest.mapM f = .error e := by
  rw [List.mapM_cons, bind_eq_error]
  refine or_congr_right ?_
  have collected (y : β) : (do let ys ← rest.mapM f; pure (y :: ys)) = .error e ↔ rest.mapM f = .error e :=
    map_eq_error
  constructor
  · rintro ⟨y, given, failed⟩
    exact ⟨⟨y, given⟩, (collected y).1 failed⟩
  · rintro ⟨⟨y, given⟩, failed⟩
    exact ⟨y, given, (collected y).2 failed⟩

/-- The run `items.mapM f` fails exactly with the error of the first item that fails. -/
theorem mapM_eq_error_iff {f : α → Except ε β} {items : List α} {e : ε} :
    items.mapM f = .error e ↔
      ∃ before item after, items = before ++ item :: after ∧
        (∀ earlier ∈ before, ∃ y, f earlier = .ok y) ∧ f item = .error e := by
  induction items with
  | nil =>
    constructor
    · intro h
      cases h
    · rintro ⟨before, item, after, split, -, -⟩
      exact absurd split.symm (List.append_ne_nil_of_right_ne_nil _ (List.cons_ne_nil _ _))
  | cons item rest ih => rw [mapM_cons_eq_error_iff, exists_first_cons_iff, ih]

/-- A run over a list fails exactly when one of its items does:
`(∃ e, items.mapM f = .error e) ↔ ∃ item ∈ items, ∃ e, f item = .error e`. -/
theorem mapM_fails_iff {f : α → Except ε β} {items : List α} :
    (∃ e, items.mapM f = .error e) ↔ ∃ item ∈ items, ∃ e, f item = .error e := by
  constructor
  · rintro ⟨e, failed⟩
    obtain ⟨before, item, after, rfl, -, failed⟩ := mapM_eq_error_iff.1 failed
    exact ⟨item, List.mem_append_right _ List.mem_cons_self, e, failed⟩
  · rintro ⟨item, mem, failed⟩
    cases run : items.mapM f with
    | error e => exact ⟨e, rfl⟩
    | ok made => exact absurd failed (exists_ok_iff.1 (ok_of_mem run mem))

/-- Runs over a list that agree on its items are the same: `items.mapM f = items.mapM g`. -/
theorem mapM_congr {m : Type → Type} [Monad m] [LawfulMonad m] {f g : α → m β} {items : List α}
    (same : ∀ item ∈ items, f item = g item) : items.mapM f = items.mapM g := by
  induction items with
  | nil => rfl
  | cons item rest ih =>
    rw [List.mapM_cons, List.mapM_cons, same item List.mem_cons_self,
      ih fun other mem => same other (List.mem_cons_of_mem _ mem)]

/-- A run that keeps each item with its outcome pairs the items with the outcomes of the plain run:
`(items.mapM fun item => (f item).map fun y => (item, y)) = (items.mapM f).map items.zip`. -/
theorem mapM_pair (f : α → Except ε β) (items : List α) :
    (items.mapM fun item => (f item).map fun y => (item, y)) = (items.mapM f).map items.zip := by
  induction items with
  | nil => rfl
  | cons item rest ih =>
    rw [List.mapM_cons, List.mapM_cons, ih]
    cases f item with
    | error e => rfl
    | ok y =>
      cases rest.mapM f with
      | error e => rfl
      | ok ys => rfl

/-- What a run over a list made comes from its items: `∃ item ∈ items, f item = .ok y`. -/
theorem exists_of_mem_made {f : α → Except ε β} {items : List α} {made : List β}
    (run : items.mapM f = .ok made) {y : β} (mem : y ∈ made) : ∃ item ∈ items, f item = .ok y := by
  induction items generalizing made with
  | nil =>
    cases run
    exact absurd mem List.not_mem_nil
  | cons first rest ih =>
    rw [List.mapM_cons] at run
    obtain ⟨x, head, run⟩ := bind_eq_ok.1 run
    obtain ⟨others, tail, run⟩ := bind_eq_ok.1 run
    cases run
    rcases List.mem_cons.1 mem with rfl | mem
    · exact ⟨first, List.mem_cons_self, head⟩
    · obtain ⟨item, memRest, found⟩ := ih tail mem
      exact ⟨item, List.mem_cons_of_mem _ memRest, found⟩

/-! ## Runs without their errors -/

/-- A run that forgets its error is a run over items that forget theirs:
`(items.mapM f).toOption = items.mapM fun item => (f item).toOption`. -/
theorem toOption_mapM (f : α → Except ε β) (items : List α) :
    (items.mapM f).toOption = items.mapM fun item => (f item).toOption := by
  induction items with
  | nil => rfl
  | cons item rest ih =>
    rw [List.mapM_cons, List.mapM_cons, ← ih]
    cases f item with
    | error e => rfl
    | ok y =>
      cases rest.mapM f with
      | error e => rfl
      | ok ys => rfl

/-- Running over lists in a row and joining what they make is running over all of them as one list:
`(items.flatMap pieces).mapM f = (items.mapM fun item => (pieces item).mapM f).map List.flatten`. -/
theorem mapM_flatMap (f : β → Option γ) (pieces : α → List β) (items : List α) :
    (items.flatMap pieces).mapM f =
      (items.mapM fun item => (pieces item).mapM f).map List.flatten := by
  induction items with
  | nil => rfl
  | cons item rest ih =>
    rw [List.flatMap_cons, List.mapM_append, ih, List.mapM_cons]
    cases (pieces item).mapM f with
    | none => rfl
    | some made =>
      cases rest.mapM fun item => (pieces item).mapM f with
      | none => rfl
      | some others => rfl

/-! ## Computed outcomes -/

/-- What is left of an outcome without its error is its success: `x.toOption = some a ↔ x = .ok a`. -/
theorem toOption_eq_some {x : Except ε α} {a : α} : x.toOption = some a ↔ x = .ok a := by
  cases x with
  | error e => exact ⟨fun h => (by cases h), fun h => (by cases h)⟩
  | ok b => rw [Except.toOption, Option.some_inj, Except.ok.injEq]

/-- A computed test of a success gives the success: `∃ a, x = .ok a ∧ test a`. -/
theorem exists_ok_of_test {x : Except ε α} (test : α → Bool) (passed : x.toOption.any test = true) :
    ∃ a, x = .ok a ∧ test a = true := by
  cases x with
  | error e => cases passed
  | ok a => exact ⟨a, rfl, passed⟩

/-- What does not succeed fails: `∃ e, x = .error e`. -/
theorem exists_error_of_toBool {x : Except ε α} (failed : x.toBool = false) : ∃ e, x = .error e := by
  cases x with
  | error e => exact ⟨e, rfl⟩
  | ok a => cases failed

end OpCycle.Outcome
