import OpCycle.Settings.Engine

/-! # Engine settings over time
The settings in effect after any loads and resets. A load takes the settings of its document as a whole or
leaves the state alone, and whether it takes them is up to the document. So the settings in effect are
always valid, they are those of the last document taken, and they count as loaded until the next reset.

* `EngineCall`, `run`: loads and resets, and the state after them.
* `perform_cases`, `perform_of_taken`: what one call does.
* `run_sound`: what holds after any calls. -/

namespace OpCycle

/-- The settings of `document`, if they can be read and are `Valid`. -/
def Document.settings? (document : Document) : Option Engine :=
  match document.root.bind Engine.ofNode with
  | .ok engine => if engine.Valid then some engine else none
  | .error _ => none

/-- What is found as the settings of a document is read from it, and valid:
`document.settings? = some engine ↔ document.root.bind Engine.ofNode = .ok engine ∧ engine.Valid`. -/
theorem Document.settings?_eq_some_iff {document : Document} {engine : Engine} :
    document.settings? = some engine ↔ document.root.bind Engine.ofNode = .ok engine ∧ engine.Valid := by
  unfold settings?
  cases document.root.bind Engine.ofNode with
  | error fault =>
    constructor
    · intro h
      cases h
    · rintro ⟨h, -⟩
      cases h
  | ok read =>
    dsimp only
    constructor
    · intro h
      split at h
      · -- The test is `Valid` itself, so a settings document that is read is kept when it is valid.
        next valid =>
        cases h
        exact ⟨rfl, valid⟩
      · cases h
    · rintro ⟨same, valid⟩
      cases same
      exact if_pos valid

/-- A load takes the settings of its document, or leaves the state alone where there are none:
`s.load document = match document.settings? with | some engine => (true, ⟨engine, true⟩) | none => (false, s)`. -/
theorem EngineState.load_eq (s : EngineState) (document : Document) :
    s.load document = match document.settings? with
      | some engine => (true, ⟨engine, true⟩)
      | none => (false, s) := by
  unfold load Document.settings?
  cases document.root.bind Engine.ofNode with
  | error fault => rfl
  | ok engine =>
    dsimp only
    by_cases valid : engine.Valid
    · rw [if_pos valid, if_pos valid]
    · rw [if_neg valid, if_neg valid]

/-- The built-in settings are valid: `EngineState.initial.engine.Valid`. -/
theorem Engine.valid_initial : EngineState.initial.engine.Valid := by decide

/-- A call that changes the settings of the engine. -/
inductive EngineCall
  /-- Loads the document of a file. -/
  | loadFile (document : Document)
  /-- Loads a text that holds this tree, or that is no well-formed document. -/
  | loadText (tree : Option Node)
  /-- Goes back to the built-in settings. -/
  | reset

namespace EngineCall

/-- What the call answers, which is nothing for a reset, and the state after `s`. -/
def perform (s : EngineState) : EngineCall → Option Bool × EngineState
  | .loadFile document => (s.load document).map some id
  | .loadText tree => (s.loadText tree).map some id
  | .reset => (none, s.reset)

/-- The document that the call loads. -/
def document? : EngineCall → Option Document
  | .loadFile document => some document
  | .loadText tree => some (tree.elim .malformed .tree)
  | .reset => none

/-- The state after `calls` in a row on `s`. -/
def runFrom (s : EngineState) (calls : List EngineCall) : EngineState :=
  calls.foldl (fun s call => (call.perform s).2) s

/-- The state after `calls` from the start of the program on. -/
def run (calls : List EngineCall) : EngineState := runFrom .initial calls

/-! ## One call -/

/-- **What a call does.** It resets the state, or takes the `settings?` of its document, or leaves the state alone
because its document has none. -/
theorem perform_cases (call : EngineCall) (s : EngineState) :
    (call = .reset ∧ call.perform s = (none, .initial)) ∨
    (∃ document engine, call.document? = some document ∧ document.settings? = some engine ∧
      call.perform s = (some true, ⟨engine, true⟩)) ∨
    (∃ document, call.document? = some document ∧ document.settings? = none ∧
      call.perform s = (some false, s)) := by
  have load (document : Document) :
      (∃ engine, document.settings? = some engine ∧
        (s.load document).map some id = (some true, ⟨engine, true⟩)) ∨
      (document.settings? = none ∧ (s.load document).map some id = (some false, s)) := by
    rw [EngineState.load_eq]
    cases document.settings? with
    | none => exact .inr ⟨rfl, rfl⟩
    | some engine => exact .inl ⟨engine, rfl, rfl⟩
  cases call with
  | loadFile document =>
    rcases load document with ⟨engine, found, taken⟩ | ⟨none, kept⟩
    · exact .inr (.inl ⟨document, engine, rfl, found, taken⟩)
    · exact .inr (.inr ⟨document, rfl, none, kept⟩)
  | loadText tree =>
    rcases load (tree.elim .malformed .tree) with ⟨engine, found, taken⟩ | ⟨none, kept⟩
    · exact .inr (.inl ⟨_, engine, rfl, found, taken⟩)
    · exact .inr (.inr ⟨_, rfl, none, kept⟩)
  | reset => exact .inl ⟨rfl, rfl⟩

/-- A load that fails leaves the state as it was: `(call.perform s).2 = s`. -/
theorem perform_of_failed {call : EngineCall} {s : EngineState} (failed : (call.perform s).1 = some false) :
    (call.perform s).2 = s := by
  rcases call.perform_cases s with ⟨-, same⟩ | ⟨_, _, -, -, same⟩ | ⟨_, -, -, same⟩
  · rw [same] at failed
    cases failed
  · rw [same] at failed
    cases failed
  · rw [same]

/-- A load that succeeds leads to the settings of its document, from whatever state it starts: `some true` is the
answer everywhere. -/
theorem perform_of_taken {call : EngineCall} {s : EngineState} (taken : (call.perform s).1 = some true) :
    ∃ document engine, call.document? = some document ∧ document.settings? = some engine ∧
      ∀ other, call.perform other = (some true, ⟨engine, true⟩) := by
  rcases call.perform_cases s with ⟨-, same⟩ | ⟨document, engine, loads, found, -⟩ | ⟨_, -, -, same⟩
  · rw [same] at taken
    cases taken
  · refine ⟨document, engine, loads, found, fun other => ?_⟩
    rcases call.perform_cases other with ⟨rfl, -⟩ | ⟨_, _, loads', found', same⟩ | ⟨_, loads', none, -⟩
    · cases loads
    · cases loads.symm.trans loads'
      cases found.symm.trans found'
      exact same
    · cases loads.symm.trans loads'
      cases found.symm.trans none
  · rw [same] at taken
    cases taken

/-- A call keeps the settings valid: `(call.perform s).2.engine.Valid`. -/
theorem valid_perform {s : EngineState} (valid : s.engine.Valid) (call : EngineCall) :
    (call.perform s).2.engine.Valid := by
  rcases call.perform_cases s with ⟨-, same⟩ | ⟨_, _, -, found, same⟩ | ⟨_, -, -, same⟩
  · rw [same]
    exact Engine.valid_initial
  · rw [same]
    exact (Document.settings?_eq_some_iff.1 found).2
  · rw [same]
    exact valid

/-- After a call, settings count as loaded if the call has loaded some, or if they did before and the call is not a
reset: `(call.perform s).2.loaded ↔ (call.perform s).1 = some true ∨ s.loaded ∧ call ≠ .reset`. -/
theorem loaded_perform_iff (call : EngineCall) (s : EngineState) :
    (call.perform s).2.loaded = true ↔
      (call.perform s).1 = some true ∨ s.loaded = true ∧ call ≠ .reset := by
  rcases call.perform_cases s with ⟨rfl, same⟩ | ⟨_, _, -, -, same⟩ | ⟨_, loads, -, same⟩
  · rw [same]
    refine ⟨fun loaded => (by cases loaded), ?_⟩
    rintro (taken | ⟨-, other⟩)
    · cases taken
    · exact absurd rfl other
  · rw [same]
    exact ⟨fun _ => .inl rfl, fun _ => rfl⟩
  · rw [same]
    have other : call ≠ .reset := by
      rintro rfl
      cases loads
    refine ⟨fun loaded => .inr ⟨loaded, other⟩, ?_⟩
    rintro (taken | ⟨loaded, -⟩)
    · cases taken
    · exact loaded

/-! ## Calls in a row -/

/-- The first of several calls is performed before the others:
`runFrom s (call :: rest) = runFrom (call.perform s).2 rest`. -/
theorem runFrom_cons (s : EngineState) (call : EngineCall) (rest : List EngineCall) :
    runFrom s (call :: rest) = runFrom (call.perform s).2 rest := rfl

/-- Calls in a row keep the settings valid: `(runFrom s calls).engine.Valid`. -/
theorem valid_runFrom {s : EngineState} (valid : s.engine.Valid) (calls : List EngineCall) :
    (runFrom s calls).engine.Valid := by
  induction calls generalizing s with
  | nil => exact valid
  | cons call rest ih =>
    rw [runFrom_cons]
    exact ih (valid_perform valid call)

/-- After `calls` in a row, settings count as loaded if some load has succeeded since the last `reset`, or if they did
before and there was no reset. -/
theorem loaded_runFrom_iff (s : EngineState) (calls : List EngineCall) :
    (runFrom s calls).loaded = true ↔
      (∃ before call after, calls = before ++ call :: after ∧
        (call.perform (runFrom s before)).1 = some true ∧ .reset ∉ after) ∨
      s.loaded = true ∧ .reset ∉ calls := by
  -- From the front, since `runFrom` runs the first call first: the state after it is the new start.
  induction calls generalizing s with
  | nil =>
    constructor
    · exact fun loaded => .inr ⟨loaded, List.not_mem_nil⟩
    · rintro (⟨before, call, after, split, -⟩ | ⟨loaded, -⟩)
      · exact absurd split.symm (List.append_ne_nil_of_right_ne_nil _ (List.cons_ne_nil _ _))
      · exact loaded
  | cons first rest ih =>
    rw [runFrom_cons, ih, loaded_perform_iff]
    constructor
    · rintro (⟨before, call, after, rfl, taken, none⟩ | ⟨taken | ⟨loaded, other⟩, none⟩)
      · exact .inl ⟨first :: before, call, after, rfl, taken, none⟩
      · exact .inl ⟨[], first, rest, rfl, taken, none⟩
      · refine .inr ⟨loaded, ?_⟩
        rw [List.mem_cons, not_or]
        exact ⟨Ne.symm other, none⟩
    · rintro (⟨before, call, after, split, taken, none⟩ | ⟨loaded, none⟩)
      · cases before with
        | nil =>
          cases split
          exact .inr ⟨.inl taken, none⟩
        | cons _ before =>
          cases split
          exact .inl ⟨before, call, after, rfl, taken, none⟩
      · rw [List.mem_cons, not_or] at none
        exact .inr ⟨.inr ⟨loaded, Ne.symm none.1⟩, none.2⟩

/-- **The settings are always valid, and loads are atomic.** After any `calls` the settings in effect are `Valid`. A
load that fails changes nothing. One that succeeds leads to the settings of its document, and from every other history
it would do the same. The flag `loaded` says exactly whether some load has succeeded since the last reset. -/
theorem run_sound (calls : List EngineCall) :
    (run calls).engine.Valid ∧
    (∀ call : EngineCall, (call.perform (run calls)).1 = some false → (call.perform (run calls)).2 = run calls) ∧
    (∀ call : EngineCall, (call.perform (run calls)).1 = some true →
      ∃ document engine, call.document? = some document ∧
        document.root.bind Engine.ofNode = .ok engine ∧
        ∀ others, call.perform (run others) = (some true, ⟨engine, true⟩)) ∧
    ((run calls).loaded = true ↔
      ∃ before call after, calls = before ++ call :: after ∧
        (call.perform (run before)).1 = some true ∧ .reset ∉ after) := by
  refine ⟨valid_runFrom Engine.valid_initial calls, fun _ => perform_of_failed, ?_, ?_⟩
  · intro call taken
    obtain ⟨document, engine, loads, found, anywhere⟩ := perform_of_taken taken
    exact ⟨document, engine, loads, (Document.settings?_eq_some_iff.1 found).1, fun _ => anywhere _⟩
  · have notAtFirst : ¬ (EngineState.initial.loaded = true ∧ EngineCall.reset ∉ calls) := by
      rintro ⟨loaded, -⟩
      cases loaded
    rw [run, loaded_runFrom_iff]
    exact or_iff_left notAtFirst

/-- Settings that ask for `count` threads. -/
def threadsTree (count : Text) : Node :=
  .mapping [(.plain "render", .mapping [(.plain "threads", .plain count)])]

/-- Four threads are taken, none at all are not, and after that the four are still in effect. -/
theorem run_sound_sample :
    ((loadText (some (threadsTree "4"))).perform (run [.reset])).1 = some true ∧
      ((loadFile (.tree (threadsTree "0"))).perform (run [loadText (some (threadsTree "4"))])).1 = some false ∧
      (run [loadText (some (threadsTree "4")), loadFile (.tree (threadsTree "0"))]).engine.render.threads = 4 ∧
      (run [loadText (some (threadsTree "4")), loadFile (.tree (threadsTree "0"))]).loaded = true := by
  have taken : ((loadText (some (threadsTree "4"))).perform (run [.reset])).1 = some true := by decide
  have failed : ((loadFile (.tree (threadsTree "0"))).perform
      (run [loadText (some (threadsTree "4"))])).1 = some false := by decide
  have kept : run [loadText (some (threadsTree "4")), loadFile (.tree (threadsTree "0"))] =
      run [loadText (some (threadsTree "4"))] :=
    (run_sound [loadText (some (threadsTree "4"))]).2.1 _ failed
  refine ⟨taken, failed, ?_, ?_⟩
  · rw [kept]
    decide
  · rw [kept]
    decide

end EngineCall

end OpCycle
