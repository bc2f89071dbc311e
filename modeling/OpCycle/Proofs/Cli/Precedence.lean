import OpCycle.Cli.Render
import OpCycle.Proofs.Plan.Compilation
import OpCycle.Proofs.Plan.Settings
import OpCycle.Proofs.Workload.Sections

/-! # Which layer a setting comes from
The program lays the parameters of the run in three layers over one another: the policy of the engine, the
workload document and the command line. The parameters of an op are two layers of the document, and the plan
looks at its own fixed fields before all of them. So a setting is the first definition along six layers.

* `Activity.lastArgument?`, `policy?`: the layers that are no section of the document.
* `activityOf_eq_some`: the three layers of the parameters of a run.
* `setting_precedence`: a setting is `firstOf` six layers. -/

namespace OpCycle

/-! ## The command line -/

/-- The value in `arg`, if it is an argument for `key`. -/
def Activity.valueFor? (key arg : Text) : Option Value :=
  (readArgument? arg).bind fun entry => if key = entry.1 then some entry.2 else none

/-- The value of the last argument for `key` in `args`. -/
def Activity.lastArgument? (args : List Text) (key : Text) : Option Value :=
  args.reverse.findSome? (valueFor? key)

/-- Under a key of arguments the value of the last of them is found:
`given.params.find? key = lastArgument? args key`. -/
theorem Activity.find?_ofArguments? {args : List Text} {given : Activity}
    (accepted : ofArguments? args = some given) (key : Text) :
    given.params.find? key = lastArgument? args key := by
  obtain ⟨entries, read, rfl⟩ := Option.map_eq_some_iff.1 accepted
  rw [OrderedMap.find?_ofList, lastArgument?]
  clear accepted
  induction args generalizing entries with
  | nil =>
    cases read
    rfl
  | cons arg rest ih =>
    rw [List.mapM_cons] at read
    obtain ⟨entry, head, read⟩ := Option.bind_eq_some_iff.1 read
    obtain ⟨others, tail, read⟩ := Option.bind_eq_some_iff.1 read
    cases read
    rw [List.reverse_cons, List.reverse_cons, List.lookup_append, List.findSome?_append, ih others tail]
    have last : List.lookup key [entry] = [arg].findSome? (valueFor? key) := by
      rw [List.lookup_eq_findSome?]
      simp [valueFor?, head]
    rw [last]

/-- The parameters of arguments have distinct keys: `given.params.UniqueKeys`. -/
theorem Activity.uniqueKeys_ofArguments? {args : List Text} {given : Activity}
    (accepted : ofArguments? args = some given) : given.params.UniqueKeys := by
  obtain ⟨entries, -, rfl⟩ := Option.map_eq_some_iff.1 accepted
  exact OrderedMap.uniqueKeys_ofList entries

namespace Cli

/-! ## The run -/

/-- What the policy of `engine` sets under `key`. -/
def policy? (engine : Engine) (key : Text) : Option Value :=
  if key = Plan.unsafeParameter then some (.bool engine.allowUnsafe) else none

/-- The parameters of the run: `lastArgument?` for a key, else the activity section of the document, else the
`policy?` of the engine. -/
theorem activityOf_eq_some {root : Node} {w : Workload} (loaded : Workload.ofNode root = .ok w)
    (engine : Engine) {args : List Text} {given : Activity}
    (accepted : Activity.ofArguments? args = some given) :
    ∃ activity, activityOf engine w args = some activity ∧ ∀ key,
      activity.params.find? key = (Activity.lastArgument? args key).or
        (((root.section "activity").find? key).or (policy? engine key)) := by
  obtain ⟨_, _, -, -, run⟩ := Workload.ofNode_eq_ok loaded
  have uniqueRun : w.activity.params.UniqueKeys := run ▸ root.uniqueKeys_section "activity"
  -- The two lower layers are there with or without arguments.
  let base : OrderedMap Value :=
    (OrderedMap.empty.set Plan.unsafeParameter (.bool engine.allowUnsafe)).overlay w.activity.params
  have lower (key : Text) :
      base.find? key = ((root.section "activity").find? key).or (policy? engine key) := by
    rw [OrderedMap.find?_overlay _ uniqueRun, run, OrderedMap.find?_set]
    rfl
  cases args with
  | nil => exact ⟨⟨base⟩, rfl, lower⟩
  | cons arg rest =>
    refine ⟨⟨base.overlay given.params⟩, ?_, fun key => ?_⟩
    · rw [activityOf, accepted]
      rfl
    · rw [← Activity.find?_ofArguments? accepted, ← lower]
      exact OrderedMap.find?_overlay base (Activity.uniqueKeys_ofArguments? accepted) key

/-! ## The op -/

/-- The first of `layers` that defines something. -/
def firstOf (layers : List (Option Value)) : Option Value := layers.foldr Option.or none

/-- **Settings come from the first of six layers.** Take a workload that loads and arguments that are accepted, under
any policy. The op at a position is read from the definition at that position of the document, and under each name
that no bound field of its plan has, its setting is `firstOf` a fixed field, the parameters of its definition, the
parameters that the document shares, the last argument for the name, the activity section of the document, and the
`policy?`; where none of them has the name there is no setting. -/
theorem setting_precedence {root : Node} {w : Workload} (loaded : Workload.ofNode root = .ok w)
    (engine : Engine) {args : List Text} {given : Activity}
    (accepted : Activity.ofArguments? args = some given) :
    ∃ activity, activityOf engine w args = some activity ∧
      ∀ (i : Nat) (op : Op), w.ops[i]? = some op → ∃ definition, (Workload.definitions root)[i]? = some definition ∧
        ∀ p, Plan.compile op (some activity) [] Basics.catalog = .ok p → ∀ name, p.isBound name = false →
          p.setting name = .ok (firstOf [p.fixed? name,
            (definition.section "params").find? name,
            (root.section "params").find? name,
            Activity.lastArgument? args name,
            (root.section "activity").find? name,
            policy? engine name]) := by
  obtain ⟨activity, combined, layers⟩ := activityOf_eq_some loaded engine accepted
  refine ⟨activity, combined, fun i op found => ?_⟩
  obtain ⟨bindings, ops, entry, read, -⟩ := Workload.ofNode_eq_ok loaded
  obtain ⟨_, definition, stands, made⟩ := Workload.readOps_getElem? read found
  refine ⟨definition, by rw [Workload.definitions, entry]; exact stands, ?_⟩
  intro p compiled name free
  have params (key : Text) : op.params.find? key =
      ((definition.section "params").find? key).or ((root.section "params").find? key) := by
    rw [Workload.params_of_readOp made, OrderedMap.find?_overlay _ (definition.uniqueKeys_section _)]
  have other : ¬ p.OnlyBound name := fun only => absurd only.1 (by rw [free]; decide)
  rw [Plan.setting_of_not_onlyBound other, Plan.firstDefinition?]
  obtain ⟨_, _, _, -, -, rfl⟩ := Plan.compile_eq_ok compiled
  simp only [Option.bind_some, params, layers, firstOf, List.foldr, Option.or_none, Option.or_assoc]

/-- A node that maps the keys of `entries` to their texts. -/
def textsNode (entries : List (Text × Text)) : Node :=
  .mapping (entries.map fun entry => (.plain entry.1, .quoted entry.2))

/-- A document with one op, which defines `a` itself; the shared parameters define `a` and `b`, those of the run `a`,
`b` and `c`. -/
def layeredRoot : Node :=
  .mapping [
    (.plain "params", textsNode [("a", "shared"), ("b", "shared")]),
    (.plain "activity", textsNode [("a", "document"), ("b", "document"), ("c", "document")]),
    (.plain "ops", .sequence [
      .mapping [(.plain "size", .plain "4"), (.plain "params", textsNode [("a", "own")])]])]

/-- In this document the definition of the op comes first, then the shared parameters, then the last
argument, and the policy where nothing else has the name. -/
theorem setting_precedence_sample :
    ∃ w given activity op p, Workload.ofNode layeredRoot = .ok w ∧
      Activity.ofArguments? ["c=first", "b=first", "c=last"] = some given ∧
      activityOf {} w ["c=first", "b=first", "c=last"] = some activity ∧ w.ops[0]? = some op ∧
      Plan.compile op (some activity) [] Basics.catalog = .ok p ∧
      p.setting "a" = .ok (some (.text "own")) ∧ p.setting "b" = .ok (some (.text "shared")) ∧
      p.setting "c" = .ok (some (.text "last")) ∧
      p.setting Plan.unsafeParameter = .ok (some (.bool false)) ∧ p.setting "d" = .ok none := by
  obtain ⟨given, accepted⟩ :
      ∃ given, Activity.ofArguments? ["c=first", "b=first", "c=last"] = some given := ⟨_, rfl⟩
  obtain ⟨w, op, loaded, first, fields⟩ :
      ∃ w op, Workload.ofNode layeredRoot = .ok w ∧ w.ops[0]? = some op ∧
        op.fields = some (.ofList [("size", .int 4)]) := ⟨_, _, rfl, rfl, rfl⟩
  obtain ⟨activity, combined, layers⟩ := setting_precedence loaded {} accepted
  obtain ⟨definition, stands, settles⟩ := layers 0 op first
  cases stands
  obtain ⟨allowed, captures, views, compiled⟩ : ∃ allowed captures views,
      Plan.compile op (some activity) [] Basics.catalog =
        .ok ⟨op, some activity, allowed, [⟨"size", .fixed (.int 4)⟩], captures, views⟩ := by
    rw [Plan.compile, fields]
    exact ⟨_, _, _, rfl⟩
  have settled (name : Text) := settles _ compiled name
  exact ⟨w, given, activity, op, _, loaded, accepted, combined, first, compiled,
    settled "a" rfl, settled "b" rfl, settled "c" rfl, settled Plan.unsafeParameter rfl,
    settled "d" rfl⟩

end Cli

end OpCycle
