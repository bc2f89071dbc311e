import OpCycle.Proofs.Outcome
import OpCycle.Workload

/-! # Where the parameters and bindings of a workload come from
A workload that loads has the parameters of the run from a section of its own. Each of its ops is read from
the definition at its position among the ops of the document, and has the parameters and bindings of that
definition laid over those that the document shares.

* `definitions`, `ownBindings`: the definitions of ops, and the bindings of a node.
* `parts_of_readOp`, `parts_of_ofNode`: what an op, and a workload, is made of. -/

namespace OpCycle

/-- The map that stands under `key` of `n`, and the empty one where there is none. -/
def Node.section (n : Node) (key : Text) : OrderedMap Value :=
  ((n.entry key >>= Node.toMap).toOption).getD ∅

/-- A section that can be read is its map: `n.section key = m`. -/
theorem Node.section_eq {n : Node} {key : Text} {m : OrderedMap Value}
    (read : n.entry key >>= Node.toMap = .ok m) : n.section key = m := by
  rw [Node.section, read]
  rfl

/-- The map of a node has distinct keys: `m.UniqueKeys`. -/
theorem Node.uniqueKeys_toMap {n : Option Node} {m : OrderedMap Value} (read : Node.toMap n = .ok m) :
    m.UniqueKeys := by
  unfold Node.toMap at read
  split at read
  · cases read
    exact OrderedMap.uniqueKeys_empty
  · cases read
    exact OrderedMap.uniqueKeys_empty
  · next entries =>
    cases made : Node.toEntries entries with
    | error e =>
      rw [made] at read
      cases read
    | ok pairs =>
      rw [made] at read
      cases read
      exact OrderedMap.uniqueKeys_ofList pairs
  · cases read

/-- Every section has distinct keys: `(n.section key).UniqueKeys`. -/
theorem Node.uniqueKeys_section (n : Node) (key : Text) : (n.section key).UniqueKeys := by
  cases read : n.entry key >>= Node.toMap with
  | error e =>
    rw [Node.section, read]
    exact OrderedMap.uniqueKeys_empty
  | ok m =>
    rw [Node.section_eq read]
    obtain ⟨found, -, read⟩ := Outcome.bind_eq_ok.1 read
    exact Node.uniqueKeys_toMap read

namespace Workload

/-- The definitions of ops in a section, in document order: the values of a `mapping`, the items of a `sequence`. -/
def definitionsIn : Node → List Node
  | .mapping entries => entries.map Prod.snd
  | .sequence items => items
  | _ => []

/-- The definitions of ops in the document `root`, in document order. -/
def definitions (root : Node) : List Node :=
  match root.entry "ops" with
  | .ok (some found) => definitionsIn found
  | _ => []

variable {bindings : Bindings} {params : OrderedMap Value}

/-- The bindings in the section of `definition` for them, and none where there is no such section. -/
def ownBindings (definition : Node) : Bindings :=
  ((ofDocumentPart (definition.entry "bindings") >>= readBindings).toOption).getD ∅

/-- What an op from a `mapping` is made of. -/
theorem readOp_mapping_eq_ok {name : Text} {entries : List (Node × Node)} {op : Op}
    (read : readOp bindings params name (.mapping entries) = .ok op) :
    ∃ own fields,
      (ofDocumentPart ((Node.mapping entries).entry "bindings") >>= readBindings) = .ok own ∧
      readBody (.mapping entries) entries = .ok fields ∧
      op = ⟨name, fields, bindings.overlay own, params.overlay ((Node.mapping entries).section "params"),
        ((Node.mapping entries).section "tags").set "name" (.text name)⟩ := by
  obtain ⟨found, entry, read⟩ := Outcome.bind_eq_ok.1 read
  obtain ⟨own, ownRead, read⟩ := Outcome.bind_eq_ok.1 read
  obtain ⟨ownParams, paramsRead, read⟩ := Outcome.bind_eq_ok.1 read
  obtain ⟨tags, tagsRead, read⟩ := Outcome.bind_eq_ok.1 read
  obtain ⟨fields, fieldsRead, read⟩ := Outcome.bind_eq_ok.1 read
  cases read
  refine ⟨own, fields, ?_, Outcome.mapError_eq_ok.1 fieldsRead, ?_⟩
  · rw [entry, Outcome.ok_bind, ownRead]
  · rw [Node.section_eq (Outcome.mapError_eq_ok.1 paramsRead),
      Node.section_eq (Outcome.mapError_eq_ok.1 tagsRead)]

/-- An op has the name that it is given, and the bindings, parameters and tags of its `definition` over the shared
ones, with its name among the tags. -/
theorem parts_of_readOp {name : Text} {definition : Node} {op : Op}
    (read : readOp bindings params name definition = .ok op) :
    op.name = name ∧ op.bindings = bindings.overlay (ownBindings definition) ∧
      op.params = params.overlay (definition.section "params") ∧
      op.tags = (definition.section "tags").set "name" (.text name) := by
  cases definition with
  | plain text =>
    cases read
    exact ⟨rfl, rfl, rfl, rfl⟩
  | quoted text =>
    cases read
    exact ⟨rfl, rfl, rfl, rfl⟩
  | mapping entries =>
    obtain ⟨own, fields, ownRead, -, rfl⟩ := readOp_mapping_eq_ok read
    refine ⟨rfl, ?_, rfl, rfl⟩
    rw [ownBindings, ownRead]
    rfl
  | null => cases read
  | sequence items => cases read

/-- An op has the parameters of its definition laid over the shared ones:
`op.params = params.overlay (definition.section "params")`. -/
theorem params_of_readOp {name : Text} {definition : Node} {op : Op}
    (read : readOp bindings params name definition = .ok op) :
    op.params = params.overlay (definition.section "params") := (parts_of_readOp read).2.2.1

/-- An op has the bindings of its definition laid over the shared ones:
`op.bindings = bindings.overlay (ownBindings definition)`. -/
theorem bindings_of_readOp {name : Text} {definition : Node} {op : Op}
    (read : readOp bindings params name definition = .ok op) :
    op.bindings = bindings.overlay (ownBindings definition) := (parts_of_readOp read).2.1

/-! ## The ops of a section -/

/-- The `definitionsIn` a section, each with the name that its op is given. -/
def namedDefinitionsIn : Node → List (Except NodeFault Text × Node)
  | .mapping entries => entries.map fun entry => (entry.1.scalar, entry.2)
  | .sequence items => items.zipIdx.map fun item => (listedName item.2 item.1, item.1)
  | _ => []

/-- The op of a definition with its name, by `readOp`. -/
def readNamed (bindings : Bindings) (params : OrderedMap Value) (named : Except NodeFault Text × Node) :
    Reading Op := do
  readOp bindings params (← ofDocumentPart named.1) named.2

/-- Ops under their names are read one by one: `readNamedOps bindings params entries = entries.mapM fun entry =>
readNamed bindings params (entry.1.scalar, entry.2)`. -/
theorem readNamedOps_eq_mapM (entries : List (Node × Node)) :
    readNamedOps bindings params entries =
      entries.mapM fun entry => readNamed bindings params (entry.1.scalar, entry.2) := by
  induction entries with
  | nil => rfl
  | cons entry rest ih =>
    rw [List.mapM_cons, ← ih]
    simp only [readNamedOps, readNamed, bind_assoc]

/-- Listed ops are read one by one by `readNamed`, each with its position. -/
theorem readListedOps_eq_mapM (position : Nat) (items : List Node) :
    readListedOps bindings params position items =
      (items.zipIdx position).mapM fun item => readNamed bindings params (listedName item.2 item.1, item.1) := by
  induction items generalizing position with
  | nil => rfl
  | cons definition rest ih =>
    rw [List.zipIdx_cons, List.mapM_cons, ← ih]
    simp only [readListedOps, readNamed, bind_assoc]

/-- The ops of a section are read one by one from its definitions with their names:
`(namedDefinitionsIn n).mapM (readNamed bindings params) = .ok ops`. -/
theorem mapM_of_readOps {n : Node} {ops : List Op} (read : readOps bindings params n = .ok ops) :
    (namedDefinitionsIn n).mapM (readNamed bindings params) = .ok ops := by
  cases n with
  | mapping entries =>
    rw [namedDefinitionsIn, List.mapM_map, ← read]
    exact (readNamedOps_eq_mapM entries).symm
  | sequence items =>
    rw [namedDefinitionsIn, List.mapM_map, ← read]
    exact (readListedOps_eq_mapM 0 items).symm
  | null => cases read
  | plain text => cases read
  | quoted text => cases read

/-- Naming the definitions of a section keeps them: `(namedDefinitionsIn n).map Prod.snd = definitionsIn n`. -/
theorem map_snd_namedDefinitionsIn (n : Node) : (namedDefinitionsIn n).map Prod.snd = definitionsIn n := by
  cases n with
  | mapping entries => rw [namedDefinitionsIn, List.map_map, definitionsIn]; rfl
  | sequence items => rw [namedDefinitionsIn, List.map_map, definitionsIn]; exact List.zipIdx_map_fst 0 items
  | null => rfl
  | plain text => rfl
  | quoted text => rfl

/-- There is one op for each definition of a section: `ops.length = (definitionsIn n).length`. -/
theorem length_of_readOps {n : Node} {ops : List Op} (read : readOps bindings params n = .ok ops) :
    ops.length = (definitionsIn n).length := by
  rw [Outcome.length_of_made (mapM_of_readOps read), ← map_snd_namedDefinitionsIn, List.length_map]

/-- The op of a section at a position is read from the named definition at that position: `∃ definition,
(namedDefinitionsIn n)[i]? = some (.ok op.name, definition) ∧ readOp bindings params op.name definition = .ok op`. -/
theorem named_of_readOps {n : Node} {ops : List Op} (read : readOps bindings params n = .ok ops) {i : Nat}
    {op : Op} (found : ops[i]? = some op) :
    ∃ definition, (namedDefinitionsIn n)[i]? = some (.ok op.name, definition) ∧
      readOp bindings params op.name definition = .ok op := by
  obtain ⟨⟨name?, definition⟩, stands, made⟩ := Outcome.getElem?_of_made (mapM_of_readOps read) found
  obtain ⟨name, named, made⟩ := Outcome.bind_eq_ok.1 made
  have named : name? = .ok name := Outcome.mapError_eq_ok.1 named
  obtain rfl : op.name = name := (parts_of_readOp made).1
  exact ⟨definition, named ▸ stands, made⟩

/-- The op of a section at a position is read from the definition at that position:
`∃ name definition, (definitionsIn n)[i]? = some definition ∧ readOp bindings params name definition = .ok op`. -/
theorem readOps_getElem? {n : Node} {ops : List Op} (read : readOps bindings params n = .ok ops) {i : Nat}
    {op : Op} (found : ops[i]? = some op) :
    ∃ name definition, (definitionsIn n)[i]? = some definition ∧
      readOp bindings params name definition = .ok op := by
  obtain ⟨definition, stands, made⟩ := named_of_readOps read found
  refine ⟨op.name, definition, ?_, made⟩
  rw [← map_snd_namedDefinitionsIn, List.getElem?_map, stands]
  rfl

/-- What a workload that loads is made of: `root` is a mapping, the ops of which share the bindings and the parameters
of the document, and the parameters of the run have a section of their own. -/
theorem parts_of_ofNode {root : Node} {w : Workload} (loaded : ofNode root = .ok w) :
    root.isMapping = true ∧ (ofDocumentPart (root.entry "bindings") >>= readBindings) = .ok (ownBindings root) ∧
    ∃ found, root.entry "ops" = .ok (some found) ∧
      readOps (ownBindings root) (root.section "params") found = .ok w.ops ∧
      w.activity.params = root.section "activity" := by
  unfold ofNode at loaded
  split at loaded
  · next mapping =>
    obtain ⟨_, -, loaded⟩ := Outcome.bind_eq_ok.1 loaded
    obtain ⟨place, stands, loaded⟩ := Outcome.bind_eq_ok.1 loaded
    obtain ⟨bindings, shared, loaded⟩ := Outcome.bind_eq_ok.1 loaded
    obtain ⟨params, sharedParams, loaded⟩ := Outcome.bind_eq_ok.1 loaded
    obtain ⟨activity, run, loaded⟩ := Outcome.bind_eq_ok.1 loaded
    obtain ⟨ops, entry, loaded⟩ := Outcome.bind_eq_ok.1 loaded
    -- The sections are read in this order, so each one read says that those before it were in order.
    cases ops with
    | none => cases loaded
    | some found =>
      obtain ⟨ops, read, loaded⟩ := Outcome.bind_eq_ok.1 loaded
      cases loaded
      have sharedRead : (ofDocumentPart (root.entry "bindings") >>= readBindings) = .ok bindings := by
        rw [stands, Outcome.ok_bind, shared]
      have own : ownBindings root = bindings := by
        rw [ownBindings, sharedRead]
        rfl
      refine ⟨mapping, own ▸ sharedRead, found, Outcome.mapError_eq_ok.1 entry, ?_, ?_⟩
      · rw [own, Node.section_eq (Outcome.mapError_eq_ok.1 sharedParams)]
        exact read
      · obtain ⟨place, stands, run⟩ := Outcome.bind_eq_ok.1 (Outcome.mapError_eq_ok.1 run)
        cases made : Node.toMap place with
        | error e =>
          rw [Activity.ofNode, made] at run
          cases run
        | ok m =>
          rw [Activity.ofNode, made] at run
          cases run
          exact (Node.section_eq (by rw [stands, Outcome.ok_bind, made])).symm
  · cases loaded

/-- What a workload that loads is made of: the parameters that its ops share, those of the run, and the section
`ops`. -/
theorem ofNode_eq_ok {root : Node} {w : Workload} (loaded : ofNode root = .ok w) :
    ∃ bindings found, root.entry "ops" = .ok (some found) ∧
      readOps bindings (root.section "params") found = .ok w.ops ∧
      w.activity.params = root.section "activity" :=
  ⟨ownBindings root, (parts_of_ofNode loaded).2.2⟩

end Workload

end OpCycle
