import OpCycle.Proofs.OrderedMap.Layers
import OpCycle.Proofs.Workload.Sections

/-! # The ops of a workload
A workload that loads has one op for each definition, in document order and named by the document. What is in an op
is read off its definition and the sections that the document shares: bindings and parameters of the definition lie
over the shared ones, the name is among the tags, and a scalar is a statement. So no op depends on another one.

* `IsOpOf`: an op is what its definition says, over what the document shares.
* `loading_separates_ops`: so it is for every op, and nothing else of the document matters to it. -/

namespace OpCycle

namespace Node

/-- What stands under a key of a `mapping`; other nodes have no keys. -/
def under? : Node → Text → Option Node
  | .mapping entries, key => (entries.find? fun entry => entry.1.scalar? = some key).map Prod.snd
  | _, _ => none

/-- An entry of a mapping is what stands under its key: `n.entry key = .ok (n.under? key)`. -/
theorem entry_of_isMapping {n : Node} (mapping : n.isMapping = true) (key : Text) :
    n.entry key = .ok (n.under? key) := by
  cases n with
  | mapping entries => rfl
  | null => cases mapping
  | plain text => cases mapping
  | quoted text => cases mapping
  | sequence items => cases mapping

/-- The specification that a section of bindings gives a name; of several the last one. -/
def specIn? : Node → Text → Option Text
  | .mapping entries, name => entries.reverse.findSome? fun entry =>
    if entry.1.scalar? = some name then entry.2.scalar? else none
  | _, _ => none

/-- The specification that the section of `n` for bindings gives `name`. -/
def specOf? (n : Node) (name : Text) : Option Text := (n.under? "bindings").bind fun found => found.specIn? name

/-- A scalar that is read is its text: `n.scalar = .ok text ↔ n.scalar? = some text`. -/
theorem scalar_eq_ok {n : Node} {text : Text} : n.scalar = .ok text ↔ n.scalar? = some text := by
  rw [scalar]
  cases n.scalar? with
  | none => exact ⟨fun h => (by cases h), fun h => (by cases h)⟩
  | some found => rw [Except.ok.injEq, Option.some_inj]

end Node

namespace Workload

/-- The text that `definition` gives as the whole operation: it is a scalar itself, or has one under the key `op`. -/
def statementOf? (definition : Node) : Option Text :=
  definition.scalar?.or ((definition.under? "op").bind Node.scalar?)

/-- The name of the op at a position of a section: in a `mapping` its key, and in a `sequence` the one that its
definition gives, or else one made from the position. -/
def nameIn? : Node → Nat → Option Text
  | .mapping entries, i => entries[i]?.bind fun entry => entry.1.scalar?
  | .sequence items, i => items[i]?.map fun item =>
    ((item.under? "name").bind Node.scalar?).getD ("op" ++ Decimal.ofNat i)
  | _, _ => none

/-- The name of the op at position `i` of the document `root`. -/
def nameAt? (root : Node) (i : Nat) : Option Text := (root.under? "ops").bind fun found => nameIn? found i

/-- The `op` is what its `definition` says, over what the document `root` shares. -/
structure IsOpOf (root definition : Node) (op : Op) : Prop where
  /-- A binding is the one of the definition, or else the one of the document. -/
  bindings : ∀ name, op.bindings.find? name = (definition.specOf? name).or (root.specOf? name)
  /-- The parameters are those of the document with the values of the definition in place, and behind them the new
  ones of the definition. -/
  params : op.params.entries =
    (root.section "params").entries.map
        (fun entry => (entry.1, ((definition.section "params").find? entry.1).getD entry.2)) ++
      (definition.section "params").entries.filter fun entry => entry.1 ∉ (root.section "params").keys
  /-- The name of the op is among the tags, and the other tags are those of the definition. -/
  tags : ∀ key, op.tags.find? key =
    if key = "name" then some (.text op.name) else (definition.section "tags").find? key
  /-- A statement is the only field. -/
  statement : ∀ text, statementOf? definition = some text → op.fields = some ⟨[("stmt", .text text)]⟩

variable {bindings : Bindings} {params : OrderedMap Value}

/-! ## Bindings -/

/-- The last text read under a name stands in the last entry with that name:
`pairs.reverse.lookup name = (Node.mapping entries).specIn? name`. -/
theorem lookup_of_readTexts {entries : List (Node × Node)} {pairs : List (Text × Text)}
    (read : readTexts entries = .ok pairs) (name : Text) :
    pairs.reverse.lookup name = (Node.mapping entries).specIn? name := by
  induction entries generalizing pairs with
  | nil =>
    cases read
    rfl
  | cons entry rest ih =>
    obtain ⟨key, n⟩ := entry
    obtain ⟨keyText, keyRead, read⟩ := Outcome.bind_eq_ok.1 read
    obtain ⟨text, textRead, read⟩ := Outcome.bind_eq_ok.1 read
    obtain ⟨others, tail, read⟩ := Outcome.bind_eq_ok.1 read
    cases read
    rw [List.reverse_cons, List.lookup_append, ih tail, Node.specIn?, Node.specIn?, List.reverse_cons,
      List.findSome?_append]
    congr 1
    rw [List.findSome?_singleton, Node.scalar_eq_ok.1 keyRead, Node.scalar_eq_ok.1 textRead, List.lookup_cons]
    by_cases same : name = keyText
    · simp [same]
    · simp [Ne.symm same, beq_eq_false_iff_ne.2 same]

/-- The bindings that a mapping holds in a section of its own are what the section gives:
`own.find? name = n.specOf? name`. -/
theorem find?_of_readBindings {n : Node} (mapping : n.isMapping = true) {own : Bindings}
    (read : (ofDocumentPart (n.entry "bindings") >>= readBindings) = .ok own) (name : Text) :
    own.find? name = n.specOf? name := by
  rw [Node.entry_of_isMapping mapping] at read
  have read : readBindings (n.under? "bindings") = .ok own := read
  rw [Node.specOf?]
  cases found : n.under? "bindings" with
  | none =>
    rw [found] at read
    cases read
    rfl
  | some held =>
    rw [found] at read
    -- Anything but a mapping under `bindings` is refused, so only a mapping is left.
    cases held with
    | mapping entries =>
      cases texts : readTexts entries with
      | error e =>
        rw [readBindings, texts] at read
        cases read
      | ok pairs =>
        rw [readBindings, texts] at read
        cases read
        rw [SortedMap.find?_ofList, lookup_of_readTexts texts]
        rfl
    | null => cases read
    | plain text => cases read
    | quoted text => cases read
    | sequence items => cases read

/-- A binding of an op is the one of its definition, or else the shared one:
`op.bindings.find? bound = (definition.specOf? bound).or (bindings.find? bound)`. -/
theorem find?_bindings_of_readOp {name : Text} {definition : Node} {op : Op}
    (read : readOp bindings params name definition = .ok op) (bound : Text) :
    op.bindings.find? bound = (definition.specOf? bound).or (bindings.find? bound) := by
  cases definition with
  | plain text =>
    cases read
    rfl
  | quoted text =>
    cases read
    rfl
  | mapping entries =>
    obtain ⟨own, fields, ownRead, -, rfl⟩ := readOp_mapping_eq_ok read
    rw [SortedMap.find?_overlay, find?_of_readBindings rfl ownRead]
  | null => cases read
  | sequence items => cases read

/-! ## Fields -/

/-- A statement becomes the only field of an op: `op.fields = some ⟨[("stmt", .text text)]⟩`. -/
theorem fields_of_statement {name : Text} {definition : Node} {op : Op}
    (read : readOp bindings params name definition = .ok op) {text : Text}
    (statement : statementOf? definition = some text) : op.fields = some ⟨[("stmt", .text text)]⟩ := by
  cases definition with
  | plain text =>
    cases read
    cases statement
    rfl
  | quoted text =>
    cases read
    cases statement
    rfl
  | mapping entries =>
    obtain ⟨own, fields, -, body, rfl⟩ := readOp_mapping_eq_ok read
    obtain ⟨held, found, scalar⟩ := Option.bind_eq_some_iff.1 statement
    rw [readBody, Node.entry_of_isMapping rfl, found] at body
    cases held with
    | plain held =>
      cases scalar
      cases body
      rfl
    | quoted held =>
      cases scalar
      cases body
      rfl
    | null => cases scalar
    | sequence items => cases scalar
    | mapping entries => cases scalar
  | null => cases read
  | sequence items => cases read

/-! ## Names -/

/-- The name of a definition in a sequence is the one that it gives, or else the one made from its position:
`((definition.under? "name").bind Node.scalar?).getD ("op" ++ Decimal.ofNat position) = name`. -/
theorem name_of_listedName {position : Nat} {definition : Node} {name : Text}
    (read : listedName position definition = .ok name) :
    ((definition.under? "name").bind Node.scalar?).getD ("op" ++ Decimal.ofNat position) = name := by
  unfold listedName at read
  split at read
  · next mapping =>
    rw [Node.entry_of_isMapping mapping, Outcome.ok_bind] at read
    cases found : definition.under? "name" with
    | none =>
      rw [found] at read
      cases read
      rfl
    | some given =>
      rw [found] at read
      rw [Option.bind_some, Node.scalar_eq_ok.1 read]
      rfl
  · next noMapping =>
    cases read
    -- Only a mapping has a `name`, so any other node takes the default.
    cases definition with
    | mapping entries => exact absurd rfl noMapping
    | null => rfl
    | plain text => rfl
    | quoted text => rfl
    | sequence items => rfl

/-- The name that a definition is given in a section is the one at its position: `nameIn? n i = some name`. -/
theorem nameIn?_of_named {n : Node} {i : Nat} {name : Text} {definition : Node}
    (stands : (namedDefinitionsIn n)[i]? = some (.ok name, definition)) : nameIn? n i = some name := by
  cases n with
  | mapping entries =>
    rw [namedDefinitionsIn, List.getElem?_map, Option.map_eq_some_iff] at stands
    obtain ⟨entry, found, same⟩ := stands
    rw [nameIn?, found, Option.bind_some]
    exact Node.scalar_eq_ok.1 (congrArg Prod.fst same)
  | sequence items =>
    rw [namedDefinitionsIn, List.getElem?_map, List.getElem?_zipIdx, Option.map_map, Option.map_eq_some_iff] at stands
    obtain ⟨item, found, same⟩ := stands
    have read : listedName (0 + i) item = .ok name := congrArg Prod.fst same
    rw [Nat.zero_add] at read
    rw [nameIn?, found, Option.map_some, name_of_listedName read]
  | null => cases stands
  | plain text => cases stands
  | quoted text => cases stands

/-! ## Whole documents -/

/-- The section of a document for its ops is where they are defined: `definitions root = definitionsIn found`. -/
theorem definitions_eq {root found : Node} (ops : root.entry "ops" = .ok (some found)) :
    definitions root = definitionsIn found := by
  rw [definitions, ops]

/-- The op at position `i` is read with its name from the definition at that position, and with what the document
shares. -/
theorem read_of_ofNode {root : Node} {w : Workload} (loaded : ofNode root = .ok w) {i : Nat} {op : Op}
    (found : w.ops[i]? = some op) :
    ∃ definition, (definitions root)[i]? = some definition ∧ nameAt? root i = some op.name ∧
      readOp (ownBindings root) (root.section "params") op.name definition = .ok op := by
  obtain ⟨mapping, -, held, entry, read, -⟩ := parts_of_ofNode loaded
  obtain ⟨definition, stands, made⟩ := named_of_readOps read found
  refine ⟨definition, ?_, ?_, made⟩
  · rw [definitions_eq entry, ← map_snd_namedDefinitionsIn, List.getElem?_map, stands]
    rfl
  · rw [Node.entry_of_isMapping mapping] at entry
    rw [nameAt?, Except.ok.inj entry, Option.bind_some, nameIn?_of_named stands]

/-- The op at a position is what the definition at that position says, over what the document shares:
`IsOpOf root definition op`. -/
theorem isOpOf_of_read {root definition : Node} {w : Workload} (loaded : ofNode root = .ok w) {op : Op}
    (read : readOp (ownBindings root) (root.section "params") op.name definition = .ok op) :
    IsOpOf root definition op where
  bindings name := by
    obtain ⟨mapping, sharedRead, -⟩ := parts_of_ofNode loaded
    rw [find?_bindings_of_readOp read, find?_of_readBindings mapping sharedRead]
  params := by
    rw [params_of_readOp read, OrderedMap.entries_overlay (root.uniqueKeys_section _)
      (definition.uniqueKeys_section _)]
  tags key := by
    rw [(parts_of_readOp read).2.2.2, OrderedMap.find?_set]
  statement text statement := fields_of_statement read statement

/-- Documents share what stands in their sections for bindings and parameters:
`ownBindings other = ownBindings root ∧ other.section "params" = root.section "params"`. -/
theorem shared_congr {root other : Node} (mapping : root.isMapping = true) (mappingOther : other.isMapping = true)
    (sameBindings : other.under? "bindings" = root.under? "bindings")
    (sameParams : other.under? "params" = root.under? "params") :
    ownBindings other = ownBindings root ∧ other.section "params" = root.section "params" := by
  constructor
  · rw [ownBindings, ownBindings, Node.entry_of_isMapping mapping, Node.entry_of_isMapping mappingOther,
      sameBindings]
  · rw [Node.section, Node.section, Node.entry_of_isMapping mapping, Node.entry_of_isMapping mappingOther,
      sameParams]

/-- **Loading keeps ops apart.** A workload that loads has one op for each of `definitions root`, in document order
and with the name `nameAt?` there. Each op `IsOpOf` its definition, over the bindings and parameters that the document
shares. It depends on nothing else: where another document shares the same and has the same definition under the same
name, at whatever position and among whatever other ops, it has the same op. -/
theorem loading_separates_ops {root : Node} {w : Workload} (loaded : ofNode root = .ok w) :
    w.ops.length = (definitions root).length ∧
    (∀ (i : Nat) op, w.ops[i]? = some op → nameAt? root i = some op.name ∧
      ∃ definition, (definitions root)[i]? = some definition ∧ IsOpOf root definition op) ∧
    (∀ other w', ofNode other = .ok w' → other.under? "bindings" = root.under? "bindings" →
      other.under? "params" = root.under? "params" →
      ∀ (i j : Nat) op op', w.ops[i]? = some op → w'.ops[j]? = some op' →
        (definitions other)[j]? = (definitions root)[i]? → nameAt? other j = nameAt? root i → op' = op) := by
  obtain ⟨mapping, -, held, entry, read, -⟩ := parts_of_ofNode loaded
  refine ⟨?_, fun i op found => ?_, ?_⟩
  · rw [definitions_eq entry, length_of_readOps read]
  · obtain ⟨definition, stands, named, made⟩ := read_of_ofNode loaded found
    exact ⟨named, definition, stands, isOpOf_of_read loaded made⟩
  · intro other w' loadedOther sameBindings sameParams i j op op' found foundOther sameDefinition sameName
    obtain ⟨mappingOther, -⟩ := parts_of_ofNode loadedOther
    obtain ⟨bindings, params⟩ := shared_congr mapping mappingOther sameBindings sameParams
    obtain ⟨definition, stands, named, made⟩ := read_of_ofNode loaded found
    obtain ⟨definition', stands', named', made'⟩ := read_of_ofNode loadedOther foundOther
    -- Both ops are read by the same function from the same name and definition.
    rw [stands, stands', Option.some_inj] at sameDefinition
    rw [named, named', Option.some_inj] at sameName
    rw [bindings, params, sameDefinition, sameName, made] at made'
    exact (Except.ok.inj made').symm

/-- A document with shared bindings and parameters and these `ops`. -/
def sharingRoot (ops : Node) : Node :=
  .mapping [
    (.plain "bindings", .mapping [(.plain "id", .quoted "Mod(9)"), (.plain "name", .quoted "Hash()")]),
    (.plain "params", .mapping [(.plain "ttl", .plain "5"), (.plain "level", .quoted "ONE")]),
    (.plain "ops", ops)]

/-- A definition with a statement that binds a name and sets a parameter anew, and sets the tag for the name. -/
def sharingDefinition : Node :=
  .mapping [
    (.plain "op", .quoted "insert"),
    (.plain "bindings", .mapping [(.plain "name", .quoted "Prefix('n')")]),
    (.plain "params", .mapping [(.plain "retries", .plain "3"), (.plain "ttl", .null)]),
    (.plain "tags", .mapping [(.plain "name", .quoted "other"), (.plain "phase", .quoted "main")])]

/-- Behind a scalar in a sequence and as the only op of a mapping, the definition becomes the same op. -/
theorem loading_separates_ops_sample :
    ∃ w w' op op',
      ofNode (sharingRoot (.sequence [.plain "7", sharingDefinition])) = .ok w ∧
      ofNode (sharingRoot (.mapping [(.quoted "op1", sharingDefinition)])) = .ok w' ∧
      w.ops[1]? = some op ∧ w'.ops[0]? = some op' ∧ op' = op ∧ op.name = ("op1" : Text) ∧
      op.bindings.find? "id" = some ("Mod(9)" : Text) ∧
      op.bindings.find? "name" = some ("Prefix('n')" : Text) ∧
      op.params.entries = ([("ttl", .null), ("level", .text "ONE"), ("retries", .int 3)] : List (Text × Value)) ∧
      op.tags.find? "name" = some (.text "op1") ∧ op.fields = some ⟨[("stmt", .text "insert")]⟩ := by
  obtain ⟨w, op, loaded, second⟩ : ∃ w op,
      ofNode (sharingRoot (.sequence [.plain "7", sharingDefinition])) = .ok w ∧ w.ops[1]? = some op :=
    ⟨_, _, rfl, rfl⟩
  obtain ⟨w', op', loaded', first⟩ : ∃ w' op',
      ofNode (sharingRoot (.mapping [(.quoted "op1", sharingDefinition)])) = .ok w' ∧ w'.ops[0]? = some op' :=
    ⟨_, _, rfl, rfl⟩
  obtain ⟨-, ops, alone⟩ := loading_separates_ops loaded
  obtain ⟨named, definition, stands, is⟩ := ops 1 op second
  cases stands
  have position : nameAt? (sharingRoot (.sequence [.plain "7", sharingDefinition])) 1 = some ("op1" : Text) := by
    change some ("op" ++ Decimal.ofNat 1) = _
    rw [Decimal.ofNat]
    rfl
  have name : op.name = ("op1" : Text) := Option.some_inj.1 (named.symm.trans position)
  refine ⟨w, w', op, op', loaded, loaded', second, first, ?_, name, ?_, ?_, ?_, ?_, is.statement _ rfl⟩
  · exact alone _ w' loaded' rfl rfl 1 0 op op' second first rfl position.symm
  · rw [is.bindings]
    rfl
  · rw [is.bindings]
    rfl
  · rw [is.params]
    rfl
  · rw [is.tags, name]
    rfl

end Workload

end OpCycle
