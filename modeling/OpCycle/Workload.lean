import OpCycle.Op
import OpCycle.Settings.Activity

/-! # Workloads
A workload document lists op templates, with bindings and parameters that all of them share and the
parameters of the run. Each op is read from its own entry and the shared sections alone. -/

namespace OpCycle

/-- A workload. -/
structure Workload where
  /-- What the workload is, for people to read. -/
  description : Text
  /-- The op templates in document order. -/
  ops : List Op
  /-- The parameters of the run. -/
  activity : Activity

/-- Why a document is no workload. -/
inductive WorkloadFault
  /-- A part of the document cannot be used. -/
  | node (fault : NodeFault)
  /-- The bindings are no mapping. -/
  | bindingsNotMapping
  /-- An op is neither a scalar nor a mapping. -/
  | opNotUsable (name : Text)
  /-- The document is no mapping. -/
  | notMapping
  /-- There is no section of ops. -/
  | noOps
  /-- The ops are neither a mapping nor a sequence. -/
  | opsNotCollection
  deriving DecidableEq, Repr

/-- The wording of a fault; a `node` fault has none of its own. -/
def WorkloadFault.message : WorkloadFault → Text
  | .node _ => []
  | .bindingsNotMapping => "'bindings' must be a map of name to spec"
  | .opNotUsable name => "op '" ++ name ++ "' must be a string or a map"
  | .notMapping => "workload document must be a map"
  | .noOps => "workload document has no 'ops' section"
  | .opsNotCollection => "'ops' must be a map or a sequence"

namespace Workload

/-- What can be read from a document, or the `WorkloadFault` for which it cannot. -/
abbrev Reading (α : Type) : Type := Except WorkloadFault α

/-- The `result` of reading a part of the document, as a `Reading`. -/
def ofDocumentPart {α : Type} (result : Except NodeFault α) : Reading α := result.mapError .node

/-- The keys and texts of the entries of a mapping, all of them scalars. -/
def readTexts : List (Node × Node) → Except NodeFault (List (Text × Text))
  | [] => .ok []
  | (key, n) :: rest => do
    let key ← key.scalar
    let text ← n.scalar
    let entries ← readTexts rest
    pure ((key, text) :: entries)

/-- The bindings of a section that may be absent; a section that is there is a `mapping`. -/
def readBindings : Option Node → Reading Bindings
  | none => .ok ∅
  | some (.mapping entries) => ofDocumentPart ((readTexts entries).map .ofList)
  | some _ => .error .bindingsNotMapping

/-- The keys of an op that are not fields of its operation: `name`, `op`, `bindings`, `params` and `tags`. -/
def reservedKeys : List Text := ["name", "op", "bindings", "params", "tags"]

/-- The entries of an op that are fields of its operation: those whose key is not among `reservedKeys`. -/
def readInlineFields : List (Node × Node) → Except NodeFault (List (Text × Value))
  | [] => .ok []
  | (key, n) :: rest => do
    let key ← key.scalar
    -- What stands under a reserved key is not looked at here.
    if reservedKeys.contains key then readInlineFields rest
    else
      let v ← n.toValue
      let entries ← readInlineFields rest
      pure ((key, v) :: entries)

/-- The body that is just a statement: `text` under `Op.statementField`. -/
def statementBody (text : Text) : OrderedMap Value := OrderedMap.empty.set Op.statementField (.text text)

/-- The body of an op: under the key `op`, where a scalar is a statement, or inline, where an op without fields has no
body. -/
def readBody (definition : Node) (entries : List (Node × Node)) :
    Except NodeFault (Option (OrderedMap Value)) := do
  match ← definition.entry "op" with
  | some (.plain text) => pure (some (statementBody text))
  | some (.quoted text) => pure (some (statementBody text))
  | some own => (Node.toMap (some own)).map some
  | none =>
    let fields ← readInlineFields entries
    pure (if fields.isEmpty then none else some (.ofList fields))

/-- An op from its `definition`, with the `bindings` and `params` that the document shares. A scalar is a statement.
The tag `name` always holds the name. -/
def readOp (bindings : Bindings) (params : OrderedMap Value) (name : Text) (definition : Node) :
    Reading Op :=
  match definition with
  | .plain text | .quoted text =>
    .ok ⟨name, some (statementBody text), bindings, params, OrderedMap.empty.set "name" (.text name)⟩
  | .mapping entries => do
    let ownBindings ← readBindings (← ofDocumentPart (definition.entry "bindings"))
    let ownParams ← ofDocumentPart (definition.entry "params" >>= Node.toMap)
    let tags ← ofDocumentPart (definition.entry "tags" >>= Node.toMap)
    let fields ← ofDocumentPart (readBody definition entries)
    pure ⟨name, fields, bindings.overlay ownBindings, params.overlay ownParams,
      tags.set "name" (.text name)⟩
  | _ => .error (.opNotUsable name)

/-- The ops of a `mapping`, each named by its key. -/
def readNamedOps (bindings : Bindings) (params : OrderedMap Value) :
    List (Node × Node) → Reading (List Op)
  | [] => .ok []
  | (key, definition) :: rest => do
    let name ← ofDocumentPart key.scalar
    let op ← readOp bindings params name definition
    let ops ← readNamedOps bindings params rest
    pure (op :: ops)

/-- The name of an op in a sequence: the `name` that it gives itself, or one made from its `position`. -/
def listedName (position : Nat) (definition : Node) : Except NodeFault Text := do
  let unnamed : Text := "op" ++ Decimal.ofNat position
  if definition.isMapping then
    match ← definition.entry "name" with
    | some name => name.scalar
    | none => pure unnamed
  else pure unnamed

/-- The ops of a `sequence`, the first of which has this `position`. -/
def readListedOps (bindings : Bindings) (params : OrderedMap Value) (position : Nat) :
    List Node → Reading (List Op)
  | [] => .ok []
  | definition :: rest => do
    let name ← ofDocumentPart (listedName position definition)
    let op ← readOp bindings params name definition
    let ops ← readListedOps bindings params (position + 1) rest
    pure (op :: ops)

/-- The ops of a section: a `mapping` or a `sequence`. -/
def readOps (bindings : Bindings) (params : OrderedMap Value) : Node → Reading (List Op)
  | .mapping entries => readNamedOps bindings params entries
  | .sequence items => readListedOps bindings params 0 items
  | _ => .error .opsNotCollection

/-- The workload of a document with this `root`. -/
def ofNode (root : Node) : Reading Workload :=
  if root.isMapping then do
    let description ← ofDocumentPart (root.textOr "description" [])
    let bindings ← readBindings (← ofDocumentPart (root.entry "bindings"))
    let params ← ofDocumentPart (root.entry "params" >>= Node.toMap)
    let activity ← ofDocumentPart (root.entry "activity" >>= Activity.ofNode)
    match ← ofDocumentPart (root.entry "ops") with
    | none => .error .noOps
    | some found =>
      let ops ← readOps bindings params found
      pure ⟨description, ops, activity⟩
  else .error .notMapping

/-- The workload of a file that holds `document`. -/
def ofDocument (document : Document) : Reading Workload := ofDocumentPart document.root >>= ofNode

/-- The position of the first op named `name`. -/
def opIndex? (w : Workload) (name : Text) : Option Nat := w.ops.findIdx? fun op => op.name = name

/-- The first op named `name`. -/
def findOp? (w : Workload) (name : Text) : Option Op := (w.opIndex? name).bind fun i => w.ops[i]?

/-- The op of a name is the first one that has it: `w.findOp? name = w.ops.find? fun op => op.name = name`. -/
theorem findOp?_eq_find? (w : Workload) (name : Text) :
    w.findOp? name = w.ops.find? fun op => op.name = name := by
  simp [findOp?, opIndex?, List.find?_eq_bind_findIdx?_getElem?]

end Workload

end OpCycle
