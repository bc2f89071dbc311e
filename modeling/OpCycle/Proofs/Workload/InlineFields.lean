import Mathlib.Data.List.Forall2
import Mathlib.Data.List.Nodup
import OpCycle.Proofs.Workload.Loading

/-! # Fields that stand inline
The fields of an op may stand in its definition itself, next to the sections for its bindings, parameters and tags.
Every entry outside of those sections becomes a field, in document order and with its value, with one exception: the
keys that are not fields are the same for ops of a sequence, which name themselves, and for ops of a mapping, which
are named by their key. So an entry for a name is no field of any op.

* `Node.outside`, `Node.AreFields`: the entries outside of some keys, and the fields that they are.
* `inline_fields_kept`: these are the fields of the op. -/

namespace OpCycle

/-- The `entries` that stand under none of `keys`. -/
def Node.outside (keys : List Text) (entries : List (Node × Node)) : List (Node × Node) :=
  entries.filter fun entry => entry.1.scalar?.all fun text => !keys.contains text

/-- The `fields` are the `entries` in order, each under the text of its key and with its value. -/
def Node.AreFields (entries : List (Node × Node)) (fields : List (Text × Value)) : Prop :=
  List.Forall₂ (fun entry field => entry.1.scalar? = some field.1 ∧ entry.2.toValue = .ok field.2) entries fields

namespace Node

variable {entries : List (Node × Node)} {fields : List (Text × Value)}

/-- Nothing stands under a key exactly when no entry has it:
`(Node.mapping entries).under? key = none ↔ ∀ entry ∈ entries, entry.1.scalar? ≠ some key`. -/
theorem under?_eq_none_iff {key : Text} :
    (Node.mapping entries).under? key = none ↔ ∀ entry ∈ entries, entry.1.scalar? ≠ some key := by
  rw [under?, Option.map_eq_none_iff, List.find?_eq_none]
  simp only [decide_eq_true_eq, ne_eq]

/-- A key under which nothing stands keeps no entry out:
`outside (keys.filter (· ≠ key)) entries = outside keys entries`. -/
theorem outside_filter_ne {key : Text} (absent : (Node.mapping entries).under? key = none) (keys : List Text) :
    outside (keys.filter (· ≠ key)) entries = outside keys entries := by
  refine List.filter_congr fun entry mem => ?_
  have other := under?_eq_none_iff.1 absent entry mem
  cases held : entry.1.scalar? with
  | none => rfl
  | some text =>
    have ne : text ≠ key := fun same => other (held.trans (congrArg some same))
    simp [ne]

/-- Entries determine their fields: `fields = others`. -/
theorem AreFields.unique {others : List (Text × Value)} (are : AreFields entries fields)
    (alsoAre : AreFields entries others) : fields = others := by
  induction are generalizing others with
  | nil =>
    cases alsoAre
    rfl
  | @cons entry field _ _ head _ ih =>
    obtain _ | ⟨other, tail⟩ := alsoAre
    rw [ih tail]
    congr 1
    exact Prod.ext (Option.some_inj.1 (head.1.symm.trans other.1)) (Except.ok.inj (head.2.symm.trans other.2))

/-- Fields have the keys of their entries:
`(fields.map Prod.fst).map some = entries.map fun entry => entry.1.scalar?`. -/
theorem AreFields.keys (are : AreFields entries fields) :
    (fields.map Prod.fst).map some = entries.map fun entry => entry.1.scalar? := by
  induction are with
  | nil => rfl
  | cons head _ ih => rw [List.map_cons, List.map_cons, List.map_cons, ih, head.1]

/-- Entries with different keys give fields with different keys, whatever keys are kept out:
`(fields.map Prod.fst).Nodup`. -/
theorem AreFields.nodup {keys : List Text} (are : AreFields (outside keys entries) fields)
    (distinct : (entries.map fun entry => entry.1.scalar?).Nodup) : (fields.map Prod.fst).Nodup := by
  refine List.Nodup.of_map some ?_
  rw [are.keys]
  exact distinct.sublist (List.filter_sublist.map _)

end Node

namespace Workload

open Node (outside AreFields)

variable {bindings : Bindings} {params : OrderedMap Value} {entries : List (Node × Node)}

/-- Reading inline fields reads every entry outside of the reserved keys:
`AreFields (outside reservedKeys entries) fields`. -/
theorem areFields_of_readInlineFields {fields : List (Text × Value)} (read : readInlineFields entries = .ok fields) :
    AreFields (outside reservedKeys entries) fields := by
  -- On the entries, as `outside` filters them: a reserved one adds no field.
  induction entries generalizing fields with
  | nil =>
    cases read
    exact .nil
  | cons entry rest ih =>
    obtain ⟨key, n⟩ := entry
    obtain ⟨text, keyRead, read⟩ := Outcome.bind_eq_ok.1 read
    have held := Node.scalar_eq_ok.1 keyRead
    split at read
    · next reserved =>
      have skipped : outside reservedKeys ((key, n) :: rest) = outside reservedKeys rest := by
        refine List.filter_cons_of_neg ?_
        simpa [held] using reserved
      rw [skipped]
      exact ih read
    · next free =>
      obtain ⟨v, value, read⟩ := Outcome.bind_eq_ok.1 read
      obtain ⟨others, tail, read⟩ := Outcome.bind_eq_ok.1 read
      cases read
      have kept : outside reservedKeys ((key, n) :: rest) = (key, n) :: outside reservedKeys rest := by
        refine List.filter_cons_of_pos ?_
        simpa [held] using free
      rw [kept]
      exact .cons ⟨held, value⟩ (ih tail)

/-- The body of an op without a key for it is what stands outside of the reserved keys, and there is none where
nothing does: `∃ fields, AreFields (outside reservedKeys entries) fields ∧ op.fields = if fields = [] then none else
some (.ofList fields)`. -/
theorem fields_of_inline {name : Text} {op : Op} (read : readOp bindings params name (.mapping entries) = .ok op)
    (inline : (Node.mapping entries).under? "op" = none) :
    ∃ fields, AreFields (outside reservedKeys entries) fields ∧
      op.fields = if fields = [] then none else some (.ofList fields) := by
  obtain ⟨own, body, -, bodyRead, rfl⟩ := readOp_mapping_eq_ok read
  rw [readBody, Node.entry_of_isMapping rfl, inline, Outcome.ok_bind] at bodyRead
  obtain ⟨fields, fieldsRead, bodyRead⟩ := Outcome.bind_eq_ok.1 bodyRead
  refine ⟨fields, areFields_of_readInlineFields fieldsRead, ?_⟩
  rw [← Except.ok.inj bodyRead]
  simp only [List.isEmpty_iff]

/-- **Inline fields are kept.** In a workload that loads, an op of a mapping whose definition is a mapping without the
key `op` has exactly the entries `outside` of `name`, `bindings`, `params` and `tags` as its fields, as `AreFields`
says in document order and with their values, and it has no body exactly when none is left. Without an entry `name`
nothing but the three sections is left out. -/
theorem inline_fields_kept {root : Node} {w : Workload} (loaded : ofNode root = .ok w)
    {opEntries : List (Node × Node)} (ops : root.under? "ops" = some (.mapping opEntries)) {i : Nat} {key : Node}
    (stands : opEntries[i]? = some (key, .mapping entries))
    (inline : (Node.mapping entries).under? "op" = none) :
    ∃ op fields, w.ops[i]? = some op ∧ key.scalar? = some op.name ∧
      AreFields (outside ["name", "bindings", "params", "tags"] entries) fields ∧
      op.fields = (if fields = [] then none else some (.ofList fields)) ∧
      ((entries.map fun entry => entry.1.scalar?).Nodup → OrderedMap.ofList fields = ⟨fields⟩) ∧
      ((Node.mapping entries).under? "name" = none →
        AreFields (outside ["bindings", "params", "tags"] entries) fields) := by
  obtain ⟨mapping, -, held, entry, read, -⟩ := parts_of_ofNode loaded
  rw [Node.entry_of_isMapping mapping, ops] at entry
  cases entry
  -- There is an op at the position, since there is one for each definition.
  have within : i < w.ops.length := by
    rw [length_of_readOps read, definitionsIn, List.length_map]
    exact (List.getElem?_eq_some_iff.1 stands).1
  have found : w.ops[i]? = some w.ops[i] := List.getElem?_eq_getElem within
  obtain ⟨definition, named, made⟩ := named_of_readOps read found
  rw [namedDefinitionsIn, List.getElem?_map, stands] at named
  obtain ⟨keyRead, rfl⟩ := Prod.mk.inj (Option.some_inj.1 named)
  obtain ⟨fields, are, body⟩ := fields_of_inline made inline
  rw [← Node.outside_filter_ne inline] at are
  refine ⟨w.ops[i], fields, found, Node.scalar_eq_ok.1 keyRead, are, body, ?_, fun unnamed => ?_⟩
  · exact fun distinct => OrderedMap.ofList_of_nodup (are.nodup distinct)
  · rw [← Node.outside_filter_ne unnamed] at are
    exact are

/-- A document with an op under `key`, the definition of which has these `entries`. -/
def inlineRoot (key : Text) (entries : List (Node × Node)) : Node :=
  .mapping [(.plain "ops", .mapping [(.plain key, .mapping entries)])]

/-- Two fields with a section for tags between them. -/
def scanEntries : List (Node × Node) :=
  [(.plain "stmt", .quoted "select"),
    (.plain "tags", .mapping [(.plain "phase", .plain "main")]),
    (.plain "fetch_size", .plain "100")]

/-- The fields around a section keep their order. -/
theorem inline_fields_kept_sample :
    ∃ w op, ofNode (inlineRoot "scan" scanEntries) = .ok w ∧ w.ops[0]? = some op ∧ op.name = ("scan" : Text) ∧
      op.fields = some ⟨[("stmt", .text "select"), ("fetch_size", .int 100)]⟩ := by
  obtain ⟨w, loaded⟩ : ∃ w, ofNode (inlineRoot "scan" scanEntries) = .ok w := ⟨_, rfl⟩
  obtain ⟨op, fields, found, named, are, body, -, -⟩ := inline_fields_kept loaded rfl (i := 0) rfl rfl
  obtain rfl : fields = ([("stmt", .text "select"), ("fetch_size", .int 100)] : List (Text × Value)) :=
    are.unique (.cons ⟨rfl, rfl⟩ (.cons ⟨rfl, rfl⟩ .nil))
  exact ⟨w, op, loaded, found, (Option.some_inj.1 named).symm, body⟩

/-- A field `name` behind a statement. -/
def namedEntries : List (Node × Node) := [(.plain "stmt", .plain "s"), (.plain "name", .plain "n")]

/-- An op that is named by its key loses its field `name`, although the field is outside of the three sections. -/
theorem inline_name_dropped :
    ∃ w op, ofNode (inlineRoot "o" namedEntries) = .ok w ∧ w.ops[0]? = some op ∧ op.name = ("o" : Text) ∧
      op.fields = some ⟨[("stmt", .text "s")]⟩ ∧
      ¬ ∃ fields, AreFields (outside ["bindings", "params", "tags"] namedEntries) fields ∧
        op.fields = if fields = [] then none else some (.ofList fields) := by
  refine ⟨_, _, rfl, rfl, rfl, rfl, ?_⟩
  rintro ⟨fields, are, body⟩
  obtain rfl : fields = ([("stmt", .text "s"), ("name", .text "n")] : List (Text × Value)) :=
    are.unique (.cons ⟨rfl, rfl⟩ (.cons ⟨rfl, rfl⟩ .nil))
  cases body

end Workload

end OpCycle
