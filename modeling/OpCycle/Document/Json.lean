import OpCycle.Document.Node
import OpCycle.Json.Printer
import OpCycle.Json.Reader

/-! # Documents written in JSON
A JSON text is a document as well: literals and numbers are plain scalars, strings are quoted ones, arrays
are sequences and objects are mappings. -/

namespace OpCycle

namespace Node

mutual

/-- The node of a JSON tree: strings are `quoted`, other leaves `plain`. -/
def ofJson : Json → Node
  | .null => .null
  | .string s => .quoted s
  | .array items => .sequence (ofJsonItems items)
  | .object ⟨members⟩ => .mapping (ofJsonMembers members)
  | leaf => .plain (Json.render .compact leaf)
termination_by structural j => j

/-- The nodes of the elements of an array, by `ofJson`. -/
def ofJsonItems : List Json → List Node
  | [] => []
  | j :: rest => ofJson j :: ofJsonItems rest
termination_by structural items => items

/-- The entries of the members of an object, by `ofJson`. -/
def ofJsonMembers : List (Text × Json) → List (Node × Node)
  | [] => []
  | (key, j) :: rest => (.quoted key, ofJson j) :: ofJsonMembers rest
termination_by structural members => members

end

end Node

/-- The document that `s` holds as JSON text. -/
def Document.ofText (s : Text) : Document :=
  match Json.read? s with
  | some j => .tree (Node.ofJson j)
  | none => .malformed

end OpCycle
