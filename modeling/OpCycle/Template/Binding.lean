import OpCycle.Catalog.Resolve
import OpCycle.Template.Scanner

/-! # Binding templates
Turning the bind points of a template into chains. A bind point is bound when it stands for a
specification and that specification resolves. -/

namespace OpCycle

/-- A bind point that could not be bound. -/
structure Unbound where
  /-- The field whose template has the bind point. -/
  field : Text
  /-- The specification that does not resolve; empty when the anchor stands for none. -/
  spec : Text
  /-- What is written in the template. -/
  anchor : Text
  deriving DecidableEq, Repr

/-- The wording of an `Unbound`. -/
def Unbound.message (e : Unbound) : Text :=
  if e.spec.isEmpty then
    "field '" ++ e.field ++ "' references binding '" ++ e.anchor ++ "' which is not defined"
  else
    "field '" ++ e.field ++ "' uses binding spec '" ++ e.spec ++
      "' which does not resolve to a registered function"

/-- The chain of `p` in the field `field`, if `catalog` resolves its specification. -/
def BindPoint.chain (catalog : Catalog) (allowUnsafe : Bool) (field : Text) (p : BindPoint) :
    Except Unbound Chain :=
  if p.isResolved then
    match catalog.lookup p.spec allowUnsafe with
    | some chain => .ok chain
    | none => .error ⟨field, p.spec, p.anchor⟩
  else .error ⟨field, [], p.anchor⟩

/-- The part of a joined text that a segment makes in the field `field`. -/
def Segment.part (catalog : Catalog) (allowUnsafe : Bool) (field : Text) :
    Segment → Except Unbound Part
  | .literal text => .ok (.literal text)
  | .bind point _ => (point.chain catalog allowUnsafe field).map .bound

/-- The function that joins the segments of `t` at each cycle. -/
def Template.joined (catalog : Catalog) (allowUnsafe : Bool) (field : Text) (t : Template) :
    Except Unbound CycleFunction := do
  let parts ← t.segments.mapM (Segment.part catalog allowUnsafe field)
  pure (.joined t.raw parts)

end OpCycle
