import OpCycle.SortedMap
import OpCycle.Text.Decimal

/-! # Templates
A template is a text with marked places: bind points, which take a value at every cycle, and captures,
which name a value to keep from an operation's result. This module holds what a classified template is and
what can be read off it. -/

namespace OpCycle

/-- The specifications of named bindings. -/
abbrev Bindings : Type := SortedMap Text

/-- A place that takes a value at every cycle. -/
structure BindPoint where
  /-- What is written in the template: the name of a binding, or a specification itself. -/
  anchor : Text
  /-- The specification that the anchor stands for; empty when there is none. -/
  spec : Text
  deriving DecidableEq, Repr

/-- The `anchor` of `p` stands for a specification. -/
def BindPoint.isResolved (p : BindPoint) : Bool := !p.spec.isEmpty

/-- A value to keep from the result of an operation. -/
structure Capture where
  /-- The name of the value. -/
  name : Text
  /-- Another name to keep it under. -/
  storedAs : Option Text
  deriving DecidableEq, Repr

/-- The name under which the value is kept: `storedAs`, if there is one, else `name`. -/
def Capture.storedName (c : Capture) : Text := c.storedAs.getD c.name

/-- A stretch of a template. -/
inductive Segment
  /-- Text that stays. -/
  | literal (text : Text)
  /-- A bind point and its number among the bind points of the template. -/
  | bind (point : BindPoint) (index : Nat)
  deriving DecidableEq, Repr

/-- The kinds of templates. -/
inductive TemplateKind
  /-- No bind points. -/
  | literal
  /-- One bind point and nothing else. -/
  | bindref
  /-- Bind points next to text or to each other. -/
  | concat
  deriving DecidableEq, Repr

/-- The name of a kind of template. -/
def TemplateKind.label : TemplateKind → Text
  | .literal => "literal"
  | .bindref => "bindref"
  | .concat => "concat"

/-- A classified template. -/
structure Template where
  /-- The text it was classified from. -/
  raw : Text
  /-- The stretches in order. -/
  segments : List Segment
  /-- The bind points in order. -/
  bindPoints : List BindPoint
  /-- The captures in order. -/
  captures : List Capture
  deriving DecidableEq, Repr

namespace Template

/-- The kind of `t`: `literal` without bind points, `bindref` if a bind point is all there is, else `concat`. -/
def kind (t : Template) : TemplateKind :=
  if t.bindPoints.isEmpty then .literal
  else if t.segments.length = 1 then .bindref
  else .concat

/-- The bind point of `t`, if it is nothing else. -/
def asBinding (t : Template) : Option BindPoint :=
  if t.kind = .bindref then t.bindPoints.head? else none

/-- The text of a segment, a bind point showing its `anchor`. -/
def segmentText : Segment → Text
  | .literal text => text
  | .bind point _ => point.anchor

/-- The text of `t` if it has no bind points, the marks of captures removed. -/
def asLiteral (t : Template) : Option Text :=
  if t.kind = .literal then some (t.segments.flatMap segmentText) else none

/-- The anchors of the bind points of `t` that stand for no specification. -/
def missing (t : Template) : List Text :=
  (t.bindPoints.filter (!·.isResolved)).map BindPoint.anchor

/-- The text of `t` with `token` in place of each bind point. -/
def positional (token : Text) (t : Template) : Text :=
  t.segments.flatMap fun
    | .literal text => text
    | .bind _ _ => token

end Template

/-- What is wrong with a text that is no template. -/
inductive TemplateFault
  /-- An inline binding is not closed. -/
  | unterminated
  /-- An inline binding holds nothing but white space. -/
  | emptyInline
  deriving DecidableEq, Repr

/-- The wording of a `TemplateFault`. -/
def TemplateFault.message : TemplateFault → Text
  | .unterminated => "unterminated inline binding '\x7b\x7b'"
  | .emptyInline => "empty inline binding"

/-- A text that is no template. -/
structure TemplateError where
  /-- The text. -/
  template : Text
  /-- The number of bytes before the faulty mark. -/
  position : Nat
  /-- What is wrong with the mark. -/
  fault : TemplateFault
  deriving DecidableEq, Repr

/-- The wording of a `TemplateError`. -/
def TemplateError.message (e : TemplateError) : Text :=
  e.fault.message ++ " at position " ++ Decimal.ofNat e.position ++ " in template '" ++ e.template ++ "'"

end OpCycle
