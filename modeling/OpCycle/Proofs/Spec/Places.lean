import OpCycle.Proofs.Spec.Recognition

/-! # Places of arguments
An argument stands somewhere in a specification: there is a text in front of it and a text behind it. The calls
that the specification denotes depend on the argument at this one place only, and in the same way for every
argument that is put there.

* `ArgumentsPlace`, `CallPlace`, `Place`: the text in front of an argument and the one behind it.
* `Place.specification`: what is put at a place is the argument there. -/

namespace OpCycle.Spec

open Text (IsBlank)

/-- A place in a list of arguments, with the text in front of it and the one behind it: the values of the list
are a function of the value at the place. -/
inductive ArgumentsPlace : Text → Text → (Value → List Value) → Prop
  /-- The only or last argument. -/
  | last {left right} : IsBlank left → IsBlank right → ArgumentsPlace left right fun v => [v]
  /-- An argument before others. -/
  | before {left right rest vs} : IsBlank left → IsBlank right → Arguments rest vs →
      ArgumentsPlace left (right ++ Byte.comma :: rest) fun v => v :: vs
  /-- A place behind an argument. -/
  | behind {left argument right w front back values} : IsBlank left → Argument argument w → IsBlank right →
      ArgumentsPlace front back values →
      ArgumentsPlace (left ++ (argument ++ (right ++ Byte.comma :: front))) back fun v => w :: values v

/-- A place among the arguments of a call. -/
inductive CallPlace : Text → Text → (Value → Call) → Prop
  /-- A place between the parentheses behind a name. -/
  | mk {name gap front back values} : Name name → IsBlank gap → ArgumentsPlace front back values →
      CallPlace (name ++ (gap ++ Byte.openParen :: front)) (back ++ [Byte.closeParen])
        fun v => ⟨name, values v⟩

/-- A place in a specification: the calls are a function of the value at the place. -/
inductive Place : Text → Text → (Value → List Call) → Prop
  /-- A place in the last call. -/
  | last {left front back right call} : IsBlank left → CallPlace front back call → IsBlank right →
      Place (left ++ front) (back ++ right) fun v => [call v]
  /-- A place in the last call, which has a semicolon. -/
  | closed {left front back right after call} : IsBlank left → CallPlace front back call → IsBlank right →
      IsBlank after → Place (left ++ front) (back ++ (right ++ Byte.semicolon :: after)) fun v => [call v]
  /-- A place in a call before others. -/
  | before {left front back right rest call calls} : IsBlank left → CallPlace front back call →
      IsBlank right → Specification rest calls →
      Place (left ++ front) (back ++ (right ++ Byte.semicolon :: rest)) fun v => call v :: calls
  /-- A place behind a call. -/
  | behind {left text right call front back calls} : IsBlank left → CallText text call → IsBlank right →
      Place front back calls →
      Place (left ++ (text ++ (right ++ Byte.semicolon :: front))) back fun v => call :: calls v

variable {front back argument : Text} {v : Value}

/-- With an argument at the place there is a list of arguments:
`Arguments (front ++ (argument ++ back)) (values v)`. -/
theorem ArgumentsPlace.arguments {values : Value → List Value} (place : ArgumentsPlace front back values)
    (h : Argument argument v) : Arguments (front ++ (argument ++ back)) (values v) := by
  induction place with
  | last isLeft isRight => exact .last isLeft h isRight
  | before isLeft isRight isRest => exact .more isLeft h isRight isRest
  | behind isLeft isArgument isRight _ ih =>
    rw [List.append_assoc, List.append_assoc, List.append_assoc, List.cons_append]
    exact .more isLeft isArgument isRight ih

/-- With an argument at the place there is a call: `CallText (front ++ (argument ++ back)) (call v)`. -/
theorem CallPlace.callText {call : Value → Call} (place : CallPlace front back call)
    (h : Argument argument v) : CallText (front ++ (argument ++ back)) (call v) := by
  cases place with
  | mk isName isGap inner =>
    have derived := CallText.arguments isName isGap (inner.arguments h)
    simp only [List.append_assoc, List.cons_append] at derived ⊢
    exact derived

/-- With an argument at the place there is a specification:
`Specification (front ++ (argument ++ back)) (calls v)`. -/
theorem Place.specification {calls : Value → List Call} (place : Place front back calls)
    (h : Argument argument v) : Specification (front ++ (argument ++ back)) (calls v) := by
  induction place with
  | last isLeft inner isRight =>
    have derived := Specification.last isLeft (inner.callText h) isRight
    simp only [List.append_assoc] at derived ⊢
    exact derived
  | closed isLeft inner isRight isAfter =>
    have derived := Specification.closed isLeft (inner.callText h) isRight isAfter
    simp only [List.append_assoc] at derived ⊢
    exact derived
  | before isLeft inner isRight isRest =>
    have derived := Specification.more isLeft (inner.callText h) isRight isRest
    simp only [List.append_assoc] at derived ⊢
    exact derived
  | behind isLeft isCall isRight _ ih =>
    rw [List.append_assoc, List.append_assoc, List.append_assoc, List.cons_append]
    exact .more isLeft isCall isRight ih

end OpCycle.Spec
