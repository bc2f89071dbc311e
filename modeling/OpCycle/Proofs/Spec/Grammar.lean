import OpCycle.Spec.Parser
import OpCycle.Proofs.Text.Numeral

/-! # The grammar of binding specifications
The texts of names, arguments, calls and specifications as relations to what they denote, written without
the scanners. White space is part of the relations, so each of them is about a whole text.

* `Name`, `Argument`, `Arguments`, `CallText`, `Specification`: one relation for each kind of text.
* `Written`: the values that arguments denote. -/

namespace OpCycle.Spec

open Text (IsBlank)
open Decimal (Sign Digits)
open Binary64.Numeral (Mantissa Exponent)

/-! ## Tokens -/

/-- The names of functions: a letter or underscore, then letters, digits and underscores. -/
inductive Name : Text → Prop
  /-- The first byte and the others. -/
  | mk {b rest} : Byte.isLetter b = true ∨ b = Byte.underscore →
      (∀ c ∈ rest, Byte.isLetter c = true ∨ Byte.isDigit c = true ∨ c = Byte.underscore) →
      Name (b :: rest)

/-- What can stand between two bytes `quote`, and the text that it denotes. -/
inductive QuotedBody (quote : UInt8) : Text → Text → Prop
  /-- Nothing. -/
  | nil : QuotedBody quote [] []
  /-- A byte that stands for itself. -/
  | plain {b body s} : b ≠ quote → b ≠ Byte.backslash → QuotedBody quote body s →
      QuotedBody quote (b :: body) (b :: s)
  /-- A backslash, which makes the next byte literal. -/
  | escaped {b body s} : QuotedBody quote body s → QuotedBody quote (Byte.backslash :: b :: body) (b :: s)

/-- The numbers and their values. -/
inductive Number : Text → Value → Prop
  /-- An integer that is in range. -/
  | int {sign digits negative} {n : Int64} : Sign sign negative → Digits digits →
      n.toInt = Decimal.signed negative (Decimal.natOfDigits digits) → Number (sign ++ digits) (.int n)
  /-- A numeral with a point or an exponent that has a float. -/
  | float {sign mantissa exponent negative} {x : Float} : Sign sign negative → Mantissa mantissa →
      Exponent exponent → Byte.dot ∈ mantissa ∨ exponent ≠ [] →
      Binary64.read? (sign ++ (mantissa ++ exponent)) = some x →
      Number (sign ++ (mantissa ++ exponent)) (.float x)

/-- The suffix `L` or `l` that marks a long integer, or none. -/
inductive LongSuffix : Text → Prop
  /-- No suffix. -/
  | none : LongSuffix []
  /-- The letter in upper case. -/
  | upper : LongSuffix [0x4c]
  /-- The letter in lower case. -/
  | lower : LongSuffix [0x6c]

/-! ## Calls -/

/-- The arguments and their values. -/
inductive Argument : Text → Value → Prop
  /-- A quoted text. -/
  | quoted {quote body s} : quote = Byte.singleQuote ∨ quote = Byte.doubleQuote →
      QuotedBody quote body s → Argument (quote :: (body ++ [quote])) (.text s)
  /-- The word for truth in letters of either case. -/
  | yes {word} : Text.lower word = "true" → Argument word (.bool true)
  /-- The word for falsehood in letters of either case. -/
  | no {word} : Text.lower word = "false" → Argument word (.bool false)
  /-- A number with an optional suffix. -/
  | number {lexeme suffix v} : Number lexeme v → LongSuffix suffix → Argument (lexeme ++ suffix) v

/-- Arguments with commas between them, and with white space around each. -/
inductive Arguments : Text → List Value → Prop
  /-- The last argument. -/
  | last {left argument right v} : IsBlank left → Argument argument v → IsBlank right →
      Arguments (left ++ (argument ++ right)) [v]
  /-- An argument before others. -/
  | more {left argument right v rest vs} : IsBlank left → Argument argument v → IsBlank right →
      Arguments rest vs → Arguments (left ++ (argument ++ (right ++ Byte.comma :: rest))) (v :: vs)

/-- The calls. -/
inductive CallText : Text → Call → Prop
  /-- A bare name. -/
  | bare {name} : Name name → CallText name ⟨name, []⟩
  /-- A name and empty parentheses. -/
  | empty {name gap inner} : Name name → IsBlank gap → IsBlank inner →
      CallText (name ++ (gap ++ Byte.openParen :: (inner ++ [Byte.closeParen]))) ⟨name, []⟩
  /-- A name and arguments in parentheses. -/
  | arguments {name gap inner args} : Name name → IsBlank gap → Arguments inner args →
      CallText (name ++ (gap ++ Byte.openParen :: (inner ++ [Byte.closeParen]))) ⟨name, args⟩

/-- Calls with semicolons between them, and with white space around each; the last one may have a semicolon
of its own. -/
inductive Specification : Text → List Call → Prop
  /-- The last call. -/
  | last {left text right call} : IsBlank left → CallText text call → IsBlank right →
      Specification (left ++ (text ++ right)) [call]
  /-- The last call with a semicolon. -/
  | closed {left text right after call} : IsBlank left → CallText text call → IsBlank right →
      IsBlank after → Specification (left ++ (text ++ (right ++ Byte.semicolon :: after))) [call]
  /-- A call before others. -/
  | more {left text right call rest calls} : IsBlank left → CallText text call → IsBlank right →
      Specification rest calls →
      Specification (left ++ (text ++ (right ++ Byte.semicolon :: rest))) (call :: calls)

/-! ## Values of arguments -/

/-- The values that a specification can write: booleans, integers, floats and texts. -/
inductive Written : Value → Prop
  /-- A boolean. -/
  | bool (b : Bool) : Written (.bool b)
  /-- An integer. -/
  | int (n : Int64) : Written (.int n)
  /-- A float. -/
  | float (x : Float) : Written (.float x)
  /-- A text. -/
  | text (s : Text) : Written (.text s)

/-- The value of an argument is one that can be written: `Written v`. -/
theorem Argument.written {argument : Text} {v : Value} (h : Argument argument v) : Written v := by
  cases h with
  | quoted _ _ => exact .text _
  | yes _ => exact .bool true
  | no _ => exact .bool false
  | number number _ =>
    cases number with
    | int _ _ _ => exact .int _
    | float _ _ _ _ _ => exact .float _

/-- The values of arguments are ones that can be written: `∀ v ∈ args, Written v`. -/
theorem Arguments.written {inner : Text} {args : List Value} (h : Arguments inner args) :
    ∀ v ∈ args, Written v := by
  induction h with
  | last _ argument _ =>
    intro v mem
    rw [List.mem_singleton.1 mem]
    exact argument.written
  | more _ argument _ _ ih =>
    intro v mem
    rcases List.mem_cons.1 mem with rfl | mem
    · exact argument.written
    · exact ih v mem

/-- The arguments of a call are values that can be written: `∀ v ∈ call.args, Written v`. -/
theorem CallText.written {text : Text} {call : Call} (h : CallText text call) :
    ∀ v ∈ call.args, Written v := by
  cases h with
  | bare _ => exact fun v mem => absurd mem List.not_mem_nil
  | empty _ _ _ => exact fun v mem => absurd mem List.not_mem_nil
  | arguments _ _ arguments => exact arguments.written

/-- The arguments of the calls of a specification are booleans, integers, floats and texts:
`∀ call ∈ calls, ∀ v ∈ call.args, Written v`. -/
theorem Specification.written {text : Text} {calls : List Call} (h : Specification text calls) :
    ∀ call ∈ calls, ∀ v ∈ call.args, Written v := by
  induction h with
  | last _ isCall _ =>
    intro call mem
    rw [List.mem_singleton.1 mem]
    exact isCall.written
  | closed _ isCall _ _ =>
    intro call mem
    rw [List.mem_singleton.1 mem]
    exact isCall.written
  | more _ isCall _ _ ih =>
    intro call mem
    rcases List.mem_cons.1 mem with rfl | mem
    · exact isCall.written
    · exact ih call mem

end OpCycle.Spec
