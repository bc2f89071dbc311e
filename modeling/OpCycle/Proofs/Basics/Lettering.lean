import OpCycle.Basics.Library
import OpCycle.Proofs.Catalog.Composition
import OpCycle.Proofs.Value.IntegerTexts

/-! # Letters and digits
Letters and digits are drawn one by one, each after a step of the sequence of words that the mixed bits of the
integer start. The sequence does not depend on how many are drawn, so a shorter draw is the start of a longer one.

* `take_draw`: a draw starts with every shorter one.
* `LettersAt`: what the function gives at an integer.
* `lettering_extends`: a shorter draw is the start of a longer one. -/

namespace OpCycle.Basics

/-! ## Drawing -/

/-- As many letters and digits are drawn as are asked for: `(draw count state).length = count`. -/
@[simp] theorem length_draw (count : Nat) (state : UInt64) : (draw count state).length = count := by
  induction count generalizing state with
  | zero => rfl
  | succ count ih => rw [draw, List.length_cons, ih]

/-- Drawing fewer letters and digits gives the first of those that drawing more gives:
`(draw more state).take fewer = draw fewer state`. -/
theorem take_draw {fewer more : Nat} (le : fewer ≤ more) (state : UInt64) :
    (draw more state).take fewer = draw fewer state := by
  -- Both draws go on from the same next state, which is why it is generalized.
  induction fewer generalizing more state with
  | zero => rfl
  | succ fewer ih =>
    obtain ⟨more, rfl⟩ := Nat.exists_eq_add_one_of_ne_zero (Nat.ne_zero_of_lt le)
    rw [draw, draw, List.take_succ_cons, ih (Nat.le_of_succ_le_succ le)]

/-- The alphabet holds letters and digits only: `∀ b ∈ alphabet, Byte.isLetter b ∨ Byte.isDigit b`. -/
theorem isLetter_or_isDigit_of_mem_alphabet : ∀ b ∈ alphabet, Byte.isLetter b = true ∨ Byte.isDigit b = true := by
  have all : (alphabet.all fun b => Byte.isLetter b || Byte.isDigit b) = true := by decide +kernel
  intro b mem
  exact Bool.or_eq_true_iff.1 (List.all_eq_true.1 all b mem)

/-- Every word picks a letter or digit: its remainder is a place of the alphabet (`letterOf state ∈ alphabet`). -/
theorem letterOf_mem_alphabet (state : UInt64) : letterOf state ∈ alphabet := by
  have size : alphabet.length = 62 := by decide +kernel
  have place : (state % 62).toNat < alphabet.length := by
    rw [size, UInt64.toNat_mod]
    exact Nat.mod_lt _ (by decide)
  rw [letterOf, List.getElem?_eq_getElem place]
  exact List.getElem_mem place

/-- Only letters and digits are drawn: `Byte.isLetter b ∨ Byte.isDigit b`. -/
theorem isLetter_or_isDigit_of_mem_draw {count : Nat} {state : UInt64} {b : UInt8} (mem : b ∈ draw count state) :
    Byte.isLetter b = true ∨ Byte.isDigit b = true := by
  induction count generalizing state with
  | zero => cases mem
  | succ count ih =>
    rw [draw] at mem
    rcases List.mem_cons.1 mem with rfl | mem
    · exact isLetter_or_isDigit_of_mem_alphabet _ (letterOf_mem_alphabet _)
    · exact ih mem

/-! ## The function of the library -/

/-- The specification `AlphaNumeric(length)`. -/
def letteringSpec (length : Int64) : Text :=
  Text.ofString "AlphaNumeric(" ++ (Decimal.ofInt64 length ++ [Byte.closeParen])

/-- At an integer `AlphaNumeric` with this length gives the text: its step does, and its specification at the
cycle. -/
structure LettersAt (length n : Int64) (text : Text) : Prop where
  /-- The function makes a step of the length, and the step makes the text of the integer. -/
  step : ∃ step, builtIn "AlphaNumeric" [.int length] = .ok step ∧ step (.int n) = .ok (.text text)
  /-- The specification resolves, whether or not unsafe functions are allowed, and gives the text at the cycle. -/
  chain : ∀ allowUnsafe, ∃ chain, catalog.resolve (letteringSpec length) allowUnsafe = .ok chain ∧
    chain.apply n = .ok (.text text)

/-- A specification that draws letters and digits is one call:
`Spec.parse (letteringSpec length) = .ok [⟨"AlphaNumeric", [.int length]⟩]`. -/
theorem parse_letteringSpec (length : Int64) :
    Spec.parse (letteringSpec length) = .ok [⟨Text.ofString "AlphaNumeric", [.int length]⟩] := by
  have letters : ∀ b ∈ Text.ofString "lphaNumeric", Byte.isLetter b = true := List.all_eq_true.1 rfl
  have name : Spec.Name "AlphaNumeric" := .mk (.inl rfl) fun b mem => .inl (letters b mem)
  have place := Spec.Place.last Text.isBlank_nil
    (.mk name Text.isBlank_nil (.last Text.isBlank_nil Text.isBlank_nil)) Text.isBlank_nil
  exact Spec.parse_eq_ok_iff.2 (place.specification (Value.argument_ofInt64 length))

/-- The step that draws so many letters and digits as `length` says, and sets aside as many bytes. -/
def letteringStep (length : Int64) : Step :=
  { onInt fun n => .text (alphaNumeric length n) with room := length.toInt.toNat }

/-- A positive length is accepted: `builtIn "AlphaNumeric" [.int length] = .ok (letteringStep length)`. -/
theorem builtIn_lettering {length : Int64} (positive : 1 ≤ length) :
    builtIn "AlphaNumeric" [.int length] = .ok (letteringStep length) := by
  have above : ¬ length ≤ 0 := by
    rw [Int64.le_iff_toInt_le] at positive ⊢
    exact Int.not_le.2 positive
  have accepted : positiveArgument "length" (.int length) = .ok length := if_neg above
  exact Outcome.bind_eq_ok.2 ⟨length, accepted, rfl⟩

/-- A positive length gives the letters and digits of this length:
`LettersAt length n (draw length.toInt.toNat (mix n.toUInt64))`. -/
theorem lettersAt {length : Int64} (positive : 1 ≤ length) (n : Int64) :
    LettersAt length n (draw length.toInt.toNat (mix n.toUInt64)) := by
  have made := builtIn_lettering positive
  rw [← alphaNumeric_eq_draw]
  refine ⟨⟨letteringStep length, made, rfl⟩, fun allowUnsafe => ?_⟩
  have call : catalog.resolveCall allowUnsafe Flow.start ⟨Text.ofString "AlphaNumeric", [.int length]⟩ =
      .ok (letteringStep length, ⟨.text, Text.ofString "AlphaNumeric"⟩) :=
    Catalog.resolveCall_eq_ok_iff.2
      ⟨lettering, rfl, ⟨.inl rfl, Nat.le_refl 1, Nat.le_refl 1, _, rfl, made⟩, fun text => (by cases text.2), rfl⟩
  have calls : catalog.resolveCalls allowUnsafe Flow.start [⟨Text.ofString "AlphaNumeric", [.int length]⟩] =
      .ok ([letteringStep length], ⟨.text, Text.ofString "AlphaNumeric"⟩) := by
    rw [Catalog.resolveCalls, call]
    rfl
  exact ⟨⟨letteringSpec length, [letteringStep length]⟩,
    (Catalog.resolve_eq_ok_iff (parse_letteringSpec length)).2 ⟨rfl, _, calls⟩, rfl⟩

/-- **Longer texts extend shorter ones.** At every integer `AlphaNumeric` with a positive length gives a text of
exactly this length of letters and digits, and with a length that is no shorter it gives a text that starts with
it. -/
theorem lettering_extends {m n : Int64} (positive : 1 ≤ m) (longer : m ≤ n) (x : Int64) :
    ∃ short long, LettersAt m x short ∧ LettersAt n x long ∧
      (short.length : Int) = m.toInt ∧ (long.length : Int) = n.toInt ∧
      (∀ b ∈ long, Byte.isLetter b = true ∨ Byte.isDigit b = true) ∧ short = long.take short.length := by
  have ordered := Int64.le_iff_toInt_le.1 longer
  have least : 1 ≤ m.toInt := Int64.le_iff_toInt_le.1 positive
  refine ⟨_, _, lettersAt positive x, lettersAt (Int64.le_trans positive longer) x, ?_, ?_,
    fun b mem => isLetter_or_isDigit_of_mem_draw mem, ?_⟩
  · rw [length_draw]
    omega
  · rw [length_draw]
    omega
  · rw [length_draw, take_draw (by omega)]

/-- Twelve letters and digits extend eight. -/
theorem lettering_extends_sample :
    ((1 : Int64) ≤ 8 ∧ (8 : Int64) ≤ 12) ∧ ∃ short long, LettersAt 8 42 short ∧ LettersAt 12 42 long ∧
      (short.length : Int) = 8 ∧ short = long.take short.length := by
  obtain ⟨short, long, isShort, isLong, length, -, -, starts⟩ :=
    lettering_extends (m := 8) (n := 12) (by decide) (by decide) 42
  exact ⟨⟨by decide, by decide⟩, short, long, isShort, isLong, length, starts⟩

end OpCycle.Basics
