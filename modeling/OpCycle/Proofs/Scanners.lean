import OpCycle.Proofs.Spec.Cursor
import OpCycle.Proofs.Template.Cursor

/-! # Scanners stay within their texts
The scanners of specifications and of templates, run in place, give what parsing and classifying give, and do so
without a look outside of the text. This is said of every text, whatever bytes it has and wherever it breaks off.

* `scanners_stay_within`: the statement for both scanners, from `Proofs/Spec/Cursor` and `Proofs/Template/Cursor`. -/

namespace OpCycle.Cursor

open Spec.InPlace (specification call argument)
open Template.InPlace (template mark)

/-- **No scanner leaves its text.** `Spec.InPlace.specification` ends as `Spec.parse` does, and a fault is where the
scanner stands then; all accesses stay within the text, the scanner never goes back, and from wherever it scans a
`call` or an `argument`, it is beyond that place when it is done. `Template.InPlace.template` ends as
`Template.classify` does; all accesses stay within the text, each `mark` takes at least one byte of it, and a fault is
at `{{`. -/
theorem scanners_stay_within (spec raw : Text) (bindings : Bindings) :
    ((specification spec 0).ending = .ofExcept ((Spec.parse spec).mapError Spec.ParseError.fault) ∧
      (specification spec 0).StaysWithin spec 0 ∧
      (∀ e, Spec.parse spec = .error e → (specification spec 0).place = e.offset) ∧
      (∀ p ≤ spec.length, ∀ c, (call spec p).ending = .done c → p < (call spec p).place) ∧
      ∀ p ≤ spec.length, ∀ v, (argument spec p).ending = .done v → p < (argument spec p).place) ∧
    (template bindings raw).ending =
        .ofExcept ((Template.classify raw bindings).mapError TemplateError.fault) ∧
      (template bindings raw).StaysWithin raw 0 ∧
      (∀ i < raw.length, ∀ m, (mark raw i).ending = .done m →
        i < (mark raw i).place ∧ (mark raw i).place ≤ raw.length) ∧
      ∀ e, Template.classify raw bindings = .error e →
        (template bindings raw).place = e.position ∧
          [Byte.openBrace, Byte.openBrace] <+: raw.drop e.position := by
  have specified := Spec.InPlace.specification_ends spec
  obtain ⟨ending, trail, faults⟩ := Template.InPlace.template_ends raw bindings
  refine ⟨⟨specified.1, Run.staysWithin specified.2.1, specified.2.2, ?_, ?_⟩,
    ending, Run.staysWithin trail, ?_, faults⟩
  · exact fun p inside c done => Spec.InPlace.call_lt_place inside done
  · exact fun p inside v done => Spec.InPlace.argument_lt_place inside done
  · exact fun i inside m done => Template.InPlace.mark_lt_place inside done

/-- A call with an argument, and something else than `;` behind it. -/
def strayText : Text := "Mod(10L) x"

/-- A mark in front of `{{`, which nothing closes. -/
def openText : Text := "\x7bn\x7d\x7b\x7b"

/-- In `Mod(10L) x` a call and its argument take something from the text, and the stray letter is reported where the
scanner stands; in `{n}{{` so does the mark, and so are the two braces that nothing closes. -/
theorem scanners_stay_within_sample :
    ((call strayText 0).ending = .done ⟨"Mod", [.int 10]⟩ ∧ 0 < (call strayText 0).place) ∧
      ((argument strayText 4).ending = .done (.int 10) ∧ 4 < (argument strayText 4).place) ∧
      (Spec.parse strayText = .error ⟨.noSemicolon 0x78, 9⟩ ∧ (specification strayText 0).place = 9) ∧
      ((mark openText 0).ending = .done (.named "n") ∧ 0 < (mark openText 0).place) ∧
      Template.classify openText ∅ = .error ⟨openText, 3, .unterminated⟩ ∧ (template ∅ openText).place = 3 := by
  obtain ⟨⟨-, -, misplaced, calls, arguments⟩, -, -, marks, faults⟩ := scanners_stay_within strayText openText ∅
  have called : (call strayText 0).ending = .done ⟨"Mod", [.int 10]⟩ := by with_unfolding_all rfl
  have argued : (argument strayText 4).ending = .done (.int 10) := by with_unfolding_all rfl
  have refused : Spec.parse strayText = .error ⟨.noSemicolon 0x78, 9⟩ := by with_unfolding_all rfl
  have marked : (mark openText 0).ending = .done (.named "n") := by decide +kernel
  have failed : Template.classify openText ∅ = .error ⟨openText, 3, .unterminated⟩ := by with_unfolding_all rfl
  exact ⟨⟨called, calls 0 (by decide) _ called⟩, ⟨argued, arguments 4 (by decide) _ argued⟩,
    ⟨refused, misplaced _ refused⟩, ⟨marked, (marks 0 (by decide) _ marked).1⟩, failed, (faults _ failed).1⟩

end OpCycle.Cursor
