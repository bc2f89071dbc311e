import OpCycle.Proofs.Template.RoundTrip

/-! # What marks are written as
The marks of a text cover it: each was read from a stretch of the text that is a writing of the mark, and the
stretches make up the text.

* `Mark.Written`, `WrittenAs`: the writings of a mark, and of marks in a row.
* `scan_sound`: a scanned text is written as its marks. -/

namespace OpCycle.Template

/-! ## The writings of marks -/

/-- The text `s` consists of bytes that may stand between the words of a capture. -/
def IsGap (s : Text) : Prop := ∀ b ∈ s, isGap b = true

/-- What may stand behind the name in a capture, and the alias that it gives. -/
inductive AliasText : Text → Option Text → Prop
  /-- No alias. -/
  | none {gap} : IsGap gap → AliasText gap none
  /-- The word that introduces an alias, in letters of either case, between gaps. -/
  | some {before a s between after} (stored : Identifier) : IsGap before → before ≠ [] →
      Byte.lower a = 0x61 → Byte.lower s = 0x73 → IsGap between → between ≠ [] → IsGap after →
      AliasText (before ++ a :: s :: (between ++ (stored.text ++ after))) (some stored.text)

/-- The texts that a mark may be read from. -/
inductive Mark.Written : Mark → Text → Prop
  /-- A byte. -/
  | plain {b} : Written (.literal [b]) [b]
  /-- A byte behind a backslash. -/
  | escaped {b} : isEscapable b = true → Written (.literal [b]) [Byte.backslash, b]
  /-- A name in braces. -/
  | named (name : Identifier) :
      Written (.named name.text) (Byte.openBrace :: (name.text ++ [Byte.closeBrace]))
  /-- A specification in double braces, with white space around it; the first two closing braces close it. -/
  | inline {padded} : Text.trim padded ≠ [] → ¬ [Byte.closeBrace, Byte.closeBrace] <:+: padded →
      Written (.inline (Text.trim padded))
        (Byte.openBrace :: Byte.openBrace :: (padded ++ [Byte.closeBrace, Byte.closeBrace]))
  /-- A name in brackets, with or without an alias. -/
  | capture {gap behind storedAs} (name : Identifier) : IsGap gap → AliasText behind storedAs →
      Written (.capture ⟨name.text, storedAs⟩)
        (Byte.openBracket :: (gap ++ (name.text ++ (behind ++ [Byte.closeBracket]))))

/-- A text is written as these marks in a row. -/
inductive WrittenAs : List Mark → Text → Prop
  /-- No marks. -/
  | nil : WrittenAs [] []
  /-- A mark and others behind it. -/
  | cons {mark text marks rest} : mark.Written text → WrittenAs marks rest →
      WrittenAs (mark :: marks) (text ++ rest)

/-! ## Names and captures -/

/-- What is split off as a name is one: `∃ ident : Identifier, ident.text = name ∧ s = ident.text ++ rest`. -/
theorem splitName?_sound {s name rest : Text} (h : splitName? s = some (name, rest)) :
    ∃ ident : Identifier, ident.text = name ∧ s = ident.text ++ rest := by
  cases s with
  | nil => cases h
  | cons b after =>
    rw [splitName?] at h
    split at h
    · next starts =>
      cases h
      have first : Byte.isLetter b = true ∨ b = Byte.underscore := by
        rw [startsName, Bool.or_eq_true, beq_iff_eq] at starts
        exact starts
      have others : ∀ c ∈ after.takeWhile continuesName, Byte.isLetter c = true ∨ Byte.isDigit c = true ∨
          c = Byte.underscore ∨ c = Byte.dot ∨ c = Byte.minus := by
        intro c mem
        have continues := Text.of_mem_takeWhile mem
        simp only [continuesName, Byte.isWord, Bool.or_eq_true, beq_iff_eq] at continues
        rcases continues with (((h | h) | h) | h) | h <;> simp [h]
      refine ⟨⟨b, _, first, others⟩, rfl, ?_⟩
      show b :: after = b :: (after.takeWhile continuesName ++ after.dropWhile continuesName)
      rw [List.takeWhile_append_dropWhile]
    · cases h

/-- A text is the gap at its start and what skipping it leaves: `∃ gap, IsGap gap ∧ s = gap ++ skipGap s`. -/
theorem exists_gap_append (s : Text) : ∃ gap, IsGap gap ∧ s = gap ++ skipGap s :=
  ⟨s.takeWhile isGap, fun _ mem => Text.of_mem_takeWhile mem, List.takeWhile_append_dropWhile.symm⟩

/-- A capture is closed by a bracket: `d = c ∧ s = Byte.closeBracket :: rest`. -/
theorem closeCapture?_sound {c d : Capture} {s rest : Text} (h : closeCapture? c s = some (d, rest)) :
    d = c ∧ s = Byte.closeBracket :: rest := by
  unfold closeCapture? at h
  split at h
  · cases h
    exact ⟨rfl, rfl⟩
  · cases h

/-- An alias is introduced by its word and a byte of a gap:
`∃ a b gap, Byte.lower a = 0x61 ∧ Byte.lower b = 0x73 ∧ isGap gap ∧ s = a :: b :: gap :: rest`. -/
theorem afterAs?_sound {s rest : Text} (h : afterAs? s = some rest) :
    ∃ a b gap, Byte.lower a = 0x61 ∧ Byte.lower b = 0x73 ∧ isGap gap = true ∧ s = a :: b :: gap :: rest := by
  unfold afterAs? at h
  split at h
  · next a b gap after =>
    split at h
    · next word =>
      cases h
      rw [Bool.and_eq_true, Bool.and_eq_true, beq_iff_eq, beq_iff_eq] at word
      exact ⟨a, b, gap, word.1.1, word.1.2, word.2, rfl⟩
    · cases h
  · cases h

/-- What is read as a capture is the writing of one:
`∃ text, (Mark.capture c).Written (Byte.openBracket :: text) ∧ s = text ++ rest`. -/
theorem readCapture?_sound {s rest : Text} {c : Capture} (h : readCapture? s = some (c, rest)) :
    ∃ text, (Mark.capture c).Written (Byte.openBracket :: text) ∧ s = text ++ rest := by
  obtain ⟨gap, isGap, leading⟩ := exists_gap_append s
  rw [readCapture?] at h
  split at h
  · cases h
  next name after split =>
  obtain ⟨ident, rfl, named⟩ := splitName?_sound split
  obtain ⟨behind, isBehind, trailing⟩ := exists_gap_append after
  dsimp only at h
  split at h
  · -- A bracket closes the capture behind its name.
    obtain ⟨rfl, closed⟩ := closeCapture?_sound h
    refine ⟨_, .capture ident isGap (.none isBehind), ?_⟩
    rw [leading, named, trailing, closed]
    simp only [List.append_assoc, List.singleton_append]
  · next inside aliased =>
    split at aliased
    · next apart =>
      split at h
      · cases h
      next stored after' split' =>
      obtain ⟨a, b, sep, isA, isS, isSep, word⟩ := afterAs?_sound aliased
      obtain ⟨between, isBetween, middle⟩ := exists_gap_append inside
      obtain ⟨other, rfl, aliasNamed⟩ := splitName?_sound split'
      obtain ⟨last, isLast, ending⟩ := exists_gap_append after'
      obtain ⟨rfl, closed⟩ := closeCapture?_sound h
      have isSeparator : IsGap (sep :: between) := by
        intro d mem
        rcases List.mem_cons.1 mem with rfl | mem
        · exact isSep
        · exact isBetween d mem
      have nonempty : behind ≠ [] := by
        -- The word stands apart from the name, and what skipping a gap leaves starts with none.
        rintro rfl
        obtain ⟨d, head, isGap⟩ := (Option.any_eq_true _ _).1 apart
        rw [List.nil_append] at trailing
        rw [trailing] at head
        have outside := Text.startsOutside_dropWhile Template.isGap after d head
        rw [outside] at isGap
        cases isGap
      refine ⟨_, .capture ident isGap (.some other isBehind nonempty isA isS isSeparator
        (List.cons_ne_nil _ _) isLast), ?_⟩
      rw [leading, named, trailing, word, middle, aliasNamed, ending, closed]
      simp only [List.append_assoc, List.cons_append, List.nil_append]
    · cases aliased

/-! ## Marks -/

/-- What is read as a mark is a writing of it: `∃ text, mark.Written text ∧ b :: rest = text ++ after`. -/
theorem readMark_sound {b : UInt8} {rest after : Text} {mark : Mark}
    (h : readMark b rest = .ok (mark, after)) : ∃ text, mark.Written text ∧ b :: rest = text ++ after := by
  unfold readMark at h
  split at h
  · next backslash =>
    split at h
    · cases h
      exact ⟨[b], .plain, rfl⟩
    · next c behind =>
      split at h
      · next escapable =>
        cases h
        exact ⟨[Byte.backslash, c], .escaped escapable, by rw [backslash]; rfl⟩
      · cases h
        exact ⟨[b], .plain, rfl⟩
  split at h
  · next brace =>
    split at h
    · next inner =>
      -- Two braces: up to the first two that close them.
      split at h
      · cases h
      next padded behind cut =>
      split at h
      · cases h
      next content =>
      cases h
      rw [List.isEmpty_iff] at content
      refine ⟨_, .inline content (Text.not_infix_of_cut? (List.cons_ne_nil _ _) cut), ?_⟩
      rw [brace, Text.eq_append_of_cut? cut]
      simp only [List.append_assoc, List.cons_append, List.nil_append]
      rfl
    · split at h
      · next name behind split =>
        cases h
        obtain ⟨ident, rfl, named⟩ := splitName?_sound split
        refine ⟨_, .named ident, ?_⟩
        rw [brace, named, List.cons_append, List.append_assoc, List.singleton_append]
        rfl
      · cases h
        exact ⟨[b], .plain, rfl⟩
  split at h
  · next bracket =>
    split at h
    · next c behind read =>
      cases h
      obtain ⟨text, written, rfl⟩ := readCapture?_sound read
      exact ⟨_, written, by rw [bracket, List.cons_append]⟩
    · cases h
      exact ⟨[b], .plain, rfl⟩
  · cases h
    exact ⟨[b], .plain, rfl⟩

/-- **A scanned text is written as its marks**: `WrittenAs marks s`. -/
theorem scan_sound {s : Text} {marks : List Mark} (scanned : scan s = .ok marks) : WrittenAs marks s := by
  fun_induction scan s generalizing marks with
  | case1 =>
    cases scanned
    exact .nil
  | case2 => cases scanned
  | case3 b rest mark after read ih =>
    obtain ⟨text, written, split⟩ := readMark_sound read
    cases behind : scan after with
    | error stop =>
      rw [behind] at scanned
      cases scanned
    | ok others =>
      rw [behind] at scanned
      cases scanned
      rw [split]
      exact .cons written (ih behind)

/-- The marks of a text that is not empty leave segments: `assemble bindings index marks ≠ []`. -/
theorem WrittenAs.assemble_ne_nil {marks : List Mark} {s : Text} (written : WrittenAs marks s) (nonempty : s ≠ [])
    (bindings : Bindings) (index : Nat) : assemble bindings index marks ≠ [] := by
  cases written with
  | nil => exact absurd rfl nonempty
  | cons first _ =>
    cases first with
    | plain => exact glue_ne_nil (List.cons_ne_nil _ _) _
    | escaped _ => exact glue_ne_nil (List.cons_ne_nil _ _) _
    | named name => exact List.cons_ne_nil _ _
    | inline _ _ => exact List.cons_ne_nil _ _
    | capture name _ _ => exact glue_ne_nil (List.cons_ne_nil _ _) _

end OpCycle.Template
