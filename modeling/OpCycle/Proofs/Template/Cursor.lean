import OpCycle.Proofs.Template.Marks
import OpCycle.Proofs.Text.Cursor

/-! # Templates scanned in place
The marks of a template once more, read by a scanner that stands in front of each in turn and looks ahead by
places. It finds the same marks and the same faults, and every access stays within the text.

* `InPlace.template`: the scanner in place.
* `Finds`, `Reads`: what it finds, or reads, at a place.
* `template_ends`: it ends as `classify` does. -/

namespace OpCycle.Template.InPlace

open Cursor

variable {ε : Type}

/-! ## Looking ahead -/

/-- The place behind the bytes with `keep` from `place` on. -/
def endOf (keep : UInt8 → Bool) (place : Nat) : Scanner ε Nat := fun s p =>
  if place < s.length then
    (byteAt place s p).andThen fun b q =>
      if keep b then endOf keep (place + 1) s q else ⟨.done place, q, []⟩
  else ⟨.done place, p, []⟩
termination_by s => s.length - place

/-- The place behind the name at `place`, and `place` itself when there is none. -/
def nameEnd (place : Nat) : Scanner ε Nat := do
  if place < (← extent) then
    if startsName (← byteAt place) then endOf continuesName (place + 1) else return place
  else return place

/-- There is a word between two gaps that introduces an alias: a gap lies between `stop` and `next`, and at `next`
stands the word. -/
def introducesAlias (stop next : Nat) : Scanner ε Bool := do
  -- Three bytes are there before any of them is read.
  if next + 2 < (← extent) then
    if stop < next then
      if Byte.lower (← byteAt next) == 0x61 then
        if Byte.lower (← byteAt (next + 1)) == 0x73 then return isGap (← byteAt (next + 2)) else return false
      else return false
    else return false
  else return false

/-- The capture `c` and the place behind the bracket that closes it, if there is one at `place`. -/
def closeAt (c : Capture) (place : Nat) : Scanner ε (Option (Capture × Nat)) := do
  if place < (← extent) then
    if (← byteAt place) = Byte.closeBracket then return some (c, place + 1) else return none
  else return none

/-- The name behind the gap at `place`, with the place behind the name. -/
def wordAt (place : Nat) : Scanner ε (Option (Text × Nat)) := do
  let start ← endOf isGap place
  let stop ← nameEnd start
  if stop = start then return none else return some (← pieceOf start stop, stop)

/-- The capture that a bracket at `place` opens, with the place behind it. -/
def captureAt (place : Nat) : Scanner ε (Option (Capture × Nat)) := do
  match ← wordAt (place + 1) with
  | none => return none
  | some (name, stop) =>
    let next ← endOf isGap stop
    if ← introducesAlias stop next then
      -- The byte behind the word is a gap and is skipped with the rest of it.
      match ← wordAt (next + 2) with
      | none => return none
      | some (stored, stop) => closeAt ⟨name, some stored⟩ (← endOf isGap stop)
    else closeAt ⟨name, none⟩ next

/-! ## Marks -/

/-- Takes the byte `b` at `i` as text. -/
def plain (i : Nat) (b : UInt8) : Scanner ε Mark := do
  moveTo (i + 1)
  return .literal [b]

/-- Reads the mark that the backslash `b` at `i` may begin. -/
def escaped (i : Nat) (b : UInt8) : Scanner ε Mark := do
  if i + 1 < (← extent) then
    if isEscapable (← byteAt (i + 1)) then
      let c ← byteAt (i + 1)
      moveTo (i + 2)
      return .literal [c]
    else plain i b
  else plain i b

/-- Reads the specification that two braces at `i` begin. -/
def inline (i : Nat) : Scanner TemplateFault Mark := do
  match ← find [Byte.closeBrace, Byte.closeBrace] (i + 2) with
  | none => fail .unterminated
  | some close =>
    let spec := Text.trim (← pieceOf (i + 2) close)
    if spec.isEmpty then fail .emptyInline
    else
      moveTo (close + 2)
      return .inline spec

/-- Reads the name that the brace `b` at `i` may begin. -/
def named (i : Nat) (b : UInt8) : Scanner ε Mark := do
  let stop ← nameEnd (i + 1)
  if i + 1 < stop then
    if stop < (← extent) then
      if (← byteAt stop) = Byte.closeBrace then
        let name ← pieceOf (i + 1) stop
        moveTo (stop + 1)
        return .named name
      else plain i b
    else plain i b
  else plain i b

/-- Reads the mark that the brace `b` at `i` may begin. -/
def braced (i : Nat) (b : UInt8) : Scanner TemplateFault Mark := do
  if i + 1 < (← extent) then
    if (← byteAt (i + 1)) = Byte.openBrace then inline i else named i b
  else named i b

/-- Reads the capture that the bracket `b` at `i` may begin. -/
def bracketed (i : Nat) (b : UInt8) : Scanner ε Mark := do
  match ← captureAt i with
  | some (c, stop) =>
    moveTo stop
    return .capture c
  | none => plain i b

/-- Reads the mark in front of which the scanner stands, as `readMark` does. -/
def mark : Scanner TemplateFault Mark := do
  let i ← position
  let b ← byteAt i
  if b = Byte.backslash then escaped i b
  else if b = Byte.openBrace then braced i b
  else if b = Byte.openBracket then bracketed i b
  else plain i b

/-- A round over the marks, behind `marks`. -/
def marksRound (marks : List Mark) : Scanner TemplateFault (Round (List Mark) (List Mark)) := do
  if ← atEnd then return .over marks else return .again (marks ++ [← mark])

/-- Reads the marks of a text, as `scan` does. -/
def marks : Scanner TemplateFault (List Mark) := loop marksRound []

/-- Classifies `raw`, as `classify` does. -/
def template (bindings : Bindings) (raw : Text) : Run TemplateFault Template :=
  (marks raw 0).andThen fun found q =>
    ⟨.done ⟨raw, assemble bindings 0 found, found.filterMap (bindPoint? bindings), found.filterMap capture?⟩, q,
      []⟩

/-! ## Looking ahead finds what is there -/

variable {α β : Type} {s t u rest : Text} {p q r : Nat} {b : UInt8}

/-- The end of a run of bytes is where the rest without it starts:
`Takes s (endOf keep q : Scanner ε Nat) t (.done r) t`. -/
theorem takes_endOf {keep : UInt8 → Bool} (there : At s q u) (behind : At s r (u.dropWhile keep)) (t : Text) :
    Takes s (endOf keep q : Scanner ε Nat) t (.done r) t := by
  induction u generalizing q with
  | nil =>
    intro p here
    rw [List.dropWhile_nil] at behind
    rw [endOf, if_neg there.not_lt, there.unique behind]
    exact ⟨rfl, here, .nil here.1⟩
  | cons b u ih =>
    have read := takes_byteAt (ε := ε) there t
    intro p here
    obtain ⟨done, place, trail⟩ := read p here
    rw [endOf, if_pos there.lt, Run.andThen, done]
    dsimp only
    rw [List.dropWhile_cons] at behind
    split
    · next kept =>
      rw [if_pos kept] at behind
      obtain ⟨done', place', trail'⟩ := ih there.cons behind _ place
      exact ⟨done', place', trail.append trail'⟩
    · next other =>
      rw [if_neg other] at behind
      obtain rfl := there.unique behind
      exact ⟨rfl, place, trail.append (.nil place.1)⟩

/-- Behind a gap stands what skipping it leaves: `∃ r, At s r (skipGap u)`. -/
theorem exists_at_skipGap (there : At s q u) : ∃ r, At s r (skipGap u) :=
  exists_at there (List.dropWhile_suffix isGap)

/-- Behind a name its end is found: `Takes s (nameEnd q : Scanner ε Nat) t (.done r) t`. -/
theorem takes_nameEnd_some {name : Text} (there : At s q u) (split : splitName? u = some (name, rest))
    (behind : At s r rest) (t : Text) : Takes s (nameEnd q : Scanner ε Nat) t (.done r) t := by
  cases u with
  | nil => cases split
  | cons b u =>
    rw [splitName?] at split
    split at split
    · next starts =>
      cases split
      refine (takes_extent t).bind ?_
      rw [if_pos there.lt]
      refine (takes_byteAt there t).bind ?_
      rw [if_pos starts]
      exact takes_endOf there.cons behind t
    · cases split

/-- Where no name starts its end is its start: `Takes s (nameEnd q : Scanner ε Nat) t (.done q) t`. -/
theorem takes_nameEnd_none (there : At s q u) (split : splitName? u = none) (t : Text) :
    Takes s (nameEnd q : Scanner ε Nat) t (.done q) t := by
  refine (takes_extent t).bind ?_
  cases u with
  | nil =>
    rw [if_neg there.not_lt]
    exact takes_pure _ _
  | cons b u =>
    rw [splitName?] at split
    split at split
    · cases split
    · next other =>
      rw [if_pos there.lt]
      refine (takes_byteAt there t).bind ?_
      rw [if_neg other]
      exact takes_pure _ _

/-- The `scanner` finds in place what is read from what is left there, `t`, and does not move. -/
def Finds (s : Text) (scanner : Scanner ε (Option (α × Nat))) (t : Text) : Option (α × Text) → Prop
  | none => Takes s scanner t (.done none) t
  | some (found, after) => ∃ place, At s place after ∧ Takes s scanner t (.done (some (found, place))) t

/-- Behind a look the rest of a scanner goes on: `Finds s (first >>= next) t found`. -/
theorem Finds.after {first : Scanner ε β} {next : β → Scanner ε (Option (α × Nat))} {value : β}
    {found : Option (α × Text)} (looked : Takes s first t (.done value) t) (rest : Finds s (next value) t found) :
    Finds s (first >>= next) t found := by
  cases found with
  | none => exact Takes.bind looked rest
  | some found =>
    obtain ⟨place, there, taken⟩ := rest
    exact ⟨place, there, looked.bind taken⟩

/-- Closing a capture in place is `closeCapture?`. -/
theorem finds_closeAt (c : Capture) (there : At s q u) (t : Text) :
    Finds s (closeAt c q : Scanner ε _) t (closeCapture? c u) := by
  refine .after (takes_extent t) ?_
  cases u with
  | nil =>
    rw [if_neg there.not_lt]
    exact takes_pure _ _
  | cons b u =>
    rw [if_pos there.lt]
    refine .after (takes_byteAt there t) ?_
    by_cases closing : b = Byte.closeBracket
    · subst closing
      exact ⟨q + 1, there.cons, takes_pure _ _⟩
    · have unclosed : closeCapture? c (b :: u) = none := by
        rw [closeCapture?]
        intro rest same
        exact closing (List.cons.inj same).1
      rw [if_neg closing, unclosed]
      exact takes_pure _ _

/-- What stands in `u` behind the word that introduces an alias to a name. -/
def behindAs? (u : Text) : Option Text := if u.head?.any isGap then afterAs? (skipGap u) else none

/-- A gap was skipped exactly if there is one: `q < r ↔ u.head?.any isGap`. -/
theorem lt_iff_gap (there : At s q u) (behind : At s r (skipGap u)) : q < r ↔ u.head?.any isGap = true := by
  have total := there.length
  have total' := behind.length
  cases u with
  | nil =>
    rw [skipGap, List.dropWhile_nil, List.length_nil] at total'
    rw [List.length_nil] at total
    exact iff_of_false (by omega) (by decide)
  | cons b u =>
    rw [List.head?_cons, Option.any_some]
    rw [skipGap, List.dropWhile_cons] at total'
    split at total'
    · next gap =>
      have shorter := skipGap_length_le u
      rw [skipGap] at shorter
      rw [List.length_cons] at total
      exact iff_of_true (by omega) gap
    · next other => exact iff_of_false (by omega) other

/-- The word and a byte of a gap do not fit into two bytes: `afterAs? u = none`. -/
theorem afterAs?_eq_none (short : u.length ≤ 2) : afterAs? u = none := by
  match u with
  | [] | [_] | [_, _] => rfl
  | _ :: _ :: _ :: _ =>
    simp only [List.length_cons] at short
    omega

/-- Whether an alias follows is whether `behindAs?` finds one. -/
theorem takes_introducesAlias (there : At s q u) (behind : At s r (skipGap u)) (t : Text) :
    Takes s (introducesAlias q r : Scanner ε Bool) t (.done (behindAs? u).isSome) t := by
  have apart := lt_iff_gap there behind
  have total := behind.length
  refine (takes_extent t).bind ?_
  rw [behindAs?]
  generalize skipGap u = next at behind total ⊢
  by_cases short : next.length ≤ 2
  -- There is no room for the word, and nothing is read.
  · rw [if_neg (by omega), afterAs?_eq_none short, ite_self]
    exact takes_pure _ _
  rw [if_pos (by omega)]
  by_cases gap : u.head?.any isGap = true
  · rw [if_pos (apart.2 gap), if_pos gap]
    match next with
    | first :: second :: third :: rest =>
      refine (takes_byteAt behind t).bind ?_
      rw [afterAs?]
      by_cases a : (Byte.lower first == 0x61) = true
      · rw [if_pos a, a]
        refine (takes_byteAt behind.cons t).bind ?_
        by_cases s : (Byte.lower second == 0x73) = true
        · rw [if_pos s, s]
          refine (takes_byteAt behind.cons.cons t).bind ?_
          cases isGap third with
          | true => exact takes_pure _ _
          | false => exact takes_pure _ _
        · rw [if_neg s, Bool.eq_false_iff.2 s]
          exact takes_pure _ _
      · rw [if_neg a, Bool.eq_false_iff.2 a]
        exact takes_pure _ _
    | [] | [_] | [_, _] =>
      simp only [List.length_cons, List.length_nil] at short
      omega
  · rw [if_neg (mt apart.1 gap), if_neg gap]
    exact takes_pure _ _

/-- Scanning the word of an alias in place is `splitName?` behind the gap. -/
theorem finds_wordAt (there : At s q u) (t : Text) :
    Finds s (wordAt q : Scanner ε _) t (splitName? (skipGap u)) := by
  obtain ⟨start, atStart⟩ := exists_at_skipGap there
  refine .after (takes_endOf there atStart t) ?_
  cases split : splitName? (skipGap u) with
  | none =>
    refine .after (takes_nameEnd_none atStart split t) ?_
    rw [if_pos rfl]
    exact takes_pure _ _
  | some found =>
    obtain ⟨name, rest⟩ := found
    obtain ⟨ident, rfl, whole⟩ := splitName?_sound split
    rw [whole] at atStart split
    have behind := atStart.append
    have nonempty : ident.text ≠ [] := List.cons_ne_nil _ _
    have apart : start + ident.text.length ≠ start := by
      have := List.length_pos_iff.2 nonempty
      omega
    refine .after (takes_nameEnd_some atStart split behind t) ?_
    rw [if_neg apart]
    refine ⟨_, behind, ?_⟩
    exact (takes_pieceOf atStart behind (List.append_ne_nil_of_left_ne_nil nonempty _) t).bind (takes_pure _ _)

/-- A byte of a gap stands behind the word that introduces an alias:
`∃ first second gap, isGap gap ∧ skipGap u = first :: second :: gap :: inside`. -/
theorem exists_of_behindAs? {inside : Text} (h : behindAs? u = some inside) :
    ∃ first second gap, isGap gap = true ∧ skipGap u = first :: second :: gap :: inside := by
  rw [behindAs?] at h
  split at h
  · obtain ⟨first, second, gap, -, -, isGap, word⟩ := afterAs?_sound h
    exact ⟨first, second, gap, isGap, word⟩
  · cases h

/-- What decides a capture behind its name: `behindAs?` what follows it. -/
theorem readCapture?_eq {name : Text} (split : splitName? (skipGap u) = some (name, rest)) :
    readCapture? u = match behindAs? rest with
      | none => closeCapture? ⟨name, none⟩ (skipGap rest)
      | some inside =>
        match splitName? (skipGap inside) with
        | none => none
        | some (stored, last) => closeCapture? ⟨name, some stored⟩ (skipGap last) := by
  rw [readCapture?, split]
  rfl

/-- Scanning a capture in place is `readCapture?` on what stands behind its bracket. -/
theorem finds_captureAt (there : At s (q + 1) u) (t : Text) :
    Finds s (captureAt q : Scanner ε _) t (readCapture? u) := by
  have word := finds_wordAt (ε := ε) there t
  cases split : splitName? (skipGap u) with
  | none =>
    rw [split] at word
    rw [readCapture?, split]
    exact .after word (takes_pure _ _)
  | some found =>
    obtain ⟨name, rest⟩ := found
    rw [split] at word
    obtain ⟨stop, atStop, taken⟩ := word
    obtain ⟨next, atNext⟩ := exists_at_skipGap atStop
    refine .after taken (.after (takes_endOf atStop atNext t) (.after (takes_introducesAlias atStop atNext t) ?_))
    rw [readCapture?_eq split]
    cases aliased : behindAs? rest with
    | none => exact finds_closeAt ⟨name, none⟩ atNext t
    | some inside =>
      obtain ⟨first, second, gap, isGap, word⟩ := exists_of_behindAs? aliased
      rw [word] at atNext
      have stored := finds_wordAt (ε := ε) atNext.cons.cons t
      rw [skipGap, List.dropWhile_cons_of_pos isGap, ← skipGap] at stored
      dsimp only
      cases split : splitName? (skipGap inside) with
      | none =>
        rw [split] at stored
        exact .after stored (takes_pure _ _)
      | some found =>
        obtain ⟨other, rest⟩ := found
        rw [split] at stored
        obtain ⟨stop, atStop, taken⟩ := stored
        obtain ⟨last, atLast⟩ := exists_at_skipGap atStop
        exact .after taken (.after (takes_endOf atStop atLast t) (finds_closeAt ⟨name, some other⟩ atLast t))

/-! ## Marks are read in place -/

/-- The `scanner` reads in place the mark that is read from what is left, `t`, and does not move when there is
none. -/
def Reads (s : Text) (scanner : Scanner TemplateFault Mark) (t : Text) : Except TemplateFault (Mark × Text) → Prop
  | .ok (mark, left) => Takes s scanner t (.done mark) left
  | .error fault => Takes s scanner t (.failed fault) t

/-- Behind a look the rest of a scanner goes on: `Reads s (first >>= next) t read`. -/
theorem Reads.after {first : Scanner TemplateFault β} {next : β → Scanner TemplateFault Mark} {value : β}
    {read : Except TemplateFault (Mark × Text)} (looked : Takes s first t (.done value) t)
    (rest : Reads s (next value) t read) : Reads s (first >>= next) t read := by
  cases read with
  | error fault => exact looked.bind rest
  | ok found => exact Takes.bind looked rest

/-- A scanner that asks where it stands is told a place where the text is left:
`Reads s (position >>= next) t read`. -/
theorem reads_position {next : Nat → Scanner TemplateFault Mark} {read : Except TemplateFault (Mark × Text)}
    (rest : ∀ q, At s q t → Reads s (next q) t read) : Reads s (position >>= next) t read := by
  cases read with
  | error fault => exact takes_position rest
  | ok found => exact takes_position rest

/-- A plain byte is read as a literal: `Reads s (plain q b) (b :: rest) (.ok (.literal [b], rest))`. -/
theorem reads_plain (here : At s q (b :: rest)) :
    Reads s (plain q b) (b :: rest) (.ok (.literal [b], rest)) :=
  (takes_moveTo here.cons (Nat.le_succ _)).bind (takes_pure _ _)

/-- Reading a mark that starts with a backslash in place is `readMark`. -/
theorem reads_escaped (here : At s q (Byte.backslash :: rest)) :
    Reads s (escaped q Byte.backslash) (Byte.backslash :: rest) (readMark Byte.backslash rest) := by
  unfold readMark
  rw [if_pos rfl]
  refine .after (takes_extent _) ?_
  cases rest with
  | nil =>
    rw [if_neg here.cons.not_lt]
    exact reads_plain here
  | cons c left =>
    rw [if_pos here.cons.lt]
    refine .after (takes_byteAt here.cons _) ?_
    dsimp only
    split
    · refine .after (takes_byteAt here.cons _) ?_
      have ahead : left.length ≤ (Byte.backslash :: c :: left).length := Nat.le_add_right _ 2
      exact Takes.bind (takes_moveTo here.cons.cons ahead) (takes_pure _ _)
    · exact reads_plain here

/-- Reading an inline specification in place cuts the text behind `{{` at the first two closing braces. -/
theorem reads_inline {inner : Text} (here : At s q (b :: Byte.openBrace :: inner)) :
    Reads s (inline q) (b :: Byte.openBrace :: inner)
      (match Text.cut? [Byte.closeBrace, Byte.closeBrace] inner with
        | none => .error .unterminated
        | some (spec, left) =>
          if (Text.trim spec).isEmpty then .error .emptyInline else .ok (.inline (Text.trim spec), left)) := by
  have inside := here.cons.cons
  refine .after (takes_find _ inside _) ?_
  cases cut : Text.cut? [Byte.closeBrace, Byte.closeBrace] inner with
  | none => exact takes_fail _ _
  | some found =>
    obtain ⟨spec, left⟩ := found
    have whole := Text.eq_append_of_cut? cut
    subst whole
    have close := inside.append
    refine .after (takes_pieceOf inside close (List.append_ne_nil_of_right_ne_nil _ (List.cons_ne_nil _ _)) _) ?_
    dsimp only
    split
    · exact takes_fail _ _
    · refine Takes.bind (takes_moveTo close.append ?_) (takes_pure _ _)
      simp only [List.length_cons, List.length_append]
      omega

/-- Reading a named bind point in place is `splitName?` and a closing brace, or else the brace as a literal. -/
theorem reads_named (here : At s q (b :: rest)) :
    Reads s (named q b) (b :: rest) (match splitName? rest with
      | some (name, Byte.closeBrace :: left) => .ok (.named name, left)
      | _ => .ok (.literal [b], rest)) := by
  have inside := here.cons
  cases split : splitName? rest with
  | none =>
    refine .after (takes_nameEnd_none inside split _) ?_
    rw [if_neg (Nat.lt_irrefl _)]
    exact reads_plain here
  | some found =>
    obtain ⟨name, behind⟩ := found
    obtain ⟨ident, rfl, rfl⟩ := splitName?_sound split
    have nonempty : ident.text ≠ [] := List.cons_ne_nil _ _
    have stop := inside.append
    refine .after (takes_nameEnd_some inside split stop _) ?_
    rw [if_pos (Nat.lt_add_of_pos_right (List.length_pos_iff.2 nonempty))]
    refine .after (takes_extent _) ?_
    -- A name is read; it is a bind point only when a closing brace follows it.
    cases behind with
    | nil =>
      rw [if_neg stop.not_lt]
      exact reads_plain here
    | cons c left =>
      rw [if_pos stop.lt]
      refine .after (takes_byteAt stop _) ?_
      by_cases closing : c = Byte.closeBrace
      · subst closing
        have started : ident.text ++ Byte.closeBrace :: left ≠ [] := List.append_ne_nil_of_left_ne_nil nonempty _
        refine .after (takes_pieceOf inside stop started _) (Takes.bind (takes_moveTo stop.cons ?_) (takes_pure _ _))
        simp only [List.length_cons, List.length_append]
        omega
      · rw [if_neg closing]
        split
        · next same =>
          cases same
          exact absurd rfl closing
        · exact reads_plain here

/-- Reading a capture in place is `readCapture?`, or else the bracket as a literal. -/
theorem reads_bracketed (here : At s q (b :: rest)) :
    Reads s (bracketed q b) (b :: rest) (match readCapture? rest with
      | some (c, left) => .ok (.capture c, left)
      | none => .ok (.literal [b], rest)) := by
  have found := finds_captureAt (ε := TemplateFault) here.cons (b :: rest)
  cases read : readCapture? rest with
  | none =>
    rw [read] at found
    exact .after found (reads_plain here)
  | some captured =>
    obtain ⟨c, left⟩ := captured
    rw [read] at found
    obtain ⟨stop, there, taken⟩ := found
    have ahead := readCapture?_length_lt read
    refine .after taken (Takes.bind (takes_moveTo there ?_) (takes_pure _ _))
    rw [List.length_cons]
    omega

/-- Two braces begin a specification, and one may begin a name:
`Reads s (braced q Byte.openBrace) (Byte.openBrace :: rest) (readMark Byte.openBrace rest)`. -/
theorem reads_braced (here : At s q (Byte.openBrace :: rest)) :
    Reads s (braced q Byte.openBrace) (Byte.openBrace :: rest) (readMark Byte.openBrace rest) := by
  have name := reads_named here
  unfold readMark
  rw [if_neg (by decide), if_pos rfl]
  refine .after (takes_extent _) ?_
  cases rest with
  | nil =>
    rw [if_neg here.cons.not_lt]
    exact name
  | cons c inner =>
    rw [if_pos here.cons.lt]
    refine .after (takes_byteAt here.cons _) ?_
    -- Two braces open an inline binding, one brace a name.
    by_cases twice : c = Byte.openBrace
    · subst twice
      exact reads_inline here
    · rw [if_neg twice]
      split
      · next same => exact absurd (List.cons.inj same).1 twice
      · exact name

/-- The mark that is read in place is the one that is read from what is left:
`Reads s mark (b :: rest) (readMark b rest)`. -/
theorem reads_mark (b : UInt8) (rest : Text) : Reads s mark (b :: rest) (readMark b rest) := by
  refine reads_position fun q here => .after (takes_byteAt here _) ?_
  by_cases backslash : b = Byte.backslash
  · subst backslash
    exact reads_escaped here
  by_cases brace : b = Byte.openBrace
  · subst brace
    exact reads_braced here
  unfold readMark
  rw [if_neg backslash, if_neg backslash, if_neg brace, if_neg brace]
  by_cases bracket : b = Byte.openBracket
  · rw [if_pos bracket, if_pos bracket]
    exact reads_bracketed here
  · rw [if_neg bracket, if_neg bracket]
    exact reads_plain here

/-- Only two braces that begin a mark can be wrong: `[Byte.openBrace, Byte.openBrace] <+: b :: rest`. -/
theorem braces_of_readMark_error {fault : TemplateFault} (h : readMark b rest = .error fault) :
    [Byte.openBrace, Byte.openBrace] <+: b :: rest := by
  unfold readMark at h
  split at h
  · split at h
    · cases h
    · split at h <;> cases h
  · split at h
    · next brace =>
      split at h
      · rw [brace]
        exact List.prefix_append [Byte.openBrace, Byte.openBrace] _
      · split at h <;> cases h
    · split at h
      · split at h <;> cases h
      · cases h

/-! ## The loop over the marks -/

/-- The loop, which has `found` some marks so far, takes the whole text `t` and adds its marks to them, or ends in
front of two braces that are wrong. -/
def LoopsOver (s : Text) (found : List Mark) (t : Text) : Except ScanStop (List Mark) → Prop
  | .ok ms => Takes s (loop marksRound found) t (.done (found ++ ms)) []
  | .error stop => ∃ left, Takes s (loop marksRound found) t (.failed stop.fault) left ∧ left.length = stop.left ∧
      [Byte.openBrace, Byte.openBrace] <+: left

/-- A round reads a mark and leaves less: `LoopsOver s found (b :: rest) (marks.map (m :: ·))`. -/
theorem LoopsOver.again {found : List Mark} {m : Mark} {marks : Except ScanStop (List Mark)}
    (h : LoopsOver s (found ++ [m]) u marks) (read : readMark b rest = .ok (m, u)) :
    LoopsOver s found (b :: rest) (marks.map (m :: ·)) := by
  have taken := reads_mark (s := s) b rest
  rw [read] at taken
  have round : Takes s (marksRound found) (b :: rest) (.done (.again (found ++ [m]))) u :=
    (takes_atEnd _).bind (Takes.bind taken (takes_pure _ _))
  have shorter : u.length < (b :: rest).length := Nat.lt_succ_of_le (readMark_length_le read)
  cases marks with
  | error stop =>
    obtain ⟨left, looped, behind⟩ := h
    exact ⟨left, takes_loop_again round shorter looped, behind⟩
  | ok ms =>
    have looped := takes_loop_again round shorter h
    rw [List.append_assoc] at looped
    exact looped

/-- The loop over the marks of a template in place is `scan`. -/
theorem loopsOver_scan (found : List Mark) (t : Text) : LoopsOver s found t (scan t) := by
  fun_induction scan t generalizing found with
  | case1 =>
    rw [LoopsOver, List.append_nil]
    exact takes_loop_over ((takes_atEnd _).bind (takes_pure _ _))
  | case2 b rest fault read =>
    -- The scanner has not moved: it stops in front of the braces.
    have taken := reads_mark (s := s) b rest
    rw [read] at taken
    exact ⟨b :: rest, takes_loop_failed ((takes_atEnd _).bind (Takes.bind_failed taken)), rfl,
      braces_of_readMark_error read⟩
  | case3 b rest m after read ih => exact (ih (found ++ [m])).again read

/-! ## Templates -/

/-- A mark takes at least one byte: `i < (mark s i).place ∧ (mark s i).place ≤ s.length`. -/
theorem mark_lt_place {i : Nat} {m : Mark} (inside : i < s.length) (done : (mark s i).ending = .done m) :
    i < (mark s i).place ∧ (mark s i).place ≤ s.length := by
  have here : At s i (s.drop i) := at_drop (Nat.le_of_lt inside)
  rw [List.drop_eq_getElem_cons inside] at here
  have taken := reads_mark (s := s) s[i] (s.drop (i + 1))
  cases read : readMark s[i] (s.drop (i + 1)) with
  | error fault =>
    rw [read] at taken
    rw [(taken i here).ending] at done
    cases done
  | ok found =>
    rw [read] at taken
    have place := (taken i here).place
    refine ⟨?_, place.1⟩
    have shorter := readMark_length_le read
    have total := place.length
    rw [List.length_drop] at shorter
    omega

/-- `template` ends in place with the outcome of `classify`, and a fault is met where it is. -/
theorem template_ends (raw : Text) (bindings : Bindings) :
    (template bindings raw).ending = .ofExcept ((classify raw bindings).mapError TemplateError.fault) ∧
      Trail raw 0 (template bindings raw).accesses (template bindings raw).place ∧
      ∀ e, classify raw bindings = .error e →
        (template bindings raw).place = e.position ∧
          [Byte.openBrace, Byte.openBrace] <+: raw.drop e.position := by
  have looped := loopsOver_scan (s := raw) [] raw
  rw [classify, template]
  cases scanned : scan raw with
  | error stop =>
    rw [scanned] at looped
    obtain ⟨left, looped, same, braces⟩ := looped
    obtain ⟨ending, place, trail⟩ := looped 0 (at_start raw)
    rw [marks, Run.andThen, ending]
    refine ⟨rfl, trail, fun e h => ?_⟩
    cases h
    have total := place.length
    rw [same] at total
    rw [← place.2] at braces
    have stands := Nat.eq_sub_of_add_eq total
    exact ⟨stands, stands ▸ braces⟩
  | ok ms =>
    rw [scanned] at looped
    have looped : Takes raw (loop marksRound []) raw (.done ms) [] := looped
    obtain ⟨ending, place, trail⟩ := looped 0 (at_start raw)
    rw [marks, Run.andThen, ending]
    refine ⟨rfl, trail.append (.nil place.1), fun e h => ?_⟩
    cases h

end OpCycle.Template.InPlace
