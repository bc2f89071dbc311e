import OpCycle.Template.Basic

/-! # Classifying templates
The marks of the template language: a name in braces is a bind point for a named binding, a specification
in double braces is a bind point for itself, a name in brackets is a capture, with or without an alias,
and a backslash before a brace, a bracket or a backslash makes that byte literal. Braces and brackets that
form no mark are text.

A text is first scanned into marks, which does not look at the bindings; the marks are then assembled into
segments, bind points and captures. -/

namespace OpCycle.Template

/-- A mark of the template language. -/
inductive Mark
  /-- Literal text: one byte, bare or after a backslash. -/
  | literal (text : Text)
  /-- A name in braces. -/
  | named (name : Text)
  /-- A specification in double braces. -/
  | inline (spec : Text)
  /-- A name in brackets. -/
  | capture (c : Capture)
  deriving DecidableEq, Repr

/-! ## Names -/

/-- A name may start with `b`: a letter or `_`. -/
def startsName (b : UInt8) : Bool := Byte.isLetter b || b == Byte.underscore

/-- A name may go on with `b`: a letter, a digit, `_`, `-` or `.`. -/
def continuesName (b : UInt8) : Bool := Byte.isWord b || b == Byte.minus || b == Byte.dot

/-- Splits off a name. -/
def splitName? : Text → Option (Text × Text)
  | [] => none
  | b :: rest =>
    if startsName b then some (b :: rest.takeWhile continuesName, rest.dropWhile continuesName) else none

/-- The byte `b` may stand between the words of a capture. -/
def isGap (b : UInt8) : Bool := b == Byte.space || b == Byte.tab

/-- Drops the gap at the start of `s`. -/
def skipGap (s : Text) : Text := s.dropWhile isGap

/-- A backslash makes `b` literal. -/
def isEscapable (b : UInt8) : Bool :=
  b == Byte.openBrace || b == Byte.closeBrace || b == Byte.openBracket || b == Byte.closeBracket ||
    b == Byte.backslash

/-! ## Marks -/

/-- Closes the capture `c` at its bracket. -/
def closeCapture? (c : Capture) : Text → Option (Capture × Text)
  | Byte.closeBracket :: rest => some (c, rest)
  | _ => none

/-- The text behind the word `as`, in letters of either case, that introduces an alias, the gap behind that word
included. -/
def afterAs? : Text → Option Text
  | a :: s :: gap :: rest =>
    if Byte.lower a == 0x61 && Byte.lower s == 0x73 && isGap gap then some rest else none
  | _ => none

/-- Reads a capture from `s`, which stands behind its opening bracket. -/
def readCapture? (s : Text) : Option (Capture × Text) :=
  match splitName? (skipGap s) with
  | none => none
  | some (name, rest) =>
    let next := skipGap rest
    -- Only a word that stands apart from the name can introduce an alias.
    let aliased := if rest.head?.any isGap then afterAs? next else none
    match aliased with
    | none => closeCapture? ⟨name, none⟩ next
    | some rest =>
      match splitName? (skipGap rest) with
      | none => none
      | some (stored, rest) => closeCapture? ⟨name, some stored⟩ (skipGap rest)

/-- Reads the mark that starts with `b`, in front of `rest`. -/
def readMark (b : UInt8) (rest : Text) : Except TemplateFault (Mark × Text) :=
  if b = Byte.backslash then
    match rest with
    | [] => .ok (.literal [b], [])
    | c :: after => if isEscapable c then .ok (.literal [c], after) else .ok (.literal [b], rest)
  else if b = Byte.openBrace then
    match rest with
    | Byte.openBrace :: inner =>
      match Text.cut? [Byte.closeBrace, Byte.closeBrace] inner with
      | none => .error .unterminated
      | some (spec, after) =>
        if (Text.trim spec).isEmpty then .error .emptyInline else .ok (.inline (Text.trim spec), after)
    | _ =>
      match splitName? rest with
      | some (name, Byte.closeBrace :: after) => .ok (.named name, after)
      | _ => .ok (.literal [b], rest)
  else if b = Byte.openBracket then
    match readCapture? rest with
    | some (c, after) => .ok (.capture c, after)
    | none => .ok (.literal [b], rest)
  else .ok (.literal [b], rest)

/-! ## Every mark consumes -/

/-- Skipping a gap leaves no more than there was: `(skipGap s).length ≤ s.length`. -/
theorem skipGap_length_le (s : Text) : (skipGap s).length ≤ s.length :=
  (List.dropWhile_suffix _).length_le

/-- A name takes something from the text: `rest.length < s.length`. -/
theorem splitName?_length_lt {s name rest : Text} (h : splitName? s = some (name, rest)) :
    rest.length < s.length := by
  cases s with
  | nil => cases h
  | cons b after =>
    simp only [splitName?] at h
    split at h
    · cases h
      exact Nat.lt_succ_of_le (List.dropWhile_suffix _).length_le
    · cases h

/-- Closing a capture takes its bracket at least: `rest.length < s.length`. -/
theorem closeCapture?_length_lt {c d : Capture} {s rest : Text}
    (h : closeCapture? c s = some (d, rest)) : rest.length < s.length := by
  unfold closeCapture? at h
  split at h
  · cases h; simp
  · cases h

/-- The word of an alias takes something from the text: `rest.length < s.length`. -/
theorem afterAs?_length_lt {s rest : Text} (h : afterAs? s = some rest) : rest.length < s.length := by
  unfold afterAs? at h
  split at h
  · split at h
    · cases h
      simp only [List.length_cons]
      omega
    · cases h
  · cases h

/-- A capture takes something from the text: `rest.length < s.length`. -/
theorem readCapture?_length_lt {s rest : Text} {c : Capture} (h : readCapture? s = some (c, rest)) :
    rest.length < s.length := by
  unfold readCapture? at h
  -- One length for each part in the order it is read: gap, name, gap, `as`, gap, name, gap, closing.
  have h₀ := skipGap_length_le s
  split at h
  · cases h
  · next name after hn =>
    have h₁ := splitName?_length_lt hn
    have h₂ := skipGap_length_le after
    simp only at h
    split at h
    · have := closeCapture?_length_lt h
      omega
    · next rest' ha =>
      split at ha
      · have h₃ := afterAs?_length_lt ha
        have h₄ := skipGap_length_le rest'
        split at h
        · cases h
        · next stored last hs =>
          have h₅ := splitName?_length_lt hs
          have h₆ := skipGap_length_le last
          have := closeCapture?_length_lt h
          omega
      · cases ha

/-- A mark takes its first byte, and leaves no more than stands behind that: `after.length ≤ rest.length`. -/
theorem readMark_length_le {b : UInt8} {rest after : Text} {mark : Mark}
    (h : readMark b rest = .ok (mark, after)) : after.length ≤ rest.length := by
  unfold readMark at h
  split at h
  · split at h
    · cases h; simp
    · split at h <;> cases h <;> simp
  · split at h
    · split at h
      · split at h
        · cases h
        · next inner _ _ spec last hc =>
          have := Text.cut?_after_length_lt (by simp) hc
          split at h
          · cases h
          · cases h
            simp only [List.length_cons]
            omega
      · split at h
        · next name last hn =>
          have := splitName?_length_lt hn
          cases h
          simp only [List.length_cons] at this
          omega
        · cases h; exact Nat.le_refl _
    · split at h
      · split at h
        · next c last hc =>
          have := readCapture?_length_lt hc
          cases h
          omega
        · cases h; exact Nat.le_refl _
      · cases h; exact Nat.le_refl _

/-! ## Scanning and assembling -/

/-- A scan that stopped: the fault, and how many bytes are left from its mark on. -/
structure ScanStop where
  /-- What is wrong with the mark. -/
  fault : TemplateFault
  /-- The number of bytes from the mark to the end. -/
  left : Nat
  deriving DecidableEq, Repr

/-- The marks of `s`. -/
def scan (s : Text) : Except ScanStop (List Mark) :=
  match s with
  | [] => .ok []
  | b :: rest =>
    match _read : readMark b rest with
    | .error fault => .error ⟨fault, rest.length + 1⟩
    | .ok (mark, after) => (scan after).map (mark :: ·)
termination_by s.length
decreasing_by
  have := readMark_length_le _read
  simp only [List.length_cons]
  omega

/-- Puts `text` in front of `segments`; neighbouring texts become one, and empty text none. -/
def glue (text : Text) (segments : List Segment) : List Segment :=
  if text.isEmpty then segments
  else
    match segments with
    | .literal next :: rest => .literal (text ++ next) :: rest
    | _ => .literal text :: segments

/-- The bind point of a mark, where a name stands for what `bindings` hold under it. -/
def bindPoint? (bindings : Bindings) : Mark → Option BindPoint
  | .named name => some ⟨name, (bindings.find? name).getD []⟩
  | .inline spec => some ⟨spec, spec⟩
  | _ => none

/-- The capture of a mark, if it is one. -/
def capture? : Mark → Option Capture
  | .capture c => some c
  | _ => none

/-- The segments of marks, the first bind point of which has the number `index`. A capture leaves its name in the
text. -/
def assemble (bindings : Bindings) (index : Nat) : List Mark → List Segment
  | [] => []
  | .literal text :: rest => glue text (assemble bindings index rest)
  | .capture c :: rest => glue c.name (assemble bindings index rest)
  | .named name :: rest =>
    .bind ⟨name, (bindings.find? name).getD []⟩ index :: assemble bindings (index + 1) rest
  | .inline spec :: rest => .bind ⟨spec, spec⟩ index :: assemble bindings (index + 1) rest

/-- Classifies `raw`: the template assembled from the marks of `scan raw`. -/
def classify (raw : Text) (bindings : Bindings) : Except TemplateError Template :=
  match scan raw with
  | .error stop => .error ⟨raw, raw.length - stop.left, stop.fault⟩
  | .ok marks =>
    .ok ⟨raw, assemble bindings 0 marks, marks.filterMap (bindPoint? bindings),
      marks.filterMap capture?⟩

end OpCycle.Template
