import OpCycle.Proofs.Text.Span
import OpCycle.Proofs.Template.Assembly

/-! # Writing templates and classifying them
The template language has four kinds of pieces. What is written for a list of them classifies as exactly
these pieces, whatever stands next to what: no piece ends so that it could make a mark with the next one.

* `Piece`, `render`: the pieces of a template, and their writing.
* `readMark_named` and its siblings: each writing is read as its mark.
* `classify_render`: what is written for pieces classifies as these pieces. -/

namespace OpCycle.Template

/-! ## Pieces -/

/-- A name that can stand in braces or in brackets. -/
structure Identifier where
  /-- The first byte. -/
  first : UInt8
  /-- The other bytes. -/
  others : Text
  first_ok : Byte.isLetter first = true ∨ first = Byte.underscore
  others_ok : ∀ b ∈ others, Byte.isLetter b = true ∨ Byte.isDigit b = true ∨ b = Byte.underscore ∨
    b = Byte.dot ∨ b = Byte.minus

/-- The bytes of `name`. -/
def Identifier.text (name : Identifier) : Text := name.first :: name.others

/-- A specification that can stand in double braces. -/
structure InlineSpec where
  /-- The bytes of the specification. -/
  text : Text
  nonempty : text ≠ []
  first_ok : Text.StartsOutside Byte.isBlank text
  last_ok : Text.StartsOutside Byte.isBlank text.reverse
  unclosed : ¬ [Byte.closeBrace, Byte.closeBrace] <:+: text

/-- A piece of a template. -/
inductive Piece
  /-- Any text. -/
  | text (s : Text)
  /-- A bind point for a named binding. -/
  | bind (name : Identifier)
  /-- A bind point for a specification itself. -/
  | inline (spec : InlineSpec)
  /-- A capture, with or without an alias. -/
  | capture (name : Identifier) (storedAs : Option Identifier)

/-- The bytes that mean something in a template. -/
def special : List UInt8 :=
  [Byte.openBrace, Byte.closeBrace, Byte.openBracket, Byte.closeBracket, Byte.backslash]

/-- The text `s` with a backslash before every byte of `special`. -/
def escape (s : Text) : Text := s.flatMap fun b => if b ∈ special then [Byte.backslash, b] else [b]

/-- What stands between the name of a capture and its alias. -/
def asWord : Text := [Byte.space, 0x61, 0x73, Byte.space]

/-- The writing of an alias. -/
def renderAlias : Option Identifier → Text
  | none => []
  | some stored => asWord ++ stored.text

namespace Piece

/-- The writing of a piece. -/
def render : Piece → Text
  | .text s => escape s
  | .bind name => Byte.openBrace :: (name.text ++ [Byte.closeBrace])
  | .inline spec => [Byte.openBrace, Byte.openBrace, Byte.space] ++ spec.text ++
      [Byte.space, Byte.closeBrace, Byte.closeBrace]
  | .capture name storedAs => Byte.openBracket :: (name.text ++ renderAlias storedAs ++ [Byte.closeBracket])

/-- What a piece puts into the template: text, or a bind point, which takes its specification from `bindings`. -/
def content (bindings : Bindings) : Piece → Text ⊕ BindPoint
  | .text s => .inl s
  | .bind name => .inr ⟨name.text, (bindings.find? name.text).getD []⟩
  | .inline spec => .inr ⟨spec.text, spec.text⟩
  | .capture name _ => .inl name.text

/-- The bind point of `p`, if it has one. -/
def point? (bindings : Bindings) (p : Piece) : Option BindPoint := (p.content bindings).getRight?

/-- The capture of a piece. -/
def capture? : Piece → Option Capture
  | .capture name storedAs => some ⟨name.text, storedAs.map Identifier.text⟩
  | _ => none

/-- The marks that a piece is scanned into. -/
def marks : Piece → List Mark
  | .text s => s.map fun b => .literal [b]
  | .bind name => [.named name.text]
  | .inline spec => [.inline spec.text]
  | .capture name storedAs => [.capture ⟨name.text, storedAs.map Identifier.text⟩]

end Piece

/-- The writing of `pieces` one after another. -/
def render (pieces : List Piece) : Text := pieces.flatMap Piece.render

/-- The text `run` as a segment; empty text is none. -/
def literalRun (run : Text) : List Segment := if run = [] then [] else [.literal run]

/-- The segments of pieces, when the text behind the last bind point so far is `run`, and the next bind
point has this number. -/
def segmentsOf (bindings : Bindings) (index : Nat) (run : Text) : List Piece → List Segment
  | [] => literalRun run
  | piece :: rest =>
    match piece.content bindings with
    | .inl s => segmentsOf bindings index (run ++ s) rest
    | .inr point => literalRun run ++ .bind point index :: segmentsOf bindings (index + 1) [] rest

/-! ## Reading names -/

/-- A byte of a gap starts no name: `startsName b = false`. -/
theorem startsName_of_isGap {b : UInt8} (gap : isGap b = true) : startsName b = false := by
  rcases Bool.or_eq_true_iff.1 gap with space | tab
  · rw [eq_of_beq space]; decide
  · rw [eq_of_beq tab]; decide

/-- The first letter of an identifier starts a name: `startsName name.first`. -/
theorem Identifier.startsName_first (name : Identifier) : startsName name.first = true := by
  rw [startsName, Bool.or_eq_true, beq_iff_eq]
  exact name.first_ok

/-- The other letters of an identifier continue a name: `∀ b ∈ name.others, continuesName b`. -/
theorem Identifier.continuesName_others (name : Identifier) :
    ∀ b ∈ name.others, continuesName b = true := by
  intro b mem
  rw [continuesName, Byte.isWord]
  rcases name.others_ok b mem with h | h | h | h | h <;> simp [h]

/-- A name is split off up to a byte that does not continue it:
`splitName? (name.text ++ rest) = some (name.text, rest)`. -/
theorem splitName?_append (name : Identifier) (rest : Text)
    (stop : Text.StartsOutside continuesName rest) :
    splitName? (name.text ++ rest) = some (name.text, rest) := by
  show splitName? (name.first :: (name.others ++ rest)) = _
  rw [splitName?, if_pos name.startsName_first, Text.takeWhile_append_stop name.continuesName_others stop,
    Text.dropWhile_append_stop name.continuesName_others stop]
  rfl

/-- No gap is skipped before a name: `skipGap (name.text ++ rest) = name.text ++ rest`. -/
theorem skipGap_append (name : Identifier) (rest : Text) :
    skipGap (name.text ++ rest) = name.text ++ rest := by
  apply Text.dropWhile_eq_self
  show Text.StartsOutside isGap (name.first :: (name.others ++ rest))
  rw [Text.startsOutside_cons]
  cases gap : isGap name.first with
  | false => rfl
  | true => rw [← name.startsName_first, startsName_of_isGap gap]

/-! ## Reading marks -/

/-- A byte that means nothing is read as itself: `readMark b rest = .ok (.literal [b], rest)`. -/
theorem readMark_plain {b : UInt8} (plain : b ∉ special) (rest : Text) :
    readMark b rest = .ok (.literal [b], rest) := by
  have other : ∀ c ∈ special, b ≠ c := fun c mem same => plain (same ▸ mem)
  unfold readMark
  rw [if_neg (other _ (by decide)), if_neg (other _ (by decide)), if_neg (other _ (by decide))]

/-- A byte that means something is one that a backslash makes literal: `isEscapable b`. -/
theorem isEscapable_of_mem_special {b : UInt8} (mem : b ∈ special) : isEscapable b = true := by
  rw [special, List.mem_cons, List.mem_cons, List.mem_cons, List.mem_cons, List.mem_singleton] at mem
  rcases mem with rfl | rfl | rfl | rfl | rfl <;> rfl

/-- A byte that means something is read after a backslash:
`readMark Byte.backslash (b :: rest) = .ok (.literal [b], rest)`. -/
theorem readMark_escaped {b : UInt8} (mem : b ∈ special) (rest : Text) :
    readMark Byte.backslash (b :: rest) = .ok (.literal [b], rest) := by
  unfold readMark
  rw [if_pos rfl]
  show (if isEscapable b = true then _ else _) = _
  rw [if_pos (isEscapable_of_mem_special mem)]

/-- A name in braces is read up to its brace:
`readMark Byte.openBrace (name.text ++ (Byte.closeBrace :: rest)) = .ok (.named name.text, rest)`. -/
theorem readMark_named (name : Identifier) (rest : Text) :
    readMark Byte.openBrace (name.text ++ (Byte.closeBrace :: rest)) = .ok (.named name.text, rest) := by
  have split := splitName?_append name (Byte.closeBrace :: rest) (Text.startsOutside_cons.2 rfl)
  unfold readMark
  rw [if_neg (by decide), if_pos rfl]
  split
  · next inner double =>
    -- A second brace starts no name.
    rw [double] at split
    cases split
  · rw [split]
    rfl

/-- The first double brace behind a padded `spec` is the one that closes it. -/
theorem cut?_inline (spec : InlineSpec) (rest : Text) :
    Text.cut? [Byte.closeBrace, Byte.closeBrace]
        (Byte.space :: (spec.text ++ (Byte.space :: Byte.closeBrace :: Byte.closeBrace :: rest))) =
      some ([Byte.space] ++ (spec.text ++ [Byte.space]), rest) := by
  have absent : ¬ [Byte.closeBrace, Byte.closeBrace] <:+:
      ([Byte.space] ++ (spec.text ++ [Byte.space])) ++ [Byte.closeBrace] := by
    intro found
    rw [List.infix_concat_iff] at found
    rcases found with last | found
    · -- Two closing braces do not end what ends in a space and a brace.
      have reversed := List.reverse_prefix.2 last
      simp only [List.reverse_append, List.reverse_cons, List.reverse_nil, List.nil_append,
        List.cons_append, List.cons_prefix_cons] at reversed
      cases reversed.2.1
    rw [List.singleton_append, List.infix_cons_iff] at found
    rcases found with first | found
    · cases (List.cons_prefix_cons.1 first).1
    rw [List.infix_concat_iff] at found
    rcases found with last | found
    · have reversed := List.reverse_prefix.2 last
      simp only [List.reverse_append, List.reverse_cons, List.reverse_nil, List.nil_append,
        List.cons_append, List.cons_prefix_cons] at reversed
      cases reversed.1
    · exact spec.unclosed found
  have cut := Text.cut?_append (by decide) absent rest
  simpa only [List.append_assoc, List.singleton_append, List.cons_append, List.nil_append] using cut

/-- What stands between double braces is read without its padding:
`readMark Byte.openBrace (Byte.openBrace :: inner) = .ok (.inline (Text.trim padded), after)`. -/
theorem readMark_doubleBrace {inner padded after : Text}
    (cut : Text.cut? [Byte.closeBrace, Byte.closeBrace] inner = some (padded, after))
    (content : ¬ (Text.trim padded).isEmpty = true) :
    readMark Byte.openBrace (Byte.openBrace :: inner) = .ok (.inline (Text.trim padded), after) := by
  unfold readMark
  rw [if_neg (by decide), if_pos rfl]
  split
  · next inner' same =>
    cases same
    rw [cut]
    exact if_neg content
  · next single => exact absurd rfl (single inner)

/-- The specification `spec` in double braces is read. -/
theorem readMark_inline (spec : InlineSpec) (rest : Text) :
    readMark Byte.openBrace (Byte.openBrace :: Byte.space :: (spec.text ++
      (Byte.space :: Byte.closeBrace :: Byte.closeBrace :: rest))) = .ok (.inline spec.text, rest) := by
  have padding : Text.IsBlank [Byte.space] := by
    intro b mem
    rw [List.mem_singleton.1 mem]
    decide
  have trimmed : Text.trim ([Byte.space] ++ (spec.text ++ [Byte.space])) = spec.text :=
    Text.trim_append_append padding padding spec.nonempty spec.first_ok spec.last_ok
  have content : ¬ (Text.trim ([Byte.space] ++ (spec.text ++ [Byte.space]))).isEmpty = true := by
    rw [trimmed, List.isEmpty_iff]
    exact spec.nonempty
  rw [readMark_doubleBrace (cut?_inline spec rest) content, trimmed]

/-- A capture `name as alias` is read up to its bracket. -/
theorem readCapture?_append (name : Identifier) (storedAs : Option Identifier) (rest : Text) :
    readCapture? (name.text ++ (renderAlias storedAs ++ (Byte.closeBracket :: rest))) =
      some (⟨name.text, storedAs.map Identifier.text⟩, rest) := by
  cases storedAs with
  | none =>
    have split := splitName?_append name (Byte.closeBracket :: rest)
      (Text.startsOutside_cons.2 rfl)
    rw [renderAlias, List.nil_append, readCapture?, skipGap_append, split]
    rfl
  | some stored =>
    have split := splitName?_append name
      (asWord ++ stored.text ++ (Byte.closeBracket :: rest)) (Text.startsOutside_cons.2 rfl)
    have splitStored := splitName?_append stored (Byte.closeBracket :: rest)
      (Text.startsOutside_cons.2 rfl)
    rw [renderAlias, readCapture?, skipGap_append, split]
    have aliased : afterAs? (skipGap (asWord ++ stored.text ++ (Byte.closeBracket :: rest))) =
        some (stored.text ++ (Byte.closeBracket :: rest)) := rfl
    have apart : (asWord ++ stored.text ++ (Byte.closeBracket :: rest)).head?.any isGap = true := rfl
    dsimp only
    rw [if_pos apart, aliased]
    dsimp only
    rw [skipGap_append, splitStored]
    rfl

/-! ## Scanning pieces -/

/-- A mark that is read is scanned: `scan (b :: rest) = (scan after).map (mark :: ·)`. -/
theorem scan_cons {b : UInt8} {rest after : Text} {mark : Mark}
    (read : readMark b rest = .ok (mark, after)) :
    scan (b :: rest) = (scan after).map (mark :: ·) := by
  rw [scan]
  split
  · next fault failed => rw [read] at failed; cases failed
  · next mark' after' read' =>
    rw [read] at read'
    cases read'
    rfl

/-- An escaped text is scanned byte by byte:
`scan (escape s ++ rest) = (scan rest).map ((Piece.text s).marks ++ ·)`. -/
theorem scan_escape (s rest : Text) :
    scan (escape s ++ rest) = (scan rest).map ((Piece.text s).marks ++ ·) := by
  induction s with
  | nil =>
    show scan rest = _
    cases scan rest <;> rfl
  | cons b s ih =>
    have step : scan (escape (b :: s) ++ rest) = (scan (escape s ++ rest)).map (.literal [b] :: ·) := by
      by_cases h : b ∈ special
      · show scan ((if b ∈ special then _ else _) ++ escape s ++ rest) = _
        rw [if_pos h]
        exact scan_cons (readMark_escaped h _)
      · show scan ((if b ∈ special then _ else _) ++ escape s ++ rest) = _
        rw [if_neg h]
        exact scan_cons (readMark_plain h _)
    rw [step, ih]
    cases scan rest <;> rfl

/-- Every piece is scanned into its marks, whatever follows it:
`scan (piece.render ++ rest) = (scan rest).map (piece.marks ++ ·)`. -/
theorem scan_piece (piece : Piece) (rest : Text) :
    scan (piece.render ++ rest) = (scan rest).map (piece.marks ++ ·) := by
  cases piece with
  | text s => exact scan_escape s rest
  | bind name =>
    rw [Piece.render, List.cons_append, List.append_assoc]
    exact scan_cons (readMark_named name rest)
  | inline spec =>
    rw [Piece.render, List.append_assoc, List.append_assoc]
    exact scan_cons (readMark_inline spec rest)
  | capture name storedAs =>
    rw [Piece.render, List.cons_append, List.append_assoc, List.append_assoc]
    apply scan_cons
    unfold readMark
    rw [if_neg (by decide), if_neg (by decide), if_pos rfl]
    rw [List.singleton_append, readCapture?_append]

/-- Pieces are scanned into their marks: `scan (render pieces) = .ok (pieces.flatMap Piece.marks)`. -/
theorem scan_render (pieces : List Piece) :
    scan (render pieces) = .ok (pieces.flatMap Piece.marks) := by
  induction pieces with
  | nil => rw [render, List.flatMap_nil, scan]; rfl
  | cons piece rest ih =>
    rw [render, List.flatMap_cons, scan_piece]
    show (scan (render rest)).map _ = _
    rw [ih]
    rfl

/-! ## Assembling pieces -/

/-- A text in front of a bind point, or nothing:
`literalRun run ++ .bind point index :: rest = glue run (.bind point index :: rest)`. -/
theorem literalRun_append_bind (run : Text) (point : BindPoint) (index : Nat) (rest : List Segment) :
    literalRun run ++ .bind point index :: rest = glue run (.bind point index :: rest) := by
  by_cases h : run = []
  · rw [h]; rfl
  · rw [literalRun, if_neg h, glue_bind h]
    rfl

/-- The segments of pieces are what their marks assemble to:
`segmentsOf bindings index run pieces = glue run (assemble bindings index (pieces.flatMap Piece.marks))`. -/
theorem segmentsOf_eq_glue (bindings : Bindings) (index : Nat) (run : Text) (pieces : List Piece) :
    segmentsOf bindings index run pieces =
      glue run (assemble bindings index (pieces.flatMap Piece.marks)) := by
  induction pieces generalizing index run with
  | nil =>
    show literalRun run = glue run []
    by_cases h : run = []
    · rw [h]; rfl
    · rw [literalRun, if_neg h, glue_of_nil h]
  | cons piece rest ih =>
    rw [List.flatMap_cons]
    -- Text joins the run; a bind point ends it, and the next run starts empty.
    cases piece with
    | text s =>
      show segmentsOf bindings index (run ++ s) rest = _
      rw [ih, glue_append, Piece.marks, assemble_literals]
    | bind name =>
      show literalRun run ++ .bind _ index :: segmentsOf bindings (index + 1) [] rest = _
      rw [literalRun_append_bind, ih]
      rfl
    | inline spec =>
      show literalRun run ++ .bind _ index :: segmentsOf bindings (index + 1) [] rest = _
      rw [literalRun_append_bind, ih]
      rfl
    | capture name storedAs =>
      show segmentsOf bindings index (run ++ name.text) rest = _
      rw [ih, glue_append]
      rfl

/-- What is found in the marks of single pieces is found in the marks of all of them, in order:
`(pieces.flatMap Piece.marks).filterMap find = pieces.filterMap found`. -/
theorem filterMap_marks {α : Type} {find : Mark → Option α} {found : Piece → Option α}
    (single : ∀ piece : Piece, piece.marks.filterMap find = (found piece).toList)
    (pieces : List Piece) : (pieces.flatMap Piece.marks).filterMap find = pieces.filterMap found := by
  induction pieces with
  | nil => rfl
  | cons piece rest ih =>
    rw [List.flatMap_cons, List.filterMap_append, single, ih, List.filterMap_cons]
    cases found piece with
    | none => rfl
    | some x => rfl

/-- Nothing is found in the marks of a text when nothing is found in those of single bytes:
`(Piece.text s).marks.filterMap find = []`. -/
theorem filterMap_literals {α : Type} {find : Mark → Option α}
    (absent : ∀ b, find (.literal [b]) = none) (s : Text) :
    (Piece.text s).marks.filterMap find = [] := by
  rw [Piece.marks, List.filterMap_map, List.filterMap_eq_nil_iff]
  intro b _
  exact absent b

/-- The marks of pieces have their bind points:
`(pieces.flatMap Piece.marks).filterMap (bindPoint? bindings) = pieces.filterMap (Piece.point? bindings)`. -/
theorem filterMap_bindPoint?_marks (bindings : Bindings) (pieces : List Piece) :
    (pieces.flatMap Piece.marks).filterMap (bindPoint? bindings) =
      pieces.filterMap (Piece.point? bindings) := by
  refine filterMap_marks ?_ pieces
  intro piece
  cases piece with
  | text s => exact filterMap_literals (fun _ => rfl) s
  | bind name => rfl
  | inline spec => rfl
  | capture name storedAs => rfl

/-- The marks of pieces have their captures:
`(pieces.flatMap Piece.marks).filterMap capture? = pieces.filterMap Piece.capture?`. -/
theorem filterMap_capture?_marks (pieces : List Piece) :
    (pieces.flatMap Piece.marks).filterMap capture? = pieces.filterMap Piece.capture? := by
  refine filterMap_marks ?_ pieces
  intro piece
  cases piece with
  | text s => exact filterMap_literals (fun _ => rfl) s
  | bind name => rfl
  | inline spec => rfl
  | capture name storedAs => rfl

/-! ## Classifying what was written -/

/-- `render pieces` classifies as a template with the segments, the bind points, the captures and the kind of these
pieces. -/
theorem classify_render (pieces : List Piece) (bindings : Bindings) :
    ∃ t, classify (render pieces) bindings = .ok t ∧
      t.raw = render pieces ∧
      t.segments = segmentsOf bindings 0 [] pieces ∧
      t.bindPoints = pieces.filterMap (Piece.point? bindings) ∧
      t.captures = pieces.filterMap Piece.capture? ∧
      (t.kind = .literal ↔ t.bindPoints = []) ∧
      (t.kind = .bindref ↔ ∃ point index, t.segments = [.bind point index]) ∧
      (t.kind = .concat ↔ t.bindPoints ≠ [] ∧ ¬ ∃ point index, t.segments = [.bind point index]) := by
  have classified := classify_of_scan (scan_render pieces) bindings
  refine ⟨_, classified, rfl, ?_, ?_, ?_, kind_eq_literal_iff, kind_eq_bindref_iff classified, ?_⟩
  · exact (segmentsOf_eq_glue bindings 0 [] pieces).symm
  · exact filterMap_bindPoint?_marks bindings pieces
  · exact filterMap_capture?_marks pieces
  · exact kind_eq_concat_iff classified

end OpCycle.Template
