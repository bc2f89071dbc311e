import OpCycle.Basics.Library
import OpCycle.Proofs.Catalog.Composition
import OpCycle.Proofs.Plan.Faults
import OpCycle.Proofs.Template.Marks

/-! # Inline and named bindings
A specification can be written into a text in double braces, or be bound to a name that stands there in
braces. Both mean the same unless two closing braces stand in a row in the specification, as they may in a
quoted argument: there an inline specification ends, and what is left of it is none.

* `HasClosing`: two closing braces stand in a row in a specification.
* `IsReference`, `MeansSame`: lone bind points, and op templates that mean the same.
* `inline_means_named`: inline and named bindings mean the same without such braces. -/

namespace OpCycle

/-! ## Texts that are one bind point -/

namespace Template

/-- The `name` in braces. -/
def namedText (name : Identifier) : Text := Byte.openBrace :: (name.text ++ [Byte.closeBrace])

/-- The specification `spec` in double braces. -/
def inlineText (spec : Text) : Text :=
  Byte.openBrace :: Byte.openBrace :: (spec ++ [Byte.closeBrace, Byte.closeBrace])

/-- Two closing braces stand in a row in `s`. -/
def HasClosing (s : Text) : Prop := [Byte.closeBrace, Byte.closeBrace] <:+: s

/-- The text `raw` is classified as the bind point `point` and nothing else. -/
def IsReference (raw : Text) (bindings : Bindings) (point : BindPoint) : Prop :=
  ∃ t, classify raw bindings = .ok t ∧ t.kind = .bindref ∧ t.bindPoints = [point]

variable {raw spec s : Text} {bindings : Bindings} {marks : List Mark} {calls : List Spec.Call}

/-- A text that is scanned into one mark, which is a bind point, is classified as that:
`IsReference raw bindings point`. -/
theorem isReference_of_scan {mark : Mark} {point : BindPoint} (scanned : scan raw = .ok [mark])
    (isPoint : bindPoint? bindings mark = some point) : IsReference raw bindings point := by
  refine ⟨_, classify_of_scan scanned bindings, ?_, ?_⟩
  · cases mark with
    | literal text => cases isPoint
    | capture c => cases isPoint
    | named name => rfl
    | inline spec => rfl
  · rw [List.filterMap_cons_some isPoint, List.filterMap_nil]

/-- A name in braces is one mark: `scan (namedText name) = .ok [.named name.text]`. -/
theorem scan_named (name : Identifier) : scan (namedText name) = .ok [.named name.text] := by
  rw [namedText, scan_cons (readMark_named name []), scan, Outcome.map_ok]

/-- A specification in double braces is one mark, if the braces behind it are the first two that close it:
`scan (inlineText spec) = .ok [.inline (Text.trim spec)]`. -/
theorem scan_inline (content : Text.trim spec ≠ []) (unclosed : ¬ HasClosing spec)
    (last : ¬ [Byte.closeBrace] <:+ spec) : scan (inlineText spec) = .ok [.inline (Text.trim spec)] := by
  have absent : ¬ [Byte.closeBrace, Byte.closeBrace] <:+: spec ++ [Byte.closeBrace] := by
    -- The pair would end in the added brace, and start with a last one of the specification.
    intro found
    rcases List.infix_concat_iff.1 found with ⟨before, same⟩ | found
    · exact last ⟨before, List.append_cancel_right (by rw [List.append_assoc]; exact same)⟩
    · exact unclosed found
  have cut := Text.cut?_append (List.cons_ne_nil _ _) absent []
  rw [List.append_nil] at cut
  rw [inlineText, scan_cons (readMark_doubleBrace cut (by rwa [List.isEmpty_iff])), scan, Outcome.map_ok]

/-- What is read behind double braces is what stands before the first two that close them: `∃ padded, Text.cut?
[Byte.closeBrace, Byte.closeBrace] inner = some (padded, after) ∧ mark = .inline (Text.trim padded)`. -/
theorem exists_cut_of_readMark {inner after : Text} {mark : Mark}
    (read : readMark Byte.openBrace (Byte.openBrace :: inner) = .ok (mark, after)) :
    ∃ padded, Text.cut? [Byte.closeBrace, Byte.closeBrace] inner = some (padded, after) ∧
      mark = .inline (Text.trim padded) := by
  unfold readMark at read
  rw [if_neg (by decide), if_pos rfl] at read
  split at read
  · next inner' same =>
    cases same
    split at read
    · cases read
    next padded behind cut =>
    split at read
    · cases read
    cases read
    exact ⟨padded, cut, rfl⟩
  · next single => exact absurd rfl (single inner)

/-- What is scanned of `inlineText spec` is the part of it before the first two braces that close it, and then what
stands behind these. -/
theorem exists_cut_of_scan (scanned : scan (inlineText spec) = .ok marks) :
    ∃ padded after others, Text.cut? [Byte.closeBrace, Byte.closeBrace]
        (spec ++ [Byte.closeBrace, Byte.closeBrace]) = some (padded, after) ∧
      scan after = .ok others ∧ marks = .inline (Text.trim padded) :: others := by
  rw [inlineText, scan] at scanned
  split at scanned
  · cases scanned
  next mark after read =>
  obtain ⟨others, behind, rfl⟩ := Spec.map_eq_ok scanned
  obtain ⟨padded, cut, rfl⟩ := exists_cut_of_readMark read
  exact ⟨padded, after, others, cut, behind, rfl⟩

/-- The first two closing braces are those behind the specification, or it goes on with one where they start:
`padded = spec ∨ after ≠ [] ∧ ∃ behind, spec = padded ++ Byte.closeBrace :: behind`. -/
theorem cut_cases {padded after : Text} (cut : Text.cut? [Byte.closeBrace, Byte.closeBrace]
      (spec ++ [Byte.closeBrace, Byte.closeBrace]) = some (padded, after)) :
    padded = spec ∨ after ≠ [] ∧ ∃ behind, spec = padded ++ Byte.closeBrace :: behind := by
  have same := Text.eq_append_of_cut? cut
  cases after with
  | nil => exact .inl (List.append_cancel_right same).symm
  | cons b after =>
    -- Something stands behind the braces that were found, so the first of them belongs to the specification.
    refine .inr ⟨List.cons_ne_nil b after, ?_⟩
    have front : padded ++ [Byte.closeBrace] <+: spec ++ [Byte.closeBrace, Byte.closeBrace] := by
      rw [same, List.prefix_append_right_inj]
      exact List.prefix_append [Byte.closeBrace] _
    have long : (padded ++ [Byte.closeBrace]).length ≤ spec.length := by
      have lengths := congrArg List.length same
      simp only [List.length_append, List.length_cons, List.length_nil] at lengths ⊢
      omega
    obtain ⟨behind, split⟩ := List.prefix_of_prefix_length_le front (List.prefix_append spec _) long
    exact ⟨behind, by rw [← split, List.append_assoc, List.singleton_append]⟩

/-! ## Specifications in double braces -/

/-- A specification in double braces is classified as one bind point exactly if it has no two closing braces in a row:
`(∃ point, IsReference (inlineText s) bindings point) ↔ ¬ HasClosing s`. -/
theorem isReference_inline_iff (h : Spec.Specification s calls) (bindings : Bindings) :
    (∃ point, IsReference (inlineText s) bindings point) ↔ ¬ HasClosing s := by
  constructor
  · rintro ⟨point, t, classified, kind, -⟩ closing
    obtain ⟨_, segments, -⟩ := bindPoints_of_bindref classified kind
    obtain ⟨marks, scanned, rfl⟩ := exists_scan_of_classify classified
    obtain ⟨padded, after, others, cut, behind, rfl⟩ := exists_cut_of_scan scanned
    rcases cut_cases cut with rfl | ⟨nonempty, -⟩
    · exact Text.not_infix_of_cut? (List.cons_ne_nil _ _) cut closing
    · -- What stands behind the first two closing braces leaves a segment of its own.
      rw [assemble, List.cons.injEq] at segments
      exact (scan_sound behind).assemble_ne_nil nonempty bindings 1 segments.2
  · intro unclosed
    have scanned := scan_inline h.trim_ne_nil unclosed h.not_closeBrace_suffix
    exact ⟨_, isReference_of_scan scanned rfl⟩

/-- With two closing braces in a row in a specification, what is read in front of them is none:
`∃ spec others, marks = .inline spec :: others ∧ ∀ calls', ¬ Spec.Specification spec calls'`. -/
theorem not_specification_of_closing (h : Spec.Specification s calls) (closing : HasClosing s)
    (scanned : scan (inlineText s) = .ok marks) :
    ∃ spec others, marks = .inline spec :: others ∧ ∀ calls', ¬ Spec.Specification spec calls' := by
  obtain ⟨padded, after, others, cut, -, rfl⟩ := exists_cut_of_scan scanned
  refine ⟨Text.trim padded, others, rfl, fun calls' derived => ?_⟩
  rcases cut_cases cut with rfl | ⟨-, behind, rfl⟩
  · exact Text.not_infix_of_cut? (List.cons_ne_nil _ _) cut closing
  · exact (Spec.Specification.trim_iff.1 derived).not_append rfl (fun same => (by cases same)) behind h

end Template

/-! ## Ops with one text -/

/-- The op with `text` as its only `field`, and these `bindings`. -/
def Op.withText (op : Op) (field text : Text) (bindings : Bindings) : Op :=
  { op with fields := some ⟨[(field, .text text)]⟩, bindings }

namespace Plan

open Template (HasClosing IsReference inlineText namedText)

variable {op : Op} {field raw raw' : Text} {bindings bindings' : Bindings} {activity : Option Activity}
  {catalog : Catalog} {allowUnsafe : Bool} {point point' : BindPoint} {calls : List Spec.Call}

/-- The outcomes `first` and `second` mean the same for `field`: both are plans, and a get of it agrees at every
cycle; or neither is one, for want of what a bind point needs. -/
def MeansSame (field : Text) (first second : Except PlanError Plan) : Prop :=
  (∃ p q, first = .ok p ∧ second = .ok q ∧ ∀ cycle, p.get field cycle = q.get field cycle) ∨
    ∃ u v, first = .error (.unbound u) ∧ second = .error (.unbound v)

/-- A bind point whose specification parses has the steps of its `calls`. -/
theorem chain_of_parse (parsed : Spec.parse point.spec = .ok calls) :
    point.chain catalog allowUnsafe field =
      ((catalog.resolveCalls allowUnsafe Flow.start calls).map fun made => (⟨point.spec, made.1⟩ : Chain)).mapError
        fun _ => ⟨field, point.spec, point.anchor⟩ := by
  have resolved : point.isResolved = true := by
    rw [BindPoint.isResolved, Bool.not_eq_true', List.isEmpty_eq_false_iff]
    intro none
    rw [none] at parsed
    cases parsed
  rw [BindPoint.chain, if_pos resolved, Catalog.lookup, Catalog.resolve, Catalog.resolveSteps_of_parse parsed]
  cases catalog.resolveCalls allowUnsafe Flow.start calls with
  | error fault => rfl
  | ok made => rfl

/-- The plan of `op` with one `field`, which is bound to `chain`. -/
def ofChain (op : Op) (activity : Option Activity) (field : Text) (captures : List (List Capture))
    (chain : Chain) : Plan :=
  let fields := [⟨field, .bound (.chain chain)⟩]
  ⟨op, activity, allowsUnsafe activity, fields, captures, Views.ofFields fields⟩

/-- A get of the field applies the chain:
`(ofChain op activity field captures chain).get field cycle = chain.apply cycle`. -/
theorem get_ofChain {captures : List (List Capture)} (chain : Chain) (cycle : Int64) :
    (ofChain op activity field captures chain).get field cycle = chain.apply cycle := by
  have found : (ofChain op activity field captures chain).field? field = some ⟨field, .bound (.chain chain)⟩ :=
    List.find?_cons_of_pos (decide_eq_true rfl)
  rw [get, found]
  rfl

/-- An op whose only field is a bind point, by `IsReference`, makes a plan if the bind point can be bound: `ofChain`
of its chain. -/
theorem compile_reference (reference : IsReference raw bindings point) (op : Op) (field : Text)
    (activity : Option Activity) (catalog : Catalog) :
    ∃ captures, compile (op.withText field raw bindings) activity [] catalog =
      ((point.chain catalog (allowsUnsafe activity) field).mapError .unbound).map
        (ofChain (op.withText field raw bindings) activity field captures) := by
  obtain ⟨t, classified, kind, points⟩ := reference
  have body : bindTemplate ⟨catalog, allowsUnsafe activity, bindings⟩ field raw t =
      (point.chain catalog (allowsUnsafe activity) field).map fun chain => .bound (.chain chain) := by
    rw [bindTemplate, kind, points]
  refine ⟨[t.captures], ?_⟩
  show (compileFields ⟨catalog, allowsUnsafe activity, bindings⟩ [(field, .text raw)] >>= _) = _
  rw [compileFields, compileField, classified, Outcome.mapError_ok, Outcome.ok_bind, body]
  cases point.chain catalog (allowsUnsafe activity) field with
  | error u => rfl
  | ok chain => rfl

/-- Bind points whose specifications have the same `calls` mean the same, each as the only field of an op. -/
theorem meansSame_of_calls (first : IsReference raw bindings point) (second : IsReference raw' bindings' point')
    (parsed : Spec.parse point.spec = .ok calls) (parsed' : Spec.parse point'.spec = .ok calls) :
    MeansSame field (compile (op.withText field raw bindings) activity [] catalog)
      (compile (op.withText field raw' bindings') activity [] catalog) := by
  obtain ⟨captures, made⟩ := compile_reference first op field activity catalog
  obtain ⟨captures', made'⟩ := compile_reference second op field activity catalog
  -- Both chains are made of what the calls resolve to, and only their errors and their texts differ.
  rw [made, made', chain_of_parse parsed, chain_of_parse parsed']
  cases catalog.resolveCalls (allowsUnsafe activity) Flow.start calls with
  | error fault => exact .inr ⟨_, _, rfl, rfl⟩
  | ok steps =>
    refine .inl ⟨_, _, rfl, rfl, fun cycle => ?_⟩
    rw [get_ofChain, get_ofChain]
    rfl

/-- A text that is no specification does not resolve: `∃ e, catalog.resolve spec allowUnsafe = .error e`. -/
theorem resolve_fails {spec : Text} (none : ∀ calls, ¬ Spec.Specification spec calls) :
    ∃ e, catalog.resolve spec allowUnsafe = .error e := by
  cases parsed : Spec.parse spec with
  | error e => exact ⟨⟨spec, .malformed e⟩, by rw [Catalog.resolve, Catalog.resolveSteps, parsed]⟩
  | ok calls => exact absurd (Spec.parse_eq_ok_iff.1 parsed) (none calls)

/-- With two closing braces in a row in the specification, an op with it in double braces makes no plan:
`∃ e, compile (op.withText field (inlineText s) bindings) activity [] catalog = .error e`. -/
theorem compile_inline_fails {s : Text} (h : Spec.Specification s calls) (closing : HasClosing s) :
    ∃ e, compile (op.withText field (inlineText s) bindings) activity [] catalog = .error e := by
  have faulty : (binderOf (op.withText field (inlineText s) bindings) activity catalog).Faulty
      (field, .text (inlineText s)) := by
    refine ⟨_, rfl, ?_⟩
    cases scanned : Template.scan (inlineText s) with
    | error stop => exact .inl ⟨_, by rw [Template.classify, scanned]⟩
    | ok marks =>
      -- The first bind point has a specification that is cut in the middle of a quoted argument.
      obtain ⟨spec, others, rfl, none⟩ := Template.not_specification_of_closing h closing scanned
      exact .inr ⟨_, Template.classify_of_scan scanned _, ⟨spec, spec⟩, List.mem_cons_self,
        .inr (resolve_fails none)⟩
  obtain ⟨e, failed⟩ := compileFields_fails_iff.2 ⟨_, List.mem_singleton_self _, faulty⟩
  exact ⟨e, (compile_eq_error_iff rfl).2 failed⟩

/-- **An inline binding means the same as a named one, if two closing braces do not stand in a row in it.** A name in
braces is classified as one bind point, as `IsReference` says, and a specification in double braces exactly if not
`HasClosing`. Then `MeansSame` holds of the op with the one and the op with the other; but with such braces the op
with the specification in double braces makes no plan. -/
theorem inline_means_named {s : Text} {calls : List Spec.Call} (accepted : Spec.parse s = .ok calls)
    (name : Template.Identifier) {bindings : Bindings} (bound : bindings.find? name.text = some s)
    (others : Bindings) (op : Op) (field : Text) (activity : Option Activity) (catalog : Catalog) :
    (∃ point, IsReference (namedText name) bindings point) ∧
      ((∃ point, IsReference (inlineText s) others point) ↔ ¬ HasClosing s) ∧
      (¬ HasClosing s →
        MeansSame field (compile (op.withText field (inlineText s) others) activity [] catalog)
          (compile (op.withText field (namedText name) bindings) activity [] catalog)) ∧
      (HasClosing s →
        ∃ e, compile (op.withText field (inlineText s) others) activity [] catalog = .error e) := by
  have derived := Spec.parse_eq_ok_iff.1 accepted
  have named : IsReference (namedText name) bindings ⟨name.text, s⟩ :=
    Template.isReference_of_scan (Template.scan_named name) (by rw [Template.bindPoint?, bound]; rfl)
  refine ⟨⟨_, named⟩, Template.isReference_inline_iff derived others, fun unclosed => ?_, compile_inline_fails derived⟩
  have inline : IsReference (inlineText s) others ⟨Text.trim s, Text.trim s⟩ :=
    Template.isReference_of_scan
      (Template.scan_inline derived.trim_ne_nil unclosed derived.not_closeBrace_suffix) rfl
  exact meansSame_of_calls inline named (Spec.parse_eq_ok_iff.2 (Spec.Specification.trim_iff.2 derived)) accepted

/-- A name for specifications. -/
def sampleName : Template.Identifier := ⟨0x6e, [], .inl rfl, fun _ mem => absurd mem List.not_mem_nil⟩

/-- The specification under that name. -/
def namedAs (spec : Text) : Bindings := .ofList [(sampleName.text, spec)]

/-- An op that names the specification. -/
def namedOp (spec : Text) : Op := Op.blank.withText "f" (namedText sampleName) (namedAs spec)

/-- An op with `spec` written inline. -/
def inlineOp (spec : Text) : Op := Op.blank.withText "f" (inlineText spec) ∅

/-- A specification with white space around it, and a single closing brace in a quoted argument. -/
def braceSpec : Text := " Mod(10); Prefix('\x7d') "

/-- Both ops of that specification make plans, which agree at every cycle. -/
theorem inline_means_named_sample :
    ∃ calls, Spec.parse braceSpec = .ok calls ∧ (namedAs braceSpec).find? sampleName.text = some braceSpec ∧
      ¬ HasClosing braceSpec ∧
      ∃ p q, compile (inlineOp braceSpec) none [] Basics.catalog = .ok p ∧
        compile (namedOp braceSpec) none [] Basics.catalog = .ok q ∧
        (∀ cycle, p.get "f" cycle = q.get "f" cycle) ∧
        ∃ point, IsReference (inlineText braceSpec) ∅ point := by
  obtain ⟨calls, accepted, -⟩ := Outcome.exists_ok_of_test (x := Spec.parse braceSpec) (fun _ => true)
    (by decide +kernel)
  have bound : (namedAs braceSpec).find? sampleName.text = some braceSpec := by decide +kernel
  have unclosed : ¬ HasClosing braceSpec := by
    unfold HasClosing
    decide +kernel
  obtain ⟨-, reference, same, -⟩ :=
    inline_means_named accepted sampleName bound ∅ .blank "f" none Basics.catalog
  obtain ⟨p, q, first, second, agree⟩ | ⟨u, v, refused, -⟩ := same unclosed
  · exact ⟨calls, accepted, bound, unclosed, p, q, first, second, agree, reference.2 unclosed⟩
  · have makes : (compile (inlineOp braceSpec) none [] Basics.catalog).toBool = true := by decide +kernel
    change compile (inlineOp braceSpec) none [] Basics.catalog = _ at refused
    rw [refused] at makes
    cases makes

/-- A specification with two closing braces in a row in a quoted argument. -/
def closingSpec : Text := "Prefix('\x7d\x7d')"

/-- The op that names `closingSpec` makes a plan, and puts the braces in front of the cycle; the one with the
specification inline does not, as it is cut in the middle of the argument. -/
theorem quoted_closing_refused :
    ∃ calls q, Spec.parse closingSpec = .ok calls ∧
      compile (namedOp closingSpec) none [] Basics.catalog = .ok q ∧
      q.get "f" 7 = .ok (.text "\x7d\x7d7") ∧
      (∃ u, compile (inlineOp closingSpec) none [] Basics.catalog = .error (.unbound u)) ∧
      ¬ ∃ point, IsReference (inlineText closingSpec) ∅ point := by
  obtain ⟨calls, accepted, -⟩ := Outcome.exists_ok_of_test (x := Spec.parse closingSpec) (fun _ => true)
    (by decide +kernel)
  obtain ⟨q, made, value⟩ := Outcome.exists_ok_of_test
    (x := compile (namedOp closingSpec) none [] Basics.catalog)
    (fun q => (q.get "f" 7).toOption.any (· == .text "\x7d\x7d7")) (by decide +kernel)
  have refused : (match compile (inlineOp closingSpec) none [] Basics.catalog with
      | .error (.unbound _) => true
      | _ => false) = true := by
    decide +kernel
  have closing : HasClosing closingSpec := by
    unfold HasClosing
    decide +kernel
  refine ⟨calls, q, accepted, made, ?_, ?_, ?_⟩
  · obtain ⟨v, given, text⟩ := Outcome.exists_ok_of_test _ value
    rw [given, Value.beq_text_iff.1 text]
  · split at refused
    · next u failed => exact ⟨u, failed⟩
    · cases refused
  · rw [Template.isReference_inline_iff (Spec.parse_eq_ok_iff.1 accepted)]
    exact fun unclosed => unclosed closing

end Plan

end OpCycle
