import OpCycle.Basics.Arithmetic
import OpCycle.Catalog.Basic

/-! # Weighted choice
A choice between labels by weight, written as `label:weight` items between semicolons; a label without a
weight weighs one. A sample between zero and the sum of the weights picks the first label at which the
running sum exceeds it. -/

namespace OpCycle.Basics

/-- A label with its weight. -/
structure Weighted where
  /-- The label. -/
  label : Text
  /-- The weight. -/
  weight : Float
  deriving DecidableEq

/-- Reads one `item`; its weight stands behind the last colon, and is one where there is none. -/
def Weighted.read (item : Text) : Except Refusal Weighted :=
  match Text.cutLast? Byte.colon item with
  | none => .ok ⟨item, 1⟩
  | some (label, weight) =>
    match Binary64.read? weight with
    | some w => if w < 0 then .error (.rule ("invalid weight in '" ++ item ++ "'")) else .ok ⟨label, w⟩
    | none => .error (.rule ("invalid weight in '" ++ item ++ "'"))

/-- Reads the items of `s`, which semicolons divide; empty ones are skipped, and there must be one. -/
def Weighted.readAll (s : Text) : Except Refusal (List Weighted) := do
  let items ← ((Text.splitAll Byte.semicolon s).filter (!·.isEmpty)).mapM Weighted.read
  if items.isEmpty then .error (.rule "no weighted values given") else pure items

/-- The running sums of weights on top of `sum`. -/
def runningSums (sum : Float) : List Weighted → List Float
  | [] => []
  | item :: rest => (sum + item.weight) :: runningSums (sum + item.weight) rest

/-- A table to choose from. -/
structure WeightTable where
  /-- The labels. -/
  labels : List Text
  /-- The running sums of the weights, one for each label. -/
  sums : List Float
  /-- The sum of all weights. -/
  total : Float

/-- The table of the items of `s`, if their weights do not sum to zero or below. -/
def WeightTable.read (s : Text) : Except Refusal WeightTable := do
  let items ← Weighted.readAll s
  let total := items.foldl (fun sum item => sum + item.weight) 0
  if total ≤ 0 then .error (.rule "weights sum to zero")
  else pure ⟨items.map Weighted.label, runningSums 0 items, total⟩

/-- Bisects for the first of `count` floats from a position on that exceeds a sample. -/
def firstAbove (sums : List Float) (sample : Float) (start count : Nat) : Nat :=
  if count = 0 then start
  else
    let half := count / 2
    if sample < (sums[start + half]?.getD 0) then firstAbove sums sample start half
    else firstAbove sums sample (start + half + 1) (count - half - 1)
termination_by count
decreasing_by all_goals omega

/-- The upper 53 bits of `mix n.toUInt64` as a fraction of one. -/
def unitSample (n : Int64) : Float :=
  Binary64.ofDecimal (mix n.toUInt64 >>> 11).toNat 0 / 9007199254740992

/-- The label that `n` picks: the one at the first running sum above `unitSample n * table.total`, and the last one
where no sum is above it. -/
def WeightTable.pick (table : WeightTable) (n : Int64) : Text :=
  let position := firstAbove table.sums (unitSample n * table.total) 0 table.sums.length
  table.labels[min position (table.labels.length - 1)]?.getD []

end OpCycle.Basics
