import OpCycle.Main
import OpCycle.Log
import OpCycle.Plan.Lookup
import OpCycle.Plan.Shape
import OpCycle.Proofs.Outcome
import OpCycle.Proofs.Plan.Views
import OpCycle.Proofs.Plan.Compilation
import OpCycle.Proofs.Plan.Interpretation
import OpCycle.Proofs.Template.Assembly
import OpCycle.Proofs.Text.Span
import OpCycle.Proofs.Template.RoundTrip
import OpCycle.Proofs.Text.Numeral
import OpCycle.Proofs.Spec.Grammar
import OpCycle.Proofs.Spec.Tokens
import OpCycle.Proofs.Spec.Recognition
import OpCycle.Proofs.Basics.Shapes
import OpCycle.Proofs.Basics.Chains
import OpCycle.Proofs.Plan.Faults
import OpCycle.Proofs.Plan.Fields
import OpCycle.Proofs.Plan.Consistency
import OpCycle.Proofs.Plan.Reading
import OpCycle.Proofs.Plan.ThreadSafety
import OpCycle.Proofs.Plan.Preprocessing
import OpCycle.Proofs.Workload.Sections
import OpCycle.Proofs.Cli.Precedence
import OpCycle.Proofs.Cli.Rendering
import OpCycle.Proofs.Plan.Settings
import OpCycle.Proofs.Binary64.Nearest
import OpCycle.Proofs.Value.Everywhere
import OpCycle.Proofs.Json.RoundTrip
import OpCycle.Proofs.Settings.History
import OpCycle.Proofs.Catalog.Acceptance
import OpCycle.Proofs.Text.Decimal
import OpCycle.Proofs.Text.Utf8
import OpCycle.Proofs.Json.Strings
import OpCycle.Proofs.Json.Reading
import OpCycle.Proofs.Settings.Arguments
import OpCycle.Proofs.Spec.Joining
import OpCycle.Proofs.Catalog.Composition
import OpCycle.Proofs.Template.Marks
import OpCycle.Proofs.Template.WellFormed
import OpCycle.Proofs.Plan.Positional
import OpCycle.Proofs.Plan.Inline
import OpCycle.Proofs.Template.Independence
import OpCycle.Proofs.Basics.NumberName
import OpCycle.Proofs.Basics.Mixing
import OpCycle.Proofs.Basics.Integers
import OpCycle.Proofs.Spec.Places
import OpCycle.Proofs.Text.Notations
import OpCycle.Proofs.Document.Scalars
import OpCycle.Proofs.Value.IntegerTexts
import OpCycle.Proofs.Value.Texts
import OpCycle.Proofs.Value.Targets
import OpCycle.Proofs.Basics.Weighting
import OpCycle.Proofs.OrderedMap.History
import OpCycle.Proofs.OrderedMap.Layers
import OpCycle.Proofs.Workload.Loading
import OpCycle.Proofs.Workload.InlineFields
import OpCycle.Proofs.Catalog.History
import OpCycle.Proofs.Basics.Lettering
import OpCycle.Proofs.Cli.Arguments
import OpCycle.Proofs.Cli.CycleRanges
import OpCycle.Proofs.Cli.Dealing
import OpCycle.Proofs.Scanners
