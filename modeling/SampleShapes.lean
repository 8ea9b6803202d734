import SampleShapes.CommandLine.FileTree
import SampleShapes.Main
import SampleShapes.Proofs.Registry.Unfolding
import SampleShapes.Proofs.Resolution.Acceptance
import SampleShapes.Proofs.Registry.Matching
import SampleShapes.Proofs.Json.Reordering
import SampleShapes.Proofs.Mirroring
import SampleShapes.Proofs.Registry.Liveness
import SampleShapes.Proofs.Registry.Plainness
import SampleShapes.Proofs.Reordering
import SampleShapes.Proofs.Registry.Rounds
import SampleShapes.Proofs.Binding
import SampleShapes.Proofs.Convergence
import SampleShapes.Proofs.Resolution.Inheritance
import SampleShapes.Proofs.Registry.Normality
import SampleShapes.Proofs.Registry.Lasting
import SampleShapes.Proofs.Registry.Grouping
import SampleShapes.Proofs.Registry.Associativity
import SampleShapes.Proofs.Resolution.Keys
import SampleShapes.Proofs.Resolution.Optionality
import SampleShapes.Proofs.Resolution.Subclasses
import SampleShapes.Proofs.Noninterference
import SampleShapes.Proofs.Nesting
import SampleShapes.Proofs.Resolution.Policies
import SampleShapes.Proofs.Resolution.Discarding
import SampleShapes.Proofs.CommandLine.Grouping
import SampleShapes.Proofs.Registry.Operations
import SampleShapes.Proofs.Registry.NormalForm
import SampleShapes.Proofs.Registry.Repeating
import SampleShapes.Proofs.Registry.Absorption
import SampleShapes.Proofs.Repetition
import SampleShapes.Proofs.Resolution.Exactness
import SampleShapes.Proofs.Interchange
import SampleShapes.Proofs.Registry.Placeholders
import SampleShapes.Proofs.Naming.Competition
import SampleShapes.Proofs.Naming.Aliases
import SampleShapes.Proofs.Pruning
import SampleShapes.Proofs.Resolution.Flatness
import SampleShapes.Proofs.Resolution.Arms
import SampleShapes.Proofs.Resolution.Duplicates
import SampleShapes.Proofs.Key.Grammar
import SampleShapes.Proofs.Rendering.TypeText
import SampleShapes.Proofs.Rendering.PropertyName
import SampleShapes.Proofs.Resolution.Identifiers
import SampleShapes.Proofs.Naming.Calls
import SampleShapes.Proofs.Registry.Calls
import SampleShapes.Proofs.Naming.Suffixes
import SampleShapes.Proofs.Registry.Resting
import SampleShapes.Proofs.Convergence
