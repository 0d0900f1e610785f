import BridgeMethods.Data.Json.Printer
import BridgeMethods.Data.Json.Reader
import BridgeMethods.Definition.Document
import BridgeMethods.Definition.Loading
import BridgeMethods.Definition.Scenario
import BridgeMethods.Files.Tree
import BridgeMethods.Main
import BridgeMethods.Matcher
import BridgeMethods.Pool.Validation
import BridgeMethods.Report.Format
import BridgeMethods.Proofs.Flags
import BridgeMethods.Proofs.Pool.Acceptance
import BridgeMethods.Proofs.View.Root
import BridgeMethods.Proofs.View.Erasure
import BridgeMethods.Proofs.View.Signature
import BridgeMethods.Proofs.Classification.Locality
import BridgeMethods.Proofs.Pool.Change
import BridgeMethods.Proofs.Pool.Reordering
import BridgeMethods.Proofs.Classification.MethodOrder
import BridgeMethods.Proofs.Classification.Families
import BridgeMethods.Proofs.Classification.NearestAncestor
import BridgeMethods.Proofs.Classification.TypeVariables
import BridgeMethods.Proofs.Pool.Union
import BridgeMethods.Proofs.Classification.Selection
import BridgeMethods.Proofs.Classification.Independence
import BridgeMethods.Proofs.Classification.Compatibility
import BridgeMethods.Proofs.Pool.Refusal
import BridgeMethods.Proofs.View.Correspondence
import BridgeMethods.Proofs.Classification.RawSuperClass
import BridgeMethods.Proofs.TypeExpr.Renaming
import BridgeMethods.Proofs.View.Renaming
import BridgeMethods.Proofs.Pool.Renaming
import BridgeMethods.Proofs.Classification.VariableNames
import BridgeMethods.Proofs.TypeExpr.Faults
import BridgeMethods.Proofs.Classification.Accounting
import BridgeMethods.Proofs.Classification.Narrowing
import BridgeMethods.Proofs.Command.Failures
import BridgeMethods.Proofs.Files.Path
import BridgeMethods.Proofs.Settings.Discovery
import BridgeMethods.Proofs.Files.Nesting
import BridgeMethods.Proofs.Command.Effects
import BridgeMethods.Proofs.Data.Json.Lexemes
import BridgeMethods.Proofs.Data.Json.RoundTrip
import BridgeMethods.Proofs.Report.Json
import BridgeMethods.Proofs.Report.Terminal
import BridgeMethods.Proofs.Report.Grouping
import BridgeMethods.Proofs.Data.Omission
import BridgeMethods.Proofs.Definition.RoundTrip
import BridgeMethods.Proofs.TypeExpr.Heads
import BridgeMethods.Proofs.View.VariableUse
import BridgeMethods.Proofs.View.Regular
import BridgeMethods.Proofs.View.BoundLimit
import BridgeMethods.Proofs.TypeExpr.Resolution
import BridgeMethods.Proofs.Pool.Arena.Filling
