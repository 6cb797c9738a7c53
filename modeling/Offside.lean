import Offside.Main
import Offside.Proofs.AlignedSeparators
import Offside.Proofs.Associativity
import Offside.Proofs.ByteScanning
import Offside.Proofs.Confinement
import Offside.Proofs.ContextColumns
import Offside.Proofs.DiagnosticIndependence
import Offside.Proofs.FragmentTexts
import Offside.Proofs.LayoutInsertions
import Offside.Proofs.LiteralValues
import Offside.Proofs.MarkedTrees
import Offside.Proofs.NestedConstructs
import Offside.Proofs.NestingBalance
import Offside.Proofs.OffsetLookup
import Offside.Proofs.Positions
import Offside.Proofs.QualifiedLookup
import Offside.Proofs.RecordLabels
import Offside.Proofs.SilentDedents
import Offside.View.Constraint
import Offside.View.Import
