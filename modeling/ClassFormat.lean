import ClassFormat.Main
import ClassFormat.Proofs.Document.Convergence
import ClassFormat.Proofs.Tag.Scanning
import ClassFormat.Proofs.Document.Visible
import ClassFormat.Proofs.Document.Header
import ClassFormat.Proofs.Document.Attributes
import ClassFormat.Proofs.Packing.Order
import ClassFormat.Proofs.Document.Edits
import ClassFormat.Proofs.Document.Uniformity
import ClassFormat.Proofs.Command.Explain
import ClassFormat.Proofs.Command.Modes
import ClassFormat.Proofs.Command.Failure
import ClassFormat.Proofs.Packing.Division
import ClassFormat.Proofs.Packing.Layout
import ClassFormat.Proofs.Edit
import ClassFormat.Proofs.Packing.Variants
import ClassFormat.Proofs.Configuration
import ClassFormat.Proofs.Session
