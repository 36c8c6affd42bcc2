import ServiceDef.Main
import ServiceDef.Proofs.Layout.NormalForm
import ServiceDef.Proofs.Recovery.Containment
import ServiceDef.Proofs.Scanning.Partition
import ServiceDef.Proofs.Comments.Conservation
import ServiceDef.Proofs.Validation.Conformance
import ServiceDef.Proofs.Validation.Invariance
import ServiceDef.Proofs.Validation.RuleOrder
import ServiceDef.Proofs.Placement
import ServiceDef.Proofs.Batch.Scheduling
import ServiceDef.Proofs.Command.Convergence
import ServiceDef.Proofs.Multiplicity
import ServiceDef.Proofs.Layout.Limits
import ServiceDef.Proofs.Layout.Styles
import ServiceDef.Proofs.Recovery.BrokenValue
import ServiceDef.Proofs.Scanning.Locality
import ServiceDef.Proofs.Layout.Lexemes
import ServiceDef.Proofs.Layout.Identity
import ServiceDef.Proofs.Validation.References
import ServiceDef.Proofs.Validation.Duplicates
import ServiceDef.Proofs.Layout.Indentation
import ServiceDef.Proofs.Validation.Redefinitions
import ServiceDef.Proofs.Files.Discovered
import ServiceDef.Proofs.Descent.Progress
