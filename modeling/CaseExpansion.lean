import CaseExpansion.Main
import CaseExpansion.Proofs.CommandLine.Batches
import CaseExpansion.Proofs.CommandLine.SeparateRuns
import CaseExpansion.Proofs.Directive.DirectoryLists
import CaseExpansion.Proofs.Directive.Failures
import CaseExpansion.Proofs.Directive.RoundTrip
import CaseExpansion.Proofs.Directive.Splitting
import CaseExpansion.Proofs.Generator.CaseOrder
import CaseExpansion.Proofs.Generator.Content
import CaseExpansion.Proofs.Generator.Fates
import CaseExpansion.Proofs.Generator.FlippedGuard
import CaseExpansion.Proofs.Generator.NegatedTag
import CaseExpansion.Proofs.Generator.Reports
import CaseExpansion.Proofs.Generator.Sessions
import CaseExpansion.Proofs.Generator.Unformatted
import CaseExpansion.Proofs.Identifiers
import CaseExpansion.Proofs.Linter.Agreement
import CaseExpansion.Proofs.Linter.Settings
import CaseExpansion.Proofs.OutputNames
import CaseExpansion.Proofs.Rendering.Layout
import CaseExpansion.Proofs.Template.Acceptance
import CaseExpansion.Proofs.Template.Capture
import CaseExpansion.Proofs.Template.DirectoryLoading
import CaseExpansion.Proofs.Template.DocLines
import CaseExpansion.Proofs.Template.NamePositions
import CaseExpansion.Proofs.Template.Occurrence
import CaseExpansion.Proofs.Template.Signature
import CaseExpansion.Proofs.Template.StrictReading
