import ForensicChain.Library.Json
import ForensicChain.Library.Sha256
import ForensicChain.Ledger.HashChain
import ForensicChain.Library.Postgres
import ForensicChain.Library.TransitionSystem
import ForensicChain.Library.Uuid
import ForensicChain.Ledger.Models
import ForensicChain.Ledger.Servicer
import ForensicChain.Ledger.WriteInvariant
import ForensicChain.Ledger.SoloAppend
import ForensicChain.Ledger.Validation
import ForensicChain.Ledger.WriterChain
import ForensicChain.Ledger.ServedProof
import ForensicChain.Ledger.CommitOrder
import ForensicChain.Ledger.Atomicity
import ForensicChain.Evidence.Models
import ForensicChain.Evidence.Verification
import ForensicChain.Evidence.Tampering
import ForensicChain.Custody.Models
import ForensicChain.Custody.Consumer
import ForensicChain.Custody.Timeline
import ForensicChain.Library.DateTime
import ForensicChain.Library.LatestChain
import ForensicChain.Custody.Envelope
import ForensicChain.Pipeline.Model
import ForensicChain.Pipeline.Delivery
import ForensicChain.Custody.Order
import ForensicChain.Custody.PersistOrder
import ForensicChain.Pipeline.Order
import ForensicChain.Evidence.Upload
import ForensicChain.Ledger.Provenance
import ForensicChain.Evidence.System
import ForensicChain.Evidence.Ingestion
import ForensicChain.Evidence.UploadRun
import ForensicChain.Gateway.Rbac
import ForensicChain.Library.UrlPath
import ForensicChain.Evidence.Download
import ForensicChain.Gateway.Download
import ForensicChain.Gateway.Agreement
import ForensicChain.Auth.Models
import ForensicChain.Auth.CaseNumber
import ForensicChain.Auth.Admin
import ForensicChain.Auth.System
import ForensicChain.Auth.Assignments
import ForensicChain.Auth.Deletion
import ForensicChain.Library.Header
import ForensicChain.Auth.Tokens
import ForensicChain.Evidence.CaseLedgers
import ForensicChain.Library.Utf8
import ForensicChain.Library.Url
import ForensicChain.Auth.Lookup
import ForensicChain.Evidence.Steps
import ForensicChain.Evidence.VerificationInvariant
import ForensicChain.Evidence.Exactness
import ForensicChain.Evidence.UploadOutcome
import ForensicChain.Evidence.Rejection
import ForensicChain.Evidence.Access
import ForensicChain.Evidence.CaseRows
import ForensicChain.Evidence.Corruption
import ForensicChain.Pipeline.Carried
import ForensicChain.Pipeline.ConsumerLoop
import ForensicChain.Pipeline.ArtifactOrder
import ForensicChain.Pipeline.Starvation
import ForensicChain.Reports.Models
import ForensicChain.Reports.Requests
import ForensicChain.Reports.Generation
import ForensicChain.Reports.AllOrNothing
import ForensicChain.Reports.GenerationSteps
import ForensicChain.Evidence.Listing
import ForensicChain.Platform.System
import ForensicChain.Reports.RequestInvariant
import ForensicChain.Platform.Cases
import ForensicChain.Platform.Runs
import ForensicChain.Platform.Disclosure
import ForensicChain.Library.Numeric
import ForensicChain.Library.FileTree
import ForensicChain.Custody.RowHash
import ForensicChain.Evidence.TempFiles
import ForensicChain.Evidence.TempInvariant
import ForensicChain.Evidence.TempStatements
import ForensicChain.Library.Refinement
import ForensicChain.Library.RouteTemplate
import ForensicChain.Library.JsonText
import ForensicChain.Evidence.Documentation
import ForensicChain.Platform.EventKinds
import ForensicChain.Platform.Documentation
import ForensicChain.Platform.Wire
import ForensicChain.Custody.Wire
import ForensicChain.Auth.Views
import ForensicChain.Platform.References
import ForensicChain.Ledger.Atomic
import ForensicChain.Gateway.Mediation
import ForensicChain.Ledger.Rest
import ForensicChain.Auth.LedgerAccess
import ForensicChain.Auth.Expiry
import ForensicChain.Reports.StoredFiles
import ForensicChain.Platform.ReportFiles
import ForensicChain.Ui.Navigation
import ForensicChain.Ui.Requests
import ForensicChain.Ui.Access
import ForensicChain.Platform.History
import ForensicChain.Platform.AuditTrail
import ForensicChain.Library.Broker
import ForensicChain.Platform.Routing
import ForensicChain.Library.Interleaving
import ForensicChain.Auth.Statements
import ForensicChain.Auth.Concurrent
