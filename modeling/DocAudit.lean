import DocAudit.Audit
import DocAudit.Change.Json
import DocAudit.Config.File
import DocAudit.KeyPath.Grammar
import DocAudit.Proofs.ExactComparison
import DocAudit.Proofs.KeyPath.RoundTrip
import DocAudit.Proofs.Verdict
import DocAudit.Proofs.Edit.Atomicity
import DocAudit.Proofs.Edit.Effect
import DocAudit.Proofs.Edit.Agreement
import DocAudit.Proofs.Edit.Order
import DocAudit.Proofs.ReplayOrder
import DocAudit.Proofs.ReportedPath
import DocAudit.Proofs.AlikeTrees
import DocAudit.Proofs.Edit.Removal
import DocAudit.Proofs.Edit.Invariance
import DocAudit.Proofs.Edit.Canonicity
import DocAudit.Proofs.AlikeEdits
import DocAudit.Proofs.AlikeReplay
import DocAudit.Proofs.SingleChange
import DocAudit.Proofs.HonestRun
import DocAudit.Proofs.SymmetricComparison
import DocAudit.Proofs.ComparisonEquivalence
import DocAudit.Proofs.JsonRoundTrip
import DocAudit.Proofs.LastBatch
import DocAudit.Proofs.BlobsInPlace
import DocAudit.Proofs.PathRequests
import DocAudit.Proofs.RecordedRuns
import DocAudit.Proofs.ResponseRoundTrip
import DocAudit.Proofs.Edit.Refusal
import DocAudit.Proofs.Edit.RemovalEffect
import DocAudit.Proofs.Edit.Restoring
import DocAudit.Proofs.NumericWords
import DocAudit.Proofs.KeyPath.WrittenApart
import DocAudit.Proofs.DistinctReports
import DocAudit.Proofs.KeyPath.FaultPosition
import DocAudit.Proofs.Edit.Growth
import DocAudit.Proofs.ConfinedLoading
import DocAudit.Proofs.ChangeRoundTrip
