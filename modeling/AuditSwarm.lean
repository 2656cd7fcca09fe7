import AuditSwarm.Lib.Dict
import AuditSwarm.Lib.Proc
import AuditSwarm.Lib.Run
import AuditSwarm.Model.Decisions
import AuditSwarm.Model.Dump
import AuditSwarm.Model.Evidence
import AuditSwarm.Model.Flow
import AuditSwarm.Model.Generation
import AuditSwarm.Model.Policy
import AuditSwarm.Model.Schema
import AuditSwarm.Model.State
import AuditSwarm.Model.Status
import AuditSwarm.Model.System
import AuditSwarm.Model.Trail
import AuditSwarm.Python.Json
import AuditSwarm.Python.Runtime
import AuditSwarm.Python.Text
import AuditSwarm.Run.Actions
import AuditSwarm.Trail.Append
import AuditSwarm.Run.Generation
import AuditSwarm.Run.Steps
import AuditSwarm.Properties.GateOrder
import AuditSwarm.Decisions.Build
import AuditSwarm.Properties.Segregation
import AuditSwarm.Properties.Atomicity
import AuditSwarm.Lib.SealedChain
import AuditSwarm.Trail.Chain
import AuditSwarm.Trail.Verify
import AuditSwarm.Trail.Built
import AuditSwarm.Properties.AnchoredChain
import AuditSwarm.Properties.TamperPriority
import AuditSwarm.Properties.Unforgeability
import AuditSwarm.Model.Anchors
import AuditSwarm.Properties.AnchorMonotone
import AuditSwarm.Decisions.Slots
import AuditSwarm.Properties.GateEntry
import AuditSwarm.Properties.RunsEnd
import AuditSwarm.Properties.DecisionSlots
import AuditSwarm.Decisions.View
import AuditSwarm.Properties.SealedRecord
import AuditSwarm.Decisions.Sorted
import AuditSwarm.Run.Entries
import AuditSwarm.Run.RecordedDecisions
import AuditSwarm.Properties.AcceptedDecisions
import AuditSwarm.Decisions.Scale
import AuditSwarm.Properties.Rework
import AuditSwarm.Properties.OneScale
import AuditSwarm.Decisions.Gates
import AuditSwarm.Properties.GateCoverage
import AuditSwarm.Decisions.Reviews
import AuditSwarm.Model.Assessment
import AuditSwarm.Properties.AcceptedControls
import AuditSwarm.Properties.ExceptionsKept
import AuditSwarm.Properties.Provenance
import AuditSwarm.Model.Stored
import AuditSwarm.Model.Repository
import AuditSwarm.Persist.RoundTrip
import AuditSwarm.Persist.Snapshot
import AuditSwarm.Properties.Restart
import AuditSwarm.Properties.LoadThenSave
import AuditSwarm.Lib.Returns
import AuditSwarm.Properties.VerificationReturns
import AuditSwarm.Lib.Links
import AuditSwarm.Model.Migration
import AuditSwarm.Vault.Check
import AuditSwarm.Vault.Redaction
import AuditSwarm.Vault.Exceptions
import AuditSwarm.Properties.EvidenceRoundTrip
import AuditSwarm.Properties.EvidenceDigest
import AuditSwarm.Properties.EvidenceGate
import AuditSwarm.Properties.QuoteCheckReturns
import AuditSwarm.Vault.Migration
import AuditSwarm.Vault.Legacy
import AuditSwarm.Vault.MigrationRun
import AuditSwarm.Properties.MigrationSafe
import AuditSwarm.Python.Calendar
import AuditSwarm.Python.Regex
import AuditSwarm.Model.Linter
import AuditSwarm.Linter.Rules
import AuditSwarm.Properties.LinterFailsClosed
import AuditSwarm.Linter.Trim
import AuditSwarm.Properties.QuoteAgreement
import AuditSwarm.Model.OscalDocument
import AuditSwarm.Model.OscalBuilder
import AuditSwarm.Model.OscalRisks
import AuditSwarm.Model.OscalResults
import AuditSwarm.Model.Drift
import AuditSwarm.Linter.RuleIds
import AuditSwarm.Model.Delimiters
import AuditSwarm.Properties.FindingCoverage
import AuditSwarm.Model.ScopeDocument
import AuditSwarm.Model.SecurityHub
import AuditSwarm.Properties.ScopeMarkers
import AuditSwarm.Properties.FindingsPages
import AuditSwarm.Lib.ThreeValued
import AuditSwarm.Model.AwsChecks
import AuditSwarm.Model.ReviewerTokens
import AuditSwarm.Properties.AccessKeyAge
import AuditSwarm.Properties.BucketVerdict
import AuditSwarm.Tokens.File
import AuditSwarm.Lib.Replace
import AuditSwarm.Lib.Since
import AuditSwarm.Properties.TokenRegistry
import AuditSwarm.Model.ReportMarkup
import AuditSwarm.Properties.ReportImages
import AuditSwarm.Model.Findings
import AuditSwarm.Model.Prowler
import AuditSwarm.Lib.Groups
import AuditSwarm.Findings.Grouping
import AuditSwarm.Findings.Blocks
import AuditSwarm.Findings.SummaryLines
import AuditSwarm.Properties.FindingAccounting
import AuditSwarm.Properties.DetailCap
import AuditSwarm.Findings.Fields
import AuditSwarm.Findings.ProwlerText
import AuditSwarm.Findings.SecurityHubText
import AuditSwarm.Lib.Framing
import AuditSwarm.Properties.FindingLines
import AuditSwarm.Model.PollJury
import AuditSwarm.Properties.CanonicalEncoding
import AuditSwarm.Properties.PromptFingerprint
import AuditSwarm.Properties.JuryConsensus
import AuditSwarm.Vault.AccountIds
import AuditSwarm.Lib.Versions
import AuditSwarm.Properties.RedactionFinal
import AuditSwarm.Model.TokenCache
import AuditSwarm.Model.FailureLimiter
import AuditSwarm.Properties.RevokedTokens
import AuditSwarm.Lib.Counting
import AuditSwarm.Properties.GuessBound
import AuditSwarm.Model.LineQuotes
import AuditSwarm.Python.Separators
import AuditSwarm.Properties.LineQuotes
import AuditSwarm.Python.Indented
import AuditSwarm.Properties.MetadataRedaction
import AuditSwarm.Properties.SarIndependence
import AuditSwarm.Properties.Drift
import AuditSwarm.Properties.DocumentIntegrity
import AuditSwarm.Properties.DeficiencyRecord
import AuditSwarm.Properties.ApprovedLabels
import AuditSwarm.Properties.StoreHistory
import AuditSwarm.Properties.StoreCalls
import AuditSwarm.Properties.NoFalseAlarm
import AuditSwarm.Properties.CarriedFeedback
import AuditSwarm.Properties.CrewInputs
import AuditSwarm.Properties.LostUpdates
import AuditSwarm.Properties.ShownSessions
import AuditSwarm.Properties.Interpolation
import AuditSwarm.Properties.CrewResults
import AuditSwarm.Properties.Sampling
