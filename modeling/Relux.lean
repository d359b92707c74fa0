import Relux.ApplyAtomicity
import Relux.Orchestrate
import Relux.SingleActiveRun
import Relux.TerminalStates
import Relux.CommandRecipes
import Relux.CommandArgv
import Relux.RunLogPolling
import Relux.RetryBudget
import Relux.ManagerAuthority
import Relux.SnapshotFidelity
import Relux.EventLogReopen
import Relux.WorkflowOnce
import Relux.WorkflowReferences
import Relux.WorkflowAlways
import Relux.TemplateScanners
import Relux.Sol.Robust
import Relux.Sol.Sentinel
import Relux.Sol.TryDiscipline
import Relux.Admission.Replay
import Relux.Admission.TenantPolicy
import Relux.Admission.RestrictedAgent
import Relux.Admission.EffectiveCapabilities
import Relux.Admission.StandingApprovals
import Relux.Admission.TokenApprovals
import Relux.Admission.Bridge
import Relux.Admission.BridgeSteps
import Relux.Admission.RefusedCalls
import Relux.Admission.RateLimit
import Relux.Admission.Mediation
import Relux.Audit
import Relux.Cbor
import Relux.AuditFaults
import Relux.AuditQuarantine
import Relux.FrameLog
import Relux.EventFrames
import Relux.StreamFraming
import Relux.TornWrites
import Relux.TamperEvidence
import Relux.WorkflowCycles
import Relux.ConflictResolver
import Relux.ConflictMoves
import Relux.ConflictRepair
import Relux.SafeApply
import Relux.ArtifactScan
import Relux.ArtifactHonesty
import Relux.SafeApplySteps
import Relux.SafeApplyRuns
import Relux.SafeApplyFaithful
import Relux.BudgetAlerts
import Relux.DeliveryEscalation
import Relux.CronFiring
import Relux.OrgForest
import Relux.Probation
import Relux.AgentProfiles
import Relux.HireDesk
import Relux.HireMoves
import Relux.HireGreenlight
import Relux.HireRuns
import Relux.RunDesk
import Relux.RunFinality
import Relux.RunDecisions
import Relux.Keyset
import Relux.TaskListing
import Relux.Vault
import Relux.VaultRuns
import Relux.Chains
import Relux.BriefGraph
import Relux.BriefGraphRuns
import Relux.Retention
import Relux.RetentionRuns
import Relux.AllowanceWindow
import Relux.GuildBudget
import Relux.RetryLane
import Relux.RetryRows
import Relux.RetryRuns
import Relux.RetrySteps
import Relux.RunLogStreaming
import Relux.MemoryStore
import Relux.MemoryHistory
import Relux.ToolGateway
import Relux.GatewayKeys
import Relux.GatewayRollback
import Relux.RunEndings
import Relux.VaultTenants
import Relux.TaskAttempts
import Relux.AttemptTimeline
import Relux.AttemptSteps
import Relux.AttemptRuns
import Relux.Permission
import Relux.ChangePaths
import Relux.Sflow.Scopes
import Relux.OrchestrationPlan
import Relux.Sol.Maps
import Relux.Sol.ReturnCoverage
import Relux.NewestRun
import Relux.Relaunch
