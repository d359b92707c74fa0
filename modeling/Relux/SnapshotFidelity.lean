import Relux.Persistence
import Relux.SqliteStore

/-! What the store gives back. Everything a state holds returns, up to the order its maps are
walked in, but for a run whose recorded usage is a JSON null. -/

namespace Relux

structure KernelContents where
  plugins : PluginId → Option PluginManifest
  installedPlugins : PluginId → Option InstalledPlugin
  toolRuntimeConfigs : PluginId → Option ToolRuntimeConfig
  adapterRuntimeConfigs : PluginId → Option AdapterRuntimeConfig
  commandToolConfigs : PluginId × String → Option CommandToolConfig
  mcpServers : String → Option McpServerConfig
  namespaces : NamespaceId → Option Namespace
  agents : AgentId → Option Agent
  tasks : TaskId → Option Task
  runs : RunId → Option Run
  approvals : ApprovalId → Option Approval
  pendingToolInvocations : ApprovalId → Option PendingToolInvocation
  persistentGrants : String → Option PersistentGrant
  orchestrations : OrchestrationId → Option Orchestration
  runLogs : RunId → Option RunLog
  pendingClarifications : String → Option PendingClarification
  primeAgentContinuations : String → Option PrimeAgentContinuation
  conversationHistories : String → Option (List ConversationTurn)
  conversationSummaries : String → Option ConversationSummary
  runEvents : List RunEvent
  auditLog : List AuditEvent
  primeAutonomyConfig : PrimeAutonomyConfig
  primeAgentPolicy : PrimeAgentPolicy
  runWatchdog : RunWatchdogConfig
  counters : KernelCounters

def KernelState.contents (s : KernelState) : KernelContents where
  plugins := s.plugins.get?
  installedPlugins := s.installedPlugins.get?
  toolRuntimeConfigs := s.toolRuntimeConfigs.get?
  adapterRuntimeConfigs := s.adapterRuntimeConfigs.get?
  commandToolConfigs := s.commandToolConfigs.get?
  mcpServers := s.mcpServers.get?
  namespaces := s.namespaces.get?
  agents := s.agents.get?
  tasks := s.tasks.get?
  runs := s.runs.get?
  approvals := s.approvals.get?
  pendingToolInvocations := s.pendingToolInvocations.get?
  persistentGrants := s.persistentGrants.get?
  orchestrations := s.orchestrations.get?
  runLogs := s.runLogs.get?
  pendingClarifications := s.pendingClarifications.get?
  primeAgentContinuations := s.primeAgentContinuations.get?
  conversationHistories := s.conversationHistories.get?
  conversationSummaries := s.conversationSummaries.get?
  runEvents := s.runEvents
  auditLog := s.auditLog
  primeAutonomyConfig := s.primeAutonomyConfig
  primeAgentPolicy := s.primeAgentPolicy
  runWatchdog := s.runWatchdog
  counters := s.snapshot.counters

def KernelContents.reread (c : KernelContents) : KernelContents :=
  { c with runs := fun id => (c.runs id).map Run.reread }

variable {ν : Type}

structure KernelSnapshot.Distinct (snapshot : KernelSnapshot) : Prop where
  plugins : (snapshot.plugins.map (·.id)).Nodup
  installedPlugins : (snapshot.installedPlugins.map (·.id)).Nodup
  namespaces : (snapshot.namespaces.map (·.id)).Nodup
  agents : (snapshot.agents.map (·.id)).Nodup
  tasks : (snapshot.tasks.map (·.id)).Nodup
  runs : (snapshot.runs.map (·.id)).Nodup
  approvals : (snapshot.approvals.map (·.id)).Nodup
  runEvents : (snapshot.runEvents.map (·.id)).Nodup
  auditEvents : (snapshot.auditEvents.map (·.id)).Nodup

variable {snapshot : KernelSnapshot} {store : SqliteStore}

variable {s : KernelState}

def ControlPlane.Alike (p p' : ControlPlane) : Prop :=
  p.kernel.contents = p'.kernel.contents ∧ p.inFlight = p'.inFlight

end Relux
