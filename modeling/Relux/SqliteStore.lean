import Relux.KernelState
import Relux.Table

/-! The local store: the snapshot a kernel state exports, the tables it is written to, and
the state that is rebuilt from them. A row holds its record in the place of the JSON text. -/

namespace Relux

structure KernelCounters where
  clockSecs : Nat
  nextTask : Nat
  nextRun : Nat
  nextApproval : Nat
  nextAudit : Nat
  nextEvent : Nat
  nextOrchestration : Nat
  nextGrant : Nat
  nextContinuation : Nat

structure KernelSnapshot where
  plugins : List PluginManifest
  installedPlugins : List InstalledPlugin
  toolRuntimeConfigs : List ToolRuntimeConfig
  adapterRuntimeConfigs : List AdapterRuntimeConfig
  commandToolConfigs : List CommandToolConfig
  mcpServers : List McpServerConfig
  namespaces : List Namespace
  agents : List Agent
  tasks : List Task
  runs : List Run
  approvals : List Approval
  pendingToolInvocations : List PendingToolInvocation
  persistentGrants : List PersistentGrant
  runEvents : List RunEvent
  runLogs : List RunLog
  auditEvents : List AuditEvent
  primeAutonomyConfig : PrimeAutonomyConfig
  primeAgentPolicy : PrimeAgentPolicy
  runWatchdog : RunWatchdogConfig
  orchestrations : List Orchestration
  pendingClarifications : List (String × PendingClarification)
  primeAgentContinuations : List (String × PrimeAgentContinuation)
  conversationHistories : List (String × List ConversationTurn)
  conversationSummaries : List (String × ConversationSummary)
  counters : KernelCounters

section Sorting

variable {κ ν : Type}

def sorted (m : HashMap κ ν) (key : ν → String) : List ν :=
  m.values.mergeSort (fun a b => decide (key a ≤ key b))

def sortedEntries (m : HashMap String ν) : List (String × ν) :=
  m.entries.mergeSort (fun a b => decide (a.1 ≤ b.1))

end Sorting

def sortedCommandTools (m : HashMap (PluginId × String) CommandToolConfig) :
    List CommandToolConfig :=
  m.values.mergeSort (fun a b =>
    decide (a.pluginId < b.pluginId ∨ a.pluginId = b.pluginId ∧ a.toolName ≤ b.toolName))

def KernelState.snapshot (s : KernelState) : KernelSnapshot where
  plugins := sorted s.plugins (·.id)
  installedPlugins := sorted s.installedPlugins (·.id)
  toolRuntimeConfigs := sorted s.toolRuntimeConfigs (·.pluginId)
  adapterRuntimeConfigs := sorted s.adapterRuntimeConfigs (·.pluginId)
  commandToolConfigs := sortedCommandTools s.commandToolConfigs
  mcpServers := sorted s.mcpServers (·.id)
  namespaces := sorted s.namespaces (·.id)
  agents := sorted s.agents (·.id)
  tasks := sorted s.tasks (·.id)
  runs := sorted s.runs (·.id)
  approvals := sorted s.approvals (·.id)
  pendingToolInvocations := sorted s.pendingToolInvocations (·.approvalId)
  persistentGrants := sorted s.persistentGrants (·.id)
  runEvents := s.runEvents
  runLogs := sorted s.runLogs (·.runId)
  auditEvents := s.auditLog
  primeAutonomyConfig := s.primeAutonomyConfig
  primeAgentPolicy := s.primeAgentPolicy
  runWatchdog := s.runWatchdog
  orchestrations := sorted s.orchestrations (·.id)
  pendingClarifications := sortedEntries s.pendingClarifications
  primeAgentContinuations := sortedEntries s.primeAgentContinuations
  conversationHistories := sortedEntries s.conversationHistories
  conversationSummaries := sortedEntries s.conversationSummaries
  counters := ⟨s.clock, s.nextTask, s.nextRun, s.nextApproval, s.nextAudit, s.nextEvent,
    s.nextOrchestration, s.nextGrant, s.nextContinuation⟩

/-- Only the policies of the chat loop and of the watchdog are brought back within their
bounds; everything else is taken as the snapshot has it. -/
def KernelState.fromSnapshot (snapshot : KernelSnapshot) : KernelState where
  plugins := .collectBy (·.id) snapshot.plugins
  installedPlugins := .collectBy (·.id) snapshot.installedPlugins
  toolRuntimeConfigs := .collectBy (·.pluginId) snapshot.toolRuntimeConfigs
  adapterRuntimeConfigs := .collectBy (·.pluginId) snapshot.adapterRuntimeConfigs
  commandToolConfigs := .collectBy (fun cfg => (cfg.pluginId, cfg.toolName))
    snapshot.commandToolConfigs
  mcpServers := .collectBy (·.id) snapshot.mcpServers
  namespaces := .collectBy (·.id) snapshot.namespaces
  agents := .collectBy (·.id) snapshot.agents
  tasks := .collectBy (·.id) snapshot.tasks
  runs := .collectBy (·.id) snapshot.runs
  approvals := .collectBy (·.id) snapshot.approvals
  pendingToolInvocations := .collectBy (·.approvalId) snapshot.pendingToolInvocations
  persistentGrants := .collectBy (·.id) snapshot.persistentGrants
  orchestrations := .collectBy (·.id) snapshot.orchestrations
  pendingClarifications := .collect snapshot.pendingClarifications
  primeAgentContinuations := .collect snapshot.primeAgentContinuations
  conversationHistories := .collect snapshot.conversationHistories
  conversationSummaries := .collect snapshot.conversationSummaries
  runEvents := snapshot.runEvents
  runLogs := .collectBy (·.runId) snapshot.runLogs
  auditLog := snapshot.auditEvents
  clock := snapshot.counters.clockSecs
  nextTask := snapshot.counters.nextTask
  nextRun := snapshot.counters.nextRun
  nextApproval := snapshot.counters.nextApproval
  nextAudit := snapshot.counters.nextAudit
  nextEvent := snapshot.counters.nextEvent
  nextOrchestration := snapshot.counters.nextOrchestration
  nextGrant := snapshot.counters.nextGrant
  nextContinuation := snapshot.counters.nextContinuation
  primeAutonomyConfig := snapshot.primeAutonomyConfig
  primeAgentPolicy := snapshot.primeAgentPolicy.clamped
  runWatchdog := snapshot.runWatchdog.clamped

/-- A value of the `meta` table. -/
inductive MetaValue where
  | schemaVersion (version : Nat)
  | primeAutonomyConfig (config : PrimeAutonomyConfig)
  | primeAgentPolicy (policy : PrimeAgentPolicy)
  | runWatchdog (config : RunWatchdogConfig)
  | orchestrations (l : List Orchestration)
  | pendingClarifications (l : List (String × PendingClarification))
  | primeAgentContinuations (l : List (String × PrimeAgentContinuation))
  | conversationHistories (l : List (String × List ConversationTurn))
  | conversationSummaries (l : List (String × ConversationSummary))
  | pendingToolInvocations (l : List PendingToolInvocation)
  | persistentGrants (l : List PersistentGrant)
  | runLogs (l : List RunLog)
  | toolRuntimeConfigs (l : List ToolRuntimeConfig)
  | adapterRuntimeConfigs (l : List AdapterRuntimeConfig)
  | commandToolConfigs (l : List CommandToolConfig)
  | mcpServers (l : List McpServerConfig)

structure SqliteStore where
  metaRows : HashMap String MetaValue
  plugins : Table PluginId PluginManifest
  installedPlugins : Table PluginId InstalledPlugin
  namespaces : Table NamespaceId Namespace
  agents : Table AgentId Agent
  tasks : Table TaskId Task
  runs : Table RunId Run
  approvals : Table ApprovalId Approval
  runEvents : Table String RunEvent
  auditEvents : Table String AuditEvent
  counters : Table String Nat

def schemaVersion : Nat := 1

def SqliteStore.create : SqliteStore where
  metaRows := HashMap.empty.insert "schema_version" (.schemaVersion schemaVersion)
  plugins := .empty
  installedPlugins := .empty
  namespaces := .empty
  agents := .empty
  tasks := .empty
  runs := .empty
  approvals := .empty
  runEvents := .empty
  auditEvents := .empty
  counters := .empty

def KernelCounters.rows (c : KernelCounters) : List (String × Nat) :=
  [("clock_secs", c.clockSecs),
    ("next_task", c.nextTask),
    ("next_run", c.nextRun),
    ("next_approval", c.nextApproval),
    ("next_audit", c.nextAudit),
    ("next_event", c.nextEvent),
    ("next_orchestration", c.nextOrchestration),
    ("next_grant", c.nextGrant),
    ("next_continuation", c.nextContinuation)]

/-- An optional JSON value is left out of the text when it is missing, and a JSON null in its
place is read as missing. -/
def readUsage : Option Json → Option Json
  | some .null => none
  | usage => usage

def Run.reread (r : Run) : Run := { r with usage := readUsage r.usage }

def KernelCounters.zero : KernelCounters := ⟨0, 0, 0, 0, 0, 0, 0, 0, 0⟩

def KernelCounters.read (c : KernelCounters) (row : String × Nat) : KernelCounters :=
  if row.1 = "clock_secs" then { c with clockSecs := row.2 }
  else if row.1 = "next_task" then { c with nextTask := row.2 }
  else if row.1 = "next_run" then { c with nextRun := row.2 }
  else if row.1 = "next_approval" then { c with nextApproval := row.2 }
  else if row.1 = "next_audit" then { c with nextAudit := row.2 }
  else if row.1 = "next_event" then { c with nextEvent := row.2 }
  else if row.1 = "next_orchestration" then { c with nextOrchestration := row.2 }
  else if row.1 = "next_grant" then { c with nextGrant := row.2 }
  else if row.1 = "next_continuation" then { c with nextContinuation := row.2 }
  else c

def SqliteStore.loadCounters (store : SqliteStore) : KernelCounters :=
  store.counters.rows.foldl KernelCounters.read .zero

/-- The value of a key, or the default when the key was never written; an error when the text
is of another type. -/
def SqliteStore.loadMetaJson {α : Type} (store : SqliteStore) (key : String) (default : α)
    (decode : MetaValue → Option α) : Except KernelError α :=
  match store.metaRows.get? key with
  | none => .ok default
  | some value =>
    match decode value with
    | some a => .ok a
    | none => .error (.storage ("invalid type: " ++ key))

def SqliteStore.loadSnapshot (store : SqliteStore) : Except KernelError KernelSnapshot := do
  let runLogs ← store.loadMetaJson "run_logs" [] (fun
    | .runLogs l => some l
    | _ => none)
  let primeAutonomyConfig ← store.loadMetaJson "prime_autonomy_config"
    KernelState.new.primeAutonomyConfig (fun
    | .primeAutonomyConfig c => some c
    | _ => none)
  let primeAgentPolicy ← store.loadMetaJson "prime_agent_policy" PrimeAgentPolicy.default (fun
    | .primeAgentPolicy p => some p
    | _ => none)
  let runWatchdog ← store.loadMetaJson "run_watchdog" KernelState.new.runWatchdog (fun
    | .runWatchdog c => some c
    | _ => none)
  let toolRuntimeConfigs ← store.loadMetaJson "tool_runtime_configs" [] (fun
    | .toolRuntimeConfigs l => some l
    | _ => none)
  let adapterRuntimeConfigs ← store.loadMetaJson "adapter_runtime_configs" [] (fun
    | .adapterRuntimeConfigs l => some l
    | _ => none)
  let commandToolConfigs ← store.loadMetaJson "command_tool_configs" [] (fun
    | .commandToolConfigs l => some l
    | _ => none)
  let mcpServers ← store.loadMetaJson "mcp_servers" [] (fun
    | .mcpServers l => some l
    | _ => none)
  let orchestrations ← store.loadMetaJson "orchestrations" [] (fun
    | .orchestrations l => some l
    | _ => none)
  let pendingClarifications ← store.loadMetaJson "pending_clarifications" [] (fun
    | .pendingClarifications l => some l
    | _ => none)
  let primeAgentContinuations ← store.loadMetaJson "prime_agent_continuations" [] (fun
    | .primeAgentContinuations l => some l
    | _ => none)
  let conversationHistories ← store.loadMetaJson "conversation_histories" [] (fun
    | .conversationHistories l => some l
    | _ => none)
  let conversationSummaries ← store.loadMetaJson "conversation_summaries" [] (fun
    | .conversationSummaries l => some l
    | _ => none)
  let pendingToolInvocations ← store.loadMetaJson "pending_tool_invocations" [] (fun
    | .pendingToolInvocations l => some l
    | _ => none)
  let persistentGrants ← store.loadMetaJson "persistent_grants" [] (fun
    | .persistentGrants l => some l
    | _ => none)
  return {
    plugins := store.plugins.records
    installedPlugins := store.installedPlugins.records
    namespaces := store.namespaces.records
    agents := store.agents.records
    tasks := store.tasks.records
    runs := store.runs.records.map Run.reread
    approvals := store.approvals.records
    runEvents := store.runEvents.records
    auditEvents := store.auditEvents.records
    counters := store.loadCounters
    runLogs, primeAutonomyConfig, primeAgentPolicy, runWatchdog, toolRuntimeConfigs,
    adapterRuntimeConfigs, commandToolConfigs, mcpServers, orchestrations,
    pendingClarifications, primeAgentContinuations, conversationHistories,
    conversationSummaries, pendingToolInvocations, persistentGrants }

def SqliteStore.load (store : SqliteStore) : Except KernelError KernelState := do
  let snapshot ← store.loadSnapshot
  return .fromSnapshot snapshot

end Relux
