import Relux.Ids
import Relux.Records
import Relux.RunLog

/-! The control plane as one state: its maps, counters and logical clock, the errors its
operations return, and what an operation takes from the outside world. -/

namespace Relux

inductive KernelError where
  | manifestInvalid (path : String) (source : ManifestError)
  | unknownPlugin (id : PluginId)
  | unknownAgent (id : AgentId)
  | agentExists (id : AgentId)
  | invalidAgentConfig (message : String)
  | unknownTask (id : TaskId)
  | unknownRun (id : RunId)
  | noActiveRun (task : TaskId)
  | runNotRetryable (run status : String)
  | runResumeNotSupported (run reason : String)
  | unknownApproval (id : ApprovalId)
  | unknownOrchestration (id : OrchestrationId)
  | taskNotAssigned (task : TaskId)
  | taskStatusNotSettable (task status : String)
  | taskTerminalStatus (task status : String)
  | taskNotReopenable (task status : String)
  | taskNotAssignable (task status : String)
  | taskParentScope (parent parentNs childNs : String)
  | taskParentCycle (child parent : String)
  | toolNotFound (plugin tool : String)
  | toolRuntimeUnavailable (plugin tool : String)
  | toolRuntimeDisabled (plugin : String)
  | toolRuntimeInvocation (plugin tool message : String)
  | invalidRuntimeConfig (plugin message : String)
  | runtimeNotConfigured (plugin : String)
  | notAnAdapter (plugin : String)
  | adapterNotConfigurable (plugin message : String)
  | adapterRuntimeNotConfigured (plugin : String)
  | adapterRuntimeDisabled (plugin : String)
  | invalidAdapterConfig (plugin message : String)
  | adapterBinaryMissing (plugin binary : String)
  | adapterExecutionFailed (plugin message : String)
  | localAdapterUnsupported (task : TaskId)
  | permissionDenied (agent permission : String)
  | permissionAlreadyGranted (agent permission : String)
  | permissionNotGranted (agent permission : String)
  | pluginNotInstalled (id : PluginId)
  | bundledPluginProtected (id : PluginId)
  | pluginNotToolConfigurable (plugin message : String)
  | invalidToolDefinition (plugin message : String)
  | pluginToolNotFound (plugin tool : String)
  | toolRequiresApproval (plugin tool : String)
  | toolDoesNotRequireApproval (plugin tool : String)
  | toolInvocationArgsTooLarge (plugin tool : String) (size max : Nat)
  | noBoundToolInvocation (id : ApprovalId)
  | toolInvocationNotApproved (id status : String)
  | toolInvocationConsumed (id : ApprovalId)
  | toolInvocationArgsTampered (id : ApprovalId)
  | unknownPersistentGrant (id : String)
  | invalidMcpConfig (id message : String)
  | unknownMcpServer (id : String)
  | mcpServerDisabled (id : String)
  | invalidMcpToolName (server tool : String)
  | storage (message : String)

def KernelError.text : KernelError → String
  | .manifestInvalid path source => "invalid manifest at " ++ path ++ ": " ++ source.text
  | .unknownPlugin id => "unknown plugin: " ++ id
  | .unknownAgent id => "unknown agent: " ++ id
  | .agentExists id => "agent already exists: " ++ id
  | .invalidAgentConfig message => "invalid agent configuration: " ++ message
  | .unknownTask id => "unknown task: " ++ id
  | .unknownRun id => "unknown run: " ++ id
  | .noActiveRun task => "no active run found for task: " ++ task
  | .runNotRetryable run status => "run " ++ run ++ " is not retryable (status " ++ status ++
      "); only failed runs can be retried"
  | .runResumeNotSupported run reason => "run " ++ run ++ " cannot be resumed: " ++ reason
  | .unknownApproval id => "unknown approval: " ++ id
  | .unknownOrchestration id => "unknown orchestration: " ++ id
  | .taskNotAssigned task => "task " ++ task ++ " has no assigned agent"
  | .taskStatusNotSettable task status => "status '" ++ status ++ "' is not operator-settable " ++
      "on task " ++ task ++ "; the board may set only blocked or cancelled " ++
      "(running/completed/failed are machine-driven through the run lifecycle)"
  | .taskTerminalStatus task status => "task " ++ task ++ " is already " ++ status ++
      "; a finished task's status cannot be changed from the board"
  | .taskNotReopenable task status => "task " ++ task ++ " is not reopenable in status " ++
      status ++ "; only a blocked task can be reopened (reopening re-queues held work through " ++
      "the run lifecycle — it is not a status decree)"
  | .taskNotAssignable task status => "task " ++ task ++ " is not assignable in status " ++
      status ++ "; only a non-terminal task can be (re)assigned"
  | .taskParentScope parent parentNs childNs => "parent task " ++ parent ++
      " is in namespace " ++ parentNs ++ ", not the child's namespace " ++ childNs ++
      "; an ad-hoc subtask lives in its parent's namespace"
  | .taskParentCycle child parent => "task " ++ child ++ " cannot be parented to " ++ parent ++
      ": it would create a cycle in the task tree"
  | .toolNotFound plugin tool => "plugin " ++ plugin ++ " has no tool named " ++ tool
  | .toolRuntimeUnavailable plugin tool => "tool " ++ tool ++ " on plugin " ++ plugin ++
      " has no runtime handler yet (installed as metadata only; arbitrary plugin code is " ++
      "not executed)"
  | .toolRuntimeDisabled plugin => "plugin " ++ plugin ++
      " has an HTTP loopback runtime configured but it is disabled"
  | .toolRuntimeInvocation plugin tool message => "loopback runtime for " ++ tool ++ " on " ++
      plugin ++ " failed: " ++ message
  | .invalidRuntimeConfig plugin message => "invalid tool runtime config for plugin " ++
      plugin ++ ": " ++ message
  | .runtimeNotConfigured plugin => "no tool runtime configured for plugin " ++ plugin
  | .notAnAdapter plugin => "plugin " ++ plugin ++ " is not an Adapter plugin"
  | .adapterNotConfigurable plugin message => "adapter " ++ plugin ++
      " cannot be configured as a CLI runtime: " ++ message
  | .adapterRuntimeNotConfigured plugin => "no adapter runtime configured for " ++ plugin ++
      "; enable it first (disabled by default)"
  | .adapterRuntimeDisabled plugin => "adapter runtime for " ++ plugin ++
      " is configured but disabled"
  | .invalidAdapterConfig plugin message => "invalid adapter runtime config for " ++ plugin ++
      ": " ++ message
  | .adapterBinaryMissing plugin binary => "adapter " ++ plugin ++ " binary '" ++ binary ++
      "' was not found on PATH; install it or set an explicit command"
  | .adapterExecutionFailed plugin message => "adapter " ++ plugin ++ " run failed: " ++ message
  | .localAdapterUnsupported task =>
      "the local Prime adapter is deterministic and cannot fulfil task " ++ task ++ ": it " ++
      "performs no external work (cloning a repository, filesystem or network access, or " ++
      "importing a plugin), and no real Prime brain is configured to do it. To run this as " ++
      "real agent work, enable a Claude or Codex CLI adapter on Crew → Adapters and select it " ++
      "as Prime's brain on Crew → Prime Brain, then run it again; to import a repository as a " ++
      "plugin instead, open Plugins → + Install → GitHub URL. (OpenRouter is a conversational " ++
      "brain only and cannot execute work runs.)"
  | .permissionDenied agent permission => "permission denied: agent " ++ agent ++ " lacks " ++
      permission
  | .permissionAlreadyGranted agent permission => "permission '" ++ permission ++
      "' already granted to agent " ++ agent
  | .permissionNotGranted agent permission => "agent " ++ agent ++
      " does not hold permission '" ++ permission ++ "'"
  | .pluginNotInstalled id => "plugin not installed: " ++ id
  | .bundledPluginProtected id => "plugin " ++ id ++ " is bundled and cannot be removed"
  | .pluginNotToolConfigurable plugin message => "plugin " ++ plugin ++
      " cannot have tools configured this way: " ++ message
  | .invalidToolDefinition plugin message => "invalid tool definition for plugin " ++ plugin ++
      ": " ++ message
  | .pluginToolNotFound plugin tool => "plugin " ++ plugin ++ " has no configured tool named " ++
      tool
  | .toolRequiresApproval plugin tool => "tool " ++ tool ++ " on plugin " ++ plugin ++
      " requires approval and cannot be invoked directly yet"
  | .toolDoesNotRequireApproval plugin tool => "tool " ++ tool ++ " on plugin " ++ plugin ++
      " does not require approval; enable a loopback runtime and invoke it directly"
  | .toolInvocationArgsTooLarge plugin tool size max => "tool invocation arguments for " ++
      tool ++ " on " ++ plugin ++ " are too large: " ++ toString size ++ " bytes (max " ++
      toString max ++ ")"
  | .noBoundToolInvocation id => "approval " ++ id ++
      " is not a tool-invocation approval (no bound invocation to execute)"
  | .toolInvocationNotApproved id status => "approval " ++ id ++ " is not approved (status " ++
      status ++ "); decide it before executing"
  | .toolInvocationConsumed id => "approval " ++ id ++
      " has already been executed; request a new approval to run it again"
  | .toolInvocationArgsTampered id => "approval " ++ id ++ " is bound to a tool invocation " ++
      "whose stored arguments failed their integrity check"
  | .unknownPersistentGrant id => "persistent grant " ++ id ++ " does not exist"
  | .invalidMcpConfig id message => "invalid MCP server config for '" ++ id ++ "': " ++ message
  | .unknownMcpServer id => "unknown MCP server: " ++ id
  | .mcpServerDisabled id => "MCP server '" ++ id ++
      "' is disabled; enable it before discovering its tools"
  | .invalidMcpToolName server tool => "invalid MCP tool name '" ++ tool ++ "' for server '" ++
      server ++ "' (must be [A-Za-z0-9._-], non-empty, bounded)"
  | .storage message => "storage error: " ++ message

structure AdapterCommandSpec where
  program : String
  args : List String
  stdin : String
  workingDir : Option String
  timeoutSeconds : Nat
  maxOutputBytes : Nat

structure CliExecPlan where
  runId : RunId
  taskId : TaskId
  adapter : PluginId
  kind : AdapterKind
  binary : String
  timeoutSeconds : Nat
  spec : AdapterCommandSpec

structure AdapterRunOutcome where
  exitCode : Option Int
  success : Bool
  timedOut : Bool
  cancelled : Bool
  stdout : String
  stderr : String
  stdoutTruncated : Bool
  stderrTruncated : Bool
  durationMs : Nat

structure ParsedAdapterResult where
  text : String
  isError : Option Bool
  usage : Option Json
  sessionId : Option String

inductive ToolTarget where
  | mcp (server : McpServerConfig)
  | source (installDir : String)
  | command (cfg : CommandToolConfig) (installDir : String)
  | loopback (cfg : ToolRuntimeConfig)

structure EffectiveRunAdapter where
  adapter : PluginId
  redirected : Bool
  reason : String

/-- What an operation reads besides the kernel's state: the wall clock, the `PATH` and the tool
servers at each logical second, the process of each planned run, the JSON and digest functions, the
Unicode tables, and Prime's brain selection. -/
structure World where
  realNowSecs : Nat → Nat
  findOnPath : Nat → String → Option String
  toolRuntime : Nat → ToolTarget → String → Json → Except String Json
  runAdapterCommand : CliExecPlan → Except String AdapterRunOutcome
  parseJson : String → Option Json
  unicode : Unicode
  jsonPretty : Json → String
  jsonBytes : Json → List UInt8
  sha256Hex : List UInt8 → String
  redactSecrets : String → String
  stateSummary : Json
  brainRunAdapter : Option PluginId
  brainReason : String
  validateLoopbackUrl : String → Except String Unit

/-- A world in which nothing answers: no program on the `PATH`, no tool server, and
prime's brain turned off. -/
def World.silent : World where
  realNowSecs := fun _ => 0
  findOnPath := fun _ _ => none
  toolRuntime := fun _ _ _ _ => .error "unreachable"
  runAdapterCommand := fun _ => .error "no such program"
  parseJson := fun _ => none
  unicode := ⟨fun s => s, Char.isAlphanum⟩
  jsonPretty := fun _ => ""
  jsonBytes := fun _ => []
  sha256Hex := fun _ => ""
  redactSecrets := fun s => s
  stateSummary := .null
  brainRunAdapter := none
  brainReason := ""
  validateLoopbackUrl := fun _ => .ok ()

def World.parseAdapterResult (w : World) (stdout : String) : ParsedAdapterResult :=
  let plain : ParsedAdapterResult := ⟨stdout, none, none, none⟩
  let trimmed := trimChars stdout.toList
  if trimmed.head? = some '\x7b' ∧ trimmed.getLast? = some '\x7d' then
    match w.parseJson (String.ofList trimmed) with
    | some (.obj fields) =>
      let envelope := Json.obj fields
      let result := (envelope.get? "result").bind Json.asStr
      let isResult := (envelope.get? "type").bind Json.asStr == some "result"
      if result.isNone && !isResult then plain
      else ⟨result.getD stdout, (envelope.get? "is_error").bind Json.asBool,
        envelope.get? "usage", (envelope.get? "session_id").bind Json.asStr⟩
    | _ => plain
  else plain

structure KernelState where
  plugins : HashMap PluginId PluginManifest
  installedPlugins : HashMap PluginId InstalledPlugin
  toolRuntimeConfigs : HashMap PluginId ToolRuntimeConfig
  adapterRuntimeConfigs : HashMap PluginId AdapterRuntimeConfig
  commandToolConfigs : HashMap (PluginId × String) CommandToolConfig
  mcpServers : HashMap String McpServerConfig
  namespaces : HashMap NamespaceId Namespace
  agents : HashMap AgentId Agent
  tasks : HashMap TaskId Task
  runs : HashMap RunId Run
  approvals : HashMap ApprovalId Approval
  pendingToolInvocations : HashMap ApprovalId PendingToolInvocation
  persistentGrants : HashMap String PersistentGrant
  orchestrations : HashMap OrchestrationId Orchestration
  runEvents : List RunEvent
  runLogs : HashMap RunId RunLog
  auditLog : List AuditEvent
  primeAutonomyConfig : PrimeAutonomyConfig
  primeAgentPolicy : PrimeAgentPolicy
  runWatchdog : RunWatchdogConfig
  pendingClarifications : HashMap String PendingClarification
  primeAgentContinuations : HashMap String PrimeAgentContinuation
  conversationHistories : HashMap String (List ConversationTurn)
  conversationSummaries : HashMap String ConversationSummary
  clock : Nat
  nextTask : Nat
  nextRun : Nat
  nextApproval : Nat
  nextAudit : Nat
  nextEvent : Nat
  nextOrchestration : Nat
  nextGrant : Nat
  nextContinuation : Nat

def KernelState.new : KernelState where
  plugins := .empty
  installedPlugins := .empty
  toolRuntimeConfigs := .empty
  adapterRuntimeConfigs := .empty
  commandToolConfigs := .empty
  mcpServers := .empty
  namespaces := .empty
  agents := .empty
  tasks := .empty
  runs := .empty
  approvals := .empty
  pendingToolInvocations := .empty
  persistentGrants := .empty
  orchestrations := .empty
  runEvents := []
  runLogs := .empty
  auditLog := []
  primeAutonomyConfig := ⟨false, 1, false, none, none⟩
  primeAgentPolicy := .default
  runWatchdog := ⟨true, 180⟩
  pendingClarifications := .empty
  primeAgentContinuations := .empty
  conversationHistories := .empty
  conversationSummaries := .empty
  clock := 0
  nextTask := 0
  nextRun := 0
  nextApproval := 0
  nextAudit := 0
  nextEvent := 0
  nextOrchestration := 0
  nextGrant := 0
  nextContinuation := 0

def KernelState.stamp (s : KernelState) : Stamp := s.clock % 86400

def KernelState.tick (s : KernelState) : KernelState := { s with clock := s.clock + 1 }

def runIdOf (n : Nat) : RunId := mintedId "run_" n
def taskIdOf (n : Nat) : TaskId := mintedId "task_" n
def approvalIdOf (n : Nat) : ApprovalId := mintedId "appr_" n
def grantIdOf (n : Nat) : String := mintedId "grant_" n

def recordAudit (s : KernelState) (actorType actorId action : String)
    (targetType targetId : Option String) (result : AuditResult) : KernelState :=
  { s with
    nextAudit := s.nextAudit + 1
    auditLog := s.auditLog ++ [⟨mintedId "audit_" (s.nextAudit + 1), s.stamp, actorType,
      actorId, action, targetType, targetId, result⟩]
    clock := s.clock + 1 }

def pushRunEvent (w : World) (s : KernelState) (runId : RunId)
    (kind source message : String) : KernelState :=
  { s with
    nextEvent := s.nextEvent + 1
    runEvents := s.runEvents ++ [⟨mintedId "revent_" (s.nextEvent + 1), runId, s.stamp, kind,
      source, message⟩]
    clock := s.clock + 1
    runs := s.runs.modify runId (fun r =>
      { r with lastActivityAt := some (w.realNowSecs (s.clock + 1)) }) }

def KernelState.setTask (s : KernelState) (taskId : TaskId) (f : Task → Task) : KernelState :=
  { s with tasks := s.tasks.modify taskId f }

def KernelState.setRun (s : KernelState) (runId : RunId) (f : Run → Run) : KernelState :=
  { s with runs := s.runs.modify runId f }

abbrev Outcome (α : Type) := Except KernelError α × KernelState

end Relux
