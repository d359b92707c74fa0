import Relux.Text
import Relux.Task
import Relux.HashMap

/-! Why a run failed, and when a transient failure may be retried. -/

namespace Relux

inductive RunFailureClass where
  | transientProvider
  | authRequired
  | adapterMissing
  | permissionDenied
  | invalidPrompt
  | timeout
  | cancelled
  | outputValidation
  | unknown
  | stale
  deriving DecidableEq

def retryBackoffSecs : List Nat := [2 * 60, 10 * 60, 30 * 60, 2 * 60 * 60]

def maxTransientRetries : Nat := retryBackoffSecs.length

def RunFailureClass.retryable : RunFailureClass → Bool
  | .transientProvider => true
  | .timeout => true
  | _ => false

def failureNeedles : List (RunFailureClass × List String) :=
  [ (.timeout, ["timed out", "timeout", "deadline exceeded", "deadline_exceeded"]),
    (.cancelled, ["cancelled", "canceled", "aborted by", "user abort"]),
    (.permissionDenied, ["permission denied", "lacks ", "not permitted", "permissiondenied"]),
    (.authRequired, ["401", "403", "unauthorized", "forbidden", "invalid api key",
      "invalid_api_key", "authentication", "not authenticated", "expired token",
      "token expired", "please sign in", "please log in", "login required", "sign in to",
      "not signed in"]),
    (.adapterMissing, ["not found on path", "was not found on path", "no command configured",
      "not configured", "runtime is configured but disabled", "runtime for",
      "enable it first", "no adapter runtime", "failed to spawn adapter"]),
    (.transientProvider, ["rate limit", "rate_limit", "too many requests", "throttl",
      "overloaded", "temporarily unavailable", "service unavailable", "try again",
      "try later", "503", "529", "502", "500", "internal server error", "server error",
      "bad gateway", "connection reset", "connection aborted", "connection closed",
      "econnreset", "upstream", "transient"]),
    (.invalidPrompt, ["400", "bad request", "invalid request", "invalid_request",
      "malformed", "invalid prompt", "unprocessable", "422"]),
    (.outputValidation, ["reported an error", "could not parse", "invalid output",
      "validation failed", "unexpected output", "malformed response"]) ]

def classifyFailure (reason : String) (timedOut : Bool) : RunFailureClass :=
  let r := toAsciiLowercase reason.toList
  let has := fun needles : List String => needles.any (fun n => containsChars n.toList r)
  if timedOut then .timeout
  else match failureNeedles.find? (fun e => has e.2) with
    | some e => e.1
    | none => .unknown

def retryDelaySecs (attempt : Nat) : Option Nat := retryBackoffSecs[attempt]?

structure RunRetryState where
  attempt : Nat
  maxAttempts : Nat
  notBeforeSecs : Option Nat
  exhausted : Bool
  deriving DecidableEq

def u64Max : Nat := 18446744073709551615

def saturatingAdd (a b : Nat) : Nat := min (a + b) u64Max

def RunRetryState.plan (cls : RunFailureClass) (attempt nowSecs : Nat) :
    Option RunRetryState :=
  if ¬ cls.retryable then none
  else match retryDelaySecs attempt with
    | some delay => some ⟨attempt, maxTransientRetries, some (saturatingAdd nowSecs delay), false⟩
    | none => some ⟨attempt, maxTransientRetries, none, true⟩

def RunRetryState.eligibleAt (s : RunRetryState) (nowSecs : Nat) : Bool :=
  !s.exhausted && (match s.notBeforeSecs with
    | some nb => nb ≤ nowSecs
    | none => false)

theorem RunRetryState.plan_eligible {cls : RunFailureClass} {attempt now t : Nat}
    {s : RunRetryState} (h : RunRetryState.plan cls attempt now = some s)
    (he : s.eligibleAt t = true) :
    cls.retryable = true ∧ attempt < maxTransientRetries ∧
      ∃ delay ∈ retryBackoffSecs, saturatingAdd now delay ≤ t := by
  simp only [RunRetryState.plan] at h
  split at h
  · cases h
  next hr =>
    have hret : cls.retryable = true := not_not.mp hr
    cases hd : retryDelaySecs attempt with
    | none =>
      simp only [hd] at h
      cases h
      simp [RunRetryState.eligibleAt] at he
    | some delay =>
      simp only [hd] at h
      cases h
      simp only [RunRetryState.eligibleAt, Bool.not_false, Bool.true_and, decide_eq_true_eq] at he
      have hlt : attempt < maxTransientRetries := by
        obtain ⟨hlt, -⟩ := List.getElem?_eq_some_iff.mp hd
        exact hlt
      exact ⟨hret, hlt, delay, List.mem_of_getElem? hd, he⟩

/-! The records of the control plane: agents, runs, approvals and their bindings, grants,
plugins with their runtimes, and orchestrations. -/

inductive AgentStatus where
  | draft
  | active
  | paused
  | disabled
  | error
  deriving DecidableEq

structure Agent where
  id : AgentId
  name : String
  description : String
  adapterPlugin : PluginId
  persona : Option String
  namespaceId : NamespaceId
  permissions : List Permission
  skills : List String
  reportsTo : Option AgentId
  status : AgentStatus

inductive RunStatus where
  | pending
  | running
  | waitingForApproval
  | completed
  | failed
  | cancelled
  deriving DecidableEq

def RunStatus.debug : RunStatus → String
  | .pending => "Pending"
  | .running => "Running"
  | .waitingForApproval => "WaitingForApproval"
  | .completed => "Completed"
  | .failed => "Failed"
  | .cancelled => "Cancelled"

structure RunSession where
  adapterSessionId : String
  source : String
  resumeSupported : Bool

structure Run where
  id : RunId
  taskId : TaskId
  agentId : AgentId
  adapterPlugin : PluginId
  status : RunStatus
  startedAt : Option Stamp
  endedAt : Option Stamp
  summary : Option String
  error : Option String
  durationMs : Option Nat
  usage : Option Json
  retriedFrom : Option RunId
  resumedFrom : Option RunId
  session : Option RunSession
  failureClass : Option RunFailureClass
  retry : Option RunRetryState
  lastActivityAt : Option Nat

inductive ResumeDisposition where
  | supported (adapterSessionId source : String)
  | notSupported (reason : String)

def planResume (session : Option RunSession) (terminal : Bool) : ResumeDisposition :=
  if ¬ terminal then
    .notSupported
      "the run is still in flight; wait for it to finish before resuming its session"
  else match session with
    | none =>
      .notSupported ("no provider session id was captured for this run, so there is nothing " ++
        "to resume; start a fresh run instead")
    | some s =>
      if ¬ s.resumeSupported then
        .notSupported ("the " ++ s.source ++ " adapter does not support safe non-interactive " ++
          "session resume; start a fresh run instead (a fresh re-run is a distinct action)")
      else .supported s.adapterSessionId s.source

structure RunWatchdogConfig where
  enabled : Bool
  staleAfterSecs : Nat

def minStaleAfterSecs : Nat := 30
def maxStaleAfterSecs : Nat := 21600

def RunWatchdogConfig.clamped (c : RunWatchdogConfig) : RunWatchdogConfig :=
  { c with staleAfterSecs := max minStaleAfterSecs (min c.staleAfterSecs maxStaleAfterSecs) }

def RunWatchdogConfig.isStale (c : RunWatchdogConfig) (lastActivityAt nowSecs : Nat) : Bool :=
  max c.staleAfterSecs minStaleAfterSecs ≤ nowSecs - lastActivityAt

structure PrimeAutonomyConfig where
  enabled : Bool
  maxTasksPerTick : Nat
  autoAssignUnassigned : Bool
  lastTickAt : Option Stamp
  lastTickSummary : Option String

structure PrimeAgentPolicy where
  maxToolCalls : Nat
  maxBrainRounds : Nat
  maxDurationSecs : Nat
  extendedMaxToolCalls : Nat
  extendedMaxBrainRounds : Nat
  extendedMaxDurationSecs : Nat
  maxToolPlanSteps : Nat
  extendedMaxToolPlanSteps : Nat
  maxOrchestrationSteps : Nat
  extendedMaxOrchestrationSteps : Nat
  maxContextRounds : Nat
  extendedMaxContextRounds : Nat
  maxActiveJobs : Nat
  extendedMaxActiveJobs : Nat

def clampSteps (ceil n : Nat) : Nat := max 1 (min n ceil)

def PrimeAgentPolicy.clamped (p : PrimeAgentPolicy) : PrimeAgentPolicy where
  maxToolCalls := clampSteps 512 p.maxToolCalls
  maxBrainRounds := clampSteps 1024 p.maxBrainRounds
  maxDurationSecs := min p.maxDurationSecs 86400
  extendedMaxToolCalls := clampSteps 512 p.extendedMaxToolCalls
  extendedMaxBrainRounds := clampSteps 1024 p.extendedMaxBrainRounds
  extendedMaxDurationSecs := min p.extendedMaxDurationSecs 86400
  maxToolPlanSteps := clampSteps 64 p.maxToolPlanSteps
  extendedMaxToolPlanSteps := clampSteps 64 p.extendedMaxToolPlanSteps
  maxOrchestrationSteps := clampSteps 64 p.maxOrchestrationSteps
  extendedMaxOrchestrationSteps := clampSteps 64 p.extendedMaxOrchestrationSteps
  maxContextRounds := clampSteps 64 p.maxContextRounds
  extendedMaxContextRounds := clampSteps 64 p.extendedMaxContextRounds
  maxActiveJobs := clampSteps 64 p.maxActiveJobs
  extendedMaxActiveJobs := clampSteps 64 p.extendedMaxActiveJobs

def PrimeAgentPolicy.default : PrimeAgentPolicy :=
  ⟨12, 18, 180, 64, 96, 1800, 16, 64, 16, 64, 8, 32, 4, 16⟩

inductive ApprovalStatus where
  | pending
  | approved
  | rejected
  deriving DecidableEq

def ApprovalStatus.label : ApprovalStatus → String
  | .pending => "pending"
  | .approved => "approved"
  | .rejected => "rejected"

structure Approval where
  id : ApprovalId
  requestedBy : String
  action : String
  reason : String
  risk : RiskLevel
  status : ApprovalStatus
  approvedBy : Option String
  createdAt : Stamp
  resolvedAt : Option Stamp
  note : Option String

structure PendingToolInvocation where
  approvalId : ApprovalId
  pluginId : PluginId
  toolName : String
  agentId : AgentId
  permission : String
  input : Json
  argsSha256 : String
  requestedBy : String
  risk : RiskLevel
  createdAt : Stamp
  consumed : Bool

structure PersistentGrant where
  id : String
  createdBy : String
  subjectAgent : AgentId
  pluginId : PluginId
  toolName : String
  permission : String
  risk : RiskLevel
  createdAt : Stamp
  lastUsedAt : Option Stamp

def PersistentGrant.authorizesInvocation (g : PersistentGrant) (subject : AgentId)
    (pluginId : PluginId) (toolName permission : String) (risk : RiskLevel) : Bool :=
  g.subjectAgent == subject && g.pluginId == pluginId && g.toolName == toolName &&
    g.permission == permission && g.risk == risk

inductive PluginKind where
  | adapter
  | toolSet
  | serviceProvider
  | executionEnvironment
  | memoryProvider
  | policyProvider
  | observabilityProvider
  | uiExtension
  | workflowExtension
  | integrationBridge
  deriving DecidableEq

inductive TrustLevel where
  | official
  | community
  | «private»
  | unverified
  deriving DecidableEq

inductive PluginHealth where
  | unknown
  | healthy
  | degraded
  | unhealthy
  deriving DecidableEq

structure PluginManifest where
  id : PluginId
  name : String
  version : String
  kind : PluginKind
  description : String
  author : String
  trustLevel : TrustLevel
  tools : List ToolDefinition
  permissions : List Permission
  health : PluginHealth
  deriving DecidableEq

inductive ManifestError where
  | emptyId
  | emptyName
  | emptyVersion
  | toolMissingPermission (tool : String)
  | toolInvalidPermission (tool : String) (source : PermissionError)
  | invalidDeclaredPermission (source : PermissionError)
  deriving DecidableEq

def ManifestError.text : ManifestError → String
  | .emptyId => "plugin id is empty"
  | .emptyName => "plugin name is empty"
  | .emptyVersion => "plugin version is empty"
  | .toolMissingPermission tool => "tool '" ++ tool ++ "' has no permission string"
  | .toolInvalidPermission tool source => "tool '" ++ tool ++ "' has invalid permission: " ++
      source.text
  | .invalidDeclaredPermission source => "declared permission is invalid: " ++ source.text

def validateTools : List ToolDefinition → Except ManifestError Unit
  | [] => .ok ()
  | t :: ts =>
    if t.name.isEmpty then .error (.toolMissingPermission "(unnamed)")
    else match Permission.new t.permission.asStr with
      | .error e => .error (.toolInvalidPermission t.name e)
      | .ok _ => validateTools ts

def validatePermissions : List Permission → Except ManifestError Unit
  | [] => .ok ()
  | p :: ps =>
    match Permission.new p.asStr with
    | .error e => .error (.invalidDeclaredPermission e)
    | .ok _ => validatePermissions ps

def validateManifest (m : PluginManifest) : Except ManifestError Unit :=
  if m.id.isEmpty then .error .emptyId
  else if m.name.isEmpty then .error .emptyName
  else if m.version.isEmpty then .error .emptyVersion
  else match validateTools m.tools with
    | .error e => .error e
    | .ok _ => validatePermissions m.permissions

inductive PluginSourceKind where
  | bundled
  | localDir
  | zip
  | github
  deriving DecidableEq

structure InstalledPlugin where
  id : PluginId
  version : String
  kind : PluginKind
  installedAt : Stamp
  sourceKind : PluginSourceKind
  sourceLabel : String
  installDir : String
  enabled : Bool

structure ToolRuntimeConfig where
  pluginId : PluginId
  baseUrl : String
  enabled : Bool
  timeoutMs : Nat

inductive AdapterKind where
  | localPrime
  | claudeCli
  | codexCli
  | command
  deriving DecidableEq

def AdapterKind.asStr : AdapterKind → String
  | .localPrime => "local_prime"
  | .claudeCli => "claude_cli"
  | .codexCli => "codex_cli"
  | .command => "command"

def AdapterKind.defaultCommand : AdapterKind → Option String
  | .claudeCli => some "claude"
  | .codexCli => some "codex"
  | .command => none
  | .localPrime => none

def AdapterKind.sourceLabel : AdapterKind → String
  | .localPrime => "local-prime"
  | .claudeCli => "claude-cli"
  | .codexCli => "codex-cli"
  | .command => "command"

def AdapterKind.resumeSupported (k : AdapterKind) : Bool := k == .claudeCli

def localPrimeAdapterId : PluginId := "relux-adapter-local-prime"
def claudeCliAdapterId : PluginId := "relux-adapter-claude-cli"
def codexCliAdapterId : PluginId := "relux-adapter-codex-cli"

def recognizeAdapterKind (pluginId : PluginId) : Option AdapterKind :=
  if pluginId = localPrimeAdapterId then some .localPrime
  else if pluginId = claudeCliAdapterId then some .claudeCli
  else if pluginId = codexCliAdapterId then some .codexCli
  else none

structure AdapterRuntimeConfig where
  pluginId : PluginId
  kind : AdapterKind
  enabled : Bool
  command : Option String
  timeoutSeconds : Nat
  maxOutputBytes : Nat
  workingDir : Option String

def AdapterRuntimeConfig.resolvedCommand (c : AdapterRuntimeConfig) : Option String :=
  c.command.or c.kind.defaultCommand

structure McpToolClassification where
  risk : RiskLevel
  approval : ApprovalRequirement

structure McpServerConfig where
  id : String
  endpoint : String
  enabled : Bool
  timeoutMs : Nat
  toolOverrides : HashMap String McpToolClassification

def McpServerConfig.toolClassification (c : McpServerConfig) (toolName : String) :
    McpToolClassification :=
  (c.toolOverrides.get? toolName).getD ⟨.medium, .required⟩

structure CommandInputArg where
  name : String
  description : String
  required : Bool

structure CommandToolConfig where
  pluginId : PluginId
  toolName : String
  program : String
  args : List String
  cwd : Option String
  inputArgs : List CommandInputArg
  timeoutMs : Nat
  enabled : Bool

inductive StepOutcome where
  | pending
  | completed
  | failed
  | blocked
  deriving DecidableEq

def StepOutcome.label : StepOutcome → String
  | .pending => "pending"
  | .completed => "completed"
  | .failed => "failed"
  | .blocked => "blocked"

structure OrchestrationStep where
  taskId : TaskId
  agentId : AgentId
  title : String
  outcome : StepOutcome
  dependsOn : List Nat
  runId : Option RunId
  note : Option String
  startedAt : Option Stamp
  finishedAt : Option Stamp
  round : Option Nat

inductive OrchestrationStatus where
  | planned
  | running
  | completed
  | needsAttention
  deriving DecidableEq

structure Orchestration where
  id : OrchestrationId
  goal : String
  createdBy : String
  status : OrchestrationStatus
  steps : List OrchestrationStep
  notes : List String
  createdAt : Stamp
  updatedAt : Stamp
  lastBatchSummary : Option String

inductive NamespaceKind where
  | company
  | team
  | project
  | environment
  | customer
  | personal
  deriving DecidableEq

structure Namespace where
  id : NamespaceId
  name : String
  kind : NamespaceKind
  parentId : Option NamespaceId
  settings : Json
  createdAt : Stamp

structure PendingClarification where
  originalMessage : String
  intent : Json
  needs : String
  question : String
  createdAtSecs : Nat
  expiresAtSecs : Nat
  source : String

structure PrimeContinuationStep where
  label : String
  source : String
  ok : Bool
  summary : String
  detail : String
  argsSig : String

structure PrimeContinuationApproval where
  approvalId : String
  label : String
  argsSig : String

structure PrimeAgentContinuation where
  id : String
  originalMessage : String
  extendedUsed : Bool
  steps : List PrimeContinuationStep
  limitReason : Option String
  pendingApproval : Option PrimeContinuationApproval
  createdAtSecs : Nat
  expiresAtSecs : Nat

structure ConversationTurn where
  userMessage : String
  reply : String
  intent : Json
  disposition : Json
  actionSummary : String
  toolReads : List String
  createdAtSecs : Nat

structure ConversationSummary where
  openedWith : Option String
  highlights : List String
  chatTurnsFolded : Nat
  turnsFolded : Nat
  updatedAtSecs : Nat

inductive AuditResult where
  | success
  | denied
  | failed
  | approved
  | rejected
  deriving DecidableEq

structure AuditEvent where
  id : String
  ts : Stamp
  actorType : String
  actorId : String
  action : String
  targetType : Option String
  targetId : Option String
  result : AuditResult

structure RunEvent where
  id : String
  runId : RunId
  ts : Stamp
  kind : String
  source : String
  message : String

end Relux
