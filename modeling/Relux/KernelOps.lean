import Relux.Tools
import Relux.Crew
import Relux.DispatchTrace
import Relux.Transition

/-! The operations of the control plane as one system. A process that has been prepared
is in flight until its outcome is brought back, at any later step. -/

namespace Relux

inductive RunOp where
  | createTask (title : String) (input : Json) (createdBy : String)
      (requiredPermissions : List Permission)
  | createTaskWithParent (title : String) (input : Json) (createdBy : String)
      (namespaceId : NamespaceId) (requiredPermissions : List Permission)
      (parent : Option TaskId)
  | reparentTask (taskId : TaskId) (newParent : Option TaskId)
  | assignTask (taskId : TaskId) (agentId : AgentId)
  | startRun (taskId : TaskId)
  | executeAssignedRun (taskId : TaskId)
  | prepareCliRun (taskId : TaskId) (adapter : PluginId)
  | finalizeCliRun (i : Nat) (outcome : Except String AdapterRunOutcome)
  | setTaskStatus (taskId : TaskId) (target : TaskStatus)
  | reopenTask (taskId : TaskId)
  | retryRun (runId : RunId)
  | resumeRun (runId : RunId)
  | completeRun (runId : RunId) (summary : String)
  | failRun (runId : RunId) (error : String)
  | completeTask (taskId : TaskId)
  | failTask (taskId : TaskId)

inductive BackgroundOp where
  | recoverStaleRuns (nowSecs : Nat) (activeRunIds : List RunId)
  | oneAutonomyTick
  | configureAutonomy (config : PrimeAutonomyConfig)
  | setRunWatchdogConfig (config : RunWatchdogConfig)

inductive ConfigOp where
  | registerPlugin (manifest : PluginManifest)
  | installPlugin (manifest : PluginManifest) (sourceKind : PluginSourceKind)
      (sourceLabel installDir : String) (enabled : Bool)
  | removeInstalledPlugin (id : PluginId)
  | refreshBundledPlugin (manifest : PluginManifest) (sourceLabel installDir : String)
  | configurePluginTool (pluginId : PluginId) (input : PluginToolInput)
  | removePluginTool (pluginId : PluginId) (toolName : String)
  | configureCommandTool (pluginId : PluginId) (draft : CommandToolDraft)
  | removeCommandTool (pluginId : PluginId) (toolName : String)
  | configureToolRuntime (pluginId : PluginId) (baseUrl : String) (enabled : Bool)
      (timeoutMs : Option Nat)
  | disableToolRuntime (pluginId : PluginId)
  | removeToolRuntime (pluginId : PluginId)
  | configureAdapterRuntime (pluginId : PluginId) (request : AdapterRuntimeRequest)
  | disableAdapterRuntime (pluginId : PluginId)
  | removeAdapterRuntime (pluginId : PluginId)
  | registerMcpServer (id endpoint : String) (enabled : Bool) (timeoutMs : Option Nat)
  | setMcpServerEnabled (id : String) (enabled : Bool)
  | removeMcpServer (id : String)
  | setMcpToolClassification (serverId toolName : String) (risk : RiskLevel)
      (approval : ApprovalRequirement)
  | clearMcpToolClassification (serverId toolName : String)
  | createAgent (id : AgentId) (name : String) (adapterPlugin : PluginId)
      (persona : Option String) (permissions : List Permission)
  | createAgentWithSkills (id : AgentId) (name description : String) (adapterPlugin : PluginId)
      (namespaceId : NamespaceId) (persona : Option String) (permissions : List Permission)
      (skills : List String) (reportsTo : Option AgentId)
  | updateAgentWithSkills (id : AgentId) (edit : AgentEdit)
  | grantPermissionToAgent (agentId : AgentId) (permission : Permission)
  | revokePermissionFromAgent (agentId : AgentId) (permission : Permission)

inductive ApprovalOp where
  | requestApproval (requestedBy action reason : String) (risk : RiskLevel)
  | requestToolInvocationApproval (requestedBy : String) (agentId : AgentId)
      (pluginId : PluginId) (toolName : String) (input : Json)
  | resolveApproval (id : ApprovalId) (approve : Bool) (approver : String)
      (note : Option String)
  | executeApprovedToolInvocation (id : ApprovalId) (executedBy : String)
  | allowAlwaysFromApproval (id : ApprovalId) (approver : String)
  | grantPersistentToolInvocation (createdBy : String) (subjectAgent : AgentId)
      (pluginId : PluginId) (toolName : String)
  | revokePersistentGrant (id revokedBy : String)
  | callTool (runId : RunId) (agentId : AgentId) (pluginId : PluginId) (toolName : String)
      (input : Json)
  | invokeTool (agentId : AgentId) (pluginId : PluginId) (toolName : String) (input : Json)

inductive KernelOp where
  | run (op : RunOp)
  | background (op : BackgroundOp)
  | config (op : ConfigOp)
  | approval (op : ApprovalOp)
  | manager (call : ManagerCall)
  | rehash (runs tasks grants : Nat)

structure ControlPlane where
  kernel : KernelState
  inFlight : List CliExecPlan

def ControlPlane.of (s : KernelState) : ControlPlane := ⟨s, []⟩

namespace ControlPlane

def withKernel (p : ControlPlane) (s : KernelState) : ControlPlane := { p with kernel := s }

def prepared (p : ControlPlane) : Outcome CliExecPlan → ControlPlane
  | (.error _, s) => p.withKernel s
  | (.ok plan, s) => ⟨s, p.inFlight ++ [plan]⟩

def finalized (p : ControlPlane) (w : World) (i : Nat)
    (outcome : Except String AdapterRunOutcome) : ControlPlane :=
  match p.inFlight[i]? with
  | none => p
  | some plan => ⟨(finalizeCliRun w p.kernel plan outcome).2, p.inFlight.eraseIdx i⟩

end ControlPlane

def workspaceNs : NamespaceId := "workspace"

def RunOp.exec (w : World) (p : ControlPlane) : RunOp → ControlPlane
  | .createTask title input createdBy permissions =>
    p.withKernel (Relux.createTask p.kernel title input createdBy workspaceNs permissions).2
  | .createTaskWithParent title input createdBy namespaceId permissions parent =>
    p.withKernel (Relux.createTaskWithParent p.kernel title input createdBy namespaceId
      permissions parent).2
  | .reparentTask taskId newParent =>
    p.withKernel (Relux.reparentTask p.kernel taskId newParent).2
  | .assignTask taskId agentId => p.withKernel (Relux.assignTask p.kernel taskId agentId).2
  | .startRun taskId => p.withKernel (Relux.startRun w p.kernel taskId).2
  | .executeAssignedRun taskId =>
    p.withKernel (Relux.executeAssignedRun w p.kernel taskId).2
  | .prepareCliRun taskId adapter =>
    p.prepared (Relux.prepareCliRun w p.kernel taskId adapter)
  | .finalizeCliRun i outcome => p.finalized w i outcome
  | .setTaskStatus taskId target =>
    p.withKernel (Relux.setTaskStatus p.kernel taskId target).2
  | .reopenTask taskId => p.withKernel (Relux.reopenTask p.kernel taskId).2
  | .retryRun runId => p.withKernel (Relux.retryRun w p.kernel runId).2
  | .resumeRun runId => p.withKernel (Relux.resumeRun w p.kernel runId).2
  | .completeRun runId summary =>
    p.withKernel (Relux.completeRun w p.kernel runId summary).2
  | .failRun runId error => p.withKernel (Relux.failRun w p.kernel runId error).2
  | .completeTask taskId => p.withKernel (Relux.completeTask p.kernel taskId).2
  | .failTask taskId => p.withKernel (Relux.failTask p.kernel taskId).2

def BackgroundOp.exec (w : World) (s : KernelState) : BackgroundOp → KernelState
  | .recoverStaleRuns nowSecs activeRunIds =>
    Relux.recoverStaleRuns w s nowSecs activeRunIds
  | .oneAutonomyTick => Relux.oneAutonomyTick w s
  | .configureAutonomy config => { s with primeAutonomyConfig := config }
  | .setRunWatchdogConfig config => Relux.setRunWatchdogConfig s config

def ConfigOp.exec (w : World) (s : KernelState) : ConfigOp → KernelState
  | .registerPlugin manifest => Relux.registerPlugin s manifest
  | .installPlugin manifest kind label dir enabled =>
    Relux.installPlugin s manifest kind label dir enabled
  | .removeInstalledPlugin id => (Relux.removeInstalledPlugin s id).2
  | .refreshBundledPlugin manifest label dir =>
    (Relux.refreshBundledPlugin s manifest label dir).2
  | .configurePluginTool pluginId input => (Relux.configurePluginTool s pluginId input).2
  | .removePluginTool pluginId toolName => (Relux.removePluginTool s pluginId toolName).2
  | .configureCommandTool pluginId draft => (Relux.configureCommandTool s pluginId draft).2
  | .removeCommandTool pluginId toolName => (Relux.removeCommandTool s pluginId toolName).2
  | .configureToolRuntime pluginId baseUrl enabled timeoutMs =>
    (Relux.configureToolRuntime w s pluginId baseUrl enabled timeoutMs).2
  | .disableToolRuntime pluginId => (Relux.disableToolRuntime s pluginId).2
  | .removeToolRuntime pluginId => (Relux.removeToolRuntime s pluginId).2
  | .configureAdapterRuntime pluginId request =>
    (Relux.configureAdapterRuntime s pluginId request).2
  | .disableAdapterRuntime pluginId => (Relux.disableAdapterRuntime s pluginId).2
  | .removeAdapterRuntime pluginId => (Relux.removeAdapterRuntime s pluginId).2
  | .registerMcpServer id endpoint enabled timeoutMs =>
    (Relux.registerMcpServer w s id endpoint enabled timeoutMs).2
  | .setMcpServerEnabled id enabled => (Relux.setMcpServerEnabled s id enabled).2
  | .removeMcpServer id => (Relux.removeMcpServer s id).2
  | .setMcpToolClassification serverId toolName risk approval =>
    (Relux.setMcpToolClassification s serverId toolName risk approval).2
  | .clearMcpToolClassification serverId toolName =>
    (Relux.clearMcpToolClassification s serverId toolName).2
  | .createAgent id name adapterPlugin persona permissions =>
    (Relux.createAgent s id name "" adapterPlugin workspaceNs persona permissions).2
  | .createAgentWithSkills id name description adapterPlugin namespaceId persona permissions
      skills reportsTo =>
    (Relux.createAgentWithSkills s id name description adapterPlugin namespaceId persona
      permissions skills reportsTo).2
  | .updateAgentWithSkills id edit => (Relux.updateAgentWithSkills s id edit).2
  | .grantPermissionToAgent agentId permission =>
    (Relux.grantPermissionToAgent s agentId permission).2
  | .revokePermissionFromAgent agentId permission =>
    (Relux.revokePermissionFromAgent s agentId permission).2

def ApprovalOp.exec (w : World) (s : KernelState) : ApprovalOp → KernelState
  | .requestApproval requestedBy action reason risk =>
    (Relux.requestApproval s requestedBy action reason risk).2
  | .requestToolInvocationApproval requestedBy agentId pluginId toolName input =>
    (Relux.requestToolInvocationApproval w s requestedBy agentId pluginId toolName input).2
  | .resolveApproval id approve approver note =>
    (Relux.resolveApproval s id approve approver note).2
  | .executeApprovedToolInvocation id executedBy =>
    (Relux.executeApprovedToolInvocation w s id executedBy).2
  | .allowAlwaysFromApproval id approver => (Relux.allowAlwaysFromApproval s id approver).2
  | .grantPersistentToolInvocation createdBy subject pluginId toolName =>
    (Relux.grantPersistentToolInvocation s createdBy subject pluginId toolName).2
  | .revokePersistentGrant id revokedBy => (Relux.revokePersistentGrant s id revokedBy).2
  | .callTool runId agentId pluginId toolName input =>
    (Relux.callTool w s runId agentId pluginId toolName input).2
  | .invokeTool agentId pluginId toolName input =>
    (Relux.invokeTool w s agentId pluginId toolName input).2

def KernelState.rehash (s : KernelState) (runs tasks grants : Nat) : KernelState :=
  { s with
    runs := s.runs.reorder runs
    tasks := s.tasks.reorder tasks
    persistentGrants := s.persistentGrants.reorder grants }

def KernelOp.exec (w : World) (p : ControlPlane) : KernelOp → ControlPlane
  | .run op => op.exec w p
  | .background op => p.withKernel (op.exec w p.kernel)
  | .config op => p.withKernel (op.exec w p.kernel)
  | .approval op => p.withKernel (op.exec w p.kernel)
  | .manager call => p.withKernel (call.exec p.kernel).2
  | .rehash runs tasks grants => p.withKernel (p.kernel.rehash runs tasks grants)

def ControlPlane.step (p : ControlPlane) (e : World × KernelOp) : ControlPlane := e.2.exec e.1 p

end Relux
