import Relux.Plugins
import Relux.Tasks

/-! The crew: creating and editing an agent, the permissions it holds, and what a manager
may do to the agents of its own branch. -/

namespace Relux

def reportsToMap (s : KernelState) : ReportsToMap :=
  .collect (s.agents.values.filterMap (fun a => a.reportsTo.map (fun m => (a.id, m))))

def checkLead (s : KernelState) (id lead : AgentId) : Except KernelError Unit :=
  if lead = id then
    .error (.invalidAgentConfig "an operative cannot report to itself")
  else if (s.agents.get? lead).isNone then
    .error (.invalidAgentConfig ("unknown manager '" ++ lead ++
      "'; choose an existing crew member as the Lead"))
  else .ok ()

def checkLeadOf (s : KernelState) (id : AgentId) : Option AgentId → Except KernelError Unit
  | none => .ok ()
  | some lead => checkLead s id lead

def createAgentWithSkills (s : KernelState) (id : AgentId) (name description : String)
    (adapterPlugin : PluginId) (namespaceId : NamespaceId) (persona : Option String)
    (permissions : List Permission) (skills : List String) (reportsTo : Option AgentId) :
    Outcome AgentId :=
  if (s.plugins.get? adapterPlugin).isNone then (.error (.unknownPlugin adapterPlugin), s)
  else if (s.agents.get? id).isSome then (.error (.agentExists id), s)
  else match checkLeadOf s id reportsTo with
    | .error e => (.error e, s)
    | .ok () =>
      let s := kernelAudit s.tick "agent:create" "agent" id
      let agent : Agent := ⟨id, name, description, adapterPlugin, persona, namespaceId,
        permissions, skills, reportsTo, .active⟩
      (.ok id, { s with agents := s.agents.insert id agent })

def createAgent (s : KernelState) (id : AgentId) (name description : String)
    (adapterPlugin : PluginId) (namespaceId : NamespaceId) (persona : Option String)
    (permissions : List Permission) : Outcome AgentId :=
  createAgentWithSkills s id name description adapterPlugin namespaceId persona permissions []
    none

/-- What an operator edits of an agent; `none` leaves a field as it is. -/
structure AgentEdit where
  name : Option String
  description : Option String
  persona : Option (Option String)
  adapterPlugin : Option PluginId
  status : Option AgentStatus
  skills : Option (List String)
  reportsTo : Option (Option AgentId)

def AgentEdit.apply (e : AgentEdit) (a : Agent) : Agent :=
  { a with
    name := e.name.getD a.name
    description := e.description.getD a.description
    persona := e.persona.getD a.persona
    adapterPlugin := e.adapterPlugin.getD a.adapterPlugin
    status := e.status.getD a.status
    skills := e.skills.getD a.skills
    reportsTo := e.reportsTo.getD a.reportsTo }

def checkNewLead (s : KernelState) (id lead : AgentId) : Except KernelError Unit :=
  match checkLead s id lead with
  | .error e => .error e
  | .ok () =>
    if wouldCreateCycle id lead (reportsToMap s) then
      .error (.invalidAgentConfig ("setting Lead to '" ++ lead ++
        "' would create a reporting cycle"))
    else .ok ()

def checkLeadEdit (s : KernelState) (id : AgentId) :
    Option (Option AgentId) → Except KernelError Unit
  | some (some lead) => checkNewLead s id lead
  | _ => .ok ()

def updateAgentWithSkills (s : KernelState) (id : AgentId) (edit : AgentEdit) :
    Outcome Unit :=
  if (s.agents.get? id).isNone then (.error (.unknownAgent id), s)
  else match edit.adapterPlugin.filter (fun p => (s.plugins.get? p).isNone) with
    | some plugin => (.error (.unknownPlugin plugin), s)
    | none =>
      match checkLeadEdit s id edit.reportsTo with
      | .error e => (.error e, s)
      | .ok () =>
        let s := { s with agents := s.agents.modify id edit.apply }
        (.ok (), kernelAudit s "agent:update" "agent" id)

def grantPermissionToAgent (s : KernelState) (agentId : AgentId) (permission : Permission) :
    Outcome Unit :=
  match s.agents.get? agentId with
  | none => (.error (.unknownAgent agentId), s)
  | some agent =>
    if agent.permissions.contains permission then
      (.error (.permissionAlreadyGranted agentId permission.asStr), s)
    else
      let s := { s with
        agents := s.agents.modify agentId
          (fun a => { a with permissions := a.permissions ++ [permission] }) }
      (.ok (), kernelAudit s "agent:grant_permission" "agent" agentId)

def revokePermissionFromAgent (s : KernelState) (agentId : AgentId)
    (permission : Permission) : Outcome Unit :=
  match s.agents.get? agentId with
  | none => (.error (.unknownAgent agentId), s)
  | some agent =>
    if agent.permissions.all (· != permission) then
      (.error (.permissionNotGranted agentId permission.asStr), s)
    else
      let s := { s with
        agents := s.agents.modify agentId
          (fun a => { a with permissions := a.permissions.filter (· != permission) }) }
      (.ok (), kernelAudit s "agent:revoke_permission" "agent" agentId)

inductive ManagerAction where
  | grantPermission
  | revokePermission
  | assignTask
  deriving DecidableEq

def ManagerAction.label : ManagerAction → String
  | .grantPermission => "grant_permission"
  | .revokePermission => "revoke_permission"
  | .assignTask => "assign_task"

/-- Whether a held permission covers the action on the target: it names its holder and the
action, and the target stands in the holder's branch. -/
def Permission.managerSubtreeAuthorizes (grant : Permission) (holder : AgentId)
    (action : String) (target : AgentId) (reportsTo : ReportsToMap) : Bool :=
  match parseAgentSubtree grant.asStr.toList with
  | none => false
  | some (manager, grantedAction) =>
    manager == holder.toList && grantedAction == action.toList &&
      isInSubtree holder target reportsTo

def managerSubtreeAuthorizes (s : KernelState) (manager : AgentId) (action : ManagerAction)
    (target : AgentId) : Bool :=
  match s.agents.get? manager with
  | none => false
  | some managerAgent =>
    if managerAgent.status ≠ .active then false
    else if (s.agents.get? target).isNone then false
    else managerAgent.permissions.any
      (·.managerSubtreeAuthorizes manager action.label target (reportsToMap s))

def managerScope (manager : AgentId) (action : ManagerAction) : Permission :=
  ⟨"agent:" ++ manager ++ ":subtree:" ++ action.label⟩

def denyManager (s : KernelState) (manager : AgentId) (action : ManagerAction)
    (auditAction targetType targetId : String) : Outcome Unit :=
  (.error (.permissionDenied manager (managerScope manager action).asStr),
    recordAudit s "agent" manager auditAction (some targetType) (some targetId) .denied)

def managerGrantPermissionToSubordinate (s : KernelState) (manager target : AgentId)
    (permission : Permission) : Outcome Unit :=
  if ¬ managerSubtreeAuthorizes s manager .grantPermission target then
    denyManager s manager .grantPermission "agent:manager_grant_permission" "agent" target
  else grantPermissionToAgent s target permission

def managerRevokePermissionFromSubordinate (s : KernelState) (manager target : AgentId)
    (permission : Permission) : Outcome Unit :=
  if ¬ managerSubtreeAuthorizes s manager .revokePermission target then
    denyManager s manager .revokePermission "agent:manager_revoke_permission" "agent" target
  else revokePermissionFromAgent s target permission

def managerAssignTaskToSubordinate (s : KernelState) (manager target : AgentId)
    (taskId : TaskId) : Outcome Unit :=
  if ¬ managerSubtreeAuthorizes s manager .assignTask target then
    denyManager s manager .assignTask "agent:manager_assign_task" "task" taskId
  else match s.tasks.get? taskId with
    | none => (.error (.unknownTask taskId), s)
    | some task =>
      if isTerminalStatus task.status then
        (.error (.taskNotAssignable taskId task.status.debug),
          recordAudit s "agent" manager "agent:manager_assign_task" (some "task")
            (some taskId) .denied)
      else assignTask s taskId target

def auditCaller (actorType actorId action targetType targetId : String)
    (outcome : Outcome Unit) : Outcome Unit :=
  (outcome.1, recordAudit outcome.2 actorType actorId action (some targetType) (some targetId)
    (if outcome.1.toBool then .success else .denied))

def managerGrantPermissionToSubordinateAsOperator (s : KernelState) (operator : String)
    (manager target : AgentId) (permission : Permission) : Outcome Unit :=
  auditCaller "operator" operator "operator:authorize_manager_grant" "agent" target
    (managerGrantPermissionToSubordinate s manager target permission)

def managerGrantPermissionToSubordinateAsAgent (s : KernelState) (manager target : AgentId)
    (permission : Permission) : Outcome Unit :=
  auditCaller "agent" manager "agent:token_authenticated_manager_grant" "agent" target
    (managerGrantPermissionToSubordinate s manager target permission)

def managerRevokePermissionFromSubordinateAsAgent (s : KernelState)
    (manager target : AgentId) (permission : Permission) : Outcome Unit :=
  auditCaller "agent" manager "agent:token_authenticated_manager_revoke_permission" "agent"
    target (managerRevokePermissionFromSubordinate s manager target permission)

def managerAssignTaskToSubordinateAsAgent (s : KernelState) (manager target : AgentId)
    (taskId : TaskId) : Outcome Unit :=
  auditCaller "agent" manager "agent:token_authenticated_manager_assign_task" "task" taskId
    (managerAssignTaskToSubordinate s manager target taskId)

/-- A call in a manager's name: the kernel's own, one an operator makes for the manager, or
one the manager makes with its token. -/
inductive ManagerCall where
  | grant (manager target : AgentId) (permission : Permission)
  | grantAsOperator (operator : String) (manager target : AgentId) (permission : Permission)
  | grantAsAgent (manager target : AgentId) (permission : Permission)
  | revoke (manager target : AgentId) (permission : Permission)
  | revokeAsAgent (manager target : AgentId) (permission : Permission)
  | assign (manager target : AgentId) (taskId : TaskId)
  | assignAsAgent (manager target : AgentId) (taskId : TaskId)

def ManagerCall.exec (s : KernelState) : ManagerCall → Outcome Unit
  | .grant manager target permission =>
    managerGrantPermissionToSubordinate s manager target permission
  | .grantAsOperator operator manager target permission =>
    managerGrantPermissionToSubordinateAsOperator s operator manager target permission
  | .grantAsAgent manager target permission =>
    managerGrantPermissionToSubordinateAsAgent s manager target permission
  | .revoke manager target permission =>
    managerRevokePermissionFromSubordinate s manager target permission
  | .revokeAsAgent manager target permission =>
    managerRevokePermissionFromSubordinateAsAgent s manager target permission
  | .assign manager target taskId =>
    managerAssignTaskToSubordinate s manager target taskId
  | .assignAsAgent manager target taskId =>
    managerAssignTaskToSubordinateAsAgent s manager target taskId

end Relux
