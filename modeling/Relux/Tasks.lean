import Relux.Forest
import Relux.Records
import Relux.KernelState

/-! The two trees of the control plane, the Lead an agent reports to and the parent of a
task, each walked upwards under a cap. -/

namespace Relux

abbrev ReportsToMap := HashMap AgentId AgentId

def maxHierarchyDepth : Nat := 50

def chainOfCommand (agent : AgentId) (reportsTo : ReportsToMap) : List AgentId :=
  Forest.climb reportsTo.get? maxHierarchyDepth [agent] agent

def isInSubtree (manager child : AgentId) (reportsTo : ReportsToMap) : Bool :=
  if manager = child then false
  else (chainOfCommand child reportsTo).any (· == manager)

def wouldCreateCycle (child newManager : AgentId) (reportsTo : ReportsToMap) : Bool :=
  child == newManager || isInSubtree child newManager reportsTo

abbrev TaskParentMap := HashMap TaskId TaskId

def maxTaskDepth : Nat := 64

def taskAncestors (task : TaskId) (parentOf : TaskParentMap) : List TaskId :=
  Forest.climb parentOf.get? maxTaskDepth [task] task

def isInTaskSubtree (ancestor task : TaskId) (parentOf : TaskParentMap) : Bool :=
  if ancestor = task then false
  else (taskAncestors task parentOf).any (· == ancestor)

def wouldCreateTaskCycle (child newParent : TaskId) (parentOf : TaskParentMap) : Bool :=
  child == newParent || isInTaskSubtree child newParent parentOf

/-! Tasks on the board: creating one, with a parent or without, moving it in the tree,
assigning it, the operator's moves, and the two ways the run lifecycle ends one. -/

def createdByActor (createdBy : String) : String :=
  if createdBy = "founder" ∨ createdBy = "user" then "user" else "agent"

def taskAudit (s : KernelState) (action : String) (taskId : TaskId) (result : AuditResult) :
    KernelState :=
  recordAudit s "kernel" "kernel" action (some "task") (some taskId) result

def insertTask (s : KernelState) (title : String) (input : Json) (createdBy : String)
    (namespaceId : NamespaceId) (requiredPermissions : List Permission)
    (parent : Option TaskId) : TaskId × KernelState :=
  let id := taskIdOf (s.nextTask + 1)
  let task : Task := ⟨id, title, input, .created, createdBy, none, namespaceId,
    requiredPermissions, parent, s.stamp, s.stamp⟩
  let s := recordAudit { s.tick with nextTask := s.nextTask + 1 } (createdByActor createdBy)
    createdBy "task:create" (some "task") (some id) .success
  (id, { s with tasks := s.tasks.insert id task })

def taskParentMap (s : KernelState) : TaskParentMap :=
  .collect (s.tasks.entries.filterMap (fun e => e.2.parentTask.map (fun p => (e.1, p))))

def checkTaskParent (s : KernelState) (child : TaskId) (namespaceId : NamespaceId)
    (parentId : TaskId) : Except KernelError Unit :=
  match s.tasks.get? parentId with
  | none => .error (.unknownTask parentId)
  | some parent =>
    if parent.namespaceId ≠ namespaceId then
      .error (.taskParentScope parentId parent.namespaceId namespaceId)
    else if wouldCreateTaskCycle child parentId (taskParentMap s) then
      .error (.taskParentCycle child parentId)
    else .ok ()

def createTaskWithParent (s : KernelState) (title : String) (input : Json)
    (createdBy : String) (namespaceId : NamespaceId) (requiredPermissions : List Permission)
    (parent : Option TaskId) : Outcome TaskId :=
  let create := insertTask s title input createdBy namespaceId requiredPermissions parent
  match parent with
  | none => (.ok create.1, create.2)
  | some parentId =>
    match checkTaskParent s (taskIdOf (s.nextTask + 1)) namespaceId parentId with
    | .error e => (.error e, s)
    | .ok () => (.ok create.1, create.2)

def createTask (s : KernelState) (title : String) (input : Json) (createdBy : String)
    (namespaceId : NamespaceId) (requiredPermissions : List Permission) :
    TaskId × KernelState :=
  insertTask s title input createdBy namespaceId requiredPermissions none

def reparentTask (s : KernelState) (taskId : TaskId) (newParent : Option TaskId) :
    Outcome Unit :=
  let move := taskAudit (s.tick.setTask taskId (fun t =>
    { t with parentTask := newParent, updatedAt := s.stamp })) "task:update" taskId .success
  match s.tasks.get? taskId with
  | none => (.error (.unknownTask taskId), s)
  | some task =>
    match newParent with
    | none => (.ok (), move)
    | some parentId =>
      match checkTaskParent s taskId task.namespaceId parentId with
      | .error e => (.error e, s)
      | .ok () => (.ok (), move)

def assignTask (s : KernelState) (taskId : TaskId) (agentId : AgentId) : Outcome Unit :=
  if (s.agents.get? agentId).isNone then (.error (.unknownAgent agentId), s)
  else
    let ticked := s.tick
    match s.tasks.get? taskId with
    | none => (.error (.unknownTask taskId), ticked)
    | some _ =>
      let s := ticked.setTask taskId (fun t =>
        { t with assignedAgent := some agentId, status := .queued, updatedAt := s.stamp })
      (.ok (), taskAudit s "task:assign" taskId .success)

def isTerminalStatus : TaskStatus → Bool
  | .completed => true
  | .failed => true
  | .cancelled => true
  | .expired => true
  | _ => false

def isSettableStatus : TaskStatus → Bool
  | .blocked => true
  | .cancelled => true
  | _ => false

def setTaskStatus (s : KernelState) (taskId : TaskId) (target : TaskStatus) : Outcome Unit :=
  if ¬ isSettableStatus target then (.error (.taskStatusNotSettable taskId target.label), s)
  else match s.tasks.get? taskId with
    | none => (.error (.unknownTask taskId), s)
    | some task =>
      if isTerminalStatus task.status then
        (.error (.taskTerminalStatus taskId task.status.label), s)
      else
        let s := s.tick.setTask taskId (fun t =>
          { t with status := target, updatedAt := s.stamp })
        (.ok (), taskAudit s "task:update" taskId .success)

def reopenTask (s : KernelState) (taskId : TaskId) : Outcome Unit :=
  match s.tasks.get? taskId with
  | none => (.error (.unknownTask taskId), s)
  | some task =>
    if task.status ≠ .blocked then
      (.error (.taskNotReopenable taskId task.status.label), s)
    else if task.assignedAgent.isNone then (.error (.taskNotAssigned taskId), s)
    else
      let s := s.tick.setTask taskId (fun t =>
        { t with status := .queued, updatedAt := s.stamp })
      (.ok (), taskAudit s "task:update" taskId .success)

def closeTask (s : KernelState) (taskId : TaskId) (status : TaskStatus) (action : String)
    (result : AuditResult) : Outcome Unit :=
  let ticked := s.tick
  match s.tasks.get? taskId with
  | none => (.error (.unknownTask taskId), ticked)
  | some _ =>
    let s := ticked.setTask taskId (fun t => { t with status := status, updatedAt := s.stamp })
    (.ok (), taskAudit s action taskId result)

def completeTask (s : KernelState) (taskId : TaskId) : Outcome Unit :=
  closeTask s taskId .completed "task:complete" .success

def failTask (s : KernelState) (taskId : TaskId) : Outcome Unit :=
  closeTask s taskId .failed "task:fail" .failed

end Relux
