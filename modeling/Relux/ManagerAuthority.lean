import Relux.HierarchyRuns

/-! What a manager may change. Its authority is its own permission, its own status and the
org chart of the moment; whatever the run before did to the three, a call changes an agent
below it or nothing but the audit log. -/

namespace Relux

open Transition (run)

namespace KernelState

def permissionsOf (s : KernelState) (a : AgentId) : Option (List Permission) :=
  (s.agents.get? a).map (·.permissions)

def assigneeOf (s : KernelState) (t : TaskId) : Option (Option AgentId) :=
  (s.tasks.get? t).map (·.assignedAgent)

def audited (s : KernelState) (rows : List AuditEvent) : KernelState :=
  { s with
    auditLog := s.auditLog ++ rows
    nextAudit := s.nextAudit + rows.length
    clock := s.clock + rows.length }

end KernelState

theorem audited_nil (s : KernelState) : s.audited [] = s := by
  simp [KernelState.audited]

theorem audited_append (s : KernelState) (rows more : List AuditEvent) :
    (s.audited rows).audited more = s.audited (rows ++ more) := by
  simp only [KernelState.audited, List.append_assoc, List.length_append, Nat.add_assoc]

theorem recordAudit_audited (s : KernelState) (actorType actorId action : String)
    (targetType targetId : Option String) (result : AuditResult) :
    ∃ row, recordAudit s actorType actorId action targetType targetId result =
      s.audited [row] := ⟨_, rfl⟩

structure MayDirect (s : KernelState) (manager : AgentId) (action : ManagerAction)
    (target : AgentId) : Prop where
  active : ∃ agent, s.agents.get? manager = some agent ∧ agent.status = .active ∧
    managerScope manager action ∈ agent.permissions
  above : Relation.TransGen (fun a b => s.reportsTo a = some b) target manager
  other : manager ≠ target

theorem authorizes_scope {grant : Permission} {holder target : AgentId}
    {action : ManagerAction} {reportsTo : ReportsToMap}
    (h : grant.managerSubtreeAuthorizes holder action.label target reportsTo = true) :
    grant = managerScope holder action ∧ isInSubtree holder target reportsTo = true := by
  unfold Permission.managerSubtreeAuthorizes at h
  split at h
  · cases h
  next manager grantedAction hparts =>
    simp only [Bool.and_eq_true, beq_iff_eq] at h
    obtain ⟨⟨hmanager, haction⟩, hsubtree⟩ := h
    refine ⟨?_, hsubtree⟩
    have htext := parseAgentSubtree_eq hparts
    rw [hmanager, haction, ← String.toList_append, ← String.toList_append,
      ← String.toList_append] at htext
    cases grant
    exact congrArg Permission.mk (String.toList_inj.mp htext)

variable {s : KernelState}

theorem managerSubtreeAuthorizes_mayDirect (hk : s.CrewKeyed) {manager target : AgentId}
    {action : ManagerAction} (h : managerSubtreeAuthorizes s manager action target = true) :
    MayDirect s manager action target ∧ (s.agents.get? target).isSome = true := by
  unfold managerSubtreeAuthorizes at h
  split at h
  · cases h
  next agent hagent =>
    by_cases hactive : agent.status = .active
    · by_cases htarget : (s.agents.get? target).isNone = true
      · simp [hactive, htarget] at h
      · rw [if_neg (not_not_intro hactive), if_neg htarget, List.any_eq_true] at h
        obtain ⟨grant, hheld, hgrant⟩ := h
        obtain ⟨rfl, hsubtree⟩ := authorizes_scope hgrant
        obtain ⟨hother, hclimb⟩ := (isInSubtree_iff hk).mp hsubtree
        obtain ⟨k, -, hup⟩ := Forest.mem_climb hclimb
        have habove : Forest.Above s.reportsTo target manager := Forest.above_iff.mpr ⟨k, hup⟩
        have hsome : (s.agents.get? target).isSome = true := by
          simpa [Option.isSome_iff_ne_none] using htarget
        exact ⟨⟨⟨agent, hagent, hactive, hheld⟩, habove, hother⟩, hsome⟩
    · simp [hactive] at h

namespace ManagerCall

def manager : ManagerCall → AgentId
  | .grant manager _ _ => manager
  | .grantAsOperator _ manager _ _ => manager
  | .grantAsAgent manager _ _ => manager
  | .revoke manager _ _ => manager
  | .revokeAsAgent manager _ _ => manager
  | .assign manager _ _ => manager
  | .assignAsAgent manager _ _ => manager

def target : ManagerCall → AgentId
  | .grant _ target _ => target
  | .grantAsOperator _ _ target _ => target
  | .grantAsAgent _ target _ => target
  | .revoke _ target _ => target
  | .revokeAsAgent _ target _ => target
  | .assign _ target _ => target
  | .assignAsAgent _ target _ => target

def action : ManagerCall → ManagerAction
  | .grant .. => .grantPermission
  | .grantAsOperator .. => .grantPermission
  | .grantAsAgent .. => .grantPermission
  | .revoke .. => .revokePermission
  | .revokeAsAgent .. => .revokePermission
  | .assign .. => .assignTask
  | .assignAsAgent .. => .assignTask

def task : ManagerCall → Option TaskId
  | .assign _ _ taskId => some taskId
  | .assignAsAgent _ _ taskId => some taskId
  | _ => none

end ManagerCall

/-- What a call in a manager's name can do: it is refused and recorded, or the manager has
the authority, and then only its target or only its task is changed. -/
structure Confined (s : KernelState) (manager : AgentId) (action : ManagerAction)
    (target : AgentId) (task : Option TaskId) (outcome : Outcome Unit) : Prop where
  refused : outcome.1.toBool = false → ∃ rows, outcome.2 = s.audited rows
  accepted : outcome.1.toBool = true → MayDirect s manager action target
  permissions : ∀ a, outcome.2.permissionsOf a ≠ s.permissionsOf a →
    outcome.1.toBool = true ∧ action ≠ .assignTask ∧ a = target
  assignee : ∀ t, outcome.2.assigneeOf t ≠ s.assigneeOf t →
    outcome.1.toBool = true ∧ action = .assignTask ∧ task = some t ∧
      outcome.2.assigneeOf t = some (some target)

namespace Confined

variable {s : KernelState} {manager target : AgentId} {action : ManagerAction}
  {task : Option TaskId} {outcome : Outcome Unit}

theorem of_refused {e : KernelError} {rows : List AuditEvent} (h : outcome.1 = .error e)
    (hs : outcome.2 = s.audited rows) : Confined s manager action target task outcome where
  refused _ := ⟨rows, hs⟩
  accepted hok := by
    rw [h] at hok
    cases hok
  permissions a ha := by
    rw [hs] at ha
    exact absurd rfl ha
  assignee t ht := by
    rw [hs] at ht
    exact absurd rfl ht

theorem audit (h : Confined s manager action target task outcome)
    (actorType actorId auditAction targetType targetId : String) :
    Confined s manager action target task
      (auditCaller actorType actorId auditAction targetType targetId outcome) where
  refused hno := by
    obtain ⟨rows, hrows⟩ := h.refused hno
    obtain ⟨row, hrow⟩ := recordAudit_audited outcome.2 actorType actorId auditAction
      (some targetType) (some targetId) (if outcome.1.toBool then .success else .denied)
    refine ⟨rows ++ [row], ?_⟩
    rw [auditCaller, hrow, hrows, audited_append]
  accepted := h.accepted
  permissions := h.permissions
  assignee := h.assignee

end Confined

theorem denyManager_confined (s : KernelState) (manager target : AgentId)
    (action : ManagerAction) (task : Option TaskId) (auditAction targetType targetId : String) :
    Confined s manager action target task
      (denyManager s manager action auditAction targetType targetId) := by
  obtain ⟨row, hrow⟩ := recordAudit_audited s "agent" manager auditAction (some targetType)
    (some targetId) .denied
  exact .of_refused rfl hrow

theorem confined_modify {s' : KernelState} {manager target : AgentId} {action : ManagerAction}
    {f : Agent → Agent} (hmay : MayDirect s manager action target) (haction : action ≠ .assignTask)
    (hagents : s'.agents = s.agents.modify target f) (htasks : s'.tasks = s.tasks) :
    Confined s manager action target none (.ok (), s') where
  refused hno := by cases hno
  accepted _ := hmay
  permissions a ha := by
    refine ⟨rfl, haction, ?_⟩
    by_contra hne
    simp only [KernelState.permissionsOf, hagents, HashMap.get?_modify, if_neg hne] at ha
    exact ha rfl
  assignee t ht := by
    simp only [KernelState.assigneeOf, htasks] at ht
    exact absurd rfl ht

theorem grantPermission_confined {manager target : AgentId} {action : ManagerAction}
    (hmay : MayDirect s manager action target) (haction : action ≠ .assignTask)
    (permission : Permission) :
    Confined s manager action target none (grantPermissionToAgent s target permission) := by
  unfold grantPermissionToAgent
  split
  · exact .of_refused rfl (audited_nil s).symm
  · split
    · exact .of_refused rfl (audited_nil s).symm
    · exact confined_modify hmay haction rfl rfl

theorem revokePermission_confined {manager target : AgentId} {action : ManagerAction}
    (hmay : MayDirect s manager action target) (haction : action ≠ .assignTask)
    (permission : Permission) :
    Confined s manager action target none (revokePermissionFromAgent s target permission) := by
  unfold revokePermissionFromAgent
  split
  · exact .of_refused rfl (audited_nil s).symm
  · split
    · exact .of_refused rfl (audited_nil s).symm
    · exact confined_modify hmay haction rfl rfl

theorem assignTask_confined {manager target : AgentId} {taskId : TaskId} {task : Task}
    (hmay : MayDirect s manager .assignTask target) (htarget : (s.agents.get? target).isSome = true)
    (htask : s.tasks.get? taskId = some task) :
    Confined s manager .assignTask target (some taskId) (assignTask s taskId target) := by
  have hnone : ¬ (s.agents.get? target).isNone = true := by
    simpa [Option.isSome_iff_ne_none] using htarget
  have hok : (assignTask s taskId target).1 = .ok () := by
    simp only [assignTask, if_neg hnone, htask]
  have hagents : (assignTask s taskId target).2.agents = s.agents := by
    simp only [assignTask, if_neg hnone, htask]
    rfl
  have htasks : (assignTask s taskId target).2.tasks = s.tasks.modify taskId (fun t =>
      { t with assignedAgent := some target, status := .queued, updatedAt := s.stamp }) := by
    simp only [assignTask, if_neg hnone, htask]
    rfl
  refine ⟨fun hno => ?_, fun _ => hmay, fun a ha => ?_, fun t ht => ?_⟩
  · rw [hok] at hno
    cases hno
  · simp only [KernelState.permissionsOf, hagents] at ha
    exact absurd rfl ha
  · by_cases he : t = taskId
    · subst he
      refine ⟨by rw [hok]; rfl, rfl, rfl, ?_⟩
      simp [KernelState.assigneeOf, htasks, HashMap.get?_modify, htask]
    · simp only [KernelState.assigneeOf, htasks, HashMap.get?_modify, if_neg he] at ht
      exact absurd rfl ht

theorem ManagerCall.exec_confined (hk : s.CrewKeyed) (call : ManagerCall) :
    Confined s call.manager call.action call.target call.task (call.exec s) := by
  have hgrant : ∀ manager target permission,
      Confined s manager .grantPermission target none
        (managerGrantPermissionToSubordinate s manager target permission) := by
    intro manager target permission
    unfold managerGrantPermissionToSubordinate
    by_cases hauth : managerSubtreeAuthorizes s manager .grantPermission target = true
    · rw [if_neg (not_not_intro hauth)]
      have hmay := (managerSubtreeAuthorizes_mayDirect hk hauth).1
      exact grantPermission_confined hmay (by decide) permission
    · rw [if_pos hauth]
      exact denyManager_confined ..
  have hrevoke : ∀ manager target permission,
      Confined s manager .revokePermission target none
        (managerRevokePermissionFromSubordinate s manager target permission) := by
    intro manager target permission
    unfold managerRevokePermissionFromSubordinate
    by_cases hauth : managerSubtreeAuthorizes s manager .revokePermission target = true
    · rw [if_neg (not_not_intro hauth)]
      have hmay := (managerSubtreeAuthorizes_mayDirect hk hauth).1
      exact revokePermission_confined hmay (by decide) permission
    · rw [if_pos hauth]
      exact denyManager_confined ..
  have hassign : ∀ manager target taskId,
      Confined s manager .assignTask target (some taskId)
        (managerAssignTaskToSubordinate s manager target taskId) := by
    intro manager target taskId
    unfold managerAssignTaskToSubordinate
    by_cases hauth : managerSubtreeAuthorizes s manager .assignTask target = true
    · rw [if_neg (not_not_intro hauth)]
      obtain ⟨hmay, htarget⟩ := managerSubtreeAuthorizes_mayDirect hk hauth
      cases htask : s.tasks.get? taskId with
      | none => exact .of_refused rfl (audited_nil s).symm
      | some task =>
        by_cases hterminal : isTerminalStatus task.status = true
        · obtain ⟨row, hrow⟩ := recordAudit_audited s "agent" manager
            "agent:manager_assign_task" (some "task") (some taskId) .denied
          simp only [if_pos hterminal]
          exact .of_refused rfl hrow
        · simp only [if_neg hterminal]
          exact assignTask_confined hmay htarget htask
    · rw [if_pos hauth]
      exact denyManager_confined ..
  cases call with
  | grant manager target permission => exact hgrant manager target permission
  | grantAsOperator operator manager target permission =>
    exact (hgrant manager target permission).audit ..
  | grantAsAgent manager target permission => exact (hgrant manager target permission).audit ..
  | revoke manager target permission => exact hrevoke manager target permission
  | revokeAsAgent manager target permission =>
    exact (hrevoke manager target permission).audit ..
  | assign manager target taskId => exact hassign manager target taskId
  | assignAsAgent manager target taskId => exact (hassign manager target taskId).audit ..

/-- In every reachable state a call changes a permission list, or the agent of a task, only
with the authority over it; a refused call leaves rows in the audit log and nothing else. -/
theorem manager_authority_confined (ops : List (World × KernelOp)) (call : ManagerCall) :
    Confined (run ControlPlane.step (ControlPlane.of KernelState.new) ops).kernel call.manager
      call.action call.target call.task
      (call.exec (run ControlPlane.step (ControlPlane.of KernelState.new) ops).kernel) :=
  call.exec_confined (crewKeyed_run ops)

/-- A member asks for a permission of its own Lead, and the clock advances. -/
theorem refused_call_ticks :
    ((ManagerCall.grant (mintedId "op_" 1) (mintedId "op_" 0) ⟨"task:create"⟩).exec
      (run ControlPlane.step (ControlPlane.of KernelState.new) (crewLine 2)).kernel).1.toBool
        = false ∧
    ((ManagerCall.grant (mintedId "op_" 1) (mintedId "op_" 0) ⟨"task:create"⟩).exec
      (run ControlPlane.step (ControlPlane.of KernelState.new) (crewLine 2)).kernel).2.clock ≠
        (run ControlPlane.step (ControlPlane.of KernelState.new) (crewLine 2)).kernel.clock := by
  decide +kernel

end Relux
