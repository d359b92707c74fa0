import Relux.KernelOps

/-! What each group of operations leaves alone: configuration touches no task, run or
approval, and approvals touch no task, run status or configuration. -/

namespace Relux

namespace KernelState

def work (s : KernelState) : HashMap TaskId Task × HashMap RunId Run × Nat × Nat ×
    HashMap OrchestrationId Orchestration :=
  (s.tasks, s.runs, s.nextTask, s.nextRun, s.orchestrations)

def tooling (s : KernelState) : HashMap PluginId PluginManifest ×
    HashMap PluginId InstalledPlugin × HashMap (PluginId × String) CommandToolConfig :=
  (s.plugins, s.installedPlugins, s.commandToolConfigs)

theorem board_of_work {s s' : KernelState} (h : s'.work = s.work) : s'.board = s.board := by
  simp only [work, Prod.mk.injEq] at h
  obtain ⟨htasks, hruns, hnextTask, hnextRun, -⟩ := h
  simp only [board, htasks, hruns, hnextTask, hnextRun]

theorem orchestrations_of_work {s s' : KernelState} (h : s'.work = s.work) :
    s'.orchestrations = s.orchestrations := by
  simp only [work, Prod.mk.injEq] at h
  exact h.2.2.2.2

theorem keyed_of_work {s s' : KernelState} (h : s'.work = s.work) (hk : s.Keyed) :
    s'.Keyed := by
  simp only [work, Prod.mk.injEq] at h
  obtain ⟨htasks, hruns, -⟩ := h
  exact ⟨htasks ▸ hk.task, hruns ▸ hk.run⟩

end KernelState

structure Reconfigures (s s' : KernelState) : Prop where
  work : s'.work = s.work
  docket : s'.docket = s.docket

def ConfigOp.changesTooling : ConfigOp → Bool
  | .registerPlugin .. => true
  | .installPlugin .. => true
  | .removeInstalledPlugin .. => true
  | .refreshBundledPlugin .. => true
  | .configurePluginTool .. => true
  | .removePluginTool .. => true
  | .configureCommandTool .. => true
  | .removeCommandTool .. => true
  | _ => false

def ConfigOp.isCrewOp : ConfigOp → Bool
  | .createAgent .. => true
  | .createAgentWithSkills .. => true
  | .updateAgentWithSkills .. => true
  | .grantPermissionToAgent .. => true
  | .revokePermissionFromAgent .. => true
  | _ => false

structure Configures (op : ConfigOp) (s s' : KernelState) : Prop extends Reconfigures s s' where
  clock : s.clock ≤ s'.clock
  archive : s.archive.Sound → s'.archive.Sound
  tooling : op.changesTooling = false → s'.tooling = s.tooling
  agents : op.isCrewOp = false → s'.agents = s.agents

namespace Configures

variable {op : ConfigOp} {s s' : KernelState}

theorem refl (op : ConfigOp) (s : KernelState) : Configures op s s :=
  ⟨⟨rfl, rfl⟩, Nat.le_refl _, id, fun _ => rfl, fun _ => rfl⟩

theorem installPlugin (hop : op.changesTooling = true) (manifest : PluginManifest)
    (kind : PluginSourceKind) (label dir : String) (enabled : Bool) :
    Configures op s (Relux.installPlugin s manifest kind label dir enabled) :=
  ⟨⟨rfl, rfl⟩, Nat.le_add_right s.clock 3, fun h => (h.audited rfl).audited rfl,
    fun h => absurd (hop.symm.trans h) (by decide), fun _ => rfl⟩

theorem removePluginTool (hop : op.changesTooling = true) (pluginId : PluginId)
    (toolName : String) : Configures op s (Relux.removePluginTool s pluginId toolName).2 := by
  unfold Relux.removePluginTool
  dsimp only
  repeat' split
  all_goals first
    | exact refl op s
    | exact ⟨⟨rfl, rfl⟩, Nat.le_succ s.clock, fun h => h.audited rfl,
        fun h => absurd (hop.symm.trans h) (by decide), fun _ => rfl⟩

end Configures

theorem ConfigOp.exec_configures (w : World) (s : KernelState) (op : ConfigOp) :
    Configures op s (op.exec w s) := by
  cases op with
  | registerPlugin m =>
    exact ⟨⟨rfl, rfl⟩, Nat.le_succ s.clock, fun h => h.audited rfl, fun h => (by cases h),
        fun _ => rfl⟩
  | installPlugin m kind label dir enabled => exact .installPlugin rfl m kind label dir enabled
  | refreshBundledPlugin m label dir =>
    simp only [ConfigOp.exec, Relux.refreshBundledPlugin]
    repeat' split
    all_goals first
      | exact .refl _ s
      | exact .installPlugin rfl m .bundled label dir _
  | removePluginTool pluginId toolName => exact .removePluginTool rfl pluginId toolName
  | removeCommandTool pluginId toolName =>
    simp only [ConfigOp.exec, Relux.removeCommandTool]
    split
    · exact .refl _ s
    · exact .removePluginTool rfl pluginId toolName
  | removeInstalledPlugin | configurePluginTool | configureCommandTool =>
    simp only [ConfigOp.exec, Relux.removeInstalledPlugin, Relux.configurePluginTool,
      Relux.configureCommandTool]
    repeat' split
    all_goals first
      | exact .refl _ s
      | exact ⟨⟨rfl, rfl⟩, Nat.le_succ s.clock, fun h => h.audited rfl, fun h => (by cases h),
        fun _ => rfl⟩
  | createAgent | createAgentWithSkills | updateAgentWithSkills | grantPermissionToAgent
  | revokePermissionFromAgent =>
    simp only [ConfigOp.exec, Relux.createAgent, Relux.createAgentWithSkills,
      Relux.updateAgentWithSkills, Relux.grantPermissionToAgent, Relux.revokePermissionFromAgent]
    repeat' split
    all_goals first
      | exact .refl _ s
      | exact ⟨⟨rfl, rfl⟩, Nat.le_succ s.clock, fun h => h.audited rfl, fun _ => rfl,
          fun h => (by cases h)⟩
      | exact ⟨⟨rfl, rfl⟩, Nat.le_add_right s.clock 2, fun h => h.audited rfl, fun _ => rfl,
          fun h => (by cases h)⟩
  | _ =>
    simp only [ConfigOp.exec, Relux.configureToolRuntime, Relux.disableToolRuntime,
      Relux.removeToolRuntime, Relux.configureAdapterRuntime, Relux.disableAdapterRuntime,
      Relux.removeAdapterRuntime, Relux.registerMcpServer, Relux.setMcpServerEnabled,
      Relux.removeMcpServer, Relux.setMcpToolClassification, Relux.clearMcpToolClassification]
    repeat' split
    all_goals first
      | exact .refl _ s
      | exact ⟨⟨rfl, rfl⟩, Nat.le_succ s.clock, fun h => h.audited rfl, fun _ => rfl, fun _ => rfl⟩

structure Catalog.Matches (c c' : Catalog) : Prop where
  rest : c' = { c with agents := c'.agents }
  known : ∀ a, (c'.agents.get? a).isNone = (c.agents.get? a).isNone

theorem Catalog.Matches.of_eq {c c' : Catalog} (h : c' = c) : c.Matches c' := by
  subst h
  exact ⟨rfl, fun _ => rfl⟩

/-- A step that puts at most one task in the queue, one that has not ended, and of what is
configured changes what is recorded of an agent only. -/
structure Directs (s s' : KernelState) : Prop where
  board : s'.board = s.board ∨ ∃ t status, s.board.task t = some status ∧
    isTerminalStatus status = false ∧ s'.board = s.board.move (.task t .queued)
  runs : s'.runs = s.runs
  nextRun : s'.nextRun = s.nextRun
  clock : s.clock ≤ s'.clock
  keyed : s.Keyed → s'.Keyed
  docket : s'.docket = s.docket
  orchestrations : s'.orchestrations = s.orchestrations
  catalog : s.catalog.Matches s'.catalog

namespace Directs

variable (s : KernelState)

theorem refl : Directs s s := ⟨.inl rfl, rfl, rfl, Nat.le_refl _, id, rfl, rfl, .of_eq rfl⟩

theorem audit {s s' : KernelState} (h : Directs s s') (actorType actorId action : String)
    (targetType targetId : Option String) (result : AuditResult) :
    Directs s (recordAudit s' actorType actorId action targetType targetId result) :=
  ⟨h.board, h.runs, h.nextRun, h.clock.trans (Nat.le_succ _),
    fun hk => ⟨(h.keyed hk).task, (h.keyed hk).run⟩, h.docket, h.orchestrations, h.catalog⟩

theorem setAgent (agentId : AgentId) (f : Agent → Agent) :
    Directs s { s with agents := s.agents.modify agentId f } := by
  refine ⟨.inl rfl, rfl, rfl, Nat.le_refl _, fun h => ⟨h.task, h.run⟩, rfl, rfl, rfl, fun a => ?_⟩
  change ((s.agents.modify agentId f).get? a).isNone = (s.agents.get? a).isNone
  rw [HashMap.get?_modify]
  split
  next he => rw [he, Option.isNone_map]
  · rfl

end Directs

/-- The writes of a call in a manager's name. -/
inductive CrewWrite (s : KernelState) : KernelState → Prop where
  | none : CrewWrite s s
  | setAgent (agentId : AgentId) (f : Agent → Agent)
    (hf : ∀ a, ((f a).id, (f a).reportsTo) = (a.id, a.reportsTo)) :
    CrewWrite s { s with agents := s.agents.modify agentId f }
  | assign (taskId : TaskId) (target : AgentId) {task : Task}
    (htask : s.tasks.get? taskId = some task) (hlive : isTerminalStatus task.status = false) :
    CrewWrite s (assignTask s taskId target).2
  | audit {s' : KernelState} (h : CrewWrite s s') (actorType actorId action : String)
    (targetType targetId : Option String) (result : AuditResult) :
    CrewWrite s (recordAudit s' actorType actorId action targetType targetId result)

namespace CrewWrite

variable (s : KernelState)

theorem agentPermission (agentId : AgentId) (permission : Permission) :
    CrewWrite s (grantPermissionToAgent s agentId permission).2 ∧
      CrewWrite s (revokePermissionFromAgent s agentId permission).2 := by
  refine ⟨?_, ?_⟩
  · unfold grantPermissionToAgent
    split
    · exact .none
    · split
      · exact .none
      · exact (setAgent agentId _ (by exact fun _ => rfl)).audit _ _ _ _ _ _
  · unfold revokePermissionFromAgent
    split
    · exact .none
    · split
      · exact .none
      · exact (setAgent agentId _ (by exact fun _ => rfl)).audit _ _ _ _ _ _

theorem grant (manager target : AgentId) (permission : Permission) :
    CrewWrite s (managerGrantPermissionToSubordinate s manager target permission).2 := by
  unfold managerGrantPermissionToSubordinate
  split
  · exact audit .none _ _ _ _ _ _
  · exact (agentPermission s target permission).1

theorem revoke (manager target : AgentId) (permission : Permission) :
    CrewWrite s (managerRevokePermissionFromSubordinate s manager target permission).2 := by
  unfold managerRevokePermissionFromSubordinate
  split
  · exact audit .none _ _ _ _ _ _
  · exact (agentPermission s target permission).2

theorem managerAssign (manager target : AgentId) (taskId : TaskId) :
    CrewWrite s (managerAssignTaskToSubordinate s manager target taskId).2 := by
  unfold managerAssignTaskToSubordinate
  split
  · exact audit .none _ _ _ _ _ _
  · split
    · exact .none
    next task htask =>
      split
      · exact audit .none _ _ _ _ _ _
      next hlive => exact .assign taskId target htask (Bool.not_eq_true _ ▸ hlive)

variable {s} {s' : KernelState}

theorem directs (h : CrewWrite s s') : Directs s s' := by
  induction h with
  | none => exact .refl s
  | setAgent agentId f _ => exact .setAgent s agentId f
  | assign taskId target htask hlive =>
    obtain ⟨moves, htrace, hmoves⟩ := assignTask_trace s taskId target
    have hruns : (assignTask s taskId target).2.runs = s.runs ∧
        (assignTask s taskId target).2.nextRun = s.nextRun ∧
          s.clock ≤ (assignTask s taskId target).2.clock := by
      unfold assignTask
      repeat' split
      all_goals first
        | exact ⟨rfl, rfl, Nat.le_refl s.clock⟩
        | exact ⟨rfl, rfl, Nat.le_succ s.clock⟩
        | exact ⟨rfl, rfl, Nat.le_add_right s.clock 2⟩
    refine ⟨?_, hruns.1, hruns.2.1, hruns.2.2, htrace.keyed, htrace.docket,
      htrace.orchestrations, .of_eq htrace.catalog⟩
    rcases hmoves with rfl | rfl
    · exact .inl htrace.board
    · refine .inr ⟨taskId, _, ?_, hlive, htrace.board⟩
      simp only [KernelState.board, htask, Option.map_some]
  | audit _ _ _ _ _ _ _ ih => exact ih.audit _ _ _ _ _ _

end CrewWrite

theorem ManagerCall.exec_writes (s : KernelState) (call : ManagerCall) :
    CrewWrite s (call.exec s).2 := by
  cases call with
  | grant manager target permission => exact .grant s manager target permission
  | grantAsOperator operator manager target permission =>
    exact (CrewWrite.grant s manager target permission).audit _ _ _ _ _ _
  | grantAsAgent manager target permission =>
    exact (CrewWrite.grant s manager target permission).audit _ _ _ _ _ _
  | revoke manager target permission => exact .revoke s manager target permission
  | revokeAsAgent manager target permission =>
    exact (CrewWrite.revoke s manager target permission).audit _ _ _ _ _ _
  | assign manager target taskId => exact .managerAssign s manager target taskId
  | assignAsAgent manager target taskId =>
    exact (CrewWrite.managerAssign s manager target taskId).audit _ _ _ _ _ _

theorem ManagerCall.exec_directs (s : KernelState) (call : ManagerCall) :
    Directs s (call.exec s).2 := (call.exec_writes s).directs

structure Decides (s s' : KernelState) : Prop where
  board : s'.board = s.board
  keyed : s.Keyed → s'.Keyed
  catalog : s'.catalog = s.catalog
  orchestrations : s'.orchestrations = s.orchestrations

/-- A step of the approvals keeps what is fit to be saved, and writes no task or run. -/
structure Rules (s s' : KernelState) : Prop extends Decides s s' where
  works : Works s s'
  archive : s.archive.Sound → s'.archive.Sound

theorem Acts.rules {w : World} {s s' : KernelState} (h : Acts w (fun _ => True) s s' []) :
    Rules s s' :=
  ⟨⟨h.board, h.keyed, h.catalog, h.orchestrations⟩, h.works, h.archive⟩

namespace Rules

theorem refl (s : KernelState) : Rules s s := ⟨⟨rfl, id, rfl, rfl⟩, .refl s, id⟩

theorem trans {s s' s'' : KernelState} (h : Rules s s') (h' : Rules s' s'') : Rules s s'' :=
  ⟨⟨h'.board.trans h.board, h'.keyed ∘ h.keyed, h'.catalog.trans h.catalog,
    h'.orchestrations.trans h.orchestrations⟩, h.works.trans h'.works, h'.archive ∘ h.archive⟩

theorem aside {s s' : KernelState} (hwork : s'.work = s.work) (hcatalog : s'.catalog = s.catalog)
    (hclock : s.clock ≤ s'.clock) (harchive : s.archive.Sound → s'.archive.Sound) :
    Rules s s' := by
  refine ⟨⟨KernelState.board_of_work hwork, KernelState.keyed_of_work hwork, hcatalog,
    KernelState.orchestrations_of_work hwork⟩, ?_, harchive⟩
  simp only [KernelState.work, Prod.mk.injEq] at hwork
  exact .aside hwork.1 hwork.2.1 hwork.2.2.2.1 hclock

variable (s : KernelState)

theorem requestApproval (requestedBy action reason : String) (risk : RiskLevel) :
    Rules s (Relux.requestApproval s requestedBy action reason risk).2 :=
  aside rfl rfl (Nat.le_add_right s.clock 2)
    fun h => { h.audited rfl with approvals := h.approvals.insert rfl }

theorem requestToolInvocationApproval (w : World) (requestedBy : String) (agentId : AgentId)
    (pluginId : PluginId) (toolName : String) (input : Json) :
    Rules s (Relux.requestToolInvocationApproval w s requestedBy agentId pluginId toolName
      input).2 := by
  unfold Relux.requestToolInvocationApproval
  dsimp only
  split
  · exact refl s
  · split
    · exact aside rfl rfl (Nat.le_succ _) fun h => h.audited rfl
    · split
      · exact refl s
      · split
        · exact refl s
        · generalize hrequested : Relux.requestApproval s requestedBy _ _ _ = requested
          have hfiled : Rules s requested.2 := hrequested ▸ requestApproval s requestedBy _ _ _
          exact hfiled.trans (aside rfl rfl (Nat.le_succ _)
            fun h => { h.audited rfl with pending := h.pending.insert rfl })

theorem resolveApproval (id : ApprovalId) (approve : Bool) (approver : String)
    (note : Option String) : Rules s (Relux.resolveApproval s id approve approver note).2 := by
  unfold Relux.resolveApproval
  split
  · exact aside rfl rfl (Nat.le_succ _) fun h => h
  · dsimp only
    split
    · exact aside rfl rfl (Nat.le_add_right s.clock 2)
        fun h => { h.audited rfl with approvals := h.approvals.modify id (fun _ => rfl) }
    · exact aside rfl rfl (Nat.le_add_right s.clock 2) fun h => { h.audited rfl with
        approvals := h.approvals.modify id (fun _ => rfl)
        pending := h.pending.remove id }

theorem executeApprovedToolInvocation (w : World) (id : ApprovalId) (executedBy : String) :
    Rules s (Relux.executeApprovedToolInvocation w s id executedBy).2 := by
  have hgate : Rules s (executeApprovedAdmit w s id executedBy).2 := by
    unfold executeApprovedAdmit
    repeat' split
    all_goals first
      | exact refl s
      | exact aside rfl rfl (Nat.le_succ _) fun h => h.audited rfl
      | exact aside rfl rfl (Nat.le_refl _)
          fun h => { h with pending := h.pending.modify id (fun _ => rfl) }
  unfold Relux.executeApprovedToolInvocation
  split
  next h =>
    rw [h] at hgate
    exact hgate
  next h =>
    rw [h] at hgate
    split <;> exact hgate.trans (aside rfl rfl (Nat.le_succ _) fun h => h.audited rfl)

theorem grantPersistentToolInvocation (createdBy : String) (subject : AgentId)
    (pluginId : PluginId) (toolName : String) :
    Rules s (Relux.grantPersistentToolInvocation s createdBy subject pluginId toolName).2 := by
  unfold Relux.grantPersistentToolInvocation
  dsimp only
  repeat' split
  all_goals first
    | exact refl s
    | exact aside rfl rfl (Nat.le_succ _) fun h => h.audited rfl
    | exact aside rfl rfl (Nat.le_add_right s.clock 2)
        fun h => { h.audited rfl with grants := h.grants.insert rfl }

theorem allowAlwaysFromApproval (id : ApprovalId) (approver : String) :
    Rules s (Relux.allowAlwaysFromApproval s id approver).2 := by
  unfold Relux.allowAlwaysFromApproval
  split
  · exact refl s
  next binding _ =>
    have hgrant := grantPersistentToolInvocation s approver binding.agentId binding.pluginId
      binding.toolName
    split
    next h =>
      rw [h] at hgrant
      exact hgrant
    next s₁ h =>
      rw [h] at hgrant
      have hresolve := hgrant.trans (resolveApproval s₁ id true approver none)
      split
      next h' =>
        rw [h'] at hresolve
        exact hresolve
      next h' =>
        rw [h'] at hresolve
        exact hresolve

theorem revokePersistentGrant (id revokedBy : String) :
    Rules s (Relux.revokePersistentGrant s id revokedBy).2 := by
  unfold Relux.revokePersistentGrant
  split
  · exact refl s
  · exact aside rfl rfl (Nat.le_succ _)
      fun h => { h.audited rfl with grants := h.grants.remove id }

theorem invokeTool (w : World) (agentId : AgentId) (pluginId : PluginId) (toolName : String)
    (input : Json) : Rules s (Relux.invokeTool w s agentId pluginId toolName input).2 := by
  have hgate : Rules s (invokeToolAdmit s agentId pluginId toolName).2 := by
    unfold invokeToolAdmit
    repeat' split
    all_goals first
      | exact refl s
      | exact aside rfl rfl (Nat.le_succ _) fun h => h.audited rfl
      | exact aside rfl rfl (Nat.le_add_right s.clock 2)
          (recordPersistentGrantUse_trace s _ _).archive
  unfold Relux.invokeTool
  split
  next h =>
    rw [h] at hgate
    exact hgate
  next h =>
    rw [h] at hgate
    split <;> exact hgate.trans (aside rfl rfl (Nat.le_succ _) fun h => h.audited rfl)

end Rules

theorem ApprovalOp.exec_rules (w : World) (s : KernelState) (op : ApprovalOp) :
    Rules s (op.exec w s) := by
  cases op with
  | requestApproval requestedBy action reason risk => exact .requestApproval s _ _ _ _
  | requestToolInvocationApproval requestedBy agentId pluginId toolName input =>
    exact .requestToolInvocationApproval s w _ _ _ _ _
  | resolveApproval id approve approver note => exact .resolveApproval s id _ _ _
  | executeApprovedToolInvocation id executedBy => exact .executeApprovedToolInvocation s w _ _
  | allowAlwaysFromApproval id approver => exact .allowAlwaysFromApproval s id approver
  | grantPersistentToolInvocation createdBy subject pluginId toolName =>
    exact .grantPersistentToolInvocation s _ _ _ _
  | revokePersistentGrant id revokedBy => exact .revokePersistentGrant s id revokedBy
  | callTool runId agentId pluginId toolName input =>
    exact Acts.rules (callTool_acts w s trivial agentId pluginId toolName input)
  | invokeTool agentId pluginId toolName input => exact .invokeTool s w _ _ _ _

theorem rehash_trace (s : KernelState) (runs tasks grants : Nat) :
    Trace s (s.rehash runs tasks grants) [] where
  settings := rfl
  archive := fun h => { h with grants := h.grants.reorder grants }
  board := by
    simp only [KernelState.rehash, KernelState.board, HashMap.get?_reorder, Board.play_nil]
  keyed := by
    intro hk
    refine ⟨fun t task ht => hk.task t task ?_, fun r run hr => hk.run r run ?_⟩
    · simpa only [KernelState.rehash, HashMap.get?_reorder] using ht
    · simpa only [KernelState.rehash, HashMap.get?_reorder] using hr

end Relux
