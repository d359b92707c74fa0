import Relux.KernelState
import Relux.Dispatch
import Relux.RunBoard

/-! The archive: what the kernel writes down beside its tasks, runs, agents and
configuration. Rows of the transcript and of the audit log are numbered without a gap, and
every record is stored under its own id. -/

namespace Relux

structure Archive where
  auditLog : List AuditEvent
  nextAudit : Nat
  runEvents : List RunEvent
  nextEvent : Nat
  namespaces : HashMap NamespaceId Namespace
  approvals : HashMap ApprovalId Approval
  pendingToolInvocations : HashMap ApprovalId PendingToolInvocation
  persistentGrants : HashMap String PersistentGrant
  orchestrations : HashMap OrchestrationId Orchestration
  runLogs : HashMap RunId RunLog
  primeAgentPolicy : PrimeAgentPolicy
  runWatchdog : RunWatchdogConfig

def KernelState.archive (s : KernelState) : Archive :=
  ⟨s.auditLog, s.nextAudit, s.runEvents, s.nextEvent, s.namespaces, s.approvals,
    s.pendingToolInvocations, s.persistentGrants, s.orchestrations, s.runLogs,
    s.primeAgentPolicy, s.runWatchdog⟩

def mintedIds (head : String) (n : Nat) : List String :=
  (List.range n).map (fun i => mintedId head (i + 1))

theorem mintedIds_succ (head : String) (n : Nat) :
    mintedIds head (n + 1) = mintedIds head n ++ [mintedId head (n + 1)] := by
  simp only [mintedIds, List.range_succ, List.map_append, List.map_cons, List.map_nil]

namespace Archive

structure Sound (l : Archive) : Prop where
  audit : l.auditLog.map (·.id) = mintedIds "audit_" l.nextAudit
  events : l.runEvents.map (·.id) = mintedIds "revent_" l.nextEvent
  namespaces : l.namespaces.KeyedBy (·.id)
  approvals : l.approvals.KeyedBy (·.id)
  pending : l.pendingToolInvocations.KeyedBy (·.approvalId)
  grants : l.persistentGrants.KeyedBy (·.id)
  orchestrations : l.orchestrations.KeyedBy (·.id)
  runLogs : l.runLogs.KeyedBy (·.runId)
  policy : l.primeAgentPolicy.clamped = l.primeAgentPolicy
  watchdog : l.runWatchdog.clamped = l.runWatchdog

end Archive

theorem numbered_push {ρ : Type} {rows : List ρ} {row : ρ} {key : ρ → String} {head : String}
    {n : Nat} (h : rows.map key = mintedIds head n) (hrow : key row = mintedId head (n + 1)) :
    (rows ++ [row]).map key = mintedIds head (n + 1) := by
  rw [List.map_append, h, mintedIds_succ, List.map_singleton, hrow]

def Archive.audited (a : Archive) (row : AuditEvent) : Archive :=
  { a with auditLog := a.auditLog ++ [row], nextAudit := a.nextAudit + 1 }

theorem Archive.Sound.audited {a : Archive} (h : a.Sound) {row : AuditEvent}
    (hrow : row.id = mintedId "audit_" (a.nextAudit + 1)) : (a.audited row).Sound :=
  { h with audit := numbered_push h.audit hrow }

theorem recordAudit_archive {s : KernelState} (h : s.archive.Sound)
    (actorType actorId action : String) (targetType targetId : Option String)
    (result : AuditResult) :
    (recordAudit s actorType actorId action targetType targetId result).archive.Sound :=
  h.audited rfl

theorem pushRunEvent_archive {s : KernelState} (h : s.archive.Sound) (w : World)
    (runId : RunId) (kind source message : String) :
    (pushRunEvent w s runId kind source message).archive.Sound :=
  { h with events := numbered_push h.events rfl }

theorem RunWatchdogConfig.clamped_idem (c : RunWatchdogConfig) : c.clamped.clamped = c.clamped := by
  simp only [RunWatchdogConfig.clamped, minStaleAfterSecs, maxStaleAfterSecs,
    RunWatchdogConfig.mk.injEq, true_and]
  omega

structure Catalog where
  plugins : HashMap PluginId PluginManifest
  installedPlugins : HashMap PluginId InstalledPlugin
  toolRuntimeConfigs : HashMap PluginId ToolRuntimeConfig
  adapterRuntimeConfigs : HashMap PluginId AdapterRuntimeConfig
  commandToolConfigs : HashMap (PluginId × String) CommandToolConfig
  mcpServers : HashMap String McpServerConfig
  agents : HashMap AgentId Agent

structure Docket where
  approvals : HashMap ApprovalId Approval
  pendingToolInvocations : HashMap ApprovalId PendingToolInvocation
  nextApproval : Nat

namespace KernelState

def catalog (s : KernelState) : Catalog :=
  ⟨s.plugins, s.installedPlugins, s.toolRuntimeConfigs, s.adapterRuntimeConfigs,
    s.commandToolConfigs, s.mcpServers, s.agents⟩

def docket (s : KernelState) : Docket := ⟨s.approvals, s.pendingToolInvocations, s.nextApproval⟩

def settings (s : KernelState) : Catalog × Docket × HashMap OrchestrationId Orchestration :=
  (s.catalog, s.docket, s.orchestrations)

def board (s : KernelState) : Board where
  task := fun t => (s.tasks.get? t).map (·.status)
  run := fun r => (s.runs.get? r).map (fun run => (run.taskId, run.status))
  nextTask := s.nextTask
  nextRun := s.nextRun

structure Keyed (s : KernelState) : Prop where
  task : ∀ t task, s.tasks.get? t = some task → task.id = t
  run : ∀ r run, s.runs.get? r = some run → run.id = r

end KernelState

structure Trace (s s' : KernelState) (moves : List BoardMove) : Prop where
  board : s'.board = s.board.play moves
  settings : s'.settings = s.settings
  keyed : s.Keyed → s'.Keyed
  archive : s.archive.Sound → s'.archive.Sound

namespace Trace

theorem refl (s : KernelState) : Trace s s [] := ⟨rfl, rfl, id, id⟩

variable {moves : List BoardMove}

theorem trans {s s' s'' : KernelState} {more : List BoardMove} (h : Trace s s' moves)
    (h' : Trace s' s'' more) : Trace s s'' (moves ++ more) where
  board := by rw [Board.play_append, ← h.board, h'.board]
  settings := h'.settings.trans h.settings
  keyed := h'.keyed ∘ h.keyed
  archive := h'.archive ∘ h.archive

theorem catalog {s s' : KernelState} (h : Trace s s' moves) :
    s'.catalog = s.catalog := congrArg Prod.fst h.settings

theorem docket {s s' : KernelState} (h : Trace s s' moves) :
    s'.docket = s.docket := congrArg (fun e => e.2.1) h.settings

theorem orchestrations {s s' : KernelState} (h : Trace s s' moves) :
    s'.orchestrations = s.orchestrations := congrArg (fun e => e.2.2) h.settings

theorem andThen {s s' s'' : KernelState} (h : Trace s s' moves) (h' : Trace s' s'' []) :
    Trace s s'' moves := by
  simpa only [List.append_nil] using h.trans h'

end Trace

variable {runId : RunId}

section Primitives

variable (w : World) (s : KernelState)

theorem tick_trace : Trace s s.tick [] := ⟨rfl, rfl, fun h => ⟨h.task, h.run⟩, id⟩

theorem recordAudit_trace (actorType actorId action : String)
    (targetType targetId : Option String) (result : AuditResult) :
    Trace s (recordAudit s actorType actorId action targetType targetId result) [] :=
  ⟨rfl, rfl, fun h => ⟨h.task, h.run⟩, fun h => recordAudit_archive h _ _ _ _ _ _⟩

theorem taskAudit_trace (action : String) (taskId : TaskId) (result : AuditResult) :
    Trace s (taskAudit s action taskId result) [] :=
  recordAudit_trace s _ _ _ _ _ _

theorem setRun_keyed {s : KernelState} {f : Run → Run} (hid : ∀ r, (f r).id = r.id) (h : s.Keyed) :
    (s.setRun runId f).Keyed where
  task := h.task
  run := HashMap.KeyedBy.modify h.run runId hid

theorem setTask_keyed {s : KernelState} {taskId : TaskId} {f : Task → Task}
    (hid : ∀ t, (f t).id = t.id) (h : s.Keyed) : (s.setTask taskId f).Keyed where
  run := h.run
  task := HashMap.KeyedBy.modify h.task taskId hid

theorem setRun_trace (runId : RunId) (status : RunStatus) (f : Run → Run)
    (hf : ∀ r, (f r).id = r.id ∧ (f r).taskId = r.taskId ∧ (f r).status = status) :
    Trace s (s.setRun runId f) [.run runId status] where
  settings := rfl
  keyed := setRun_keyed (fun r => (hf r).1)
  archive := id
  board := by
    have hrun : (fun r => ((s.runs.modify runId f).get? r).map
        (fun run => (run.taskId, run.status))) = (s.board.setRun runId status).run := by
      funext r
      rw [HashMap.get?_modify, Board.setRun_run]
      split
      · simp only [KernelState.board, Option.map_map, Function.comp_def, hf]
      · rfl
    simp only [Board.play_cons, Board.play_nil, Board.move, KernelState.board,
      KernelState.setRun, hrun]
    rfl

theorem noteRun_trace (runId : RunId) (f : Run → Run)
    (hf : ∀ r, (f r).id = r.id ∧ (f r).taskId = r.taskId ∧ (f r).status = r.status) :
    Trace s (s.setRun runId f) [] where
  settings := rfl
  keyed := setRun_keyed (fun r => (hf r).1)
  archive := id
  board := by
    have hrun : (fun r => ((s.runs.modify runId f).get? r).map
        (fun run => (run.taskId, run.status))) = s.board.run := by
      funext r
      refine HashMap.map_get?_modify (fun run => ?_) s.runs runId r
      rw [(hf run).2.1, (hf run).2.2]
    simp only [Board.play_nil, KernelState.board, KernelState.setRun, hrun]

theorem setTask_trace (taskId : TaskId) (status : TaskStatus) (f : Task → Task)
    (hf : ∀ t, (f t).id = t.id ∧ (f t).status = status) :
    Trace s (s.setTask taskId f) [.task taskId status] where
  settings := rfl
  keyed := setTask_keyed (fun t => (hf t).1)
  archive := id
  board := by
    have htask : (fun t => ((s.tasks.modify taskId f).get? t).map (·.status)) =
        (s.board.setTask taskId status).task := by
      funext t
      rw [HashMap.get?_modify, Board.setTask_task]
      split
      · simp only [KernelState.board, Option.map_map, Function.comp_def, hf]
      · rfl
    simp only [Board.play_cons, Board.play_nil, Board.move, KernelState.board,
      KernelState.setTask, htask]
    rfl

theorem noteTask_trace (taskId : TaskId) (f : Task → Task)
    (hf : ∀ t, (f t).id = t.id ∧ (f t).status = t.status) :
    Trace s (s.setTask taskId f) [] where
  settings := rfl
  keyed := setTask_keyed (fun t => (hf t).1)
  archive := id
  board := by
    have htask : (fun t => ((s.tasks.modify taskId f).get? t).map (·.status)) =
        s.board.task := by
      funext t
      exact HashMap.map_get?_modify (fun task => (hf task).2) s.tasks taskId t
    simp only [Board.play_nil, KernelState.board, KernelState.setTask, htask]

theorem pushRunEvent_trace (runId : RunId) (kind source message : String) :
    Trace s (pushRunEvent w s runId kind source message) [] :=
  have hnote := noteRun_trace s runId
    (fun r => { r with lastActivityAt := some (w.realNowSecs (s.clock + 1)) })
    (fun _ => ⟨rfl, rfl, rfl⟩)
  ⟨hnote.board, hnote.settings, fun h => ⟨(hnote.keyed h).task, (hnote.keyed h).run⟩,
    fun h => pushRunEvent_archive h w runId kind source message⟩

end Primitives

section Tasks

variable (s : KernelState)

theorem insertTask_trace (title : String) (input : Json) (createdBy : String)
    (namespaceId : NamespaceId) (requiredPermissions : List Permission)
    (parent : Option TaskId) :
    Trace s (insertTask s title input createdBy namespaceId requiredPermissions parent).2
      [.create] where
  settings := rfl
  archive := fun h =>
    recordAudit_archive (s := { s.tick with nextTask := s.nextTask + 1 }) h _ _ _ _ _ _
  board := by
    have htask : (insertTask s title input createdBy namespaceId requiredPermissions
        parent).2.board.task = (s.board.move .create).task := by
      funext t
      change ((s.tasks.insert s.board.freshTask _).get? t).map (·.status) = _
      rw [Board.create_task, HashMap.get?_insert]
      split <;> rfl
    calc (insertTask s title input createdBy namespaceId requiredPermissions parent).2.board
        = { s.board.move .create with
            task := (insertTask s title input createdBy namespaceId requiredPermissions
              parent).2.board.task } := rfl
      _ = s.board.move .create := by rw [htask]
  keyed := by
    intro h
    exact ⟨HashMap.KeyedBy.insert h.task rfl, h.run⟩

theorem createTask_trace (title : String) (input : Json) (createdBy : String)
    (namespaceId : NamespaceId) (requiredPermissions : List Permission) :
    Trace s (createTask s title input createdBy namespaceId requiredPermissions).2 [.create] :=
  insertTask_trace s title input createdBy namespaceId requiredPermissions none

theorem createTaskWithParent_trace (title : String) (input : Json) (createdBy : String)
    (namespaceId : NamespaceId) (requiredPermissions : List Permission)
    (parent : Option TaskId) :
    ∃ moves, Trace s (createTaskWithParent s title input createdBy namespaceId
      requiredPermissions parent).2 moves ∧ (moves = [] ∨ moves = [.create]) := by
  have hinsert := insertTask_trace s title input createdBy namespaceId requiredPermissions parent
  unfold createTaskWithParent
  split
  · exact ⟨_, hinsert, .inr rfl⟩
  · split
    · exact ⟨[], Trace.refl s, .inl rfl⟩
    · exact ⟨_, hinsert, .inr rfl⟩

variable (taskId : TaskId)

theorem reparentTask_trace (newParent : Option TaskId) :
    Trace s (reparentTask s taskId newParent).2 [] := by
  have hmove : Trace s (taskAudit (s.tick.setTask taskId (fun t =>
      { t with parentTask := newParent, updatedAt := s.stamp })) "task:update" taskId
        .success) [] :=
    ((tick_trace s).trans (noteTask_trace s.tick taskId _ (by exact fun _ => ⟨rfl, rfl⟩))).trans
      (taskAudit_trace _ _ _ _)
  unfold reparentTask
  split
  · exact Trace.refl s
  · split
    · exact hmove
    · split
      · exact Trace.refl s
      · exact hmove

theorem moveTask_trace (status : TaskStatus) (f : Task → Task)
    (action : String) (result : AuditResult)
    (hf : ∀ t, (f t).id = t.id ∧ (f t).status = status) :
    Trace s (taskAudit (s.tick.setTask taskId f) action taskId result)
      [.task taskId status] :=
  ((tick_trace s).trans (setTask_trace s.tick taskId status f hf)).andThen
    (taskAudit_trace _ _ _ _)

theorem assignTask_trace (agentId : AgentId) :
    ∃ moves, Trace s (assignTask s taskId agentId).2 moves ∧
      (moves = [] ∨ moves = [.task taskId .queued]) := by
  unfold assignTask
  split
  · exact ⟨[], Trace.refl s, .inl rfl⟩
  · split
    · exact ⟨[], tick_trace s, .inl rfl⟩
    · dsimp only
      exact ⟨_, moveTask_trace s taskId .queued _ _ _ (by exact fun _ => ⟨rfl, rfl⟩), .inr rfl⟩

theorem setTaskStatus_trace (target : TaskStatus) :
    ∃ moves, Trace s (setTaskStatus s taskId target).2 moves ∧
      (moves = [] ∨ moves = [.task taskId target] ∧ isSettableStatus target = true ∧
        ∃ status, s.board.task taskId = some status ∧ isTerminalStatus status = false) := by
  unfold setTaskStatus
  split
  · exact ⟨[], Trace.refl s, .inl rfl⟩
  next hset =>
    split
    · exact ⟨[], Trace.refl s, .inl rfl⟩
    next task htask =>
      split
      · exact ⟨[], Trace.refl s, .inl rfl⟩
      next hterm =>
        have hboard : s.board.task taskId = some task.status := by
          simp only [KernelState.board, htask, Option.map_some]
        exact ⟨_, moveTask_trace s taskId target _ _ _ (by exact fun _ => ⟨rfl, rfl⟩),
          .inr ⟨rfl, not_not.mp hset, task.status, hboard, Bool.not_eq_true _ ▸ hterm⟩⟩

theorem reopenTask_trace :
    ∃ moves, Trace s (reopenTask s taskId).2 moves ∧
      (moves = [] ∨ moves = [.task taskId .queued] ∧ s.board.task taskId = some .blocked) := by
  unfold reopenTask
  split
  · exact ⟨[], Trace.refl s, .inl rfl⟩
  next task htask =>
    split
    · exact ⟨[], Trace.refl s, .inl rfl⟩
    next hblocked =>
      split
      · exact ⟨[], Trace.refl s, .inl rfl⟩
      · have hboard : s.board.task taskId = some .blocked := by
          simp only [KernelState.board, htask, Option.map_some, not_not.mp hblocked]
        exact ⟨_, moveTask_trace s taskId .queued _ _ _ (by exact fun _ => ⟨rfl, rfl⟩),
          .inr ⟨rfl, hboard⟩⟩

theorem Board.setTask_none {b : Board} {t : TaskId} (h : b.task t = none)
    (status : TaskStatus) : b.setTask t status = b := by
  unfold Board.setTask
  rw [h, Option.map_none, ← h, Function.update_eq_self]

theorem Board.setRun_none {b : Board} {r : RunId} (h : b.run r = none) (status : RunStatus) :
    b.setRun r status = b := by
  unfold Board.setRun
  rw [h, Option.map_none, ← h, Function.update_eq_self]

end Tasks

section Runs

variable (w : World) (s : KernelState)

theorem insertRun_trace (taskId : TaskId) (run : Run) (f : Task → Task)
    (hid : run.id = s.board.freshRun) (htask : run.taskId = taskId)
    (hstatus : run.status = .running)
    (hf : ∀ t, (f t).id = t.id ∧ (f t).status = .running) :
    Trace s ({ s.tick with
      nextRun := s.nextRun + 1
      runs := s.runs.insert (runIdOf (s.nextRun + 1)) run }.tick.setTask taskId f)
      [.start taskId] where
  settings := rfl
  archive := id
  board := by
    have hruns : (fun r => ((s.runs.insert s.board.freshRun run).get? r).map
        (fun e => (e.taskId, e.status))) = (s.board.move (.start taskId)).run := by
      funext r
      rw [HashMap.get?_insert, Board.start_run]
      split
      · rw [Option.map_some, htask, hstatus]
      · rfl
    have htasks : (fun t => ((s.tasks.modify taskId f).get? t).map (·.status)) =
        (s.board.move (.start taskId)).task := by
      funext t
      rw [HashMap.get?_modify, Board.start_task]
      split
      · simp only [KernelState.board, Option.map_map, Function.comp_def, hf]
      · rfl
    calc _ = (⟨fun t => ((s.tasks.modify taskId f).get? t).map (·.status),
          fun r => ((s.runs.insert s.board.freshRun run).get? r).map
            (fun e => (e.taskId, e.status)), s.nextTask, s.nextRun + 1⟩ : Board) := rfl
      _ = s.board.move (.start taskId) := by
        rw [hruns, htasks]
        rfl
  keyed := by
    intro hk
    exact setTask_keyed (fun t => (hf t).1) ⟨hk.task, HashMap.KeyedBy.insert hk.run hid⟩

theorem latestStarted_mem {runs : List Run} {r : Run} (h : latestStarted runs = some r) :
    r ∈ runs := by
  induction runs with
  | nil => cases h
  | cons x xs ih =>
    simp only [latestStarted] at h
    split at h
    · cases h
      exact List.mem_cons_self
    next best hbest =>
      split at h
      · cases h
        exact List.mem_cons_self
      · exact List.mem_cons_of_mem _ (ih (hbest.trans h))

theorem activeRun_board {s : KernelState} (hk : s.Keyed) {taskId : TaskId}
    (h : activeRun s taskId = some runId) : s.board.run runId = some (taskId, .running) := by
  unfold activeRun at h
  rw [Option.map_eq_some_iff] at h
  obtain ⟨run, hlatest, hid⟩ := h
  have hmem := latestStarted_mem hlatest
  rw [List.mem_filter, HashMap.mem_values, Bool.and_eq_true, beq_iff_eq, beq_iff_eq] at hmem
  obtain ⟨⟨key, hget⟩, htask, hstatus⟩ := hmem
  have hkey : key = runId := by rw [← hid, hk.run key run hget]
  simp only [KernelState.board, ← hkey, hget, Option.map_some, htask, hstatus]

theorem missingRun_trace (h : s.runs.get? runId = none) (status : RunStatus) :
    Trace s s.tick [.run runId status] := by
  have hboard : s.board.run runId = none := by
    simp only [KernelState.board, h, Option.map_none]
  exact ⟨(Board.setRun_none hboard status).symm, rfl, fun hk => ⟨hk.task, hk.run⟩, id⟩

theorem recordPersistentGrantUse_trace (grantId : String) (agentId : AgentId) :
    Trace s (recordPersistentGrantUse s grantId agentId) [] := by
  refine ⟨rfl, rfl, fun h => ⟨h.task, h.run⟩, fun h => ?_⟩
  unfold recordPersistentGrantUse
  dsimp only
  refine recordAudit_archive ?_ _ _ _ _ _ _
  exact { h with grants := h.grants.modify grantId (fun _ => rfl) }

end Runs

end Relux
