import Relux.Upkeep

/-! The traces of whole executions: a local run, a prepared and finalized process, a retry,
a resume, and the sweep. -/

namespace Relux

open Board (Ending Executes Attempts Restarts)

variable (w : World) (s : KernelState) {may : RunId → Prop}

section

variable {runId : RunId} (hmay : may runId) {e : KernelError} {s' : KernelState}

theorem completeRun_missing {summary : String}
    (h : completeRun w s runId summary = (.error e, s')) : s.board.run runId = none := by
  unfold completeRun at h
  split at h
  next hnone => simp only [KernelState.board, hnone, Option.map_none]
  · cases h

theorem failRunClassified_missing {error : String} {cls : RunFailureClass}
    (h : failRunClassified w s runId error cls = (.error e, s')) :
    s.board.run runId = none := by
  unfold failRunClassified at h
  split at h
  next hnone => simp only [KernelState.board, hnone, Option.map_none]
  · cases h

include hmay

theorem succeed_acts (taskId : TaskId) (summary : String) :
    ∃ moves, Acts w may s (succeed w s runId taskId summary).2 moves ∧
      Ending runId taskId .completed moves ∧
      (moves = [.run runId .completed] → s.board.run runId = none) := by
  have hrun := completeRun_acts w s hmay summary
  unfold succeed
  split
  next h =>
    rw [h] at hrun
    exact ⟨_, hrun, .run, fun _ => completeRun_missing w s h⟩
  next s₁ h =>
    rw [h] at hrun
    have htask := hrun.trans (completeTask_acts w s₁ taskId)
    split
    next h' =>
      rw [h'] at htask
      exact ⟨_, htask, .both (.inl rfl), nofun⟩
    next h' =>
      rw [h'] at htask
      exact ⟨_, htask, .both (.inl rfl), nofun⟩

theorem failBoth_acts (taskId : TaskId) (reason : String) (e : KernelError) :
    Acts w may s (failBoth w s runId taskId reason e).2
      [.run runId .failed, .task taskId .failed] :=
  (failRun_acts w s hmay reason).trans (failTask_acts w _ taskId)

theorem refuseLocal_acts (taskId : TaskId) (agentId : AgentId) :
    ∃ moves, Acts w may s (refuseLocal w s runId taskId agentId).2 moves ∧
      Ending runId taskId .failed moves ∧
      (moves = [.run runId .failed] → s.board.run runId = none) := by
  have hrun := failRunClassified_acts w s hmay
    (KernelError.localAdapterUnsupported taskId).text .adapterMissing
  unfold refuseLocal
  dsimp only
  split
  next h =>
    rw [h] at hrun
    exact ⟨_, hrun, .run, fun _ => failRunClassified_missing w s h⟩
  next s₁ h =>
    rw [h] at hrun
    have htask := (hrun.andThen (tick_acts w s₁)).trans (setTask_acts w s₁.tick taskId .blocked
      (fun t => { t with status := .blocked, updatedAt := s₁.stamp }) (fun _ => ⟨rfl, rfl⟩)
        fun _ => rfl)
    exact ⟨_, htask.andThen (recordAudit_acts w _ _ _ _ _ _ _), .both (.inr (.inr rfl)), nofun⟩

theorem runLocally_acts (taskId : TaskId) (agentId : AgentId) (task : Task) :
    ∃ moves, Acts w may s (runLocally w s runId taskId agentId task).2 moves ∧
      (moves = [] ∨ ∃ status, status ≠ .running ∧ Ending runId taskId status moves) := by
  -- A call before the end of the run is not seen on the board.
  have after : ∀ {s₁ s₂ : KernelState} {status : RunStatus}, Acts w may s s₁ [] →
      status ≠ .running →
      (∃ moves, Acts w may s₁ s₂ moves ∧ Ending runId taskId status moves ∧
        (moves = [.run runId status] → s₁.board.run runId = none)) →
      ∃ moves, Acts w may s s₂ moves ∧
        (moves = [] ∨ ∃ status, status ≠ .running ∧ Ending runId taskId status moves) := by
    rintro s₁ s₂ status h hs ⟨moves, h', hend, -⟩
    exact ⟨moves, h.trans h', .inr ⟨status, hs, hend⟩⟩
  have hfailed : Ending runId taskId .failed [.run runId .failed, .task taskId .failed] :=
    .both (.inr (.inl rfl))
  unfold runLocally
  split
  next steps _ =>
    have hplan := runPlanSteps_acts w s hmay agentId steps.length 0 steps []
    split
    next h =>
      rw [h] at hplan
      exact after hplan (by decide) ⟨_, failBoth_acts w _ hmay _ _ _, hfailed, nofun⟩
    next h =>
      rw [h] at hplan
      exact after hplan (by decide) (succeed_acts w _ hmay _ _)
  · split
    next directive _ =>
      have hcall := callTool_acts w s hmay agentId directive.plugin directive.tool
        directive.args
      split
      next h =>
        rw [h] at hcall
        exact after hcall (by decide) (succeed_acts w _ hmay _ _)
      next h =>
        rw [h] at hcall
        exact after hcall (by decide) ⟨_, failBoth_acts w _ hmay _ _ _, hfailed, nofun⟩
    · split
      · exact after (.refl s) (by decide) (refuseLocal_acts w s hmay _ _)
      · have hcall := callTool_acts w s hmay agentId "relux-tools-echo" "echo.say" task.input
        split
        next h =>
          rw [h] at hcall
          exact ⟨[], hcall, .inl rfl⟩
        next h =>
          rw [h] at hcall
          exact after hcall (by decide) (succeed_acts w _ hmay _ _)

theorem failCliRun_acts (taskId : TaskId) (adapter : PluginId) (reason : String)
    (cls : RunFailureClass) :
    Acts w may s (failCliRun w s runId taskId adapter reason cls)
      [.run runId .failed, .task taskId .failed] :=
  ((failRunClassified_acts w s hmay reason cls).trans (failTask_acts w _ taskId)).andThen
    (recordAudit_acts w _ _ _ _ _ _ _)

theorem cancelCliRun_acts (taskId : TaskId) (adapter : PluginId) (reason : String) :
    Acts w may s (cancelCliRun w s runId taskId adapter reason)
      [.run runId .cancelled, .task taskId .failed] :=
  ((cancelRun_acts w s hmay reason).trans (failTask_acts w _ taskId)).andThen
    (recordAudit_acts w _ _ _ _ _ _ _)

theorem planCliRun_acts {taskId : TaskId} {adapter : PluginId} {config : AdapterRuntimeConfig}
    {binary program : String} {result : Except KernelError CliExecPlan}
    (h : planCliRun w s runId taskId adapter config binary program = (result, s')) :
    Acts w may s s' [] ∧ ∀ plan, result = .ok plan → plan.runId = runId ∧ plan.taskId = taskId := by
  unfold planCliRun at h
  split at h
  · cases h
    exact ⟨.refl s, fun _ hp => by cases hp⟩
  · split at h
    · cases h
      exact ⟨.refl s, fun _ hp => by cases hp⟩
    · split at h
      · cases h
        exact ⟨.refl s, fun _ hp => by cases hp⟩
      · cases h
        refine ⟨pushRunEvent_acts w s hmay _ _ _, fun plan hp => ?_⟩
        cases hp
        exact ⟨rfl, rfl⟩

end

theorem executeLocalRun_acts (taskId : TaskId) (hactive : ∀ r, activeRun s taskId = some r → may r) :
    ∃ moves, Acts w may s (executeLocalRun w s taskId).2 moves ∧
      (s.Keyed → s.board.Executes taskId moves) := by
  unfold executeLocalRun
  split
  · exact ⟨[], .refl s, fun _ => .nothing⟩
  next task _ =>
    split
    · exact ⟨[], .refl s, fun _ => .nothing⟩
    next agentId _ =>
      split
      · exact ⟨[], .refl s, fun _ => .nothing⟩
      next runId hrun =>
        split
        · exact ⟨[], .refl s, fun _ => .nothing⟩
        · obtain ⟨moves, hacts, rfl | ⟨status, hs, hend⟩⟩ :=
            runLocally_acts w s (hactive runId hrun) taskId agentId task
          · exact ⟨[], hacts, fun _ => .nothing⟩
          · exact ⟨moves, hacts, fun hk => .ended (activeRun_board hk hrun) hs hend⟩

theorem executeLocalRun_trace (hk : s.Keyed) (taskId : TaskId) :
    ∃ moves, Trace s (executeLocalRun w s taskId).2 moves ∧ s.board.Executes taskId moves := by
  obtain ⟨moves, hacts, hexec⟩ := executeLocalRun_acts w s taskId fun _ _ => trivial
  exact ⟨moves, hacts.trace, hexec hk⟩

def adapterReady (w : World) (s : KernelState) (adapter : PluginId) : Bool :=
  (resolveAdapter w s adapter).toBool

variable {taskId : TaskId} {adapter : PluginId} {result : Except KernelError CliExecPlan}

theorem prepareCliRun_acts {s' : KernelState} (hactive : ∀ r, activeRun s taskId = some r → may r)
    (h : prepareCliRun w s taskId adapter = (result, s')) :
    (Acts w may s s' [] ∧ ∀ plan, result = .ok plan → may plan.runId ∧ plan.taskId = taskId ∧
        (s.Keyed → s.board.run plan.runId = some (taskId, .running))) ∨
      (∃ e, result = .error e) ∧ adapterReady w s adapter = false ∧
        ∃ r, (s.Keyed → s.board.run r = some (taskId, .running)) ∧
          Acts w may s s' [.run r .failed, .task taskId .failed] := by
  unfold prepareCliRun at h
  split at h
  · cases h
    exact .inl ⟨.refl s, fun _ hp => by cases hp⟩
  next runId hrun =>
    have hmay := hactive runId hrun
    split at h
    next e hresolve =>
      cases h
      have hready : adapterReady w s adapter = false := by
        unfold adapterReady
        rw [hresolve]
        rfl
      exact .inr ⟨⟨e, rfl⟩, hready, runId, fun hk => activeRun_board hk hrun,
        failCliRun_acts w s hmay _ _ _ _⟩
    · obtain ⟨hacts, hplan⟩ := planCliRun_acts w s hmay h
      refine .inl ⟨hacts, fun plan hp => ?_⟩
      obtain ⟨hid, htask⟩ := hplan plan hp
      rw [hid]
      exact ⟨hmay, htask, fun hk => activeRun_board hk hrun⟩

theorem prepareCliRun_trace (hk : s.Keyed) {s' : KernelState}
    (h : prepareCliRun w s taskId adapter = (result, s')) :
    (Trace s s' [] ∧ ∀ plan, result = .ok plan →
        plan.taskId = taskId ∧ s.board.run plan.runId = some (taskId, .running)) ∨
      (∃ e, result = .error e) ∧ adapterReady w s adapter = false ∧
        ∃ r, s.board.run r = some (taskId, .running) ∧
          Trace s s' [.run r .failed, .task taskId .failed] := by
  rcases prepareCliRun_acts w s (fun _ _ => trivial) h with
    ⟨hacts, hplan⟩ | ⟨he, hready, r, hrun, hacts⟩
  · exact .inl ⟨hacts.trace, fun plan hp => ⟨(hplan plan hp).2.1, (hplan plan hp).2.2 hk⟩⟩
  · exact .inr ⟨he, hready, r, hrun hk, hacts.trace⟩

def finalStatus (w : World) (_ : CliExecPlan) :
    Except String AdapterRunOutcome → RunStatus
  | .error _ => .failed
  | .ok outcome =>
    if outcome.success then
      if (w.parseAdapterResult outcome.stdout).isError = some true then .failed
      else .completed
    else if outcome.cancelled then .cancelled
    else .failed

theorem finalStatus_ne_running (plan : CliExecPlan)
    (outcome : Except String AdapterRunOutcome) : finalStatus w plan outcome ≠ .running := by
  cases outcome with
  | error e => exact nofun
  | ok o =>
    simp only [finalStatus]
    split <;> split <;> exact nofun

section

variable (plan : CliExecPlan) (hmay : may plan.runId)
include hmay

theorem captureCliRunLog_acts (outcome : AdapterRunOutcome) :
    Acts w may s (captureCliRunLog w s plan outcome) [] :=
  ⟨⟨rfl, rfl, fun h => ⟨h.task, h.run⟩, fun h => { h with runLogs := h.runLogs.insert rfl }⟩,
    .one (.log s hmay _)⟩

theorem captureSpawnErrorLog_acts (message : String) :
    Acts w may s (captureSpawnErrorLog w s plan message) [] :=
  ⟨⟨rfl, rfl, fun h => ⟨h.task, h.run⟩, fun h => { h with runLogs := h.runLogs.insert rfl }⟩,
    .one (.log s hmay _)⟩

theorem finalizeSuccess_acts (outcome : AdapterRunOutcome) (hsuccess : outcome.success = true) :
    ∃ moves, Acts w may s (finalizeSuccess w s plan outcome).2 moves ∧
      Ending plan.runId plan.taskId (finalStatus w plan (.ok outcome)) moves ∧
      (moves = [.run plan.runId (finalStatus w plan (.ok outcome))] →
        s.board.run plan.runId = none) := by
  unfold finalizeSuccess
  dsimp only
  generalize renderAdapterSummary plan.binary outcome
    (w.parseAdapterResult outcome.stdout) = summary
  have hevent := (pushRunEvent_acts w s hmay "adapter_output" "adapter" summary).andThen
    (captureCliRunLog_acts w _ plan hmay outcome)
  split
  next herror =>
    have hfinal : finalStatus w plan (.ok outcome) = .failed := by
      simp only [finalStatus, hsuccess, if_true, herror]
    rw [hfinal]
    exact ⟨_, ((hevent.andThen (setRunMetrics_acts w _ hmay _ _)).andThen
      (setRunSession_acts w _ hmay _ _)).trans (failCliRun_acts w _ hmay _ _ _ _),
      .both (.inr (.inl rfl)), nofun⟩
  next herror =>
    have hfinal : finalStatus w plan (.ok outcome) = .completed := by
      simp only [finalStatus, hsuccess, if_true, if_neg herror]
    rw [hfinal]
    have hrun := hevent.trans (completeRun_acts w _ hmay summary)
    split
    next h =>
      rw [h] at hrun
      refine ⟨_, hrun, .run, fun _ => ?_⟩
      have hnone := completeRun_missing w _ h
      rw [hevent.board] at hnone
      exact hnone
    next s₁ h =>
      rw [h] at hrun
      have hnoted := (hrun.andThen (setRunMetrics_acts w _ hmay outcome.durationMs
        (w.parseAdapterResult outcome.stdout).usage)).andThen (setRunSession_acts w _ hmay
          (w.parseAdapterResult outcome.stdout).sessionId plan.kind)
      have htask := hnoted.trans (completeTask_acts w _ plan.taskId)
      split
      next h' =>
        rw [h'] at htask
        exact ⟨_, htask, .both (.inl rfl), nofun⟩
      next h' =>
        rw [h'] at htask
        exact ⟨_, htask.andThen (recordAudit_acts w _ _ _ _ _ _ _), .both (.inl rfl), nofun⟩

theorem finalizeExit_acts (outcome : AdapterRunOutcome) (hsuccess : outcome.success = false) :
    ∃ moves, Acts w may s (finalizeExit w s plan outcome).2 moves ∧
      Ending plan.runId plan.taskId (finalStatus w plan (.ok outcome)) moves ∧
      (moves = [.run plan.runId (finalStatus w plan (.ok outcome))] →
        s.board.run plan.runId = none) := by
  unfold finalizeExit
  dsimp only
  generalize exitReason plan outcome = reason
  have hlogged := (pushRunEvent_acts w s hmay "adapter_output" "adapter" reason).andThen
    (captureCliRunLog_acts w _ plan hmay outcome)
  have hnoted := hlogged.andThen (setRunMetrics_acts w _ hmay outcome.durationMs none)
  split
  next hcancelled =>
    have hfinal : finalStatus w plan (.ok outcome) = .cancelled := by
      simp only [finalStatus, hsuccess, hcancelled, if_true, Bool.false_eq_true, if_false]
    rw [hfinal]
    exact ⟨_, hnoted.trans (cancelCliRun_acts w _ hmay _ _ _), .both (.inr (.inl rfl)), nofun⟩
  next hcancelled =>
    have hfinal : finalStatus w plan (.ok outcome) = .failed := by
      simp only [finalStatus, hsuccess, hcancelled, Bool.false_eq_true, if_false]
    rw [hfinal]
    exact ⟨_, hnoted.trans (failCliRun_acts w _ hmay _ _ _ _), .both (.inr (.inl rfl)), nofun⟩

theorem finalizeCliRun_acts (outcome : Except String AdapterRunOutcome) :
    ∃ moves, Acts w may s (finalizeCliRun w s plan outcome).2 moves ∧
      Ending plan.runId plan.taskId (finalStatus w plan outcome) moves ∧
      (moves = [.run plan.runId (finalStatus w plan outcome)] → s.board.run plan.runId = none) := by
  cases outcome with
  | error e =>
    exact ⟨_, (captureSpawnErrorLog_acts w s plan hmay _).trans
      (failCliRun_acts w _ hmay _ _ _ _), .both (.inr (.inl rfl)), nofun⟩
  | ok outcome =>
    simp only [finalizeCliRun]
    split
    next hsuccess => exact finalizeSuccess_acts w s plan hmay outcome hsuccess
    next hsuccess =>
      exact finalizeExit_acts w s plan hmay outcome (Bool.not_eq_true _ ▸ hsuccess)

end

theorem finalizeCliRun_trace (plan : CliExecPlan) (outcome : Except String AdapterRunOutcome) :
    ∃ moves, Trace s (finalizeCliRun w s plan outcome).2 moves ∧
      Ending plan.runId plan.taskId (finalStatus w plan outcome) moves := by
  obtain ⟨moves, hacts, hend, -⟩ := @finalizeCliRun_acts w s (fun _ => True) plan trivial outcome
  exact ⟨moves, hacts.trace, hend⟩

theorem executeCliRun_acts (taskId : TaskId) (adapter : PluginId)
    (hactive : ∀ r, activeRun s taskId = some r → may r) :
    ∃ moves, Acts w may s (executeCliRun w s taskId adapter).2 moves ∧
      (s.Keyed → s.board.Executes taskId moves) := by
  unfold executeCliRun
  split
  next h =>
    rcases prepareCliRun_acts w s hactive h with ⟨hacts, -⟩ | ⟨-, -, r, hrun, hacts⟩
    · exact ⟨[], hacts, fun _ => .nothing⟩
    · have hend : Ending r taskId .failed [.run r .failed, .task taskId .failed] :=
        .both (.inr (.inl rfl))
      exact ⟨_, hacts, fun hk => .ended (hrun hk) (by decide) hend⟩
  next plan s₁ h =>
    rcases prepareCliRun_acts w s hactive h with ⟨hacts, hplan⟩ | ⟨⟨e, he⟩, -⟩
    · obtain ⟨hmay, htask, hrun⟩ := hplan plan rfl
      obtain ⟨moves, hfinal, hend, -⟩ :=
        finalizeCliRun_acts w s₁ plan hmay (w.runAdapterCommand plan)
      rw [htask] at hend
      exact ⟨moves, hacts.trans hfinal,
        fun hk => .ended (hrun hk) (finalStatus_ne_running w plan _) hend⟩
    · cases he

theorem stampRedirect_acts (taskId : TaskId) (effective : EffectiveRunAdapter)
    (hactive : ∀ r, activeRun s taskId = some r → may r) :
    Acts w may s (stampRedirect w s taskId effective) [] := by
  unfold stampRedirect
  split
  · exact .refl s
  · split
    · exact .refl s
    next runId hrun =>
      have hmay := hactive runId hrun
      exact (noteRun_acts w s hmay _ (by exact fun _ => rfl) (by exact fun _ h => h)
        (by exact fun _ => rfl)).andThen (pushRunEvent_acts w _ hmay _ _ _)

theorem dispatchAssigned_acts (agentId : AgentId) (taskId : TaskId)
    (hbefore : ∀ r, activeRun s taskId = some r → may r)
    (hafter : ∀ r, activeRun (stampRedirect w s taskId (effectiveRunAdapter w s agentId taskId))
      taskId = some r → may r) :
    ∃ moves, Acts w may s (dispatchAssigned w s agentId taskId).2 moves ∧
      (s.Keyed → s.board.Executes taskId moves) := by
  unfold dispatchAssigned
  dsimp only
  have hstamp := stampRedirect_acts w s taskId (effectiveRunAdapter w s agentId taskId) hbefore
  have hboard : (stampRedirect w s taskId (effectiveRunAdapter w s agentId taskId)).board =
      s.board := hstamp.board
  rw [← hboard]
  split
  · obtain ⟨moves, hacts, hexec⟩ := executeLocalRun_acts w _ taskId hafter
    exact ⟨moves, hstamp.trans hacts, fun hk => hexec (hstamp.keyed hk)⟩
  · obtain ⟨moves, hacts, hexec⟩ := executeCliRun_acts w _ taskId
      (effectiveRunAdapter w s agentId taskId).adapter hafter
    exact ⟨moves, hstamp.trans hacts, fun hk => hexec (hstamp.keyed hk)⟩

theorem dispatchAssigned_everywhere (agentId : AgentId) (taskId : TaskId) :
    ∃ moves, Acts w (fun _ => True) s (dispatchAssigned w s agentId taskId).2 moves ∧
      (s.Keyed → s.board.Executes taskId moves) :=
  dispatchAssigned_acts w s agentId taskId (fun _ _ => trivial) fun _ _ => trivial

theorem dispatchAssigned_trace (hk : s.Keyed) (agentId : AgentId) (taskId : TaskId) :
    ∃ moves, Trace s (dispatchAssigned w s agentId taskId).2 moves ∧
      s.board.Executes taskId moves := by
  obtain ⟨moves, hacts, hexec⟩ := dispatchAssigned_everywhere w s agentId taskId
  exact ⟨moves, hacts.trace, hexec hk⟩

theorem executeAssignedRun_acts (taskId : TaskId) :
    ∃ moves, Acts w (fun _ => True) s (executeAssignedRun w s taskId).2 moves ∧
      (s.Keyed → s.board.Attempts taskId moves) := by
  unfold executeAssignedRun
  split
  · exact ⟨[], .refl s, fun _ => .refused⟩
  next task htask =>
    have hboard : s.board.task taskId = some task.status := by
      simp only [KernelState.board, htask, Option.map_some]
    split
    · exact ⟨[], .refl s, fun _ => .refused⟩
    next agentId _ =>
      split
      · exact ⟨[], .refl s, fun _ => .refused⟩
      · split
        next hfresh =>
          split
          next h =>
            rcases startRun_acts w s taskId h fun _ _ => trivial with ⟨-, hacts⟩ | ⟨he, -⟩
            · exact ⟨[], hacts, fun _ => .refused⟩
            · cases he
          next s₁ h =>
            rcases startRun_acts w s taskId h fun _ _ => trivial with ⟨⟨e, he⟩, -⟩ | ⟨-, hstart⟩
            · cases he
            · obtain ⟨moves, hacts, hexec⟩ := dispatchAssigned_everywhere w s₁ agentId taskId
              rw [hstart.board] at hexec
              exact ⟨_, hstart.trans hacts,
                fun hk => .started hboard hfresh (hexec (hstart.keyed hk))⟩
        next hfresh =>
          obtain ⟨moves, hacts, hexec⟩ := dispatchAssigned_everywhere w s agentId taskId
          exact ⟨moves, hacts, fun hk => .held hboard (Bool.not_eq_true _ ▸ hfresh) (hexec hk)⟩

theorem executeAssignedRun_trace (hk : s.Keyed) (taskId : TaskId) :
    ∃ moves, Trace s (executeAssignedRun w s taskId).2 moves ∧ s.board.Attempts taskId moves := by
  obtain ⟨moves, hacts, hattempt⟩ := executeAssignedRun_acts w s taskId
  exact ⟨moves, hacts.trace, hattempt hk⟩

theorem replanRetry_trace (runId : RunId) : Trace s (replanRetry w s runId) [] := by
  unfold replanRetry
  split
  · exact Trace.refl s
  · split
    · exact Trace.refl s
    · split
      · exact noteRun_trace s runId _ (by exact fun _ => ⟨rfl, rfl, rfl⟩)
      · exact Trace.refl s

theorem linkRetry_trace (newRunId runId : RunId) (ok : Bool) :
    Trace s (linkRetry w s newRunId runId ok) [] := by
  unfold linkRetry
  generalize hlinked : s.setRun newRunId _ = linked
  have htrace : Trace s linked [] := by
    rw [← hlinked]
    exact noteRun_trace s newRunId _ (by exact fun _ => ⟨rfl, rfl, rfl⟩)
  exact ((htrace.andThen (replanRetry_trace w _ _)).andThen
    (pushRunEvent_trace w _ _ _ _ _)).andThen (recordAudit_trace _ _ _ _ _ _ _)

theorem retryRun_trace (hk : s.Keyed) (runId : RunId) :
    ∃ moves, Trace s (retryRun w s runId).2 moves ∧
      (moves = [] ∨ ∃ t, s.board.run runId = some (t, .failed) ∧ s.board.Restarts t moves) := by
  unfold retryRun
  split
  · exact ⟨[], Trace.refl s, .inl rfl⟩
  next run hrun =>
    split
    · exact ⟨[], Trace.refl s, .inl rfl⟩
    next hfailed =>
      have hboard : s.board.run runId = some (run.taskId, .failed) := by
        simp only [KernelState.board, hrun, Option.map_some, not_not.mp hfailed]
      split
      · exact ⟨[], Trace.refl s, .inl rfl⟩
      next task htask =>
        split
        · exact ⟨[], Trace.refl s, .inl rfl⟩
        · have hqueue := requeue_trace s run.taskId
          have hqueued : (requeue s run.taskId).board.task run.taskId = some .queued := by
            rw [hqueue.board]
            change (s.board.setTask run.taskId .queued).task run.taskId = _
            rw [Board.setTask_task, if_pos rfl]
            simp only [KernelState.board, htask, Option.map_some]
          obtain ⟨moves, htrace, hattempt⟩ :=
            executeAssignedRun_trace w _ (hqueue.keyed hk) run.taskId
          have hrestart : s.board.Restarts run.taskId (.task run.taskId .queued :: moves) := by
            cases hattempt with
            | refused => exact .requeued
            | started ht hf h =>
              rw [hqueue.board] at h
              exact .started h
            | held ht hf h =>
              rw [hqueued] at ht
              cases ht
              cases hf
          have hall := hqueue.trans htrace
          dsimp only
          split
          · exact ⟨_, hall, .inr ⟨_, hboard, hrestart⟩⟩
          · exact ⟨_, hall.andThen (linkRetry_trace w _ _ _ _), .inr ⟨_, hboard, hrestart⟩⟩

theorem resumeRun_trace (hk : s.Keyed) (runId : RunId) :
    ∃ moves, Trace s (resumeRun w s runId).2 moves ∧
      (moves = [] ∨ ∃ t status, s.board.run runId = some (t, status) ∧
        s.board.Restarts t moves) := by
  unfold resumeRun
  split
  · exact ⟨[], Trace.refl s, .inl rfl⟩
  next run hrun =>
    have hboard : s.board.run runId = some (run.taskId, run.status) := by
      simp only [KernelState.board, hrun, Option.map_some]
    split
    · exact ⟨[], Trace.refl s, .inl rfl⟩
    · exact ⟨[], Trace.refl s, .inl rfl⟩
    · split
      · exact ⟨[], Trace.refl s, .inl rfl⟩
      · split
        · exact ⟨[], Trace.refl s, .inl rfl⟩
        · split
          · exact ⟨[], Trace.refl s, .inl rfl⟩
          next agent _ =>
            have hqueue := requeue_trace s run.taskId
            split
            next h =>
              rcases startRun_trace w _ run.taskId h with ⟨-, htrace⟩ | ⟨he, -⟩
              · exact ⟨_, hqueue.trans htrace, .inr ⟨_, _, hboard, .requeued⟩⟩
              · cases he
            next newRunId s₁ h =>
              rcases startRun_trace w _ run.taskId h with ⟨⟨e, he⟩, -⟩ | ⟨-, hstart⟩
              · cases he
              · dsimp only
                generalize hnoted : pushRunEvent w _ newRunId _ _ _ = noted
                have hnote : Trace s₁ noted [] := by
                  rw [← hnoted]
                  exact (noteRun_trace s₁ newRunId _ (by exact fun _ => ⟨rfl, rfl, rfl⟩)).andThen
                    (pushRunEvent_trace w _ _ _ _ _)
                have hready := (hqueue.trans hstart).andThen hnote
                obtain ⟨moves, hacts, hexec⟩ := executeCliRun_acts w noted run.taskId
                  agent.adapterPlugin fun _ _ => trivial
                rw [hready.board] at hexec
                exact ⟨_, (hready.trans hacts.trace).andThen (recordAudit_trace _ _ _ _ _ _ _),
                  .inr ⟨_, _, hboard, .started (hexec (hready.keyed hk))⟩⟩

end Relux
