import Relux.TickTrace

/-! What executions keep: the briefs of the tasks and the order of the runs. -/

namespace Relux

variable (w : World) (s : KernelState)

theorem tick_works : Works s s.tick := .aside rfl rfl rfl (Nat.le_succ _)

theorem recordAudit_works (actorType actorId action : String)
    (targetType targetId : Option String) (result : AuditResult) :
    Works s (recordAudit s actorType actorId action targetType targetId result) :=
  .aside rfl rfl rfl (Nat.le_succ _)

theorem pushRunEvent_works (runId : RunId) (kind source message : String) :
    Works s (pushRunEvent w s runId kind source message) :=
  (pushRunEvent_acts w s trivial _ _ _).works

variable (taskId : TaskId)

theorem startRun_works : Works s (startRun w s taskId).2 := by
  rcases startRun_acts w s taskId rfl fun _ _ => trivial with ⟨-, hacts⟩ | ⟨-, hacts⟩
  · exact hacts.works
  · exact hacts.works

theorem completeRun_works (runId : RunId) (summary : String) :
    Works s (completeRun w s runId summary).2 := (completeRun_acts w s trivial summary).works

theorem failRun_works (runId : RunId) (error : String) : Works s (failRun w s runId error).2 :=
  (failRun_acts w s trivial error).works

theorem completeTask_works : Works s (completeTask s taskId).2 :=
  (completeTask_acts .silent s taskId).works

theorem failTask_works : Works s (failTask s taskId).2 := (failTask_acts .silent s taskId).works

theorem requeue_works : Works s (requeue s taskId) := (requeue_acts .silent s taskId).works

theorem recoverStaleRuns_works (nowSecs : Nat) (activeRunIds : List RunId) :
    Works s (recoverStaleRuns w s nowSecs activeRunIds) := by
  have hmark : ∀ (stale : List (RunId × Nat)) (s : KernelState),
      Works s (markRunsStale w s stale) := by
    intro stale
    induction stale with
    | nil => exact Works.refl
    | cons e rest ih =>
      intro s
      obtain ⟨_, hacts, -⟩ := @markRunStale_acts w s (fun _ => True) e.1 trivial e.2
      exact hacts.works.trans (ih _)
  unfold recoverStaleRuns
  split
  · exact .refl s
  · exact hmark _ s

theorem executeLocalRun_works : Works s (executeLocalRun w s taskId).2 := by
  obtain ⟨_, hacts, -⟩ := executeLocalRun_acts w s taskId fun _ _ => trivial
  exact hacts.works

theorem prepareCliRun_works (adapter : PluginId) :
    Works s (prepareCliRun w s taskId adapter).2 := by
  rcases prepareCliRun_acts w s (fun _ _ => trivial) rfl with ⟨hacts, -⟩ | ⟨-, -, _, -, hacts⟩
  · exact hacts.works
  · exact hacts.works

theorem finalizeCliRun_works (plan : CliExecPlan) (outcome : Except String AdapterRunOutcome) :
    Works s (finalizeCliRun w s plan outcome).2 := by
  obtain ⟨_, hacts, -⟩ := @finalizeCliRun_acts w s (fun _ => True) plan trivial outcome
  exact hacts.works

theorem dispatchAssigned_works (agentId : AgentId) (taskId : TaskId) :
    Works s (dispatchAssigned w s agentId taskId).2 := by
  obtain ⟨_, hacts, -⟩ := dispatchAssigned_everywhere w s agentId taskId
  exact hacts.works

theorem executeAssignedRun_works :
    Works s (executeAssignedRun w s taskId).2 := by
  obtain ⟨_, hacts, -⟩ := executeAssignedRun_acts w s taskId
  exact hacts.works

theorem assignTask_upholds (agentId : AgentId) :
    Upholds s (assignTask s taskId agentId).2 := by
  unfold assignTask
  split
  · exact .refl s
  · dsimp only
    split
    · exact .aside rfl rfl (Nat.le_succ s.clock)
    · exact .aside rfl rfl (Nat.le_add_right s.clock 2)

theorem autoAssign_upholds (limit : Nat) (prime : AgentId) (r : TickResult)
    (candidates tasks : List TaskId) :
    Upholds s (autoAssign limit prime s r candidates tasks).1 := by
  induction tasks generalizing s r candidates with
  | nil => exact .refl s
  | cons taskId rest ih =>
    have hassign := assignTask_upholds s taskId prime
    simp only [autoAssign]
    split
    · exact .refl s
    · split
      next h =>
        rw [h] at hassign
        exact (hassign.trans (recordAudit_works _ _ _ _ _ _ _).toUpholds).trans (ih _ _ _)
      next h =>
        rw [h] at hassign
        exact (hassign.trans (recordAudit_works _ _ _ _ _ _ _).toUpholds).trans (ih _ _ _)

theorem tickTasks_works (r : TickResult) (tasks : List TaskId) :
    Works s (tickTasks w s r tasks).1 := by
  obtain ⟨_, hacts, -⟩ := tickTasks_acts w s r tasks
  exact hacts.works

end Relux
