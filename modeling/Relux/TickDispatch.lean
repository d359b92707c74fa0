import Relux.Reachable
import Relux.RetryDispatch

/-! Where the executions of an autonomy tick go. A tick makes two passes: it retries failed
runs through their assigned adapters, then it runs waiting tasks on the local one. -/

namespace Relux

def passDispatches {ι : Type} (dispatches : KernelState → ι → List Dispatch)
    (next : KernelState → ι → KernelState) : KernelState → List ι → List Dispatch
  | _, [] => []
  | s, x :: xs => dispatches s x ++ passDispatches dispatches next (next s x) xs

def afterRetry (w : World) (s : KernelState) (runId : RunId) : KernelState :=
  match retryRun w s runId with
  | (.ok newRunId, s) => tickAudit s "autonomy:transient_retry" "run" newRunId .success
  | (.error _, s) => tickAudit s "autonomy:transient_retry_failed" "run" runId .failed

theorem retryTransient_fst (w : World) (s : KernelState) (r : TickResult)
    (runIds : List RunId) :
    (retryTransient w s r runIds).1 = runIds.foldl (afterRetry w) s := by
  induction runIds generalizing s r with
  | nil => rfl
  | cons runId rest ih =>
    simp only [retryTransient, List.foldl_cons, afterRetry]
    cases retryRun w s runId with
    | mk result s₁ => cases result <;> exact ih _ _

def afterCandidate (w : World) (s : KernelState) (taskId : TaskId) : KernelState :=
  (tickTask w s ⟨0, 0, 0, 0, []⟩ taskId).1

def waits (s : KernelState) (taskId : TaskId) : Bool :=
  match s.tasks.get? taskId with
  | some t => startsFresh t.status
  | none => false

def candidateDispatches (w : World) (s : KernelState) (taskId : TaskId) : List Dispatch :=
  if waits s taskId then
    match startRun w s taskId with
    | (.error _, _) => []
    | (.ok _, _) => [.localPrime taskId]
  else [.localPrime taskId]

theorem candidateDispatches_le (w : World) (s : KernelState) (taskId : TaskId) :
    (candidateDispatches w s taskId).length ≤ 1 ∧
      ∀ d ∈ candidateDispatches w s taskId, d.isLocal = true := by
  unfold candidateDispatches
  split
  · cases startRun w s taskId with
    | mk result s₁ => cases result <;> simp [Dispatch.isLocal]
  · simp [Dispatch.isLocal]

def tickAssigned (w : World) (s : KernelState) : KernelState × TickResult × List TaskId :=
  let limit := maxTasks s
  let retried := retryTransient w s ⟨0, 0, 0, 0, []⟩ (tickRetries w s)
  let candidates := waitingTasks retried.1 true
  if s.primeAutonomyConfig.autoAssignUnassigned ∧ candidates.length < limit then
    autoAssign limit "prime" retried.1 retried.2 candidates (waitingTasks retried.1 false)
  else (retried.1, retried.2, candidates)

def tickTaken (w : World) (s : KernelState) : List TaskId :=
  (tickAssigned w s).2.2.take (maxTasks s)

def workDispatches (w : World) (s : KernelState) : List Dispatch :=
  passDispatches (retryDispatches w) (afterRetry w) s (tickRetries w s) ++
    passDispatches (candidateDispatches w) (afterCandidate w) (tickAssigned w s).1
      (tickTaken w s)

def tickDispatches (w : World) (s : KernelState) : List Dispatch :=
  if ¬ s.primeAutonomyConfig.enabled then []
  else if (s.agents.get? "prime").isNone then []
  else workDispatches w s.tick

variable {t : TaskId} {moves : List BoardMove} {b : Board} {status : TaskStatus}

theorem Board.Executes.not_fresh (h : b.Executes t moves)
    (hrunning : b.task t = some .running) (hs : (b.play moves).task t = some status) :
    startsFresh status = false := by
  cases h with
  | nothing =>
    rw [play_nil, hrunning] at hs
    cases hs
    rfl
  | @ended r st moves _ _ hend =>
    cases hend with
    | run =>
      have hsame : (b.play [.run r st]).task t = b.task t := rfl
      rw [hsame, hrunning] at hs
      cases hs
      rfl
    | @both ended he =>
      have hset : (b.play [.run r st, .task t ended]).task t = some ended := by
        simp only [play_cons, play_nil, move, setTask_task, if_true]
        change (b.task t).map _ = _
        rw [hrunning, Option.map_some]
      rw [hset] at hs
      cases hs
      rcases he with rfl | rfl | rfl <;> rfl

variable {t' : TaskId}

theorem Board.Executes.other (h : b.Executes t moves) (hne : t' ≠ t) :
    (b.play moves).task t' = b.task t' := by
  cases h with
  | nothing => rfl
  | ended _ _ hend =>
    cases hend with
    | run => rfl
    | both _ =>
      simp only [play_cons, play_nil, move, setTask_task, if_neg hne]
      rfl

theorem Board.Executes.ended_run {r : RunId} {status : RunStatus} (h : b.Executes t moves)
    (hr : b.run r = some (t', status)) (hs : status ≠ .running) :
    (b.play moves).run r = some (t', status) := by
  cases h with
  | nothing => exact hr
  | @ended r' st moves hrun _ hend =>
    have hne : r ≠ r' := by
      rintro rfl
      rw [hr, Option.some.injEq, Prod.mk.injEq] at hrun
      exact hs hrun.2
    have hset : (b.setRun r' st).run r = some (t', status) := by
      rw [setRun_run, if_neg hne, hr]
    cases hend with
    | run => exact hset
    | both _ => exact hset

theorem Board.Restarts.ended_run {r : RunId} {status : RunStatus} (h : b.Restarts t moves)
    (hm : b.Minted) (hr : b.run r = some (t', status)) (hs : status ≠ .running) :
    (b.play moves).run r = some (t', status) := by
  cases h with
  | refused => exact hr
  | requeued => exact hr
  | started hexec =>
    have hne : r ≠ (b.move (.task t .queued)).freshRun := by
      rintro rfl
      have hnone : b.run (b.move (.task t .queued)).freshRun = none := hm.fresh
      rw [hnone] at hr
      cases hr
    have hstarted : ((b.move (.task t .queued)).move (.start t)).run r = some (t', status) := by
      rw [start_run, if_neg hne]
      exact hr
    exact hexec.ended_run hstarted hs

def retryStarts (s : KernelState) (runId : RunId) : Bool := (retryTarget s runId).any (startable s)

structure DuringRetries (s₀ s : KernelState) : Prop where
  keyed : s.Keyed
  minted : s.board.Minted
  agents : s.agents = s₀.agents
  brief : s.brief = s₀.brief
  failed : ∀ r t, s₀.board.run r = some (t, .failed) → s.board.run r = some (t, .failed)

namespace DuringRetries

variable {w : World} {s₀ s : KernelState}

theorem refl (hk : s₀.Keyed) (hm : s₀.board.Minted) : DuringRetries s₀ s₀ :=
  ⟨hk, hm, rfl, rfl, fun _ _ h => h⟩

theorem startable (h : DuringRetries s₀ s) (t : TaskId) :
    Relux.startable s t = Relux.startable s₀ t :=
  startable_congr h.agents (congrFun h.brief t)

theorem afterRetry_audit (w : World) (s : KernelState) (runId : RunId) :
    ∃ action target id result,
      afterRetry w s runId = tickAudit (retryRun w s runId).2 action target id result := by
  unfold afterRetry
  cases retryRun w s runId with
  | mk result s₁ => cases result <;> exact ⟨_, _, _, _, rfl⟩

theorem next (h : DuringRetries s₀ s) (runId : RunId) :
    DuringRetries s₀ (afterRetry w s runId) := by
  obtain ⟨action, target, id, result, hafter⟩ := afterRetry_audit w s runId
  obtain ⟨moves, hretry, hmoves⟩ := retryRun_trace w s h.keyed runId
  have htrace : Trace s (afterRetry w s runId) moves := by
    rw [hafter]
    exact hretry.andThen (tickAudit_trace _ _ _ _ _)
  refine ⟨htrace.keyed h.keyed, htrace.board ▸ h.minted.play moves,
    (congrArg Catalog.agents htrace.catalog).trans h.agents, ?_, fun r t hr => ?_⟩
  · rw [hafter]
    exact (retryRun_brief w s runId).trans h.brief
  · have hs := h.failed r t hr
    rw [htrace.board]
    rcases hmoves with rfl | ⟨t', -, hrestart⟩
    · exact hs
    · exact hrestart.ended_run h.minted hs (by decide)

theorem target (h : DuringRetries s₀ s) {runId : RunId}
    (hrun : s₀.board.run runId = some (t, .failed)) :
    retryTarget s runId = retryTarget s₀ runId := by
  refine Option.ext fun t' => ?_
  rw [retryTarget_iff, retryTarget_iff, h.brief, hrun, h.failed runId t hrun]

end DuringRetries

theorem retryDispatches_cases (w : World) {s : KernelState} {runId : RunId}
    (ht : retryTarget s runId = some t) :
    ∃ agentId, (s.brief t).bind (·.assignedAgent) = some agentId ∧
      retryDispatches w s runId = if startable s t then [dispatchOf w s agentId t] else [] := by
  obtain ⟨task, agentId, htask, hagent⟩ := retryTarget_assigned ht
  obtain ⟨task', htask', hfresh, hbrief⟩ := requeue_waits htask
  have hagent' : task'.assignedAgent = some agentId := by
    have := congrArg TaskBrief.assignedAgent hbrief
    exact this.trans hagent
  have hsame := requeue_works s t
  refine ⟨agentId, by simp [KernelState.brief, htask, Task.brief, hagent], ?_⟩
  simp only [retryDispatches, ht]
  rcases executeAssignedRun_waiting w htask' hfresh hagent' with
    ⟨hs, s₁, -, hacts, -, hd⟩ | ⟨hs, e, s₁, -, -, -, hd⟩
  · rw [requeue_startable] at hs
    have hagents : s₁.agents = s.agents := congrArg Catalog.agents hacts.catalog
    have hbrief₁ : s₁.brief t = s.brief t := by rw [hacts.writes.works.brief, hsame.brief]
    rw [hd, if_pos hs, dispatchOf_congr w agentId hagents hbrief₁]
  · rw [requeue_startable] at hs
    rw [hd, hs]
    rfl

theorem afterRetry_waits (w : World) {s : KernelState} (hk : s.Keyed) (runId : RunId)
    (h : (afterRetry w s runId).board.task t = some status)
    (hfresh : startsFresh status = true) :
    (retryTarget s runId = some t ∧ startable s t = false) ∨
      (s.board.task t = some status ∧ ¬ (retryTarget s runId = some t ∧ startable s t = true)) := by
  obtain ⟨action, target, id, result, hafter⟩ := DuringRetries.afterRetry_audit w s runId
  have hboard : (retryRun w s runId).2.board.task t = some status := by
    rw [hafter, (tickAudit_trace _ action target id result).board] at h
    exact h
  cases htarget : retryTarget s runId with
  | none =>
    obtain ⟨e, he⟩ := retryRun_refused htarget
    rw [he] at hboard
    exact .inr ⟨hboard, fun hn => by cases hn.1⟩
  | some t' =>
    by_cases hne : t = t'
    · subst hne
      obtain ⟨task, -, htask, -⟩ := retryTarget_assigned htarget
      rcases requeued_executed w htarget with ⟨-, agentId, s₁, -, hready, hexec⟩ | ⟨hs, -⟩
      · -- The started task is running or ended, so it does not wait.
        obtain ⟨moves, htrace, hexecutes⟩ := dispatchAssigned_trace w s₁ (hready.keyed hk) agentId t
        have hrunning : s₁.board.task t = some .running := by
          rw [hready.board]
          simp only [Board.play_cons, Board.play_nil, if_true, Board.move, Board.setTask_task]
          simp only [KernelState.board, htask, Option.map_some]
        have hlinked : (retryRun w s runId).2.board.task t =
            (dispatchAssigned w s₁ agentId t).2.board.task t := by
          rw [retryRun_accepted w htarget, hexec, linkNewest]
          split
          · rfl
          · exact congrFun (congrArg Board.task (linkRetry_trace w _ _ _ _).board) t
        rw [hlinked, htrace.board] at hboard
        rw [hexecutes.not_fresh hrunning hboard] at hfresh
        cases hfresh
      · exact .inl ⟨rfl, hs⟩
    · obtain ⟨moves, htrace, hmoves⟩ := retryRun_trace w s hk runId
      refine .inr ⟨?_, fun hn => hne (Option.some.inj hn.1).symm⟩
      rw [htrace.board] at hboard
      rcases hmoves with rfl | ⟨t'', hrun, hrestart⟩
      · exact hboard
      · rw [(retryTarget_iff.mp htarget).1] at hrun
        cases hrun
        cases hrestart with
        | refused => exact hboard
        | requeued =>
          simpa only [Board.play_cons, Board.play_nil, Board.move, Board.setTask_task,
            if_neg hne] using hboard
        | started hexec =>
          rw [Board.play_cons, Board.play_cons, hexec.other hne, Board.start_task,
            if_neg hne] at hboard
          simpa only [Board.move, Board.setTask_task, if_neg hne] using hboard

end Relux
