import Relux.Reachable
import Relux.OrchestrationBatch

/-! Cancelled tasks and finished runs, while processes are prepared and brought back, the
operator moves tasks, runs are retried and swept, and the autonomy loop ticks. The end of a
process, a retry and a failed preparation write over whatever status they find; where they
find nothing final, everything final stays. -/

variable {s : KernelState}

namespace Relux

open Transition (Guarded)
open Board (Harmless)

/-- A cancelled task stays cancelled, a completed run completed and a failed run failed. -/
def KernelState.Settles (s s' : KernelState) : Prop :=
  (∀ t task, s.tasks.get? t = some task → task.status = .cancelled →
    ∃ task', s'.tasks.get? t = some task' ∧ task'.status = .cancelled) ∧
  (∀ r run, s.runs.get? r = some run → run.status = .completed ∨ run.status = .failed →
    ∃ run', s'.runs.get? r = some run' ∧ run'.status = run.status)

variable {status : RunStatus}

theorem isFinished_iff :
    Board.isFinished status = true ↔ status = .completed ∨ status = .failed := by
  cases status <;> decide

theorem settles_of_board {s' : KernelState} (h : s.board.Settles s'.board) : s.Settles s' := by
  refine ⟨fun t task ht hs => ?_, fun r run hr hs => ?_⟩
  · have hboard : s.board.task t = some .cancelled := by
      simp only [KernelState.board, ht, Option.map_some, hs]
    have hboard' := h.task t hboard
    simp only [KernelState.board, Option.map_eq_some_iff] at hboard'
    exact hboard'
  · have hboard : s.board.run r = some (run.taskId, run.status) := by
      simp only [KernelState.board, hr, Option.map_some]
    have hboard' := h.run r run.taskId run.status (isFinished_iff.mpr hs) hboard
    simp only [KernelState.board, Option.map_eq_some_iff, Prod.mk.injEq] at hboard'
    obtain ⟨run', hget, -, hstatus⟩ := hboard'
    exact ⟨run', hget, hstatus⟩

/-- The operations of an interleaving: off-lock processes, the operator's moves, retries
and the background loops, with configuration and approvals between them. -/
def KernelOp.interleaves : KernelOp → Bool
  | .run (.prepareCliRun ..) => true
  | .run (.finalizeCliRun ..) => true
  | .run (.setTaskStatus ..) => true
  | .run (.retryRun ..) => true
  | .run _ => false
  | _ => true

/-- A step that meets nothing final: what it prepares is not a cancelled task with an active run to
fail, unless the adapter is ready; the process that ends is of a task that is not cancelled, and of
a run still open or already as it would end; and the run it retries is of no cancelled task with an
agent. -/
def KernelOp.MeetsNothingFinal (w : World) (p : ControlPlane) : KernelOp → Prop
  | .run (.prepareCliRun t adapter) => p.kernel.board.task t = some .cancelled →
      p.kernel.board.Quiet t ∨ adapterReady w p.kernel adapter = true
  | .run (.finalizeCliRun i outcome) => ∀ plan, p.inFlight[i]? = some plan →
      p.kernel.board.task plan.taskId ≠ some .cancelled ∧
        p.kernel.board.Harmless (.run plan.runId (finalStatus w plan outcome))
  | .run (.retryRun r) => ∀ t, p.kernel.board.run r = some (t, .failed) →
      p.kernel.board.task t = some .cancelled →
      (p.kernel.tasks.get? t).any (·.assignedAgent.isNone) = true
  | .background .oneAutonomyTick => autonomyWorks p.kernel →
      ∀ r ∈ tickRetries w p.kernel.tick, ∀ t, p.kernel.board.run r = some (t, .failed) →
        p.kernel.board.task t ≠ some .cancelled
  | _ => True

theorem retryRun_unassigned (w : World) {r : RunId} {t : TaskId}
    (hrun : s.board.run r = some (t, status))
    (ht : (s.tasks.get? t).any (·.assignedAgent.isNone) = true) : (retryRun w s r).2 = s := by
  simp only [KernelState.board, Option.map_eq_some_iff, Prod.mk.injEq] at hrun
  obtain ⟨run, hget, htask, -⟩ := hrun
  rw [Option.any_eq_true] at ht
  obtain ⟨task, hgett, hnone⟩ := ht
  unfold retryRun
  rw [hget]
  dsimp only
  split
  · rfl
  · rw [htask, hgett]
    dsimp only
    rw [if_pos hnone]

theorem RunOp.exec_settles (w : World) (p : ControlPlane) (op : RunOp)
    (hp : p.kernel.WellKept) (hlisted : (KernelOp.run op).interleaves = true)
    (hop : (KernelOp.run op).MeetsNothingFinal w p) :
    p.kernel.board.Settles (op.exec w p).kernel.board := by
  have close : ∀ {s : KernelState} {moves : List BoardMove}, Trace p.kernel s moves →
      p.kernel.board.Along Harmless moves → p.kernel.board.Settles s.board := by
    intro s moves htrace hmoves
    exact htrace.board ▸ hmoves.continues.toSettles
  cases op with
  | prepareCliRun taskId adapter =>
    simp only [RunOp.exec]
    cases hprep : Relux.prepareCliRun w p.kernel taskId adapter with
    | mk result s =>
      have hkernel : (p.prepared (result, s)).kernel = s := by cases result <;> rfl
      rw [hkernel]
      rcases prepareCliRun_trace w p.kernel hp.keyed hprep with
        ⟨htrace, -⟩ | ⟨-, hready, r, hrun, htrace⟩
      · exact close htrace trivial
      · have hlive : p.kernel.board.task taskId ≠ some .cancelled := by
          intro hc
          rcases hop hc with hquiet | hready'
          · exact hquiet r hrun
          · rw [hready] at hready'
            cases hready'
        have hend : p.kernel.board.Executes taskId [.run r .failed, .task taskId .failed] :=
          .ended hrun (by decide) (.both (.inr (.inl rfl)))
        exact close htrace (hend.harmless hlive)
  | finalizeCliRun i outcome =>
    simp only [RunOp.exec, ControlPlane.finalized]
    split
    · exact Board.Settles.refl _
    next plan hplan =>
      obtain ⟨hlive, hrun⟩ := hop plan hplan
      obtain ⟨moves, htrace, hend⟩ := finalizeCliRun_trace w p.kernel plan outcome
      cases hend with
      | run => exact close htrace ⟨hrun, trivial⟩
      | both he =>
        refine close htrace ⟨hrun, ⟨hlive, ?_⟩, trivial⟩
        rcases he with rfl | rfl | rfl <;> decide
  | setTaskStatus taskId target =>
    obtain ⟨moves, htrace, rfl | ⟨rfl, -, status, hstatus, hterm⟩⟩ :=
      setTaskStatus_trace p.kernel taskId target
    · exact close htrace trivial
    · -- A cancelled task is terminal, so the board refuses to move it.
      have hlive : p.kernel.board.task taskId ≠ some .cancelled := by
        intro hc
        rw [hstatus] at hc
        cases hc
        cases hterm
      change p.kernel.board.Settles (Relux.setTaskStatus p.kernel taskId target).2.board
      rw [htrace.board]
      exact ⟨Board.setTask_settles hlive, fun _ _ _ _ => id⟩
  | retryRun runId =>
    obtain ⟨moves, htrace, rfl | ⟨t, hrun, hrestart⟩⟩ := retryRun_trace w p.kernel hp.keyed runId
    · exact close htrace trivial
    · by_cases hc : p.kernel.board.task t = some .cancelled
      · simp only [RunOp.exec, ControlPlane.withKernel,
          retryRun_unassigned w hrun (hop t hrun hc)]
        exact Board.Settles.refl _
      · exact close htrace (hrestart.harmless hp.minted hc)
  | _ => cases hlisted

theorem KernelOp.exec_settles (w : World) (p : ControlPlane) (op : KernelOp)
    (hp : p.kernel.WellKept) (hlisted : op.interleaves = true)
    (hop : op.MeetsNothingFinal w p) :
    p.kernel.board.Settles (op.exec w p).kernel.board := by
  cases op with
  | run op => exact op.exec_settles w p hp hlisted hop
  | background op =>
    cases op with
    | recoverStaleRuns nowSecs ids =>
      obtain ⟨moves, htrace, hharmless⟩ := recoverStaleRuns_trace w p.kernel hp.keyed nowSecs ids
      have hcont := hharmless.continues.toSettles
      rw [← htrace.board] at hcont
      exact hcont
    | oneAutonomyTick =>
      obtain ⟨moves, htrace, hharmless⟩ := oneAutonomyTick_trace w p.kernel hp.keyed
      have hcont := (hharmless hp.minted hop).continues.toSettles
      rw [← htrace.board] at hcont
      exact hcont
    | configureAutonomy config => exact Board.Settles.refl _
    | setRunWatchdogConfig config => exact Board.Settles.refl _
  | config op =>
    have h := KernelState.board_of_work (op.exec_configures w p.kernel).work
    change p.kernel.board.Settles (op.exec w p.kernel).board
    rw [h]
    exact Board.Settles.refl _
  | approval op =>
    have h := (op.exec_rules w p.kernel).board
    change p.kernel.board.Settles (op.exec w p.kernel).board
    rw [h]
    exact Board.Settles.refl _
  | manager call =>
    change p.kernel.board.Settles (call.exec p.kernel).2.board
    rcases (call.exec_directs p.kernel).board with h | ⟨t, status, ht, hlive, h⟩ <;> rw [h]
    · exact Board.Settles.refl _
    · have hne : p.kernel.board.task t ≠ some .cancelled := by
        intro hc
        rw [ht] at hc
        cases hc
        cases hlive
      exact ⟨Board.setTask_settles hne, fun _ _ _ _ => id⟩
  | rehash runs tasks grants =>
    have h := (rehash_trace p.kernel runs tasks grants).board
    change p.kernel.board.Settles (p.kernel.rehash runs tasks grants).board
    rw [h]
    exact Board.Settles.refl _

/-- From any reachable state on: in every interleaving whose steps meet nothing final, a
cancelled task stays cancelled and a completed or failed run keeps its status. -/
theorem terminal_states_final (setup ops : List (World × KernelOp))
    (hops : ∀ e ∈ ops, e.2.interleaves = true)
    (hguard : Guarded ControlPlane.step (fun p e => e.2.MeetsNothingFinal e.1 p)
      (Transition.run ControlPlane.step (ControlPlane.of KernelState.new) setup) ops) :
    let p := Transition.run ControlPlane.step (ControlPlane.of KernelState.new) setup
    p.kernel.Settles (Transition.run ControlPlane.step p ops).kernel := by
  have hreach := run_wellKept setup
    (show (ControlPlane.of KernelState.new).kernel.WellKept from KernelState.new_wellKept)
  intro p
  have hall : Guarded ControlPlane.step
      (fun p e => e.2.interleaves = true ∧ e.2.MeetsNothingFinal e.1 p) p ops :=
    hguard.imp (fun p e he hop => ⟨hops e he, hop⟩)
  have hkept : ∀ (p : ControlPlane) (e : World × KernelOp), p.kernel.WellKept →
      (e.2.interleaves = true ∧ e.2.MeetsNothingFinal e.1 p) → (p.step e).kernel.WellKept :=
    fun p e hp _ => e.2.exec_wellKept e.1 p hp
  have hstep : ∀ (p : ControlPlane) (e : World × KernelOp), p.kernel.WellKept →
      (e.2.interleaves = true ∧ e.2.MeetsNothingFinal e.1 p) →
      p.kernel.board.Settles (p.step e).kernel.board :=
    fun p e hp he => e.2.exec_settles e.1 p hp he.1 he.2
  have htrans : ∀ p p' p'' : ControlPlane, p.kernel.board.Settles p'.kernel.board →
      p'.kernel.board.Settles p''.kernel.board → p.kernel.board.Settles p''.kernel.board :=
    fun _ _ _ h h' => h.trans h'
  exact settles_of_board (Transition.relation_run (fun p => Board.Settles.refl p.kernel.board)
    htrans hkept hstep hreach hall)

def codexWorld : World := { World.silent with findOnPath := fun _ _ => some "/usr/bin/codex" }

def codexExit : AdapterRunOutcome := ⟨some 0, true, false, false, "done", "", false, false, 40⟩

def codexSetup : List (World × KernelOp) :=
  [ (codexWorld, .config (.registerPlugin ⟨codexCliAdapterId, "Codex", "1.0.0", .adapter, "",
      "", .official, [], [], .healthy⟩)),
    (codexWorld, .config (.createAgent "coder" "Coder" codexCliAdapterId none [])),
    (codexWorld, .config (.configureAdapterRuntime codexCliAdapterId
      ⟨some true, none, none, none, none⟩)),
    (codexWorld, .run (.createTask "tidy up" .null "founder" [])),
    (codexWorld, .run (.assignTask "task_0001" "coder")),
    (codexWorld, .run (.startRun "task_0001")) ]

def codexPlane (ops : List KernelOp) : ControlPlane :=
  Transition.run ControlPlane.step (ControlPlane.of KernelState.new)
    (codexSetup ++ ops.map (fun op => (codexWorld, op)))

def prepareOp : KernelOp := .run (.prepareCliRun "task_0001" codexCliAdapterId)
def cancelOp : KernelOp := .run (.setTaskStatus "task_0001" .cancelled)
def exitOp : KernelOp := .run (.finalizeCliRun 0 (.ok codexExit))
def sweepOp : KernelOp := .background (.recoverStaleRuns 100000 [])

/-- The exit of a process while its task is live, and a sweep after a cancellation. -/
theorem terminal_states_final_sample :
    (codexPlane [prepareOp]).kernel.Settles (codexPlane [prepareOp, exitOp]).kernel ∧
      (codexPlane [prepareOp, cancelOp]).kernel.Settles
        (codexPlane [prepareOp, cancelOp, sweepOp]).kernel := by
  have hexit : KernelOp.MeetsNothingFinal codexWorld (codexPlane [prepareOp]) exitOp := by
    intro plan hplan
    cases hplan
    refine ⟨by decide, fun t old hr hfin => ?_⟩
    cases hr
    cases hfin
  have hfirst := terminal_states_final (codexSetup ++ [(codexWorld, prepareOp)])
    [(codexWorld, exitOp)] (by decide) (.intro hexit trivial)
  have hsecond := terminal_states_final
    (codexSetup ++ [(codexWorld, prepareOp), (codexWorld, cancelOp)])
    [(codexWorld, sweepOp)] (by decide) (.intro trivial trivial)
  exact ⟨hfirst, hsecond⟩

/-- The exit of a process completes a task the operator has cancelled, and a run the sweep
has failed. -/
theorem terminal_states_overwritten :
    ¬ (codexPlane [prepareOp, cancelOp]).kernel.Settles
        (codexPlane [prepareOp, cancelOp, exitOp]).kernel ∧
      ¬ (codexPlane [prepareOp, sweepOp]).kernel.Settles
        (codexPlane [prepareOp, sweepOp, exitOp]).kernel := by
  refine ⟨fun h => ?_, fun h => ?_⟩
  · obtain ⟨task, hget, hstatus⟩ := h.1 "task_0001" _ rfl rfl
    cases hget
    cases hstatus
  · obtain ⟨run, hget, hstatus⟩ := h.2 "run_0001" _ rfl (.inr rfl)
    cases hget
    cases hstatus

end Relux

/-! After a retry. A round only takes pending steps, and nothing ever makes a step pending
again, so the steps a failure has blocked stay blocked when its task is completed later. -/

namespace Relux

/-- The step was blocked without being attempted, and whatever it waits for is completed,
the one step, or a step blocked only because of it. -/
inductive BlockedOnlyBy (steps : List OrchestrationStep) (j : Nat) : Nat → Prop
  | intro {i k : Nat} {step : OrchestrationStep} (hget : steps[i]? = some step)
      (hblocked : step.outcome = .blocked) (hround : step.round = none)
      (hk : k ∈ step.dependsOn) (hdown : stepOutcome? steps k ≠ some .completed)
      (hrest : ∀ k ∈ step.dependsOn, k ≠ j → stepOutcome? steps k ≠ some .completed →
        BlockedOnlyBy steps j k) : BlockedOnlyBy steps j i

/-- A successful retry of a run of the step's task completes the task, with any other
operations before and after it. -/
def CompletedByRetry (p p' : ControlPlane) (id : OrchestrationId) (j : Nat) : Prop :=
  ∃ step before w runId run newRunId task after,
    (p.kernel.stepsOf id)[j]? = some step ∧
    (Transition.run ControlPlane.step p before).kernel.runs.get? runId = some run ∧
    run.taskId = step.taskId ∧
    (retryRun w (Transition.run ControlPlane.step p before).kernel runId).1 = .ok newRunId ∧
    (retryRun w (Transition.run ControlPlane.step p before).kernel runId).2.tasks.get?
      step.taskId = some task ∧
    task.status = .completed ∧
    p' = Transition.run ControlPlane.step p (before ++ (w, .run (.retryRun runId)) :: after)

def AttemptsBlocked (w : World) (fuel : Nat) (s : KernelState) (id : OrchestrationId)
    (max concurrency j : Nat) : Prop :=
  ∀ i, BlockedOnlyBy (s.stepsOf id) j i →
    ∃ a ∈ (callLog w fuel s id max concurrency).flatten, a.2 = i

theorem callLog_pending (w : World) {fuel : Nat} {id : OrchestrationId} (max concurrency : Nat)
    (hk : s.Keyed) (hplanned : s.planned id = true) (hfuel : (s.stepsOf id).length < fuel)
    {a : KernelState × Nat} (ha : a ∈ (callLog w fuel s id max concurrency).flatten) :
    s.outcomeOf id a.2 = some .pending := by
  obtain ⟨_, _, _, _, _, -, hkept, -⟩ := runOrchestration_rounds w max concurrency hk hplanned hfuel
  obtain ⟨step, hget, hpending⟩ := get_of_waiting (hkept.fresh a ha)
  exact outcomeOf_eq.mpr ⟨step, hget, hpending⟩

/-- After the retry a call attempts the steps blocked only because of the failed one exactly
when there are none. -/
theorem recovery_attempts_blocked (w : World) (p p' : ControlPlane) (id : OrchestrationId)
    (max concurrency fuel j : Nat) (hk : p.kernel.Keyed)
    (hplanned : p.kernel.planned id = true) (hretry : CompletedByRetry p p' id j)
    (hfuel : (p.kernel.stepsOf id).length < fuel) :
    AttemptsBlocked w fuel p'.kernel id max concurrency j ↔
      ∀ i, ¬ BlockedOnlyBy (p.kernel.stepsOf id) j i := by
  obtain ⟨step, before, w', runId, run, newRunId, task, after, -, -, -, -, -, -, rfl⟩ := hretry
  obtain ⟨hk', horch⟩ := run_orchestrations
    (before ++ (w', KernelOp.run (.retryRun runId)) :: after) hk
  have hsteps := KernelState.stepsOf_of_orchestrations horch id
  unfold AttemptsBlocked
  rw [hsteps]
  constructor
  · intro hattempts i hblocked
    obtain ⟨a, ha, rfl⟩ := hattempts i hblocked
    have hplanned' := (KernelState.planned_of_orchestrations horch id).trans hplanned
    have hpending := callLog_pending w max concurrency hk' hplanned' (hsteps ▸ hfuel) ha
    cases hblocked with
    | intro hget hout _ _ _ _ =>
      have hout' : (Transition.run ControlPlane.step p
          (before ++ (w', KernelOp.run (.retryRun runId)) :: after)).kernel.outcomeOf id a.2 =
          some .blocked := outcomeOf_eq.mpr ⟨_, hsteps ▸ hget, hout⟩
      rw [hpending] at hout'
      cases hout'
  · intro hnone i hblocked
    exact absurd hblocked (hnone i)

def mendedWorld : World := { codexWorld with runAdapterCommand := fun _ => .ok codexExit }

def chainPlane : ControlPlane :=
  Transition.run ControlPlane.step
    (ControlPlane.of (withSteps [⟨"task_0001", "coder", "tidy up", .pending, [], none, none,
      none, none, none⟩, ⟨"task_0002", "coder", "publish", .pending, [0], none, none, none, none,
      none⟩]))
    (codexSetup.take 5 ++ [(codexWorld, .run (.createTask "publish" .null "founder" [])),
      (codexWorld, .run (.assignTask "task_0002" "coder"))])

def attentionPlane : ControlPlane :=
  match runOrchestration codexWorld 3 chainPlane.kernel "orch_0001" 25 2 with
  | some (_, s) => .of s
  | none => chainPlane

def retriedPlane : ControlPlane := attentionPlane.step (mendedWorld, .run (.retryRun "run_0001"))

theorem attentionPlane_keyed : attentionPlane.kernel.Keyed := by
  have hchain : chainPlane.kernel.Keyed := (run_orchestrations _ (withSteps_keyed _)).1
  have hplanned : chainPlane.kernel.planned "orch_0001" = true := rfl
  have hfuel : (chainPlane.kernel.stepsOf "orch_0001").length < 3 := by decide
  obtain ⟨result, s', _, _, _, hrun, -, -, hkeyed, -⟩ :=
    runOrchestration_rounds codexWorld 25 2 hchain hplanned hfuel
  unfold attentionPlane
  rw [hrun]
  exact hkeyed

theorem retriedPlane_completed :
    CompletedByRetry attentionPlane retriedPlane "orch_0001" 0 :=
  ⟨_, [], mendedWorld, "run_0001", _, "run_0002", _, [], rfl, rfl, rfl, rfl, rfl, rfl, rfl⟩

theorem recovery_attempts_blocked_sample :
    AttemptsBlocked mendedWorld 3 retriedPlane.kernel "orch_0001" 25 2 0 ↔
      ∀ i, ¬ BlockedOnlyBy (attentionPlane.kernel.stepsOf "orch_0001") 0 i :=
  recovery_attempts_blocked mendedWorld attentionPlane retriedPlane "orch_0001" 25 2 3 0
    attentionPlane_keyed rfl retriedPlane_completed (by decide)

theorem orchestration_not_recovered :
    (attentionPlane.kernel.orchestrations.get? "orch_0001").map (·.status) =
        some .needsAttention ∧
      attentionPlane.kernel.outcomeOf "orch_0001" 0 = some .failed ∧
      CompletedByRetry attentionPlane retriedPlane "orch_0001" 0 ∧
      ¬ AttemptsBlocked mendedWorld 3 retriedPlane.kernel "orch_0001" 25 2 0 := by
  refine ⟨rfl, rfl, retriedPlane_completed, fun h => ?_⟩
  have hblocked : BlockedOnlyBy (retriedPlane.kernel.stepsOf "orch_0001") 0 1 := by
    refine .intro (k := 0) rfl rfl rfl (List.mem_singleton_self 0) nofun ?_
    intro k hk hne
    exact absurd (List.mem_singleton.mp hk) hne
  obtain ⟨a, ha, -⟩ := h 1 hblocked
  cases ha

end Relux
