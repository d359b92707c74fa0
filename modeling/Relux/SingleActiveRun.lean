import Relux.Reachable

/-! One running run for each task, and none for a finished one. The operations that start
a run or end a task do not look for a running run themselves, so both hold in the runs of
the control plane in which these operations find none in their way. -/

namespace Relux

open Transition (Guarded)

def KernelState.SingleActiveRun (s : KernelState) : Prop :=
  ∀ r r' run run', s.runs.get? r = some run → s.runs.get? r' = some run' →
    run.status = .running → run'.status = .running → run.taskId = run'.taskId → r = r'

def KernelState.FinishedQuiet (s : KernelState) : Prop :=
  ∀ t task, s.tasks.get? t = some task → Board.endsTask task.status = true →
    ∀ r run, s.runs.get? r = some run → run.taskId = t → run.status ≠ .running

theorem orderly_iff (s : KernelState) :
    s.board.Orderly ↔ s.SingleActiveRun ∧ s.FinishedQuiet := by
  have hrun : ∀ r t, s.board.run r = some (t, .running) ↔
      ∃ run, s.runs.get? r = some run ∧ run.taskId = t ∧ run.status = .running := by
    intro r t
    simp only [KernelState.board, Option.map_eq_some_iff, Prod.mk.injEq]
  constructor
  · intro h
    refine ⟨?_, ?_⟩
    · intro r r' run run' hr hr' hs hs' ht
      exact h.single run.taskId r r' ((hrun r _).mpr ⟨run, hr, rfl, hs⟩)
        ((hrun r' _).mpr ⟨run', hr', ht.symm, hs'⟩)
    · intro t task ht he r run hr htask hs
      have hboard : s.board.task t = some task.status := by
        simp only [KernelState.board, ht, Option.map_some]
      exact h.quiet t task.status hboard he r ((hrun r t).mpr ⟨run, hr, htask, hs⟩)
  · rintro ⟨hsingle, hquiet⟩
    constructor
    · intro t r r' hr hr'
      obtain ⟨run, hget, ht, hs⟩ := (hrun r t).mp hr
      obtain ⟨run', hget', ht', hs'⟩ := (hrun r' t).mp hr'
      exact hsingle r r' run run' hget hget' hs hs' (ht.trans ht'.symm)
    · intro t status ht he r hr
      simp only [KernelState.board, Option.map_eq_some_iff] at ht
      obtain ⟨task, hget, rfl⟩ := ht
      obtain ⟨run, hgetr, htask, hs⟩ := (hrun r t).mp hr
      exact hquiet t task hget he r run hgetr htask hs

def KernelOp.Unopposed (p : ControlPlane) : KernelOp → Prop
  | .run op => op.Unopposed p
  | _ => True

def KernelOp.isAutonomyTick : KernelOp → Bool
  | .background .oneAutonomyTick => true
  | _ => false

theorem markRunsStale_orderly (w : World) (s : KernelState) (stale : List (RunId × Nat))
    (hk : s.Keyed) (hb : s.board.Orderly) :
    (markRunsStale w s stale).Keyed ∧ (markRunsStale w s stale).board.Orderly := by
  induction stale generalizing s with
  | nil => exact ⟨hk, hb⟩
  | cons e rest ih =>
    have hfailed : RunStatus.failed ≠ .running := by decide
    obtain ⟨moves, hacts, rfl | ⟨t, rfl, -⟩⟩ :=
      @markRunStale_acts w s (fun _ => True) e.1 trivial e.2
    · exact ih _ (hacts.keyed hk) (hacts.board ▸ hb.play ⟨hfailed, trivial⟩)
    · exact ih _ (hacts.keyed hk)
        (hacts.board ▸ hb.play ⟨hfailed, fun he => absurd he (by decide), trivial⟩)

theorem recoverStaleRuns_orderly (w : World) (s : KernelState) (nowSecs : Nat)
    (activeRunIds : List RunId) (hk : s.Keyed) (hb : s.board.Orderly) :
    (recoverStaleRuns w s nowSecs activeRunIds).Keyed ∧
      (recoverStaleRuns w s nowSecs activeRunIds).board.Orderly := by
  unfold recoverStaleRuns
  split
  · exact ⟨hk, hb⟩
  · exact markRunsStale_orderly w s _ hk hb

theorem KernelOp.exec_orderly (w : World) (p : ControlPlane) (op : KernelOp)
    (htick : op.isAutonomyTick = false) (hk : p.kernel.Keyed) (hb : p.kernel.board.Orderly)
    (hop : op.Unopposed p) :
    (op.exec w p).kernel.Keyed ∧ (op.exec w p).kernel.board.Orderly := by
  cases op with
  | run op =>
    obtain ⟨moves, htrace, hmoves⟩ := op.exec_moves w p hk
    exact ⟨htrace.keyed hk, htrace.board ▸ hb.play (hmoves hb hop)⟩
  | background op =>
    cases op with
    | recoverStaleRuns nowSecs ids => exact recoverStaleRuns_orderly w p.kernel nowSecs ids hk hb
    | oneAutonomyTick => cases htick
    | configureAutonomy config | setRunWatchdogConfig config => exact ⟨⟨hk.task, hk.run⟩, hb⟩
  | config op =>
    have h := op.exec_configures w p.kernel
    exact ⟨KernelState.keyed_of_work h.work hk, KernelState.board_of_work h.work ▸ hb⟩
  | approval op =>
    have h := op.exec_rules w p.kernel
    exact ⟨h.keyed hk, h.board ▸ hb⟩
  | manager call =>
    have h := call.exec_directs p.kernel
    refine ⟨h.keyed hk, ?_⟩
    change (call.exec p.kernel).2.board.Orderly
    rcases h.board with hboard | ⟨t, status, -, -, hboard⟩ <;> rw [hboard]
    · exact hb
    · exact hb.move (fun he => absurd he (by decide))
  | rehash runs tasks grants =>
    have h := rehash_trace p.kernel runs tasks grants
    exact ⟨h.keyed hk, h.board ▸ hb⟩

theorem KernelState.new_orderly : KernelState.new.board.Orderly := by
  rw [orderly_iff]
  refine ⟨fun r r' run run' h => ?_, fun t task h => ?_⟩
  · rw [KernelState.new, HashMap.get?_empty] at h
    cases h
  · rw [KernelState.new, HashMap.get?_empty] at h
    cases h

/-- In every run of operations that meet no running run of the task they start or end, a
task has at most one running run, and a finished task has none. -/
theorem single_active_run (ops : List (World × KernelOp))
    (hops : ∀ e ∈ ops, e.2.isAutonomyTick = false)
    (hguard : Guarded ControlPlane.step (fun p e => e.2.Unopposed p)
      (ControlPlane.of KernelState.new) ops) :
    let s := (Transition.run ControlPlane.step (ControlPlane.of KernelState.new) ops).kernel
    s.SingleActiveRun ∧ s.FinishedQuiet := by
  have hall : Guarded ControlPlane.step
      (fun p e => e.2.isAutonomyTick = false ∧ e.2.Unopposed p)
      (ControlPlane.of KernelState.new) ops :=
    hguard.imp (fun _ e he hop => ⟨hops e he, hop⟩)
  have hstep : ∀ (p : ControlPlane) (e : World × KernelOp),
      (p.kernel.Keyed ∧ p.kernel.board.Orderly) →
      (e.2.isAutonomyTick = false ∧ e.2.Unopposed p) →
      (p.step e).kernel.Keyed ∧ (p.step e).kernel.board.Orderly :=
    fun p e hp he => e.2.exec_orderly e.1 p he.1 hp.1 hp.2 he.2
  have hnew : (ControlPlane.of KernelState.new).kernel.Keyed ∧
      (ControlPlane.of KernelState.new).kernel.board.Orderly :=
    ⟨KernelState.new_keyed, KernelState.new_orderly⟩
  exact (orderly_iff _).mp (Transition.invariant_run hstep hnew hall).2

def openingOps : List (World × KernelOp) :=
  [ (.silent, .config (.registerPlugin ⟨localPrimeAdapterId, "Local Prime", "1.0.0", .adapter,
      "", "", .official, [], [], .healthy⟩)),
    (.silent, .config (.createAgent "prime" "Prime" localPrimeAdapterId none [])),
    (.silent, .run (.createTask "tidy up" .null "founder" [])),
    (.silent, .run (.assignTask "task_0001" "prime")) ]

def afterOpening (ops : List RunOp) : KernelState :=
  (Transition.run ControlPlane.step (ControlPlane.of KernelState.new)
    (openingOps ++ ops.map (fun op => (World.silent, KernelOp.run op)))).kernel

theorem single_active_run_started :
    (afterOpening [.startRun "task_0001"]).SingleActiveRun ∧
      (afterOpening [.startRun "task_0001"]).FinishedQuiet := by
  have hquiet : (afterOpening []).board.Quiet "task_0001" := fun r h => by cases h
  exact single_active_run _ (by decide) (.intro trivial (.intro trivial (.intro trivial
    (.intro trivial (.intro hquiet trivial)))))

/-- A task can be started twice, and cancelled while its run is running. -/
theorem single_active_run_fails :
    ¬ (afterOpening [.startRun "task_0001", .startRun "task_0001"]).SingleActiveRun ∧
      ¬ (afterOpening [.startRun "task_0001",
        .setTaskStatus "task_0001" .cancelled]).FinishedQuiet := by
  refine ⟨fun h => ?_, fun h => ?_⟩
  · exact absurd (h "run_0001" "run_0002" _ _ rfl rfl rfl rfl rfl) (by decide)
  · exact h "task_0001" _ rfl rfl "run_0001" _ rfl rfl rfl

end Relux
