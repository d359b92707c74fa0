import Relux.DispatchTrace

/-! The traces of the background loops: the autonomy tick with its retries, assignments
and runs, and the stall sweep. They cancel no task, and a tick leaves a cancelled task
alone unless it retries one of its runs. -/

namespace Relux

variable {t : TaskId}

namespace Board

def isFinished : RunStatus → Bool
  | .completed => true
  | .failed => true
  | _ => false

def Harmless (b : Board) : BoardMove → Prop
  | .create => b.task b.freshTask ≠ some .cancelled
  | .task t status => b.task t ≠ some .cancelled ∧ status ≠ .cancelled
  | .start t => b.task t ≠ some .cancelled ∧ b.run b.freshRun = none
  | .run r status => ∀ t old, b.run r = some (t, old) → isFinished old = true → old = status

structure Settles (b b' : Board) : Prop where
  task : ∀ t, b.task t = some .cancelled → b'.task t = some .cancelled
  run : ∀ r t status, isFinished status = true → b.run r = some (t, status) →
    b'.run r = some (t, status)

structure Continues (b b' : Board) : Prop extends Settles b b' where
  live : ∀ t, b.task t ≠ some .cancelled → b'.task t ≠ some .cancelled

theorem Settles.refl (b : Board) : b.Settles b := ⟨fun _ => id, fun _ _ _ _ => id⟩

variable {b : Board}

theorem Settles.trans {b' b'' : Board} (h : b.Settles b') (h' : b'.Settles b'') : b.Settles b'' :=
  ⟨fun t ht => h'.task t (h.task t ht),
    fun r t status hs hr => h'.run r t status hs (h.run r t status hs hr)⟩

theorem Continues.refl (b : Board) : b.Continues b := ⟨Settles.refl b, fun _ => id⟩

theorem Continues.trans {b' b'' : Board} (h : b.Continues b') (h' : b'.Continues b'') :
    b.Continues b'' :=
  ⟨h.toSettles.trans h'.toSettles, fun t ht => h'.live t (h.live t ht)⟩

variable {status : TaskStatus}

theorem setTask_settles (ht : b.task t ≠ some .cancelled) (t' : TaskId)
    (h : b.task t' = some .cancelled) : (b.setTask t status).task t' = some .cancelled := by
  have hne : t' ≠ t := by
    rintro rfl
    exact ht h
  rw [setTask_task, if_neg hne, h]

theorem setTask_live (hs : status ≠ .cancelled) (t' : TaskId)
    (h : b.task t' ≠ some .cancelled) : (b.setTask t status).task t' ≠ some .cancelled := by
  rw [setTask_task]
  split
  · intro he
    rw [Option.map_eq_some_iff] at he
    obtain ⟨old, -, he⟩ := he
    exact hs he
  · exact h

theorem Harmless.move {m : BoardMove} (h : b.Harmless m) : b.Continues (b.move m) := by
  cases m with
  | create =>
    refine ⟨⟨fun t ht => ?_, fun _ _ _ _ => id⟩, fun t ht => ?_⟩
    · have hne : t ≠ b.freshTask := by
        rintro rfl
        exact h ht
      rw [create_task, if_neg hne, ht]
    · rw [create_task]
      split
      · exact nofun
      · exact ht
  | task t status =>
    exact ⟨⟨setTask_settles h.1, fun _ _ _ _ => id⟩, setTask_live h.2⟩
  | start t =>
    refine ⟨⟨setTask_settles h.1, fun r t' status hs hr => ?_⟩, setTask_live (by decide)⟩
    have hne : r ≠ b.freshRun := by
      rintro rfl
      rw [h.2] at hr
      cases hr
    rw [start_run, if_neg hne, hr]
  | run r status =>
    refine ⟨⟨fun _ => id, fun r' t' old hs hr => ?_⟩, fun _ => id⟩
    change (b.setRun r status).run r' = _
    rw [setRun_run]
    split
    next he =>
      subst he
      rw [hr, Option.map_some, ← h t' old hr hs]
    · exact hr

variable {moves : List BoardMove}

theorem Along.continues (h : b.Along Harmless moves) : b.Continues (b.play moves) := by
  induction moves generalizing b with
  | nil => exact .refl b
  | cons m moves ih => exact h.1.move.trans (ih h.2)

theorem Executes.harmless (h : b.Executes t moves) (ht : b.task t ≠ some .cancelled) :
    b.Along Harmless moves := by
  cases h with
  | nothing => trivial
  | @ended r status moves hrun hs h =>
    have hend : b.Harmless (.run r status) := by
      intro t' old hr hfin
      rw [hrun] at hr
      cases hr
      cases hfin
    cases h with
    | run => exact ⟨hend, trivial⟩
    | both he =>
      refine ⟨hend, ⟨ht, ?_⟩, trivial⟩
      rcases he with rfl | rfl | rfl <;> decide

theorem start_harmless (hm : b.Minted) (ht : b.task t ≠ some .cancelled) :
    b.Harmless (.start t) := ⟨ht, hm.fresh⟩

theorem Attempts.harmless (h : b.Attempts t moves) (hm : b.Minted)
    (ht : b.task t ≠ some .cancelled) : b.Along Harmless moves := by
  cases h with
  | refused => trivial
  | started _ _ h =>
    have hstart := start_harmless hm ht
    exact ⟨hstart, h.harmless (hstart.move.live t ht)⟩
  | held _ _ h => exact h.harmless ht

theorem Restarts.harmless (h : b.Restarts t moves) (hm : b.Minted)
    (ht : b.task t ≠ some .cancelled) : b.Along Harmless moves := by
  have hqueue : b.Harmless (.task t .queued) := ⟨ht, by decide⟩
  have hlive := hqueue.move.live t ht
  cases h with
  | refused => trivial
  | requeued => exact ⟨hqueue, trivial⟩
  | started h =>
    have hstart := start_harmless (hm.move (.task t .queued)) hlive
    exact ⟨hqueue, hstart, h.harmless (hstart.move.live t hlive)⟩

end Board

open Board (Harmless)

variable (w : World) (s : KernelState)

theorem tickAudit_trace (action target id : String) (result : AuditResult) :
    Trace s (tickAudit s action target id result) [] :=
  recordAudit_trace s _ _ _ _ _ _

theorem retryTransient_trace (hk : s.Keyed) (r : TickResult) (runIds : List RunId) :
    ∃ moves, Trace s (retryTransient w s r runIds).1 moves ∧
      (s.board.Minted → (∀ runId ∈ runIds, ∃ t, s.board.run runId = some (t, .failed) ∧
        s.board.task t ≠ some .cancelled) → s.board.Along Harmless moves) := by
  induction runIds generalizing s r with
  | nil => exact ⟨[], Trace.refl s, fun _ _ => trivial⟩
  | cons runId rest ih =>
    obtain ⟨moves, hretry, hmoves⟩ := retryRun_trace w s hk runId
    have hgo : ∀ (r' : TickResult) (s₁ : KernelState), Trace s s₁ moves →
        ∃ all, Trace s (retryTransient w s₁ r' rest).1 all ∧
          (s.board.Minted → (∀ id ∈ runId :: rest, ∃ t, s.board.run id = some (t, .failed) ∧
            s.board.task t ≠ some .cancelled) → s.board.Along Harmless all) := by
      intro r' s₁ htrace
      obtain ⟨more, hrest, hharmless⟩ := ih s₁ (htrace.keyed hk) r'
      refine ⟨moves ++ more, htrace.trans hrest, fun hm hids => ?_⟩
      have hfirst : s.board.Along Harmless moves := by
        rcases hmoves with rfl | ⟨t, hrun, hrestart⟩
        · trivial
        · obtain ⟨t', hrun', hlive⟩ := hids runId List.mem_cons_self
          rw [hrun] at hrun'
          cases hrun'
          exact hrestart.harmless hm hlive
      have hcont := hfirst.continues
      rw [htrace.board] at hharmless
      refine hfirst.append (hharmless (hm.play moves) (fun id hid => ?_))
      obtain ⟨t, hrun, hlive⟩ := hids id (List.mem_cons_of_mem runId hid)
      exact ⟨t, hcont.run id t .failed rfl hrun, hcont.live t hlive⟩
    simp only [retryTransient]
    split
    next h =>
      rw [h] at hretry
      exact hgo _ _ (hretry.andThen (tickAudit_trace _ _ _ _ _))
    next h =>
      rw [h] at hretry
      exact hgo _ _ (hretry.andThen (tickAudit_trace _ _ _ _ _))

theorem autoAssign_trace (limit : Nat) (prime : AgentId) (r : TickResult)
    (candidates tasks : List TaskId) :
    ∃ moves, Trace s (autoAssign limit prime s r candidates tasks).1 moves ∧
      ((∀ t ∈ tasks, s.board.task t ≠ some .cancelled) → s.board.Along Harmless moves) ∧
      ∀ t ∈ (autoAssign limit prime s r candidates tasks).2.2, t ∈ candidates ∨ t ∈ tasks := by
  induction tasks generalizing s r candidates with
  | nil => exact ⟨[], Trace.refl s, fun _ => trivial, fun _ => .inl⟩
  | cons taskId rest ih =>
    simp only [autoAssign]
    split
    · exact ⟨[], Trace.refl s, fun _ => trivial, fun _ => .inl⟩
    · obtain ⟨moves, hassign, hmoves⟩ := assignTask_trace s taskId prime
      have hgo : ∀ (r' : TickResult) (s₁ : KernelState) (candidates' : List TaskId),
          Trace s s₁ moves → (∀ t ∈ candidates', t ∈ candidates ∨ t ∈ taskId :: rest) →
          ∃ all, Trace s (autoAssign limit prime s₁ r' candidates' rest).1 all ∧
            ((∀ t ∈ taskId :: rest, s.board.task t ≠ some .cancelled) →
              s.board.Along Harmless all) ∧
            ∀ t ∈ (autoAssign limit prime s₁ r' candidates' rest).2.2,
              t ∈ candidates ∨ t ∈ taskId :: rest := by
        intro r' s₁ candidates' htrace hcand
        obtain ⟨more, hrest, hharmless, hmem⟩ := ih s₁ r' candidates'
        refine ⟨moves ++ more, htrace.trans hrest, fun hlive => ?_, fun t ht => ?_⟩
        · have hfirst : s.board.Along Harmless moves := by
            rcases hmoves with rfl | rfl
            · trivial
            · exact ⟨⟨hlive taskId List.mem_cons_self, by decide⟩, trivial⟩
          rw [htrace.board] at hharmless
          exact hfirst.append (hharmless (fun t ht =>
            hfirst.continues.live t (hlive t (List.mem_cons_of_mem taskId ht))))
        · rcases hmem t ht with h | h
          · exact hcand t h
          · exact .inr (List.mem_cons_of_mem taskId h)
      split
      next h =>
        rw [h] at hassign
        refine hgo _ _ _ (hassign.andThen (tickAudit_trace _ _ _ _ _)) (fun t ht => ?_)
        rcases List.mem_append.mp ht with h | h
        · exact .inl h
        · exact .inr (List.mem_cons.mpr (.inl (List.mem_singleton.mp h)))
      next h =>
        rw [h] at hassign
        exact hgo _ _ _ (hassign.andThen (tickAudit_trace _ _ _ _ _)) (fun _ => .inl)

/-- The execution inside `tickTask`, after the task's run was started or found. -/
def tickExecute (w : World) (s : KernelState) (r : TickResult) (taskId : TaskId) :
    KernelState × TickResult :=
  match executeLocalRun w s taskId with
  | (.ok runId, s) =>
    (tickAudit s "autonomy:run_completed" "run" runId .success,
      { r with tasksRun := r.tasksRun + 1, actionsTaken := r.actionsTaken + 1 })
  | (.error e, s) =>
    (tickAudit s "autonomy:run_failed" "task" taskId .failed,
      r.skip ("Failed to execute task " ++ taskId ++ ": " ++ e.text))

theorem tickExecute_acts (r : TickResult) (taskId : TaskId) :
    ∃ moves, Acts w (fun _ => True) s (tickExecute w s r taskId).1 moves ∧
      (s.Keyed → s.board.Executes taskId moves) := by
  obtain ⟨moves, hacts, hexec⟩ := executeLocalRun_acts w s taskId fun _ _ => trivial
  unfold tickExecute
  split
  next h =>
    rw [h] at hacts
    exact ⟨moves, hacts.andThen (recordAudit_acts w _ _ _ _ _ _ _), hexec⟩
  next h =>
    rw [h] at hacts
    exact ⟨moves, hacts.andThen (recordAudit_acts w _ _ _ _ _ _ _), hexec⟩

theorem tickTask_acts (r : TickResult) (taskId : TaskId) :
    ∃ moves, Acts w (fun _ => True) s (tickTask w s r taskId).1 moves ∧
      (s.Keyed → s.board.Attempts taskId moves) := by
  unfold tickTask
  cases htask : s.tasks.get? taskId with
  | none =>
    -- An unknown task is not executed either.
    have hunknown : executeLocalRun w s taskId = (.error (.unknownTask taskId), s) := by
      simp only [executeLocalRun, htask]
    simp only [Bool.false_eq_true, if_false, hunknown]
    exact ⟨[], recordAudit_acts w s _ _ _ _ _ _, fun _ => .refused⟩
  | some task =>
    have hboard : s.board.task taskId = some task.status := by
      simp only [KernelState.board, htask, Option.map_some]
    dsimp only
    split
    next hfresh =>
      split
      next h =>
        rcases startRun_acts w s taskId h fun _ _ => trivial with ⟨-, hacts⟩ | ⟨he, -⟩
        · exact ⟨[], hacts.andThen (recordAudit_acts w _ _ _ _ _ _ _), fun _ => .refused⟩
        · cases he
      next s₁ h =>
        rcases startRun_acts w s taskId h fun _ _ => trivial with ⟨⟨e, he⟩, -⟩ | ⟨-, hstart⟩
        · cases he
        · obtain ⟨moves, hacts, hexec⟩ := tickExecute_acts w s₁ r taskId
          rw [hstart.board] at hexec
          exact ⟨_, hstart.trans hacts, fun hk => .started hboard hfresh (hexec (hstart.keyed hk))⟩
    next hfresh =>
      obtain ⟨moves, hacts, hexec⟩ := tickExecute_acts w s r taskId
      exact ⟨moves, hacts, fun hk => .held hboard (Bool.not_eq_true _ ▸ hfresh) (hexec hk)⟩

theorem tickTasks_acts (r : TickResult) (tasks : List TaskId) :
    ∃ moves, Acts w (fun _ => True) s (tickTasks w s r tasks).1 moves ∧
      (s.Keyed → s.board.Minted → (∀ t ∈ tasks, s.board.task t ≠ some .cancelled) →
        s.board.Along Harmless moves) := by
  induction tasks generalizing s r with
  | nil => exact ⟨[], .refl s, fun _ _ _ => trivial⟩
  | cons taskId rest ih =>
    obtain ⟨moves, hacts, hattempt⟩ := tickTask_acts w s r taskId
    obtain ⟨more, hrest, hharmless⟩ := ih _ (tickTask w s r taskId).2
    refine ⟨moves ++ more, hacts.trans hrest, fun hk hm hlive => ?_⟩
    have hfirst := (hattempt hk).harmless hm (hlive taskId List.mem_cons_self)
    rw [hacts.board] at hharmless
    exact hfirst.append (hharmless (hacts.keyed hk) (hm.play moves) (fun t ht =>
      hfirst.continues.live t (hlive t (List.mem_cons_of_mem taskId ht))))

theorem mem_sortTexts {t : String} {xs : List String} : t ∈ sortTexts xs ↔ t ∈ xs :=
  List.mem_mergeSort

theorem waitingTasks_live (hk : s.Keyed) {assigned : Bool} (ht : t ∈ waitingTasks s assigned) :
    s.board.task t ≠ some .cancelled := by
  unfold waitingTasks at ht
  rw [mem_sortTexts, List.mem_map] at ht
  obtain ⟨task, hmem, hid⟩ := ht
  rw [List.mem_filter, HashMap.mem_values, Bool.and_eq_true] at hmem
  obtain ⟨⟨key, hget⟩, hfresh, -⟩ := hmem
  have hkey : key = t := by rw [← hid, hk.task key task hget]
  subst hkey
  simp only [KernelState.board, hget, Option.map_some]
  intro he
  rw [Option.some.injEq] at he
  rw [he] at hfresh
  cases hfresh

theorem tickRetries_failed (hk : s.Keyed) {runId : RunId} (h : runId ∈ tickRetries w s) :
    ∃ t, s.board.run runId = some (t, .failed) := by
  have hmem := List.mem_of_mem_take h
  unfold transientRetryReady at hmem
  rw [mem_sortTexts, List.mem_map] at hmem
  obtain ⟨run, hrun, hid⟩ := hmem
  rw [List.mem_filter, HashMap.mem_values, Bool.and_eq_true] at hrun
  obtain ⟨⟨key, hget⟩, -, hready⟩ := hrun
  have hkey : key = runId := by rw [← hid, hk.run key run hget]
  simp only [retryReady, Bool.and_eq_true, beq_iff_eq] at hready
  refine ⟨run.taskId, ?_⟩
  simp only [KernelState.board, ← hkey, hget, Option.map_some, hready.1.1.1]

theorem workTick_trace (hk : s.Keyed) :
    ∃ moves, Trace s (workTick w s).1 moves ∧
      (s.board.Minted → (∀ runId ∈ tickRetries w s, ∀ t,
        s.board.run runId = some (t, .failed) → s.board.task t ≠ some .cancelled) →
        s.board.Along Harmless moves) := by
  obtain ⟨moves₁, htrace₁, hharmless₁⟩ :=
    retryTransient_trace w s hk ⟨0, 0, 0, 0, []⟩ (tickRetries w s)
  unfold workTick
  dsimp only
  generalize retryTransient w s ⟨0, 0, 0, 0, []⟩ (tickRetries w s) = retried at htrace₁ ⊢
  have hk₁ := htrace₁.keyed hk
  have hassign : ∃ moves, ∀ assigned, (if s.primeAutonomyConfig.autoAssignUnassigned ∧
      (waitingTasks retried.1 true).length < maxTasks s then
        autoAssign (maxTasks s) "prime" retried.1 retried.2 (waitingTasks retried.1 true)
          (waitingTasks retried.1 false)
      else (retried.1, retried.2, waitingTasks retried.1 true)) = assigned →
      Trace retried.1 assigned.1 moves ∧ retried.1.board.Along Harmless moves ∧
        ∀ t ∈ assigned.2.2, retried.1.board.task t ≠ some .cancelled := by
    split
    · obtain ⟨moves, htrace, hharmless, hmem⟩ := autoAssign_trace retried.1 (maxTasks s)
        "prime" retried.2 (waitingTasks retried.1 true) (waitingTasks retried.1 false)
      refine ⟨moves, ?_⟩
      rintro assigned rfl
      refine ⟨htrace, hharmless (fun t ht => waitingTasks_live _ hk₁ ht), fun t ht => ?_⟩
      rcases hmem t ht with h | h
      · exact waitingTasks_live _ hk₁ h
      · exact waitingTasks_live _ hk₁ h
    · refine ⟨[], ?_⟩
      rintro assigned rfl
      exact ⟨Trace.refl _, trivial, fun t ht => waitingTasks_live _ hk₁ ht⟩
  obtain ⟨moves₂, hassigned⟩ := hassign
  obtain ⟨htrace₂, hharmless₂, hlive⟩ := hassigned _ rfl
  generalize (if s.primeAutonomyConfig.autoAssignUnassigned ∧
    (waitingTasks retried.1 true).length < maxTasks s then _ else _) = assigned
    at htrace₂ hlive ⊢
  obtain ⟨moves₃, hacts₃, hharmless₃⟩ := tickTasks_acts w assigned.1
    assigned.2.1 (assigned.2.2.take (maxTasks s))
  have hharmless₄ := hharmless₃ (htrace₂.keyed hk₁)
  refine ⟨moves₁ ++ (moves₂ ++ moves₃), htrace₁.trans (htrace₂.trans hacts₃.trace),
    fun hm hids => ?_⟩
  have hfirst := hharmless₁ hm (fun runId hid => by
    obtain ⟨t, hrun⟩ := tickRetries_failed w s hk hid
    exact ⟨t, hrun, hids runId hid t hrun⟩)
  rw [htrace₁.board] at hharmless₂ hlive
  rw [htrace₂.board, htrace₁.board] at hharmless₄
  refine hfirst.append (hharmless₂.append (hharmless₄ ((hm.play moves₁).play moves₂)
    (fun t ht => ?_)))
  exact hharmless₂.continues.live t (hlive t (List.mem_of_mem_take ht))

def autonomyWorks (s : KernelState) : Prop :=
  s.primeAutonomyConfig.enabled = true ∧ (s.agents.get? "prime").isSome = true

theorem oneAutonomyTick_trace (hk : s.Keyed) :
    ∃ moves, Trace s (oneAutonomyTick w s) moves ∧
      (s.board.Minted → (autonomyWorks s → ∀ runId ∈ tickRetries w s.tick, ∀ t,
        s.board.run runId = some (t, .failed) → s.board.task t ≠ some .cancelled) →
        s.board.Along Harmless moves) := by
  have hskip : ∀ summary, Trace s (skipTick s.tick s.stamp summary) [] := fun summary =>
    ⟨rfl, rfl, fun h => ⟨h.task, h.run⟩,
      fun h => recordAudit_archive (s := finishAutonomyTick s.tick s.stamp summary) h _ _ _ _ _ _⟩
  unfold oneAutonomyTick
  dsimp only
  split
  · exact ⟨[], hskip _, fun _ _ => trivial⟩
  next henabled =>
    split
    · exact ⟨[], hskip _, fun _ _ => trivial⟩
    next hprime =>
      have htick := tick_trace s
      obtain ⟨moves, htrace, hharmless⟩ := workTick_trace w s.tick (htick.keyed hk)
      have hfinish : Trace (workTick w s.tick).1 (finishAutonomyTick (workTick w s.tick).1
          s.stamp (tickSummary (workTick w s.tick).2)) [] :=
        ⟨rfl, rfl, fun h => ⟨h.task, h.run⟩, id⟩
      refine ⟨moves, (htick.trans htrace).andThen hfinish, fun hm hids => ?_⟩
      refine hharmless hm (hids ⟨not_not.mp henabled, ?_⟩)
      rw [Option.isNone_iff_eq_none] at hprime
      exact Option.isSome_iff_ne_none.mpr hprime

theorem markRunsStale_trace (hk : s.Keyed) (stale : List (RunId × Nat)) :
    ∃ moves, Trace s (markRunsStale w s stale) moves ∧
      ((∀ e ∈ stale, ∀ t, s.board.run e.1 ≠ some (t, .completed)) →
        s.board.Along Harmless moves) := by
  induction stale generalizing s with
  | nil => exact ⟨[], Trace.refl s, fun _ => trivial⟩
  | cons e rest ih =>
    obtain ⟨moves, hacts, hmoves⟩ := @markRunStale_acts w s (fun _ => True) e.1 trivial e.2
    have htrace := hacts.trace
    obtain ⟨more, hrest, hharmless⟩ := ih _ (htrace.keyed hk)
    refine ⟨moves ++ more, htrace.trans hrest, fun hrunning => ?_⟩
    have hend : s.board.Harmless (.run e.1 .failed) := by
      intro t old hr hfin
      cases old with
      | failed => rfl
      | completed => exact absurd hr (hrunning e List.mem_cons_self t)
      | _ => cases hfin
    have hfirst : s.board.Along Harmless moves := by
      rcases hmoves with rfl | ⟨t, rfl, ht⟩
      · exact ⟨hend, trivial⟩
      · refine ⟨hend, ⟨?_, by decide⟩, trivial⟩
        change s.board.task t ≠ some .cancelled
        rw [ht]
        exact nofun
    have hruns : (s.board.play moves).run = (s.board.setRun e.1 .failed).run := by
      rcases hmoves with rfl | ⟨t, rfl, -⟩ <;> rfl
    rw [htrace.board] at hharmless
    refine hfirst.append (hharmless (fun e' he' t hr => ?_))
    rw [hruns, Board.setRun_run] at hr
    split at hr
    · rw [Option.map_eq_some_iff] at hr
      obtain ⟨old, -, hr⟩ := hr
      cases hr
    · exact hrunning e' (List.mem_cons_of_mem e he') t hr

theorem recoverStaleRuns_trace (hk : s.Keyed) (nowSecs : Nat) (activeRunIds : List RunId) :
    ∃ moves, Trace s (recoverStaleRuns w s nowSecs activeRunIds) moves ∧
      s.board.Along Harmless moves := by
  unfold recoverStaleRuns
  split
  · exact ⟨[], Trace.refl s, trivial⟩
  · obtain ⟨moves, htrace, hharmless⟩ :=
      markRunsStale_trace w s hk (staleRuns s nowSecs activeRunIds)
    refine ⟨moves, htrace, hharmless (fun e he t hr => ?_)⟩
    unfold staleRuns at he
    rw [List.mem_map] at he
    obtain ⟨⟨r, run⟩, hmem, rfl⟩ := he
    rw [List.mem_filter, Bool.and_eq_true, Bool.and_eq_true, beq_iff_eq] at hmem
    have hget := HashMap.mem_entries.mp hmem.1
    have hrunning : run.status = .running := hmem.2.1.1
    simp only [KernelState.board, hget, Option.map_some, hrunning] at hr
    cases hr

end Relux
