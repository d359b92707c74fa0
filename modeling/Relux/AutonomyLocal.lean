import Relux.SingleActiveRun
import Relux.TickDispatch

/-! An autonomy tick and the local adapter. The second pass runs on it by construction; the
first does where the retried tasks resolve to it, and each pass has the whole per-tick limit
to itself. -/

namespace Relux

open Transition (Guarded)

def retriedTasks (w : World) (s : KernelState) : List TaskId :=
  (tickRetries w s).filterMap (retryTarget s)

def startedRetries (w : World) (s : KernelState) : Nat := (tickRetries w s).countP (retryStarts s)

/-- The tasks the second pass may take: a retried one waits where its start is refused, any
other where it waited before. -/
def tickWaiting (w : World) (s : KernelState) : List TaskId :=
  (s.tasks.values.filter (fun t =>
    (t.assignedAgent.isSome || s.primeAutonomyConfig.autoAssignUnassigned) &&
      if (retriedTasks w s).contains t.id then !startable s t.id
      else startsFresh t.status)).map (·.id)

def onLocalPrime (w : World) (s : KernelState) (taskId : TaskId) : Prop :=
  ∀ agentId, (s.brief taskId).bind (·.assignedAgent) = some agentId →
    recognizeAdapterKind (effectiveRunAdapter w s agentId taskId).adapter = some .localPrime

/-- Every retry that starts resolves to the local adapter, and the retries that start leave
room for the tasks that wait. -/
def TickStaysLocal (w : World) (s : KernelState) : Prop :=
  (∀ runId ∈ tickRetries w s.tick, ∀ t, retryTarget s.tick runId = some t →
    startable s.tick t = true → onLocalPrime w s.tick t) ∧
  startedRetries w s.tick + min (maxTasks s) (tickWaiting w s.tick).length ≤
    s.primeAutonomyConfig.maxTasksPerTick

def World.withProcesses (w : World)
    (processes : CliExecPlan → Except String AdapterRunOutcome) : World :=
  { w with runAdapterCommand := processes }

/-- The tick executes nothing but local runs, at most as many as it may, and its outcome is
the same whatever the adapter processes do. -/
structure TickConfined (w : World) (s : KernelState) : Prop where
  isLocal : ∀ d ∈ tickDispatches w s, d.isLocal = true
  bounded : (tickDispatches w s).length ≤ s.primeAutonomyConfig.maxTasksPerTick
  spawnless : ∀ processes, oneAutonomyTick (w.withProcesses processes) s = oneAutonomyTick w s

variable {s : KernelState}

theorem passDispatches_bounded {ι : Type} {dispatches : KernelState → ι → List Dispatch}
    {next : KernelState → ι → KernelState} (inv : KernelState → Prop) (count : ι → Bool)
    {xs : List ι} (hnext : ∀ s, ∀ x ∈ xs, inv s → inv (next s x))
    (hlocal : ∀ s, ∀ x ∈ xs, inv s → ∀ d ∈ dispatches s x, d.isLocal = true)
    (hcount : ∀ s, ∀ x ∈ xs, inv s → (dispatches s x).length ≤ if count x then 1 else 0)
    (hs : inv s) :
    (∀ d ∈ passDispatches dispatches next s xs, d.isLocal = true) ∧
      (passDispatches dispatches next s xs).length ≤ xs.countP count := by
  induction xs generalizing s with
  | nil => exact ⟨by simp [passDispatches], by simp [passDispatches]⟩
  | cons x xs ih =>
    obtain ⟨hrest, hle⟩ := ih
      (fun s y hy => hnext s y (List.mem_cons_of_mem x hy))
      (fun s y hy => hlocal s y (List.mem_cons_of_mem x hy))
      (fun s y hy => hcount s y (List.mem_cons_of_mem x hy))
      (hnext s x List.mem_cons_self hs)
    have hfirst := hcount s x List.mem_cons_self hs
    constructor
    · intro d hd
      rcases List.mem_append.mp hd with hd | hd
      · exact hlocal s x List.mem_cons_self hs d hd
      · exact hrest d hd
    · rw [passDispatches, List.length_append, List.countP_cons]
      omega

theorem retryPass_bounded (w : World) (hk : s.Keyed) (hm : s.board.Minted)
    (hlocal : ∀ runId ∈ tickRetries w s, ∀ t, retryTarget s runId = some t →
      startable s t = true → onLocalPrime w s t) :
    (∀ d ∈ passDispatches (retryDispatches w) (afterRetry w) s (tickRetries w s),
      d.isLocal = true) ∧
    (passDispatches (retryDispatches w) (afterRetry w) s (tickRetries w s)).length ≤
      startedRetries w s := by
  have hdispatch : ∀ s', ∀ runId ∈ tickRetries w s, DuringRetries s s' →
      (∀ d ∈ retryDispatches w s' runId, d.isLocal = true) ∧
        (retryDispatches w s' runId).length ≤ if retryStarts s runId then 1 else 0 := by
    intro s' runId hmem hs
    obtain ⟨t₀, hfailed⟩ := tickRetries_failed w s hk hmem
    have htarget := hs.target hfailed
    cases ht : retryTarget s' runId with
    | none => simp [retryDispatches, ht]
    | some t =>
      rw [ht] at htarget
      obtain ⟨agentId, hbrief, hd⟩ := retryDispatches_cases w ht
      rw [hs.startable] at hd
      rw [hs.brief] at hbrief
      have hagents : dispatchOf w s' agentId t = dispatchOf w s agentId t :=
        dispatchOf_congr w agentId hs.agents (congrFun hs.brief t)
      rw [hd, hagents, retryStarts, ← htarget]
      cases hstart : startable s t with
      | false => simp [hstart]
      | true =>
        have hprime := hlocal runId hmem t htarget.symm hstart agentId hbrief
        simp [hstart, dispatchOf, hprime, Dispatch.isLocal]
  exact passDispatches_bounded (DuringRetries s) (retryStarts s)
    (fun s' runId _ hs => hs.next runId)
    (fun s' runId hmem hs => (hdispatch s' runId hmem hs).1)
    (fun s' runId hmem hs => (hdispatch s' runId hmem hs).2) (DuringRetries.refl hk hm)

variable {s₀ : KernelState}

theorem retryPass_waits (w : World) {runIds : List RunId} (hs : DuringRetries s₀ s)
    (hfailed : ∀ runId ∈ runIds, ∃ t, s₀.board.run runId = some (t, .failed)) {t : TaskId}
    {status : TaskStatus} (h : (runIds.foldl (afterRetry w) s).board.task t = some status)
    (hfresh : startsFresh status = true) :
    (t ∈ runIds.filterMap (retryTarget s₀) ∧ startable s₀ t = false) ∨
      (s.board.task t = some status ∧
        (t ∈ runIds.filterMap (retryTarget s₀) → startable s₀ t = false)) := by
  induction runIds generalizing s with
  | nil => exact .inr ⟨h, fun hn => by cases hn⟩
  | cons runId rest ih =>
    obtain ⟨t₀, hrun⟩ := hfailed runId List.mem_cons_self
    have htarget : retryTarget s runId = retryTarget s₀ runId := hs.target hrun
    have hstart := hs.startable t
    have hmem : t ∈ (runId :: rest).filterMap (retryTarget s₀) ↔
        retryTarget s₀ runId = some t ∨ t ∈ rest.filterMap (retryTarget s₀) := by
      rw [List.mem_filterMap, List.mem_filterMap]
      simp only [List.mem_cons, exists_eq_or_imp]
    rw [hmem]
    rcases ih (hs.next runId) (fun r hr => hfailed r (List.mem_cons_of_mem runId hr)) h with
      ⟨hin, hrefused⟩ | ⟨hafter, hrest⟩
    · exact .inl ⟨.inr hin, hrefused⟩
    · rcases afterRetry_waits w hs.keyed runId hafter hfresh with ⟨hr, hrefused⟩ | ⟨hb, hnot⟩
      · rw [htarget] at hr
        rw [hstart] at hrefused
        exact .inl ⟨.inl hr, hrefused⟩
      · refine .inr ⟨hb, fun hin => ?_⟩
        rcases hin with hr | hin
        · rw [htarget, hstart] at hnot
          simpa only [hr, true_and, Bool.not_eq_true] using hnot
        · exact hrest hin

theorem autoAssign_length (limit : Nat) (prime : AgentId) (s : KernelState) (r : TickResult)
    (candidates tasks : List TaskId) :
    (autoAssign limit prime s r candidates tasks).2.2.length ≤
      candidates.length + tasks.length := by
  induction tasks generalizing s r candidates with
  | nil => simp [autoAssign]
  | cons taskId rest ih =>
    simp only [autoAssign]
    split
    · simp
    · split
      next s₁ _ =>
        have h := ih (tickAudit s₁ "autonomy:task_assigned" "task" taskId .success)
          { r with
            tasksAssigned := r.tasksAssigned + 1
            actionsTaken := r.actionsTaken + 1 } (candidates ++ [taskId])
        simp only [List.length_append, List.length_cons, List.length_nil] at h ⊢
        omega
      next e s₁ _ =>
        have h := ih (tickAudit s₁ "autonomy:task_assign_failed" "task" taskId .failed)
          (r.skip ("Failed to auto-assign task " ++ taskId ++ ": " ++ e.text)) candidates
        simp only [List.length_cons] at h ⊢
        omega

theorem length_sortTexts (xs : List String) : (sortTexts xs).length = xs.length :=
  List.length_mergeSort xs

theorem countP_assigned (tasks : List Task) :
    tasks.countP (fun t => startsFresh t.status && t.assignedAgent.isSome == true) +
        tasks.countP (fun t => startsFresh t.status && t.assignedAgent.isSome == false) =
      tasks.countP (fun t => startsFresh t.status) := by
  induction tasks with
  | nil => rfl
  | cons t rest ih =>
    simp only [List.countP_cons, ← ih]
    cases startsFresh t.status <;> cases t.assignedAgent.isSome <;> simp <;> omega

theorem DuringRetries.foldl {w : World} (h : DuringRetries s₀ s)
    (runIds : List RunId) : DuringRetries s₀ (runIds.foldl (afterRetry w) s) := by
  induction runIds generalizing s with
  | nil => exact h
  | cons runId rest ih => exact ih (h.next runId)

theorem waiting_subset (w : World) (hk : s.Keyed) (hm : s.board.Minted) :
    ∀ t ∈ (((tickRetries w s).foldl (afterRetry w) s).tasks.values.filter (fun t =>
        (t.assignedAgent.isSome || s.primeAutonomyConfig.autoAssignUnassigned) &&
          startsFresh t.status)).map (·.id),
      t ∈ tickWaiting w s := by
  intro t ht
  have hafter : DuringRetries s ((tickRetries w s).foldl (afterRetry w) s) :=
    (DuringRetries.refl hk hm).foldl _
  rw [List.mem_map] at ht
  obtain ⟨task, hmem, hid⟩ := ht
  rw [List.mem_filter, HashMap.mem_values, Bool.and_eq_true] at hmem
  obtain ⟨⟨key, hget⟩, hassigned, hfresh⟩ := hmem
  have hkey : key = t := by rw [← hid, hafter.keyed.task key task hget]
  subst hkey
  have hbrief := congrFun hafter.brief key
  simp only [KernelState.brief, hget, Option.map_some] at hbrief
  obtain ⟨task₀, hget₀, hsame⟩ := Option.map_eq_some_iff.mp hbrief.symm
  have hagent : task₀.assignedAgent = task.assignedAgent := congrArg TaskBrief.assignedAgent hsame
  have hboard : ((tickRetries w s).foldl (afterRetry w) s).board.task key =
      some task.status := by
    simp only [KernelState.board, hget, Option.map_some]
  have hwaits := retryPass_waits w (.refl hk hm)
    (fun runId hr => tickRetries_failed w s hk hr) hboard hfresh
  have hid₀ : task₀.id = key := hk.task key task₀ hget₀
  rw [tickWaiting, List.mem_map]
  refine ⟨task₀, ?_, hid₀⟩
  rw [List.mem_filter, HashMap.mem_values, Bool.and_eq_true, hagent, hid₀]
  refine ⟨⟨key, hget₀⟩, hassigned, ?_⟩
  by_cases hin : key ∈ retriedTasks w s
  · have hrefused : startable s key = false := by
      rcases hwaits with ⟨-, h⟩ | ⟨-, h⟩
      · exact h
      · exact h hin
    simp [hin, hrefused]
  · rcases hwaits with ⟨h, -⟩ | ⟨h, -⟩
    · exact absurd h hin
    · simp only [KernelState.board, hget₀, Option.map_some, Option.some.injEq] at h
      simp [hin, h, hfresh]

theorem tickTaken_length (w : World) (hk : s.Keyed) (hm : s.board.Minted) :
    (tickTaken w s).length ≤ min (maxTasks s) (tickWaiting w s).length := by
  have hafter : DuringRetries s ((tickRetries w s).foldl (afterRetry w) s) :=
    (DuringRetries.refl hk hm).foldl _
  have hwaiting : (tickAssigned w s).2.2.length ≤ (tickWaiting w s).length := by
    have hsub := waiting_subset w hk hm
    have hnodup : ((((tickRetries w s).foldl (afterRetry w) s).tasks.values.filter (fun t =>
        (t.assignedAgent.isSome || s.primeAutonomyConfig.autoAssignUnassigned) &&
          startsFresh t.status)).map (·.id)).Nodup :=
      (HashMap.KeyedBy.values_nodup hafter.keyed.task).sublist (List.filter_sublist.map _)
    have hle := (hnodup.subperm hsub).length_le
    rw [List.length_map] at hle
    refine le_trans ?_ hle
    rw [← List.countP_eq_length_filter]
    have hstate : (retryTransient w s ⟨0, 0, 0, 0, []⟩ (tickRetries w s)).1 =
        (tickRetries w s).foldl (afterRetry w) s := retryTransient_fst w s _ _
    have hlength : ∀ assigned, (waitingTasks ((tickRetries w s).foldl (afterRetry w) s)
        assigned).length = ((tickRetries w s).foldl (afterRetry w) s).tasks.values.countP
          (fun t => startsFresh t.status && t.assignedAgent.isSome == assigned) := by
      intro assigned
      rw [waitingTasks, length_sortTexts, List.length_map, List.countP_eq_length_filter]
    unfold tickAssigned
    dsimp only
    rw [hstate]
    split
    next hauto =>
      have h := autoAssign_length (maxTasks s) "prime"
        ((tickRetries w s).foldl (afterRetry w) s)
        (retryTransient w s ⟨0, 0, 0, 0, []⟩ (tickRetries w s)).2
        (waitingTasks ((tickRetries w s).foldl (afterRetry w) s) true)
        (waitingTasks ((tickRetries w s).foldl (afterRetry w) s) false)
      rw [hlength, hlength, countP_assigned] at h
      simpa [hauto.1] using h
    · rw [hlength]
      refine List.countP_mono_left fun t _ ht => ?_
      simp only [Bool.and_eq_true, beq_iff_eq] at ht ⊢
      exact ⟨by simp [ht.2], ht.1⟩
  rw [tickTaken, List.length_take]
  omega

section Processes

variable (w : World) (processes : CliExecPlan → Except String AdapterRunOutcome)

theorem runPlanSteps_processes (runId : RunId) (agentId : AgentId) (total : Nat)
    (s : KernelState) (i : Nat) (steps : List TaskToolCall) (markers : List String) :
    runPlanSteps (w.withProcesses processes) runId agentId total s i steps markers =
      runPlanSteps w runId agentId total s i steps markers := by
  have hcall : ∀ s step, callTool (w.withProcesses processes) s runId agentId
      (TaskToolCall.plugin step) step.tool step.args =
        callTool w s runId agentId step.plugin step.tool step.args := fun _ _ => rfl
  induction steps generalizing s i markers with
  | nil => rfl
  | cons step rest ih => simp only [runPlanSteps, hcall, ih]

theorem executeLocalRun_processes (s : KernelState) (taskId : TaskId) :
    executeLocalRun (w.withProcesses processes) s taskId = executeLocalRun w s taskId := by
  have hlocal : ∀ s runId agentId task, runLocally (w.withProcesses processes) s runId taskId
      agentId task = runLocally w s runId taskId agentId task := by
    intro s runId agentId task
    unfold runLocally
    simp only [runPlanSteps_processes]
    rfl
  unfold executeLocalRun
  simp only [hlocal]

theorem dispatchAssigned_processes (s : KernelState) (agentId : AgentId) (taskId : TaskId)
    (hlocal : (dispatchOf w s agentId taskId).isLocal = true) :
    dispatchAssigned (w.withProcesses processes) s agentId taskId =
      dispatchAssigned w s agentId taskId := by
  have hof : dispatchOf (w.withProcesses processes) s agentId taskId =
      dispatchOf w s agentId taskId := rfl
  rw [dispatchAssigned_exec, dispatchAssigned_exec, hof]
  cases h : dispatchOf w s agentId taskId with
  | localPrime t => exact executeLocalRun_processes w processes _ t
  | cli t adapter =>
    rw [h] at hlocal
    cases hlocal

theorem executeAssignedRun_processes (s : KernelState) (taskId : TaskId)
    (hlocal : ∀ d ∈ assignedDispatches w s taskId, d.isLocal = true) :
    executeAssignedRun (w.withProcesses processes) s taskId = executeAssignedRun w s taskId := by
  have hstart : startRun (w.withProcesses processes) s taskId = startRun w s taskId := rfl
  unfold assignedDispatches at hlocal
  unfold executeAssignedRun
  rw [hstart]
  cases htask : s.tasks.get? taskId with
  | none => rfl
  | some task =>
    rw [htask] at hlocal
    dsimp only at hlocal ⊢
    cases hagent : task.assignedAgent with
    | none => rfl
    | some agentId =>
      rw [hagent] at hlocal
      dsimp only at hlocal ⊢
      by_cases hmissing : (s.agents.get? agentId).isNone = true
      · rw [if_pos hmissing, if_pos hmissing]
      · rw [if_neg hmissing] at hlocal
        rw [if_neg hmissing, if_neg hmissing]
        by_cases hfresh : startsFresh task.status = true
        · rw [if_pos hfresh] at hlocal
          rw [if_pos hfresh, if_pos hfresh]
          cases hrun : startRun w s taskId with
          | mk result s₁ =>
            rw [hrun] at hlocal
            cases result with
            | error e => rfl
            | ok _ =>
              exact dispatchAssigned_processes w processes s₁ agentId taskId
                (hlocal _ List.mem_cons_self)
        · rw [if_neg hfresh] at hlocal
          rw [if_neg hfresh, if_neg hfresh]
          exact dispatchAssigned_processes w processes s agentId taskId
            (hlocal _ List.mem_cons_self)

theorem retryRun_processes (s : KernelState) (runId : RunId)
    (hlocal : ∀ d ∈ retryDispatches w s runId, d.isLocal = true) :
    retryRun (w.withProcesses processes) s runId = retryRun w s runId := by
  cases htarget : retryTarget s runId with
  | none =>
    obtain ⟨e, he⟩ := retryRun_refused htarget
    rw [he, he]
  | some taskId =>
    simp only [retryDispatches, htarget] at hlocal
    rw [retryRun_accepted _ htarget, retryRun_accepted _ htarget,
      executeAssignedRun_processes w processes _ taskId hlocal]
    rfl

theorem retryTransient_processes (s : KernelState) (r : TickResult) (runIds : List RunId)
    (hlocal : ∀ d ∈ passDispatches (retryDispatches w) (afterRetry w) s runIds, d.isLocal = true) :
    retryTransient (w.withProcesses processes) s r runIds = retryTransient w s r runIds := by
  induction runIds generalizing s r with
  | nil => rfl
  | cons runId rest ih =>
    have hfirst := retryRun_processes w processes s runId
      (fun d hd => hlocal d (List.mem_append_left _ hd))
    have hrest := fun r => ih (afterRetry w s runId) r
      (fun d hd => hlocal d (List.mem_append_right _ hd))
    simp only [retryTransient, hfirst]
    simp only [afterRetry] at hrest
    cases hretry : retryRun w s runId with
    | mk result s₁ =>
      rw [hretry] at hrest
      cases result <;> exact hrest _

theorem tickTasks_processes (s : KernelState) (r : TickResult) (tasks : List TaskId) :
    tickTasks (w.withProcesses processes) s r tasks = tickTasks w s r tasks := by
  have hstart : ∀ s taskId, startRun (w.withProcesses processes) s taskId =
      startRun w s taskId := fun _ _ => rfl
  induction tasks generalizing s r with
  | nil => rfl
  | cons taskId rest ih =>
    simp only [tickTasks, tickTask, hstart, executeLocalRun_processes, ih]

theorem oneAutonomyTick_processes (s : KernelState)
    (hlocal : ∀ d ∈ tickDispatches w s, d.isLocal = true) :
    oneAutonomyTick (w.withProcesses processes) s = oneAutonomyTick w s := by
  have hready : ∀ s, tickRetries (w.withProcesses processes) s = tickRetries w s := fun _ => rfl
  unfold tickDispatches at hlocal
  unfold oneAutonomyTick
  dsimp only
  by_cases henabled : ¬ s.primeAutonomyConfig.enabled = true
  · rw [if_pos henabled, if_pos henabled]
  · rw [if_neg henabled] at hlocal
    by_cases hprime : (s.agents.get? "prime").isNone = true
    · have hprime' : (s.tick.agents.get? "prime").isNone = true := hprime
      rw [if_pos hprime', if_pos hprime']
    · have hprime' : ¬ (s.tick.agents.get? "prime").isNone = true := hprime
      rw [if_neg hprime] at hlocal
      have hretries := retryTransient_processes w processes s.tick ⟨0, 0, 0, 0, []⟩
        (tickRetries w s.tick) (fun d hd => hlocal d (List.mem_append_left _ hd))
      rw [if_neg hprime', if_neg hprime', workTick, workTick]
      simp only [hready, hretries, tickTasks_processes]

end Processes

theorem tick_confined (w : World) (hs : s.WellKept) (h : autonomyWorks s → TickStaysLocal w s) :
    TickConfined w s := by
  have hk : s.tick.Keyed := (tick_trace s).keyed hs.keyed
  have hm : s.tick.board.Minted := hs.minted
  have hall : (∀ d ∈ tickDispatches w s, d.isLocal = true) ∧
      (tickDispatches w s).length ≤ s.primeAutonomyConfig.maxTasksPerTick := by
    unfold tickDispatches
    split
    · simp
    next henabled =>
      split
      · simp
      next hprime =>
        rw [Option.isNone_iff_eq_none, ← ne_eq, Option.ne_none_iff_isSome] at hprime
        obtain ⟨hlocal, hroom⟩ := h ⟨not_not.mp henabled, hprime⟩
        obtain ⟨hlocal₁, hle₁⟩ := retryPass_bounded w hk hm hlocal
        have hsecond : (∀ d ∈ passDispatches (candidateDispatches w) (afterCandidate w)
            (tickAssigned w s.tick).1 (tickTaken w s.tick), d.isLocal = true) ∧
            (passDispatches (candidateDispatches w) (afterCandidate w)
              (tickAssigned w s.tick).1 (tickTaken w s.tick)).length ≤
              (tickTaken w s.tick).countP (fun _ => true) :=
          passDispatches_bounded (fun _ => True) (fun _ => true) (fun _ _ _ _ => trivial)
            (fun s' t _ _ => (candidateDispatches_le w s' t).2)
            (fun s' t _ _ => (candidateDispatches_le w s' t).1) trivial
        obtain ⟨hlocal₂, hle₂⟩ := hsecond
        have htaken := tickTaken_length w hk hm
        rw [List.countP_true] at hle₂
        have hmax : maxTasks s.tick = maxTasks s := rfl
        constructor
        · intro d hd
          rcases List.mem_append.mp hd with hd | hd
          · exact hlocal₁ d hd
          · exact hlocal₂ d hd
        · rw [workDispatches, List.length_append]
          omega
  exact ⟨hall.1, hall.2, fun processes => oneAutonomyTick_processes w processes s hall.1⟩

/-- In every run of the control plane whose ticks meet the condition, every tick stays on
the local adapter and within its limit. -/
theorem autonomy_stays_local (ops : List (World × KernelOp))
    (hguard : Guarded ControlPlane.step
      (fun p e => e.2.isAutonomyTick = true → autonomyWorks p.kernel →
        TickStaysLocal e.1 p.kernel) (ControlPlane.of KernelState.new) ops) :
    Guarded ControlPlane.step
      (fun p e => e.2.isAutonomyTick = true → TickConfined e.1 p.kernel)
      (ControlPlane.of KernelState.new) ops := by
  have hstep : ∀ (p : ControlPlane) (e : World × KernelOp), p.kernel.WellKept →
      (e.2.isAutonomyTick = true → autonomyWorks p.kernel → TickStaysLocal e.1 p.kernel) →
      (p.step e).kernel.WellKept := fun p e hp _ => e.2.exec_wellKept e.1 p hp
  have hnew : (ControlPlane.of KernelState.new).kernel.WellKept := KernelState.new_wellKept
  exact hguard.strengthen hstep (fun p e hp h htick => tick_confined e.1 hp (h htick)) hnew

def autonomyOn : KernelOp := .background (.configureAutonomy ⟨true, 1, false, none, none⟩)

def tickOp : KernelOp := .background .oneAutonomyTick

theorem tickRetries_of_no_runs (w : World) (h : s.runs = .empty) : tickRetries w s = [] := by
  have hvalues : (HashMap.empty : HashMap RunId Run).values = [] := rfl
  simp [tickRetries, transientRetryReady, sortTexts, h, hvalues]

/-- A tick over one waiting task of prime. -/
theorem autonomy_stays_local_sample :
    Guarded ControlPlane.step
      (fun p e => e.2.isAutonomyTick = true → TickConfined e.1 p.kernel)
      (ControlPlane.of KernelState.new)
      (openingOps ++ [(.silent, autonomyOn), (.silent, tickOp)]) := by
  refine autonomy_stays_local _ ⟨fun h => absurd h (by decide), fun h => absurd h (by decide),
    fun h => absurd h (by decide), fun h => absurd h (by decide),
    fun h => absurd h (by decide), fun _ _ => ?_, trivial⟩
  generalize hp : ControlPlane.step _ (World.silent, autonomyOn) = p
  have hretries : tickRetries .silent p.kernel.tick = [] :=
    tickRetries_of_no_runs _ (by rw [← hp]; rfl)
  have hwaiting : (tickWaiting .silent p.kernel.tick).length ≤ 1 := by
    refine le_trans ?_ (show p.kernel.tasks.values.length ≤ 1 by rw [← hp]; decide)
    rw [tickWaiting, List.length_map]
    exact List.length_filter_le _ _
  have hmax : p.kernel.primeAutonomyConfig.maxTasksPerTick = 1 := by rw [← hp]; rfl
  refine ⟨fun runId h => ?_, ?_⟩
  · rw [hretries] at h
    cases h
  · have hlimit : min (maxTasks p.kernel) (tickWaiting .silent p.kernel.tick).length ≤ 1 :=
      (min_le_right _ _).trans hwaiting
    rw [hmax]
    simpa only [startedRetries, hretries, List.countP_nil, Nat.zero_add] using hlimit

def timedOutExit : AdapterRunOutcome := ⟨none, false, true, false, "", "", false, false, 600000⟩

def laterWorld : World :=
  { World.silent with
    realNowSecs := fun _ => 3600
    findOnPath := fun _ _ => some "/usr/bin/codex" }

def timedOutOps : List (World × KernelOp) :=
  [ (laterWorld, .config (.registerPlugin ⟨localPrimeAdapterId, "Local Prime", "1.0.0",
      .adapter, "", "", .official, [], [], .healthy⟩)),
    (laterWorld, .config (.registerPlugin ⟨codexCliAdapterId, "Codex", "1.0.0", .adapter, "",
      "", .official, [], [], .healthy⟩)),
    (laterWorld, .config (.createAgent "prime" "Prime" localPrimeAdapterId none [])),
    (laterWorld, .config (.createAgent "coder" "Coder" codexCliAdapterId none [])),
    (laterWorld, .config (.configureAdapterRuntime codexCliAdapterId
      ⟨some true, none, none, none, none⟩)),
    (.silent, .run (.createTask "tidy up" .null "founder" [])),
    (.silent, .run (.assignTask "task_0001" "coder")),
    (.silent, .run (.startRun "task_0001")),
    (laterWorld, .run (.prepareCliRun "task_0001" codexCliAdapterId)),
    (.silent, .run (.finalizeCliRun 0 (.ok timedOutExit))),
    (.silent, autonomyOn) ]

/-- The next tick runs the adapter's process. -/
theorem autonomy_tick_spawns :
    ¬ Guarded ControlPlane.step
      (fun p e => e.2.isAutonomyTick = true → TickConfined e.1 p.kernel)
      (ControlPlane.of KernelState.new) (timedOutOps ++ [(laterWorld, tickOp)]) := by
  intro h
  obtain ⟨hconfined, -⟩ := (Guarded.append h).2
  generalize hp : Transition.run ControlPlane.step (ControlPlane.of KernelState.new)
    timedOutOps = p at hconfined
  have hready : (p.kernel.tick.runs.values.filter (fun r =>
      newestRunOf p.kernel.tick r && retryReady p.kernel.tick 3600 r)).map (·.id) =
        ["run_0001"] := by
    rw [← hp]
    decide +kernel
  have hretries : tickRetries laterWorld p.kernel.tick = ["run_0001"] := by
    have hnow : laterWorld.realNowSecs p.kernel.tick.clock = 3600 := rfl
    have hlimit : maxTasks p.kernel.tick = 1 := by
      rw [← hp]
      rfl
    rw [tickRetries, transientRetryReady, hnow, hready, hlimit, sortTexts, List.mergeSort_singleton]
    rfl
  have hfirst : retryDispatches laterWorld p.kernel.tick "run_0001" =
      [.cli "task_0001" codexCliAdapterId] := by
    rw [← hp]
    rfl
  have hmem : Dispatch.cli "task_0001" codexCliAdapterId ∈
      tickDispatches laterWorld p.kernel := by
    have henabled : p.kernel.primeAutonomyConfig.enabled = true := by
      rw [← hp]
      rfl
    have hprime : (p.kernel.agents.get? "prime").isNone = false := by
      rw [← hp]
      rfl
    simp [tickDispatches, henabled, hprime, workDispatches, hretries, passDispatches, hfirst]
  cases (hconfined rfl).isLocal _ hmem

end Relux
