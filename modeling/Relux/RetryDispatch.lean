import Relux.DispatchUpkeep

/-! Which tasks can start, and where an execution of one goes: to the local adapter, or to
the process of a command-line adapter. Both are read off the agents and the brief of the
task, which no execution changes. -/

namespace Relux

def TaskBrief.startable (agents : HashMap AgentId Agent) (b : TaskBrief) : Bool :=
  match b.assignedAgent.bind agents.get? with
  | none => false
  | some agent => (missingPermission agent b.requiredPermissions).isNone

def startable (s : KernelState) (taskId : TaskId) : Bool :=
  match s.brief taskId with
  | none => false
  | some b => b.startable s.agents

variable {s s' : KernelState} {taskId : TaskId}

theorem startable_congr (hagents : s'.agents = s.agents)
    (hbrief : s'.brief taskId = s.brief taskId) : startable s' taskId = startable s taskId := by
  simp only [startable, hbrief, hagents]

variable (w : World)

theorem startRun_result (s : KernelState) (taskId : TaskId) :
    if startable s taskId then (startRun w s taskId).1 = .ok s.board.freshRun
    else (∃ e, (startRun w s taskId).1 = .error e) ∧ (startRun w s taskId).2.runs = s.runs := by
  cases htask : s.tasks.get? taskId with
  | none => simp [startable, KernelState.brief, startRun, htask]
  | some task =>
    cases hassigned : task.assignedAgent with
    | none =>
      simp [startable, KernelState.brief, TaskBrief.startable, Task.brief, startRun, htask,
        hassigned]
    | some agentId =>
      cases hagent : s.agents.get? agentId with
      | none =>
        simp [startable, KernelState.brief, TaskBrief.startable, Task.brief, startRun, htask,
          hassigned, hagent]
      | some agent =>
        cases hmissing : missingPermission agent task.requiredPermissions with
        | none =>
          simp [startable, KernelState.brief, TaskBrief.startable, Task.brief, startRun, htask,
            hassigned, hagent, hmissing, Board.freshRun, KernelState.board]
        | some p =>
          simp [startable, KernelState.brief, TaskBrief.startable, Task.brief, startRun, htask,
            hassigned, hagent, hmissing, recordAudit]

theorem startRun_of_startable (h : startable s taskId = true) :
    ∃ s', startRun w s taskId = (.ok s.board.freshRun, s') ∧
      Acts w (· = s.board.freshRun) s s' [.start taskId] := by
  have hresult := startRun_result w s taskId
  rw [if_pos h] at hresult
  have hrun : startRun w s taskId = (.ok s.board.freshRun, (startRun w s taskId).2) :=
    Prod.ext hresult rfl
  have hmine : ∀ r, (Except.ok s.board.freshRun : Except KernelError RunId) = .ok r →
      r = s.board.freshRun := fun r hr => (Except.ok.inj hr).symm
  rcases startRun_acts w s taskId hrun hmine with ⟨⟨e, he⟩, -⟩ | ⟨-, hacts⟩
  · cases he
  · exact ⟨_, hrun, hacts⟩

theorem startRun_refused (h : startable s taskId = false) :
    ∃ e s', startRun w s taskId = (.error e, s') ∧ Acts w (fun _ => False) s s' [] ∧
      s'.runs = s.runs := by
  have hresult := startRun_result w s taskId
  rw [if_neg (by simp [h])] at hresult
  obtain ⟨⟨e, he⟩, hruns⟩ := hresult
  have hrun : startRun w s taskId = (.error e, (startRun w s taskId).2) := Prod.ext he rfl
  have hnone : ∀ r, (Except.error e : Except KernelError RunId) = .ok r → False := nofun
  rcases startRun_acts w s taskId hrun hnone with ⟨-, hacts⟩ | ⟨hok, -⟩
  · exact ⟨e, _, hrun, hacts, hruns⟩
  · cases hok

inductive Dispatch where
  | localPrime (taskId : TaskId)
  | cli (taskId : TaskId) (adapter : PluginId)
  deriving DecidableEq

namespace Dispatch

def isLocal : Dispatch → Bool
  | .localPrime _ => true
  | .cli _ _ => false

def exec (w : World) (s : KernelState) : Dispatch → Outcome RunId
  | .localPrime taskId => executeLocalRun w s taskId
  | .cli taskId adapter => executeCliRun w s taskId adapter

end Dispatch

def dispatchOf (w : World) (s : KernelState) (agentId : AgentId) (taskId : TaskId) : Dispatch :=
  let effective := effectiveRunAdapter w s agentId taskId
  if recognizeAdapterKind effective.adapter = some .localPrime then .localPrime taskId
  else .cli taskId effective.adapter

theorem dispatchAssigned_exec (s : KernelState) (agentId : AgentId)
    (taskId : TaskId) : dispatchAssigned w s agentId taskId =
      (dispatchOf w s agentId taskId).exec w
        (stampRedirect w s taskId (effectiveRunAdapter w s agentId taskId)) := by
  unfold dispatchAssigned dispatchOf
  dsimp only
  split <;> rfl

theorem effectiveRunAdapter_congr (agentId : AgentId) (hagents : s'.agents = s.agents)
    (hbrief : s'.brief taskId = s.brief taskId) :
    effectiveRunAdapter w s' agentId taskId = effectiveRunAdapter w s agentId taskId := by
  simp only [KernelState.brief] at hbrief
  unfold effectiveRunAdapter
  rw [hagents]
  cases s.agents.get? agentId with
  | none => rfl
  | some agent =>
    dsimp only
    split
    · rfl
    · cases htask : s.tasks.get? taskId with
      | none =>
        rw [htask, Option.map_none, Option.map_eq_none_iff] at hbrief
        rw [hbrief]
      | some task =>
        rw [htask, Option.map_some, Option.map_eq_some_iff] at hbrief
        obtain ⟨task', htask', hb⟩ := hbrief
        simp only [Task.brief, TaskBrief.mk.injEq] at hb
        rw [htask']
        dsimp only
        rw [hb.1, hb.2.1]

theorem dispatchOf_congr (agentId : AgentId) (hagents : s'.agents = s.agents)
    (hbrief : s'.brief taskId = s.brief taskId) :
    dispatchOf w s' agentId taskId = dispatchOf w s agentId taskId := by
  simp only [dispatchOf, effectiveRunAdapter_congr w agentId hagents hbrief]

def assignedDispatches (w : World) (s : KernelState) (taskId : TaskId) : List Dispatch :=
  match s.tasks.get? taskId with
  | none => []
  | some task =>
    match task.assignedAgent with
    | none => []
    | some agentId =>
      if (s.agents.get? agentId).isNone then []
      else if startsFresh task.status then
        match startRun w s taskId with
        | (.error _, _) => []
        | (.ok _, s) => [dispatchOf w s agentId taskId]
      else [dispatchOf w s agentId taskId]

def retryTarget (s : KernelState) (runId : RunId) : Option TaskId :=
  match s.runs.get? runId with
  | none => none
  | some run =>
    if run.status ≠ .failed then none
    else match s.tasks.get? run.taskId with
      | none => none
      | some task => if task.assignedAgent.isNone then none else some run.taskId

variable {runId : RunId}

theorem retryRun_refused (h : retryTarget s runId = none) :
    ∃ e, ∀ w, retryRun w s runId = (.error e, s) := by
  unfold retryTarget at h
  unfold retryRun
  cases hrun : s.runs.get? runId with
  | none => exact ⟨_, fun _ => rfl⟩
  | some run =>
    simp only [hrun] at h ⊢
    by_cases hs : run.status ≠ .failed
    · exact ⟨_, fun w => by rw [if_pos hs]⟩
    · simp only [if_neg hs] at h ⊢
      cases htask : s.tasks.get? run.taskId with
      | none => exact ⟨_, fun _ => rfl⟩
      | some task =>
        simp only [htask] at h ⊢
        by_cases ha : task.assignedAgent.isNone
        · exact ⟨_, fun w => by rw [if_pos ha]⟩
        · rw [if_neg ha] at h
          cases h

def linkNewest (w : World) (runId : RunId) (result : Outcome RunId) : Outcome RunId :=
  match (newestRunId result.2).filter (· != runId) with
  | none => result
  | some newRunId => (result.1, linkRetry w result.2 newRunId runId result.1.toBool)

theorem retryRun_accepted (h : retryTarget s runId = some taskId) :
    retryRun w s runId = linkNewest w runId (executeAssignedRun w (requeue s taskId) taskId) := by
  unfold retryTarget at h
  unfold retryRun
  cases hrun : s.runs.get? runId with
  | none =>
    rw [hrun] at h
    cases h
  | some run =>
    simp only [hrun] at h ⊢
    by_cases hs : run.status ≠ .failed
    · rw [if_pos hs] at h
      cases h
    · rw [if_neg hs] at h ⊢
      cases htask : s.tasks.get? run.taskId with
      | none =>
        rw [htask] at h
        cases h
      | some task =>
        simp only [htask] at h ⊢
        by_cases ha : task.assignedAgent.isNone
        · rw [if_pos ha] at h
          cases h
        · rw [if_neg ha] at h ⊢
          cases h
          rfl

def retryDispatches (w : World) (s : KernelState) (runId : RunId) : List Dispatch :=
  match retryTarget s runId with
  | none => []
  | some taskId => assignedDispatches w (requeue s taskId) taskId

theorem linkRetry_tasks (s : KernelState) (newRunId runId : RunId) (ok : Bool) :
    (linkRetry w s newRunId runId ok).tasks = s.tasks := by
  have hreplan : ∀ s : KernelState, (replanRetry w s newRunId).tasks = s.tasks := by
    intro s
    unfold replanRetry
    repeat' split
    all_goals rfl
  exact hreplan _

theorem retryRun_brief (s : KernelState) (runId : RunId) :
    (retryRun w s runId).2.brief = s.brief := by
  cases htarget : retryTarget s runId with
  | none =>
    obtain ⟨e, he⟩ := retryRun_refused htarget
    rw [he]
  | some taskId =>
    have hworks := (requeue_works s taskId).trans
      (executeAssignedRun_works w (requeue s taskId) taskId)
    rw [retryRun_accepted w htarget, linkNewest, ← hworks.brief]
    split
    · rfl
    · funext t
      simp only [KernelState.brief, linkRetry_tasks]

theorem retryTarget_iff :
    retryTarget s runId = some taskId ↔ s.board.run runId = some (taskId, .failed) ∧
      ∃ agentId, (s.brief taskId).bind (·.assignedAgent) = some agentId := by
  unfold retryTarget
  simp only [KernelState.board, KernelState.brief]
  cases s.runs.get? runId with
  | none => simp
  | some run =>
    by_cases hs : run.status = .failed
    · cases htask : s.tasks.get? run.taskId with
      | none =>
        simp only [ne_eq, hs, not_true_eq_false, if_false, htask, Option.map_some,
          Option.some.injEq, Prod.mk.injEq, and_true]
        constructor
        · intro h
          cases h
        · rintro ⟨rfl, agentId, h⟩
          simp [htask] at h
      | some task =>
        cases ha : task.assignedAgent with
        | none =>
          simp only [ne_eq, hs, not_true_eq_false, if_false, htask, ha, Option.isNone_none,
            if_true, Option.map_some, Option.some.injEq, Prod.mk.injEq, and_true]
          constructor
          · intro h
            cases h
          · rintro ⟨rfl, agentId, h⟩
            simp [htask, Task.brief, ha] at h
        | some agentId =>
          simp only [ne_eq, hs, not_true_eq_false, if_false, htask, ha, Option.isNone_some,
            Bool.false_eq_true, Option.map_some, Option.some.injEq, Prod.mk.injEq, and_true]
          constructor
          · rintro rfl
            exact ⟨rfl, agentId, by simp [htask, Task.brief, ha]⟩
          · rintro ⟨h, -⟩
            exact h
    · simp [hs]

theorem retryTarget_assigned (h : retryTarget s runId = some taskId) :
    ∃ task agentId, s.tasks.get? taskId = some task ∧ task.assignedAgent = some agentId := by
  obtain ⟨-, agentId, hbrief⟩ := retryTarget_iff.mp h
  simp only [KernelState.brief, Option.bind_map, Option.bind_eq_some_iff,
    Function.comp_apply] at hbrief
  obtain ⟨task, htask, hagent⟩ := hbrief
  exact ⟨task, agentId, htask, hagent⟩

theorem executeAssignedRun_waiting {task : Task} {agentId : AgentId}
    (htask : s.tasks.get? taskId = some task) (hfresh : startsFresh task.status = true)
    (hagent : task.assignedAgent = some agentId) :
    (startable s taskId = true ∧ ∃ s₁, startRun w s taskId = (.ok s.board.freshRun, s₁) ∧
      Acts w (· = s.board.freshRun) s s₁ [.start taskId] ∧
      executeAssignedRun w s taskId = dispatchAssigned w s₁ agentId taskId ∧
      assignedDispatches w s taskId = [dispatchOf w s₁ agentId taskId]) ∨
    startable s taskId = false ∧ ∃ e s₁, executeAssignedRun w s taskId = (.error e, s₁) ∧
      Acts w (fun _ => False) s s₁ [] ∧ s₁.runs = s.runs ∧
      assignedDispatches w s taskId = [] := by
  unfold executeAssignedRun assignedDispatches
  simp only [htask, hagent, hfresh, if_true]
  by_cases hmissing : (s.agents.get? agentId).isNone = true
  · have hrefused : startable s taskId = false := by
      rw [Option.isNone_iff_eq_none] at hmissing
      simp [startable, KernelState.brief, TaskBrief.startable, Task.brief, htask, hagent, hmissing]
    rw [if_pos hmissing, if_pos hmissing]
    exact .inr ⟨hrefused, _, s, rfl, .refl s, rfl, rfl⟩
  · rw [if_neg hmissing, if_neg hmissing]
    cases hs : startable s taskId with
    | true =>
      obtain ⟨s₁, hstart, hacts⟩ := startRun_of_startable w hs
      rw [hstart]
      exact .inl ⟨rfl, s₁, rfl, hacts, rfl, rfl⟩
    | false =>
      obtain ⟨e, s₁, hstart, hacts, hruns⟩ := startRun_refused w hs
      rw [hstart]
      exact .inr ⟨rfl, e, s₁, rfl, hacts, hruns, rfl⟩

theorem requeue_waits {task : Task} (htask : s.tasks.get? taskId = some task) :
    ∃ task', (requeue s taskId).tasks.get? taskId = some task' ∧
      startsFresh task'.status = true ∧ task'.brief = task.brief := by
  refine ⟨{ task with status := .queued, updatedAt := s.stamp }, ?_, rfl, rfl⟩
  change (s.tasks.modify taskId _).get? taskId = _
  rw [HashMap.get?_modify, if_pos rfl, htask, Option.map_some]

theorem requeue_startable (s : KernelState) (taskId t : TaskId) :
    startable (requeue s taskId) t = startable s t :=
  startable_congr rfl (congrFun (requeue_works s taskId).brief t)

theorem requeued_executed {taskId : TaskId} (htarget : retryTarget s runId = some taskId) :
    (startable s taskId = true ∧ ∃ agentId s₁,
      startRun w (requeue s taskId) taskId = (.ok s.board.freshRun, s₁) ∧
      Acts w (· = s.board.freshRun) s s₁ [.task taskId .queued, .start taskId] ∧
      executeAssignedRun w (requeue s taskId) taskId = dispatchAssigned w s₁ agentId taskId) ∨
    startable s taskId = false ∧ ∃ e s₁,
      executeAssignedRun w (requeue s taskId) taskId = (.error e, s₁) ∧
      Acts w (fun _ => False) s s₁ [.task taskId .queued] ∧ s₁.runs = s.runs := by
  obtain ⟨task, agentId, htask, hagent⟩ := retryTarget_assigned htarget
  obtain ⟨task', htask', hfresh, hbrief⟩ := requeue_waits htask
  have hagent' : task'.assignedAgent = some agentId :=
    (congrArg TaskBrief.assignedAgent hbrief).trans hagent
  have hwaiting := executeAssignedRun_waiting w htask' hfresh hagent'
  rw [requeue_startable] at hwaiting
  rcases hwaiting with ⟨hstart, s₁, hs₁, hacts, hexec, -⟩ | ⟨hno, e, s₁, hexec, hacts, hruns, -⟩
  · exact .inl ⟨hstart, agentId, s₁, hs₁, (requeue_acts w s taskId).trans hacts, hexec⟩
  · exact .inr ⟨hno, e, s₁, hexec, (requeue_acts w s taskId).andThen hacts, hruns⟩

/-- The task a resume puts back in the queue, with the session and the adapter it continues
on, unless it is refused at once. -/
def resumeTarget (s : KernelState) (runId : RunId) : Option (TaskId × RunSession × PluginId) :=
  match s.runs.get? runId with
  | none => none
  | some run =>
    match planResume run.session (run.status == .completed || run.status == .failed),
        run.session with
    | .notSupported _, _ => none
    | .supported .., none => none
    | .supported .., some session =>
      match s.tasks.get? run.taskId with
      | none => none
      | some task => (task.assignedAgent.bind s.agents.get?).map
          (fun agent => (run.taskId, session, agent.adapterPlugin))

def noteResume (w : World) (s : KernelState) (runId : RunId) (session : RunSession)
    (newRunId : RunId) : KernelState :=
  pushRunEvent w (s.setRun newRunId (fun r =>
    { r with resumedFrom := some runId, session := some session })) newRunId "run_resumed_from"
    "kernel" ("resume of run " ++ runId)

def continueRun (w : World) (runId : RunId) (target : TaskId × RunSession × PluginId) :
    Outcome RunId → Outcome RunId
  | (.error e, s) => (.error e, s)
  | (.ok newRunId, s) =>
    let result := executeCliRun w (noteResume w s runId target.2.1 newRunId) target.1 target.2.2
    (result.1.map (fun _ => newRunId), recordAudit result.2 "user" "founder" "run:resume"
      (some "run") (some newRunId) (if result.1.toBool then .success else .failed))

theorem resumeRun_eq (s : KernelState) (runId : RunId) :
    (∃ e, resumeTarget s runId = none ∧ ∀ w, resumeRun w s runId = (.error e, s)) ∨
    ∃ target run, resumeTarget s runId = some target ∧ s.runs.get? runId = some run ∧
      (∃ task, s.tasks.get? target.1 = some task) ∧ ∀ w, resumeRun w s runId =
        continueRun w runId target (startRun w (requeue s target.1) target.1) := by
  unfold resumeTarget resumeRun
  cases hrun : s.runs.get? runId with
  | none => exact .inl ⟨_, rfl, fun _ => rfl⟩
  | some run =>
    dsimp only
    cases planResume run.session (run.status == .completed || run.status == .failed) with
    | notSupported reason => exact .inl ⟨_, rfl, fun _ => rfl⟩
    | supported sessionId source =>
      cases run.session with
      | none => exact .inl ⟨_, rfl, fun _ => rfl⟩
      | some session =>
        dsimp only
        cases htask : s.tasks.get? run.taskId with
        | none => exact .inl ⟨_, rfl, fun _ => rfl⟩
        | some task =>
          dsimp only
          cases task.assignedAgent with
          | none => exact .inl ⟨_, rfl, fun _ => rfl⟩
          | some agentId =>
            dsimp only [Option.bind_some]
            cases s.agents.get? agentId with
            | none => exact .inl ⟨_, rfl, fun _ => rfl⟩
            | some agent =>
              refine .inr ⟨_, run, rfl, rfl, ⟨task, htask⟩, fun w => ?_⟩
              cases startRun w (requeue s run.taskId) run.taskId with
              | mk result s₁ => cases result <;> rfl

variable {may : RunId → Prop}

theorem noteResume_writes {newRunId : RunId} {run : Run}
    (hmay : may newRunId) (hrun : s.runs.get? runId = some run) (hne : runId ≠ newRunId)
    (hnew : newRunId = runIdOf s.nextRun) (session : RunSession) :
    Writes w may s (noteResume w s runId session newRunId) := by
  refine (Writes.one (.resumed s hmay runId session fun ht => ?_)).trans
    (pushRunEvent_acts w _ hmay _ _ _).writes
  obtain ⟨start, -, -, hstamp⟩ := ht
  obtain ⟨-, n, rfl, -, hn, -⟩ := hstamp runId run hrun
  refine ⟨n, s.nextRun, rfl, hnew, lt_of_le_of_ne hn fun he => hne ?_⟩
  rw [hnew, he]

variable {target : TaskId × RunSession × PluginId}

theorem resumeRun_writes (hm : s.board.Minted) (htarget : resumeTarget s runId = some target)
    (hstart : startable s target.1 = true) (hmay : may s.board.freshRun)
    (hactive : ∀ s₁, startRun w (requeue s target.1) target.1 = (.ok s.board.freshRun, s₁) →
      ∀ r, activeRun (noteResume w s₁ runId target.2.1 s.board.freshRun) target.1 = some r →
        may r) :
    Writes w may s (resumeRun w s runId).2 ∧ s.nextRun < (resumeRun w s runId).2.nextRun ∧
      (resumeRun w s runId).2.taskOf s.board.freshRun = some target.1 := by
  rcases resumeRun_eq s runId with ⟨e, hnone, -⟩ | ⟨target', run, htarget', hrun, -, heq⟩
  · rw [hnone] at htarget
    cases htarget
  · rw [htarget] at htarget'
    cases htarget'
    rw [heq, ← requeue_startable] at *
    obtain ⟨s₁, hs₁, hacts⟩ := startRun_of_startable w hstart
    rw [hs₁]
    have hbegun : Writes w may s s₁ := (requeue_acts w s target.1).writes.trans
      (hacts.writes.mono fun r hr => hr ▸ hmay)
    have hworks := hbegun.works
    have hne : runId ≠ s.board.freshRun := by
      rintro rfl
      rw [hm.get?_fresh] at hrun
      cases hrun
    have hold : s.taskOf runId = some run.taskId := by
      simp only [KernelState.taskOf, hrun, Option.map_some]
    obtain ⟨run₁, hrun₁, -⟩ := Option.map_eq_some_iff.mp (hworks.taskOf hm runId _ hold)
    have hnext : s₁.nextRun = s.nextRun + 1 := congrArg Board.nextRun hacts.board
    have hnote := noteResume_writes w hmay hrun₁ hne (congrArg runIdOf hnext.symm) target.2.1
    obtain ⟨_, hrun, -⟩ := executeCliRun_acts w _ target.1 target.2.2 (hactive s₁ hs₁)
    have hrest : Writes w may s₁
        (continueRun w runId target (.ok s.board.freshRun, s₁)).2 :=
      (hnote.trans hrun.writes).trans (recordAudit_acts w _ _ _ _ _ _ _).writes
    have hle := hrest.nextRun_le
    rw [hnext] at hle
    have hfirst : s₁.taskOf s.board.freshRun = some target.1 := by
      rw [KernelState.taskOf_board, hacts.board]
      exact congrArg (Option.map Prod.fst) ((Board.start_run _ _ _).trans (if_pos rfl))
    exact ⟨hbegun.trans hrest, hle, hrest.works.taskOf (hbegun.works.minted hm) _ _ hfirst⟩

theorem resumeRun_refused
    (htarget : resumeTarget s runId = some target) (hno : startable s target.1 = false) :
    ∃ e s', resumeRun w s runId = (.error e, s') ∧
      Acts w (fun _ => False) s s' [.task target.1 .queued] := by
  rcases resumeRun_eq s runId with ⟨e, hnone, -⟩ | ⟨target', run, htarget', -, -, heq⟩
  · rw [hnone] at htarget
    cases htarget
  · rw [htarget] at htarget'
    cases htarget'
    rw [← requeue_startable] at hno
    obtain ⟨e, s₁, hs₁, hacts, -⟩ := startRun_refused w hno
    refine ⟨e, s₁, ?_, (requeue_acts w s target.1).andThen hacts⟩
    rw [heq, hs₁]
    rfl

theorem resumeRun_works (s : KernelState) (hm : s.board.Minted) (runId : RunId) :
    Works s (resumeRun w s runId).2 := by
  rcases resumeRun_eq s runId with ⟨e, -, heq⟩ | ⟨target, run, htarget, -⟩
  · rw [heq]
    exact .refl s
  · cases hstart : startable s target.1 with
    | true => exact (resumeRun_writes w hm htarget hstart trivial fun _ _ _ _ => trivial).1.works
    | false =>
      obtain ⟨e, s', heq, hacts⟩ := resumeRun_refused w htarget hstart
      rw [heq]
      exact hacts.writes.works

theorem resumeRun_brief (s : KernelState) (runId : RunId) :
    (resumeRun w s runId).2.brief = s.brief := by
  rcases resumeRun_eq s runId with ⟨e, -, heq⟩ | ⟨target, run, -, -, -, heq⟩
  · rw [heq]
  · have hstart := ((requeue_works s target.1).trans (startRun_works w _ target.1)).brief
    rw [heq]
    cases hresult : startRun w (requeue s target.1) target.1 with
    | mk result s₁ =>
      rw [hresult] at hstart
      cases result with
      | error e => exact hstart
      | ok newRunId =>
        obtain ⟨_, hdone, -⟩ := executeCliRun_acts w
          (noteResume w s₁ runId target.2.1 newRunId) target.1 target.2.2 fun _ _ => trivial
        exact hdone.works.brief.trans hstart

end Relux
