import Relux.SingleActiveRun

/-! How an execution leaves the run it works on. Every exit ends it, and takes its task out of
running, but for the echo that is refused and a run or task without its agent. -/

namespace Relux

def World.Cancels (w : World) (r : RunId) : Prop :=
  ∃ plan outcome, plan.runId = r ∧ w.runAdapterCommand plan = .ok outcome ∧
    outcome.success = false ∧ outcome.cancelled = true

/-- The status of a run that is over, or waits for an approval: it is cancelled only where the
operator cancelled its process. -/
def RunStatus.Rests (w : World) (r : RunId) (status : RunStatus) : Prop :=
  status = .completed ∨ status = .failed ∨ status = .waitingForApproval ∨
    (status = .cancelled ∧ w.Cancels r)

structure KernelState.AtRest (w : World) (s : KernelState) (r : RunId) (t : TaskId) : Prop where
  run : ∃ run, s.runs.get? r = some run ∧ run.status.Rests w r
  task : ∀ task, s.tasks.get? t = some task → task.status ≠ .running

def echoAdmitted (s : KernelState) (agentId : AgentId) : Bool :=
  match resolveToolPermission s agentId "relux-tools-echo" "echo.say" with
  | .error _ => false
  | .ok required => agentHoldsPermission s agentId required &&
      (!toolNeedsApproval s "relux-tools-echo" "echo.say" ||
        (matchingPersistentGrantId s agentId "relux-tools-echo" "echo.say").isSome)

/-- The default of a local run: there is no plan and no tool call, and nothing to refuse. -/
def onlyEchoes (w : World) (task : Task) : Bool :=
  (parseTaskToolPlan task.input).isNone && (parseTaskToolCall task.input).isNone &&
    !localPrimeCannotFulfill w.unicode task.title task.input

/-- The task is there with an agent that is there, who may echo where the run only echoes. -/
def LocalReady (w : World) (s : KernelState) (t : TaskId) : Prop :=
  ∃ task agentId, s.tasks.get? t = some task ∧ task.assignedAgent = some agentId ∧
    (s.agents.get? agentId).isSome = true ∧
    (onlyEchoes w task = true → echoAdmitted s agentId = true)

def CliReady (w : World) (s : KernelState) (t : TaskId) (adapter : PluginId) : Prop :=
  adapterReady w s adapter = true → (s.tasks.get? t).isSome = true ∧
    ∀ r run, activeRun s t = some r → s.runs.get? r = some run →
      (s.agents.get? run.agentId).isSome = true

/-- The state after the start that an assigned execution makes of a task that waits for one. -/
def started (w : World) (s : KernelState) (t : TaskId) (task : Task) : KernelState :=
  if startsFresh task.status then (startRun w s t).2 else s

def assignedAdapter (w : World) (s : KernelState) (t : TaskId) (task : Task)
    (agentId : AgentId) : EffectiveRunAdapter :=
  effectiveRunAdapter w (started w s t task) agentId t

/-- The state in which an assigned execution finds its run: started, and stamped with the adapter
it is executed on. -/
def begun (w : World) (s : KernelState) (t : TaskId) : KernelState :=
  match s.tasks.get? t with
  | none => s
  | some task =>
    match task.assignedAgent with
    | none => s
    | some agentId => stampRedirect w (started w s t task) t (assignedAdapter w s t task agentId)

/-- The agent is there and may start the task, where it is to be started, and the adapter is
ready. -/
def AssignedReady (w : World) (s : KernelState) (t : TaskId) : Prop :=
  ∃ task agentId agent, s.tasks.get? t = some task ∧ task.assignedAgent = some agentId ∧
    s.agents.get? agentId = some agent ∧
    (startsFresh task.status = true → missingPermission agent task.requiredPermissions = none) ∧
    if recognizeAdapterKind (assignedAdapter w s t task agentId).adapter = some .localPrime then
      LocalReady w (begun w s t) t
    else CliReady w (begun w s t) t (assignedAdapter w s t task agentId).adapter

section
variable (w : World) {s s' : KernelState} {r : RunId} {t : TaskId} {status : RunStatus}

theorem atRest_of_trace {ended : TaskStatus}
    (hrun : s.board.run r = some (t, .running)) (hrests : status.Rests w r)
    (hended : ended ≠ .running) (h : Trace s s' [.run r status, .task t ended]) :
    s'.AtRest w r t := by
  have hboard : s'.board = (s.board.setRun r status).setTask t ended := h.board
  constructor
  · have hafter : s'.board.run r = some (t, status) := by
      rw [hboard]
      show (s.board.setRun r status).run r = _
      rw [Board.setRun_run, if_pos rfl, hrun]
      rfl
    obtain ⟨run, hget, heq⟩ := Option.map_eq_some_iff.mp hafter
    refine ⟨run, hget, ?_⟩
    have hstatus : run.status = status := congrArg Prod.snd heq
    rw [hstatus]
    exact hrests
  · intro task htask
    have hafter : s'.board.task t = some task.status := by
      show (s'.tasks.get? t).map (·.status) = _
      rw [htask]
      rfl
    rw [hboard, Board.setTask_task, if_pos rfl] at hafter
    obtain ⟨old, -, heq⟩ := Option.map_eq_some_iff.mp hafter
    rw [← heq]
    exact hended

theorem not_atRest_of_quiet (hrun : s.board.run r = some (t, .running)) (h : Trace s s' []) :
    ¬s'.AtRest w r t := by
  rintro ⟨⟨run, hget, hrests⟩, -⟩
  have hafter : s'.board.run r = some (run.taskId, run.status) := by
    show (s'.runs.get? r).map _ = _
    rw [hget]
    rfl
  rw [h.board, Board.play_nil, hrun] at hafter
  have hstatus : RunStatus.running = run.status := congrArg (fun e => e.2) (Option.some.inj hafter)
  rw [← hstatus] at hrests
  rcases hrests with h | h | h | ⟨h, -⟩ <;> cases h

theorem atRest_of_ending {moves : List BoardMove}
    (hrun : s.board.run r = some (t, .running)) (hrests : status.Rests w r)
    (h : Trace s s' moves) (hend : Board.Ending r t status moves)
    (hmissing : moves = [.run r status] → s.board.run r = none) : s'.AtRest w r t := by
  cases hend with
  | run =>
    rw [hmissing rfl] at hrun
    cases hrun
  | both he =>
    refine atRest_of_trace w hrun hrests ?_ h
    rcases he with rfl | rfl | rfl <;> decide

theorem run_of_board (h : s.board.run r = some (t, .running)) :
    ∃ run, s.runs.get? r = some run :=
  Option.isSome_iff_exists.mp (by
    have hsome : ((s.runs.get? r).map (fun run => (run.taskId, run.status))).isSome = true := by
      show (s.board.run r).isSome = true
      rw [h]
      rfl
    rwa [Option.isSome_map] at hsome)

theorem callTool_echo (agentId : AgentId) (input : Json) :
    (∃ output, (callTool w s r agentId "relux-tools-echo" "echo.say" input).1 = .ok output) ↔
      echoAdmitted s agentId = true := by
  have hruns : ∀ s : KernelState,
      executeToolRuntime w s "relux-tools-echo" "echo.say" input = .ok input := by
    intro s
    rfl
  have hgates : ((callToolAdmit w s r agentId "relux-tools-echo" "echo.say").1.toBool) =
      echoAdmitted s agentId := by
    unfold callToolAdmit echoAdmitted
    cases hresolve : resolveToolPermission s agentId "relux-tools-echo" "echo.say" with
    | error e => rfl
    | ok required =>
      simp only
      by_cases hholds : agentHoldsPermission s agentId required = true
      · rw [if_neg (not_not.mpr hholds), hholds, Bool.true_and]
        by_cases hneeds : toolNeedsApproval s "relux-tools-echo" "echo.say" = true
        · rw [if_pos hneeds, hneeds]
          cases hgrant : matchingPersistentGrantId s agentId "relux-tools-echo" "echo.say" with
          | none => rfl
          | some grantId => rfl
        · have hfree : toolNeedsApproval s "relux-tools-echo" "echo.say" = false := by
            simpa using hneeds
          rw [if_neg hneeds, hfree]
          rfl
      · have hlacks : agentHoldsPermission s agentId required = false := by simpa using hholds
        rw [if_pos hholds, hlacks]
        rfl
  rw [← hgates, callTool]
  rcases hadmit : callToolAdmit w s r agentId "relux-tools-echo" "echo.say" with ⟨result, s₁⟩
  cases result with
  | error e =>
    constructor
    · rintro ⟨output, h⟩
      cases h
    · intro h
      cases h
  | ok required =>
    simp only [hruns]
    exact ⟨fun _ => rfl, fun _ => ⟨input, rfl⟩⟩

theorem runLocally_rests (hrun : s.board.run r = some (t, .running)) (agentId : AgentId)
    (task : Task) :
    (runLocally w s r t agentId task).2.AtRest w r t ↔
      (onlyEchoes w task = true → echoAdmitted s agentId = true) := by
  have hcompleted : RunStatus.Rests w r .completed := .inl rfl
  have hfailed : RunStatus.Rests w r .failed := .inr (.inl rfl)
  -- A call before the end is not seen on the board.
  have hsucceeds : ∀ {s₁ : KernelState} (summary : String), Trace s s₁ [] →
      (succeed w s₁ r t summary).2.AtRest w r t := by
    intro s₁ summary h
    have hrun' : s₁.board.run r = some (t, .running) := by
      rw [h.board]
      exact hrun
    obtain ⟨moves, hacts, hend, hmissing⟩ := @succeed_acts w s₁ (fun _ => True) r trivial t summary
    exact atRest_of_ending w hrun' hcompleted hacts.trace hend hmissing
  have hfails : ∀ {s₁ : KernelState} (reason : String) (e : KernelError), Trace s s₁ [] →
      (failBoth w s₁ r t reason e).2.AtRest w r t := by
    intro s₁ reason e h
    have hrun' : s₁.board.run r = some (t, .running) := by
      rw [h.board]
      exact hrun
    exact atRest_of_trace w hrun' hfailed (by decide) (failBoth_acts w s₁ trivial t reason e).trace
  unfold runLocally
  cases hplan : parseTaskToolPlan task.input with
  | some steps =>
    have hechoes : onlyEchoes w task = false := by
      rw [onlyEchoes, hplan]
      rfl
    rw [hechoes]
    have hsteps := @runPlanSteps_acts w s (fun _ => True) r trivial agentId steps.length 0 steps []
    refine ⟨fun _ h => (by cases h), fun _ => ?_⟩
    simp only
    rcases hran : runPlanSteps w r agentId steps.length s 0 steps [] with ⟨result, s₁⟩
    rw [hran] at hsteps
    cases result with
    | error e => exact hfails e.2 e.1 hsteps.trace
    | ok markers => exact hsucceeds _ hsteps.trace
  | none =>
    simp only
    cases hcall : parseTaskToolCall task.input with
    | some directive =>
      have hechoes : onlyEchoes w task = false := by
        rw [onlyEchoes, hplan, hcall]
        rfl
      rw [hechoes]
      have htool := callTool_trace w s r agentId directive.plugin directive.tool directive.args
      refine ⟨fun _ h => (by cases h), fun _ => ?_⟩
      simp only
      rcases hran : callTool w s r agentId directive.plugin directive.tool directive.args with
        ⟨result, s₁⟩
      rw [hran] at htool
      cases result with
      | error e => exact hfails _ e htool
      | ok output => exact hsucceeds _ htool
    | none =>
      simp only
      by_cases hrefused : localPrimeCannotFulfill w.unicode task.title task.input = true
      · have hechoes : onlyEchoes w task = false := by
          rw [onlyEchoes, hrefused, Bool.not_true, Bool.and_false]
        rw [if_pos hrefused, hechoes]
        refine ⟨fun _ h => (by cases h), fun _ => ?_⟩
        obtain ⟨moves, hacts, hend, hmissing⟩ :=
          @refuseLocal_acts w s (fun _ => True) r trivial t agentId
        exact atRest_of_ending w hrun hfailed hacts.trace hend hmissing
      · have hallowed : localPrimeCannotFulfill w.unicode task.title task.input = false := by
          simpa using hrefused
        have hechoes : onlyEchoes w task = true := by
          rw [onlyEchoes, hplan, hcall, hallowed]
          rfl
        rw [if_neg hrefused, hechoes, ← @callTool_echo w s r agentId task.input]
        have htool := callTool_trace w s r agentId "relux-tools-echo" "echo.say" task.input
        rcases hran : callTool w s r agentId "relux-tools-echo" "echo.say" task.input with
          ⟨result, s₁⟩
        rw [hran] at htool
        cases result with
        | error e =>
          refine ⟨fun hrest => absurd hrest (not_atRest_of_quiet w hrun htool), fun h => ?_⟩
          obtain ⟨output, hok⟩ := h rfl
          cases hok
        | ok output => exact ⟨fun _ _ => ⟨output, rfl⟩, fun _ => hsucceeds _ htool⟩

theorem executeLocalRun_rests (hk : s.Keyed) (hactive : activeRun s t = some r) :
    (executeLocalRun w s t).2.AtRest w r t ↔ LocalReady w s t := by
  have hrun := activeRun_board hk hactive
  have hleft : ¬s.AtRest w r t := not_atRest_of_quiet w hrun (Trace.refl s)
  unfold executeLocalRun LocalReady
  cases htask : s.tasks.get? t with
  | none =>
    refine ⟨fun h => absurd h hleft, ?_⟩
    rintro ⟨task, agentId, h, -⟩
    cases h
  | some task =>
    simp only
    cases hassigned : task.assignedAgent with
    | none =>
      refine ⟨fun h => absurd h hleft, ?_⟩
      rintro ⟨task', agentId, h, hagent, -⟩
      cases h
      rw [hassigned] at hagent
      cases hagent
    | some agentId =>
      simp only [hactive]
      by_cases hagent : (s.agents.get? agentId).isNone = true
      · rw [if_pos hagent]
        refine ⟨fun h => absurd h hleft, ?_⟩
        rintro ⟨task', agentId', h, hmine, hsome, -⟩
        cases h
        rw [hassigned] at hmine
        cases hmine
        rw [Option.isNone_iff_eq_none.mp hagent] at hsome
        cases hsome
      · rw [if_neg hagent, runLocally_rests w hrun]
        have hsome : (s.agents.get? agentId).isSome = true := by
          rw [Option.isSome_iff_ne_none]
          intro hnone
          rw [hnone] at hagent
          exact hagent rfl
        constructor
        · intro h
          exact ⟨task, agentId, rfl, hassigned, hsome, h⟩
        · rintro ⟨task', agentId', h, hmine, -, hechoes⟩
          cases h
          rw [hassigned] at hmine
          cases hmine
          exact hechoes

theorem finalStatus_rests (plan : CliExecPlan) :
    (finalStatus w plan (w.runAdapterCommand plan)).Rests w plan.runId := by
  cases hran : w.runAdapterCommand plan with
  | error e => exact .inr (.inl rfl)
  | ok outcome =>
    simp only [finalStatus]
    split
    · split
      · exact .inr (.inl rfl)
      · exact .inl rfl
    next hsuccess =>
      split
      next hcancelled =>
        exact .inr (.inr (.inr ⟨rfl, plan, outcome, rfl, hran, by simpa using hsuccess,
          hcancelled⟩))
      · exact .inr (.inl rfl)

theorem finalizeCliRun_rests {plan : CliExecPlan}
    (hrun : s.board.run plan.runId = some (plan.taskId, .running)) :
    (finalizeCliRun w s plan (w.runAdapterCommand plan)).2.AtRest w plan.runId plan.taskId := by
  obtain ⟨moves, hacts, hend, hmissing⟩ :=
    @finalizeCliRun_acts w s (fun _ => True) plan trivial (w.runAdapterCommand plan)
  exact atRest_of_ending w hrun (finalStatus_rests w plan) hacts.trace hend hmissing

theorem executeCliRun_rests (hk : s.Keyed) (hactive : activeRun s t = some r)
    (adapter : PluginId) :
    (executeCliRun w s t adapter).2.AtRest w r t ↔ CliReady w s t adapter := by
  have hrun := activeRun_board hk hactive
  obtain ⟨run, hget⟩ := run_of_board hrun
  have hleft : ¬s.AtRest w r t := not_atRest_of_quiet w hrun (Trace.refl s)
  unfold executeCliRun prepareCliRun CliReady
  simp only [hactive]
  cases hresolve : resolveAdapter w s adapter with
  | error e =>
    have hready : adapterReady w s adapter = false := by
      rw [adapterReady, hresolve]
      rfl
    rw [hready]
    refine ⟨fun _ h => (by cases h), fun _ => ?_⟩
    exact atRest_of_trace w hrun (.inr (.inl rfl)) (by decide)
      (failCliRun_acts w s trivial _ _ _ _).trace
  | ok found =>
    obtain ⟨config, binary, program⟩ := found
    have hready : adapterReady w s adapter = true := by
      rw [adapterReady, hresolve]
      rfl
    simp only [planCliRun, hget]
    cases hagent : s.agents.get? run.agentId with
    | none =>
      refine ⟨fun h => absurd h hleft, fun h => ?_⟩
      have hsome := (h (by trivial)).2 r run rfl hget
      rw [hagent] at hsome
      cases hsome
    | some agent =>
      cases htask : s.tasks.get? t with
      | none =>
        refine ⟨fun h => absurd h hleft, fun h => ?_⟩
        have hsome := (h (by trivial)).1
        cases hsome
      | some task =>
        simp only
        have hspawn := pushRunEvent_trace w s r "adapter_spawn" "kernel" ("spawning " ++
          config.kind.asStr ++ " adapter '" ++ binary ++ "' (" ++
          toString (adapterArgs run config.kind).length ++ " arg(s))")
        refine ⟨fun _ _ => ⟨rfl, fun r' run' hr' hget' => ?_⟩, fun _ => ?_⟩
        · cases hr'
          rw [hget] at hget'
          cases hget'
          rw [hagent]
          rfl
        · refine @finalizeCliRun_rests w _ ⟨r, t, adapter, config.kind, binary,
            config.timeoutSeconds, _⟩ ?_
          rw [hspawn.board]
          exact hrun

theorem startRun_ok {task : Task} {agentId : AgentId} {agent : Agent}
    (htask : s.tasks.get? t = some task) (hassigned : task.assignedAgent = some agentId)
    (hagent : s.agents.get? agentId = some agent) :
    (startRun w s t).1.toBool = (missingPermission agent task.requiredPermissions).isNone := by
  unfold startRun
  simp only [htask, hassigned, hagent]
  cases missingPermission agent task.requiredPermissions with
  | none => rfl
  | some p => rfl

theorem startRun_keyed (hk : s.Keyed) : (startRun w s t).2.Keyed := by
  rcases startRun_trace w s t rfl with ⟨-, h⟩ | ⟨-, h⟩
  · exact h.keyed hk
  · exact h.keyed hk

theorem executeAssignedRun_rests (hk : s.Keyed) (hactive : activeRun (begun w s t) t = some r) :
    (executeAssignedRun w s t).2.AtRest w r t ↔ AssignedReady w s t := by
  unfold executeAssignedRun AssignedReady
  unfold begun at hactive ⊢
  cases htask : s.tasks.get? t with
  | none =>
    rw [htask] at hactive
    have hrun := activeRun_board hk hactive
    refine ⟨fun h => absurd h (not_atRest_of_quiet w hrun (Trace.refl s)), ?_⟩
    rintro ⟨task, agentId, agent, h, -⟩
    cases h
  | some task =>
    rw [htask] at hactive
    simp only at hactive ⊢
    cases hassigned : task.assignedAgent with
    | none =>
      rw [hassigned] at hactive
      have hrun := activeRun_board hk hactive
      refine ⟨fun h => absurd h (not_atRest_of_quiet w hrun (Trace.refl s)), ?_⟩
      rintro ⟨task', agentId, agent, h, hmine, -⟩
      cases h
      rw [hassigned] at hmine
      cases hmine
    | some agentId =>
      rw [hassigned] at hactive
      simp only at hactive ⊢
      have hstamp := @stampRedirect_acts w (started w s t task) (fun _ => True) t
        (assignedAdapter w s t task agentId) fun _ _ => trivial
      have hkeyed : (started w s t task).Keyed := by
        rw [started]
        split
        · exact startRun_keyed w hk
        · exact hk
      have hrun := activeRun_board (hstamp.keyed hkeyed) hactive
      rw [hstamp.board, Board.play_nil] at hrun
      -- Nothing has happened to the run where the execution gave up before its adapter.
      have hgone : ∀ {s₁ : KernelState}, s₁.board = (started w s t task).board →
          ¬s₁.AtRest w r t := by
        intro s₁ hboard
        rw [← hboard] at hrun
        exact not_atRest_of_quiet w hrun (Trace.refl s₁)
      have hdispatch : (dispatchAssigned w (started w s t task) agentId t).2.AtRest w r t ↔
          if recognizeAdapterKind (assignedAdapter w s t task agentId).adapter =
            some .localPrime then
            LocalReady w (stampRedirect w (started w s t task) t
              (assignedAdapter w s t task agentId)) t
          else CliReady w (stampRedirect w (started w s t task) t
            (assignedAdapter w s t task agentId)) t
              (assignedAdapter w s t task agentId).adapter := by
        unfold dispatchAssigned
        dsimp only
        rw [← assignedAdapter]
        split
        · exact executeLocalRun_rests w (hstamp.keyed hkeyed) hactive
        · exact executeCliRun_rests w (hstamp.keyed hkeyed) hactive _
      cases hagent : s.agents.get? agentId with
      | none =>
        rw [if_pos Option.isNone_none]
        have hboard : s.board = (started w s t task).board := by
          rw [started]
          split
          · have hrefused : startRun w s t = (.error (.unknownAgent agentId), s) := by
              unfold startRun
              simp only [htask, hassigned, hagent]
            rw [hrefused]
          · rfl
        refine ⟨fun h => absurd h (hgone hboard), ?_⟩
        rintro ⟨task', agentId', agent, h, hmine, hsome, -⟩
        cases h
        rw [hassigned] at hmine
        cases hmine
        rw [hagent] at hsome
        cases hsome
      | some agent =>
        have hthere : ¬(some agent).isNone = true := fun h => by cases h
        rw [if_neg hthere]
        by_cases hfresh : startsFresh task.status = true
        · rw [if_pos hfresh]
          have hstart := startRun_ok w htask hassigned hagent
          have hstarted : started w s t task = (startRun w s t).2 := by
            rw [started, if_pos hfresh]
          rcases hran : startRun w s t with ⟨result, s₁⟩
          rw [hran] at hstart hstarted
          cases result with
          | error e =>
            refine ⟨fun h => absurd h (hgone (by rw [hstarted])), ?_⟩
            rintro ⟨task', agentId', agent', h, hmine, hsome, hmay, -⟩
            cases h
            rw [hassigned] at hmine
            cases hmine
            rw [hagent] at hsome
            cases hsome
            rw [hmay hfresh] at hstart
            cases hstart
          | ok runId =>
            simp only at hstarted
            rw [hstarted] at hdispatch ⊢
            rw [hdispatch]
            constructor
            · intro h
              refine ⟨task, agentId, agent, rfl, hassigned, hagent, fun _ => ?_, h⟩
              exact Option.isNone_iff_eq_none.mp hstart.symm
            · rintro ⟨task', agentId', agent', h, hmine, -, -, hready⟩
              cases h
              rw [hassigned] at hmine
              cases hmine
              exact hready
        · rw [if_neg hfresh]
          have hstarted : started w s t task = s := by
            rw [started, if_neg hfresh]
          rw [hstarted] at hdispatch ⊢
          rw [hdispatch]
          constructor
          · intro h
            exact ⟨task, agentId, agent, rfl, hassigned, hagent, fun hf => absurd hf hfresh, h⟩
          · rintro ⟨task', agentId', agent', h, hmine, -, -, hready⟩
            cases h
            rw [hassigned] at hmine
            cases hmine
            exact hready

end

/-- An execution, local or assigned, leaves the run it works on at rest and the task out of running
exactly where it is ready. -/
theorem executions_rest (w : World) (s : KernelState) (hk : s.Keyed) (t : TaskId) (r : RunId) :
    (activeRun s t = some r → ((executeLocalRun w s t).2.AtRest w r t ↔ LocalReady w s t)) ∧
    (activeRun (begun w s t) t = some r →
      ((executeAssignedRun w s t).2.AtRest w r t ↔ AssignedReady w s t)) :=
  ⟨executeLocalRun_rests w hk, executeAssignedRun_rests w hk⟩

theorem afterOpening_keyed (ops : List RunOp) : (afterOpening ops).Keyed := by
  have hstep : ∀ (p : ControlPlane) (e : World × KernelOp), p.kernel.Keyed → True →
      (p.step e).kernel.Keyed :=
    fun p e hp _ => (e.2.exec_orchestrations e.1 p hp).1
  exact Transition.invariant_run hstep KernelState.new_keyed (Transition.guarded_true _ _ _)

def refusedWork (ops : List RunOp) : KernelState :=
  afterOpening ([.createTask "clone https://example.com/repo" .null "founder" [],
    .assignTask "task_0002" "prime"] ++ ops)

theorem executions_rest_refused :
    (executeLocalRun .silent (refusedWork [.startRun "task_0002"]) "task_0002").2.AtRest .silent
      "run_0001" "task_0002" ∧
    (executeAssignedRun .silent (refusedWork []) "task_0002").2.AtRest .silent
      "run_0001" "task_0002" := by
  obtain ⟨hlocal, -⟩ := executions_rest .silent (refusedWork [.startRun "task_0002"])
    (afterOpening_keyed _) "task_0002" "run_0001"
  obtain ⟨-, hassigned⟩ := executions_rest .silent (refusedWork []) (afterOpening_keyed _)
    "task_0002" "run_0001"
  constructor
  · apply (hlocal (by decide +kernel)).mpr
    exact ⟨_, "prime", rfl, rfl, rfl, fun h => absurd h (by decide +kernel)⟩
  · apply (hassigned (by decide +kernel)).mpr
    refine ⟨_, "prime", _, rfl, rfl, rfl, fun _ => rfl, ?_⟩
    exact ⟨_, "prime", rfl, rfl, rfl, fun h => absurd h (by decide +kernel)⟩

/-- An agent who may not echo leaves the run of a plain task running, and the task with it. -/
theorem refused_echo_dangles :
    (activeRun (afterOpening [.startRun "task_0001"]) "task_0001" = some "run_0001" ∧
      ¬(executeLocalRun .silent (afterOpening [.startRun "task_0001"]) "task_0001").2.AtRest
        .silent "run_0001" "task_0001") ∧
    activeRun (begun .silent (afterOpening []) "task_0001") "task_0001" = some "run_0001" ∧
    ((executeAssignedRun .silent (afterOpening []) "task_0001").2.runs.get? "run_0001").map
      (·.status) = some .running ∧
    ((executeAssignedRun .silent (afterOpening []) "task_0001").2.tasks.get? "task_0001").map
      (·.status) = some .running ∧
    ¬(executeAssignedRun .silent (afterOpening []) "task_0001").2.AtRest .silent
      "run_0001" "task_0001" := by
  have hleft : ∀ s : KernelState, (s.tasks.get? "task_0001").map (·.status) = some .running →
      ¬s.AtRest .silent "run_0001" "task_0001" := by
    intro s hstatus hrest
    obtain ⟨task, hget, hrunning⟩ := Option.map_eq_some_iff.mp hstatus
    exact hrest.task task hget hrunning
  have htask : ((executeAssignedRun .silent (afterOpening []) "task_0001").2.tasks.get?
      "task_0001").map (·.status) = some .running := by decide +kernel
  exact ⟨⟨by decide +kernel, hleft _ (by decide +kernel)⟩, by decide +kernel, by decide +kernel,
    htask, hleft _ htask⟩

end Relux
