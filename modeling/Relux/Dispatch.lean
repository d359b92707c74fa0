import Relux.Runs
import Relux.Tools

/-! Executing a task: on the local adapter, through a command-line adapter whose process
runs between a prepare and a finalize step, as a retry or a resume of an earlier run, and
from the autonomy tick. -/

namespace Relux

def runPlanSteps (w : World) (runId : RunId) (agentId : AgentId) (total : Nat) :
    KernelState → Nat → List TaskToolCall → List String →
      Except (KernelError × String) (List String) × KernelState
  | s, _, [], markers => (.ok markers, s)
  | s, i, step :: rest, markers =>
    let position := toString (i + 1) ++ "/" ++ toString total
    match callTool w s runId agentId step.plugin step.tool step.args with
    | (.error e, s) =>
      (.error (e, "tool plan step " ++ position ++ " (" ++ step.tool ++ " via " ++ step.plugin ++
        ") did not run: " ++ e.text), s)
    | (.ok _, s) =>
      runPlanSteps w runId agentId total s (i + 1) rest
        (markers ++ [position ++ ": " ++ step.tool ++ " via " ++ step.plugin ++ " ok"])

def succeed (w : World) (s : KernelState) (runId : RunId) (taskId : TaskId)
    (summary : String) : Outcome RunId :=
  match completeRun w s runId summary with
  | (.error e, s) => (.error e, s)
  | (.ok _, s) =>
    match completeTask s taskId with
    | (.error e, s) => (.error e, s)
    | (.ok _, s) => (.ok runId, s)

def failBoth (w : World) (s : KernelState) (runId : RunId) (taskId : TaskId)
    (reason : String) (e : KernelError) : Outcome RunId :=
  (.error e, (failTask (failRun w s runId reason).2 taskId).2)

def refuseLocal (w : World) (s : KernelState) (runId : RunId) (taskId : TaskId)
    (agentId : AgentId) : Outcome RunId :=
  let refusal := KernelError.localAdapterUnsupported taskId
  match failRunClassified w s runId refusal.text .adapterMissing with
  | (.error e, s) => (.error e, s)
  | (.ok _, s) =>
    let s := s.tick.setTask taskId (fun t => { t with status := .blocked, updatedAt := s.stamp })
    (.error refusal, runAudit s agentId "run:refuse_local_unsupported" runId .failed)

def joinTexts (sep : String) : List String → String
  | [] => ""
  | [t] => t
  | t :: ts => t ++ sep ++ joinTexts sep ts

def runLocally (w : World) (s : KernelState) (runId : RunId) (taskId : TaskId)
    (agentId : AgentId) (task : Task) : Outcome RunId :=
  match parseTaskToolPlan task.input with
  | some steps =>
    match runPlanSteps w runId agentId steps.length s 0 steps [] with
    | (.error (e, reason), s) => failBoth w s runId taskId reason e
    | (.ok markers, s) =>
      succeed w s runId taskId ("ran " ++ toString steps.length ++ " tool step(s): " ++
        joinTexts "; " markers)
  | none =>
    match parseTaskToolCall task.input with
    | some directive =>
      match callTool w s runId agentId directive.plugin directive.tool directive.args with
      | (.ok _, s) =>
        succeed w s runId taskId ("ran tool " ++ directive.tool ++ " via " ++ directive.plugin)
      | (.error e, s) =>
        failBoth w s runId taskId ("tool " ++ directive.tool ++ " via " ++ directive.plugin ++
          " did not run: " ++ e.text) e
    | none =>
      if localPrimeCannotFulfill w.unicode task.title task.input then
        refuseLocal w s runId taskId agentId
      else
        -- A failed echo returns its error and leaves the run and the task running.
        match callTool w s runId agentId "relux-tools-echo" "echo.say" task.input with
        | (.error e, s) => (.error e, s)
        | (.ok _, s) => succeed w s runId taskId "echo.say returned the input unchanged"

def executeLocalRun (w : World) (s : KernelState) (taskId : TaskId) : Outcome RunId :=
  match s.tasks.get? taskId with
  | none => (.error (.unknownTask taskId), s)
  | some task =>
    match task.assignedAgent with
    | none => (.error (.taskNotAssigned taskId), s)
    | some agentId =>
      match activeRun s taskId with
      | none => (.error (.noActiveRun taskId), s)
      | some runId =>
        if (s.agents.get? agentId).isNone then (.error (.unknownAgent agentId), s)
        else runLocally w s runId taskId agentId task

def buildAdapterArgs : AdapterKind → List String
  | .claudeCli => ["-p", "--permission-mode", "default", "--output-format", "json"]
  | .codexCli => ["exec"]
  | .command => []
  | .localPrime => []

def buildResumeAdapterArgs (kind : AdapterKind) (sessionId : String) : List String :=
  if kind = .claudeCli then
    ["-p", "--resume", sessionId, "--permission-mode", "default", "--output-format", "json"]
  else buildAdapterArgs kind

def composePrompt (w : World) (agentName : String) (persona : Option String)
    (taskTitle : String) (taskInput : Json) : String :=
  let personaLine := match persona.map trim with
    | none => ""
    | some p => if p.isEmpty then "" else p ++ "\n"
  let inputText := w.jsonPretty taskInput
  "You are " ++ agentName ++ ", an agent operating inside the Relux control plane.\n" ++
    personaLine ++ "\n" ++ "Task: " ++ taskTitle ++ "\n" ++
    (if trim inputText = "null" then "" else "Task input (JSON):\n" ++ inputText ++ "\n") ++
    "\nDo the work for this task using your available local tools. When you are done, report " ++
    "concisely what you did and any results. Do not ask for confirmation; if you cannot " ++
    "proceed, explain why."

def failCliRun (w : World) (s : KernelState) (runId : RunId) (taskId : TaskId)
    (adapter : PluginId) (reason : String) (cls : RunFailureClass) : KernelState :=
  let agent := ((s.runs.get? runId).map (·.agentId)).getD "agent"
  let s := (failTask (failRunClassified w s runId reason cls).2 taskId).2
  recordAudit s "agent" agent "adapter:execute" (some "adapter") (some adapter) .failed

def cancelCliRun (w : World) (s : KernelState) (runId : RunId) (taskId : TaskId)
    (adapter : PluginId) (reason : String) : KernelState :=
  let agent := ((s.runs.get? runId).map (·.agentId)).getD "agent"
  let s := (failTask (cancelRun w s runId reason).2 taskId).2
  recordAudit s "agent" agent "adapter:cancel" (some "adapter") (some adapter) .failed

/-- The program an adapter runs, or why it cannot be run: no enabled runtime, no command,
or a command that is not on the `PATH`. -/
def resolveAdapter (w : World) (s : KernelState) (adapter : PluginId) :
    Except KernelError (AdapterRuntimeConfig × String × String) :=
  match s.adapterRuntimeConfigs.get? adapter with
  | none => .error (.adapterRuntimeNotConfigured adapter)
  | some config =>
    if ¬ config.enabled then .error (.adapterRuntimeDisabled adapter)
    else match config.resolvedCommand with
      | none => .error (.invalidAdapterConfig adapter "no command configured")
      | some binary =>
        match w.findOnPath s.clock binary with
        | none => .error (.adapterBinaryMissing adapter binary)
        | some program => .ok (config, binary, program)

def adapterArgs (run : Run) (kind : AdapterKind) : List String :=
  match run.session with
  | some session =>
    if run.resumedFrom.isSome ∧ session.resumeSupported then
      buildResumeAdapterArgs kind session.adapterSessionId
    else buildAdapterArgs kind
  | none => buildAdapterArgs kind

def planCliRun (w : World) (s : KernelState) (runId : RunId) (taskId : TaskId)
    (adapter : PluginId) (config : AdapterRuntimeConfig) (binary program : String) :
    Outcome CliExecPlan :=
  match s.runs.get? runId with
  | none => (.error (.unknownRun runId), s)
  | some run =>
    match s.agents.get? run.agentId with
    | none => (.error (.unknownRun runId), s)
    | some agent =>
      match s.tasks.get? taskId with
      | none => (.error (.unknownTask taskId), s)
      | some task =>
        let args := adapterArgs run config.kind
        let spec : AdapterCommandSpec := ⟨program, args,
          composePrompt w agent.name agent.persona task.title task.input, config.workingDir,
          config.timeoutSeconds, config.maxOutputBytes⟩
        let message := "spawning " ++ config.kind.asStr ++ " adapter '" ++ binary ++ "' (" ++
          toString args.length ++ " arg(s))"
        (.ok ⟨runId, taskId, adapter, config.kind, binary, config.timeoutSeconds, spec⟩,
          pushRunEvent w s runId "adapter_spawn" "kernel" message)

def prepareCliRun (w : World) (s : KernelState) (taskId : TaskId) (adapter : PluginId) :
    Outcome CliExecPlan :=
  match activeRun s taskId with
  | none => (.error (.noActiveRun taskId), s)
  | some runId =>
    match resolveAdapter w s adapter with
    | .error e => (.error e, failCliRun w s runId taskId adapter e.text .adapterMissing)
    | .ok (config, binary, program) => planCliRun w s runId taskId adapter config binary program

def firstLine (text : String) : String :=
  let lines := (splitFields (· == '\n') text.toList).map trimChars
  String.ofList (((lines.find? (fun l => !l.isEmpty)).getD []).take 200)

def renderAdapterSummary (binary : String) (outcome : AdapterRunOutcome)
    (parsed : ParsedAdapterResult) : String :=
  let text := trimChars parsed.text.toList
  let head := "adapter '" ++ binary ++ "' completed (exit 0)"
  if text.isEmpty then head
  else head ++ ": " ++ String.ofList (text.take 280) ++
    (if outcome.stdoutTruncated ∨ text.length > 280 then " …" else "")

def captureCliRunLog (w : World) (s : KernelState) (plan : CliExecPlan)
    (outcome : AdapterRunOutcome) : KernelState :=
  let framed := (RunLogBuilder.new.markStreamTruncation outcome.stdoutTruncated
    outcome.stderrTruncated).pushSystem w.unicode
      ("spawned " ++ plan.kind.asStr ++ " adapter '" ++ plan.binary ++ "'")
  let filled := (framed.pushOutput w.unicode .stdout outcome.stdout.toList).pushOutput w.unicode
    .stderr outcome.stderr.toList
  let line :=
    if outcome.cancelled then
      "adapter cancelled by operator after " ++ toString outcome.durationMs ++ " ms"
    else if outcome.timedOut then
      "adapter timed out after " ++ toString outcome.durationMs ++ " ms"
    else
      "adapter exited with code " ++ ((outcome.exitCode.map toString).getD "unknown") ++ " in " ++
        toString outcome.durationMs ++ " ms"
  let log := (filled.pushSystem w.unicode line).assemble plan.runId
  { s with runLogs := s.runLogs.insert plan.runId log }

def captureSpawnErrorLog (w : World) (s : KernelState) (plan : CliExecPlan)
    (message : String) : KernelState :=
  let head := "failed to spawn " ++ plan.kind.asStr ++ " adapter '" ++ plan.binary ++ "'"
  let log := ((RunLogBuilder.new.pushSystem w.unicode head).pushSystem w.unicode
    message).assemble plan.runId
  { s with runLogs := s.runLogs.insert plan.runId log }

def envelopeClass (text : String) : RunFailureClass :=
  match classifyFailure text false with
  | .transientProvider => .transientProvider
  | .timeout => .timeout
  | .authRequired => .authRequired
  | _ => .outputValidation

def finalizeSuccess (w : World) (s : KernelState) (plan : CliExecPlan)
    (outcome : AdapterRunOutcome) : Outcome RunId :=
  let parsed := w.parseAdapterResult outcome.stdout
  let summary := renderAdapterSummary plan.binary outcome parsed
  let s := pushRunEvent w s plan.runId "adapter_output" "adapter" summary
  let s := captureCliRunLog w s plan outcome
  if parsed.isError = some true then
    let reason := "adapter '" ++ plan.binary ++ "' reported an error: " ++ firstLine parsed.text
    let s := setRunMetrics s plan.runId outcome.durationMs parsed.usage
    let s := setRunSession s plan.runId parsed.sessionId plan.kind
    let s := failCliRun w s plan.runId plan.taskId plan.adapter reason (envelopeClass parsed.text)
    (.error (.adapterExecutionFailed plan.adapter reason), s)
  else
    match completeRun w s plan.runId summary with
    | (.error e, s) => (.error e, s)
    | (.ok _, s) =>
      let s := setRunMetrics s plan.runId outcome.durationMs parsed.usage
      let s := setRunSession s plan.runId parsed.sessionId plan.kind
      match completeTask s plan.taskId with
      | (.error e, s) => (.error e, s)
      | (.ok _, s) =>
        let agent := ((s.runs.get? plan.runId).map (·.agentId)).getD "agent"
        (.ok plan.runId, recordAudit s "agent" agent "adapter:execute" (some "adapter")
          (some plan.adapter) .success)

def exitReason (plan : CliExecPlan) (outcome : AdapterRunOutcome) : String :=
  if outcome.cancelled then "adapter '" ++ plan.binary ++ "' was cancelled by operator"
  else if outcome.timedOut then
    "adapter '" ++ plan.binary ++ "' timed out after " ++ toString plan.timeoutSeconds ++ "s"
  else
    "adapter '" ++ plan.binary ++ "' exited with code " ++
      (match outcome.exitCode with
        | some c => toString c
        | none => "unknown")

def finalizeExit (w : World) (s : KernelState) (plan : CliExecPlan)
    (outcome : AdapterRunOutcome) : Outcome RunId :=
  let reason := exitReason plan outcome
  let s := pushRunEvent w s plan.runId "adapter_output" "adapter" reason
  let s := captureCliRunLog w s plan outcome
  let s := setRunMetrics s plan.runId outcome.durationMs none
  let failed := KernelError.adapterExecutionFailed plan.adapter reason
  if outcome.cancelled then
    (.error failed, cancelCliRun w s plan.runId plan.taskId plan.adapter reason)
  else
    let cls := if outcome.timedOut then .timeout else classifyFailure reason false
    (.error failed, failCliRun w s plan.runId plan.taskId plan.adapter reason cls)

/-- The process of a plan has ended, with whatever outcome, in whatever state the kernel
has reached since. -/
def finalizeCliRun (w : World) (s : KernelState) (plan : CliExecPlan)
    (outcome : Except String AdapterRunOutcome) : Outcome RunId :=
  match outcome with
  | .error e =>
    let reason := "failed to spawn adapter '" ++ plan.binary ++ "': " ++ e
    let s := captureSpawnErrorLog w s plan reason
    (.error (.adapterExecutionFailed plan.adapter reason),
      failCliRun w s plan.runId plan.taskId plan.adapter reason (classifyFailure reason false))
  | .ok outcome =>
    if outcome.success then finalizeSuccess w s plan outcome else finalizeExit w s plan outcome

def executeCliRun (w : World) (s : KernelState) (taskId : TaskId) (adapter : PluginId) :
    Outcome RunId :=
  match prepareCliRun w s taskId adapter with
  | (.error e, s) => (.error e, s)
  | (.ok plan, s) => finalizeCliRun w s plan (w.runAdapterCommand plan)

def effectiveRunAdapter (w : World) (s : KernelState) (agentId : AgentId) (taskId : TaskId) :
    EffectiveRunAdapter :=
  match s.agents.get? agentId with
  | none => ⟨localPrimeAdapterId, false, "unknown agent; local Prime"⟩
  | some agent =>
    if recognizeAdapterKind agent.adapterPlugin ≠ some .localPrime then
      ⟨agent.adapterPlugin, false, "assigned adapter"⟩
    else match s.tasks.get? taskId with
      | none => ⟨agent.adapterPlugin, false, "unknown task; local Prime"⟩
      | some task =>
        if ¬ localPrimeCannotFulfill w.unicode task.title task.input then
          ⟨agent.adapterPlugin, false, "deterministic local path"⟩
        else match w.brainRunAdapter with
          | some id => ⟨id, true, w.brainReason⟩
          | none => ⟨agent.adapterPlugin, false, w.brainReason⟩

def stampRedirect (w : World) (s : KernelState) (taskId : TaskId)
    (effective : EffectiveRunAdapter) : KernelState :=
  if ¬ effective.redirected then s
  else match activeRun s taskId with
    | none => s
    | some runId =>
      pushRunEvent w (s.setRun runId (fun r => { r with adapterPlugin := effective.adapter }))
        runId "adapter_selected" "kernel" effective.reason

def dispatchAssigned (w : World) (s : KernelState) (agentId : AgentId) (taskId : TaskId) :
    Outcome RunId :=
  let effective := effectiveRunAdapter w s agentId taskId
  let s := stampRedirect w s taskId effective
  if recognizeAdapterKind effective.adapter = some .localPrime then executeLocalRun w s taskId
  else executeCliRun w s taskId effective.adapter

def startsFresh (status : TaskStatus) : Bool := status == .created || status == .queued

def executeAssignedRun (w : World) (s : KernelState) (taskId : TaskId) : Outcome RunId :=
  match s.tasks.get? taskId with
  | none => (.error (.unknownTask taskId), s)
  | some task =>
    match task.assignedAgent with
    | none => (.error (.taskNotAssigned taskId), s)
    | some agentId =>
      if (s.agents.get? agentId).isNone then (.error (.unknownAgent agentId), s)
      else if startsFresh task.status then
        match startRun w s taskId with
        | (.error e, s) => (.error e, s)
        | (.ok _, s) => dispatchAssigned w s agentId taskId
      else dispatchAssigned w s agentId taskId

def newestRunId (s : KernelState) : Option RunId :=
  (s.runs.values.map (·.id)).foldl (fun best id =>
    match best with
    | none => some id
    | some b => if decide (b ≤ id) then some id else some b) none

/-- A retry that failed again for a transient cause gets the backoff of its own attempt. -/
def replanRetry (w : World) (s : KernelState) (runId : RunId) : KernelState :=
  match s.runs.get? runId with
  | none => s
  | some run =>
    match run.failureClass with
    | none => s
    | some cls =>
      if run.status = .failed ∧ cls.retryable then
        s.setRun runId (fun r => { r with
          retry := RunRetryState.plan cls (transientAttemptFor s runId) (w.realNowSecs s.clock) })
      else s

def linkRetry (w : World) (s : KernelState) (newRunId runId : RunId) (ok : Bool) :
    KernelState :=
  let linked := s.setRun newRunId (fun r => { r with retriedFrom := some runId })
  let logged := pushRunEvent w (replanRetry w linked newRunId) newRunId "run_retried_from"
    "kernel" ("retry of failed run " ++ runId)
  recordAudit logged "user" "founder" "run:retry" (some "run") (some newRunId)
    (if ok then .success else .failed)

def requeue (s : KernelState) (taskId : TaskId) : KernelState :=
  s.tick.setTask taskId (fun t => { t with status := .queued, updatedAt := s.stamp })

def retryRun (w : World) (s : KernelState) (runId : RunId) : Outcome RunId :=
  match s.runs.get? runId with
  | none => (.error (.unknownRun runId), s)
  | some run =>
    if run.status ≠ .failed then (.error (.runNotRetryable runId run.status.debug), s)
    else match s.tasks.get? run.taskId with
      | none => (.error (.unknownTask run.taskId), s)
      | some task =>
        if task.assignedAgent.isNone then (.error (.taskNotAssigned run.taskId), s)
        else
          let result := executeAssignedRun w (requeue s run.taskId) run.taskId
          match (newestRunId result.2).filter (· != runId) with
          | none => result
          | some newRunId => (result.1, linkRetry w result.2 newRunId runId result.1.toBool)

def resumeRun (w : World) (s : KernelState) (runId : RunId) : Outcome RunId :=
  match s.runs.get? runId with
  | none => (.error (.unknownRun runId), s)
  | some run =>
    match planResume run.session (run.status == .completed || run.status == .failed),
        run.session with
    | .notSupported reason, _ => (.error (.runResumeNotSupported runId reason), s)
    -- A supported resume carries a session.
    | .supported .., none => (.error (.runResumeNotSupported runId ""), s)
    | .supported .., some session =>
      match s.tasks.get? run.taskId with
      | none => (.error (.unknownTask run.taskId), s)
      | some task =>
        match task.assignedAgent with
        | none => (.error (.taskNotAssigned run.taskId), s)
        | some agentId =>
          match s.agents.get? agentId with
          | none => (.error (.unknownAgent agentId), s)
          | some agent =>
            match startRun w (requeue s run.taskId) run.taskId with
            | (.error e, s) => (.error e, s)
            | (.ok newRunId, s) =>
              let s := s.setRun newRunId (fun r =>
                { r with resumedFrom := some runId, session := some session })
              let s := pushRunEvent w s newRunId "run_resumed_from" "kernel"
                ("resume of run " ++ runId)
              let result := executeCliRun w s run.taskId agent.adapterPlugin
              let s := recordAudit result.2 "user" "founder" "run:resume" (some "run")
                (some newRunId) (if result.1.toBool then .success else .failed)
              (result.1.map (fun _ => newRunId), s)

structure TickResult where
  tasksRun : Nat
  tasksAssigned : Nat
  transientRetries : Nat
  actionsTaken : Nat
  skippedReasons : List String

def tickAudit (s : KernelState) (action target id : String) (result : AuditResult) :
    KernelState :=
  recordAudit s "kernel" "prime" action (some target) (some id) result

def TickResult.skip (r : TickResult) (reason : String) : TickResult :=
  { r with skippedReasons := r.skippedReasons ++ [reason] }

def retryTransient (w : World) : KernelState → TickResult → List RunId →
    KernelState × TickResult
  | s, r, [] => (s, r)
  | s, r, runId :: rest =>
    match retryRun w s runId with
    | (.ok newRunId, s) =>
      retryTransient w (tickAudit s "autonomy:transient_retry" "run" newRunId .success)
        { r with
          transientRetries := r.transientRetries + 1
          actionsTaken := r.actionsTaken + 1 } rest
    | (.error e, s) =>
      retryTransient w (tickAudit s "autonomy:transient_retry_failed" "run" runId .failed)
        (r.skip ("Transient retry of run " ++ runId ++ " failed: " ++ e.text)) rest

def waitingTasks (s : KernelState) (assigned : Bool) : List TaskId :=
  sortTexts ((s.tasks.values.filter (fun t =>
    startsFresh t.status && t.assignedAgent.isSome == assigned)).map (·.id))

def autoAssign (maxTasks : Nat) (prime : AgentId) : KernelState → TickResult → List TaskId →
    List TaskId → KernelState × TickResult × List TaskId
  | s, r, candidates, [] => (s, r, candidates)
  | s, r, candidates, taskId :: rest =>
    if maxTasks ≤ candidates.length then (s, r, candidates)
    else match assignTask s taskId prime with
      | (.ok _, s) =>
        autoAssign maxTasks prime (tickAudit s "autonomy:task_assigned" "task" taskId .success)
          { r with
            tasksAssigned := r.tasksAssigned + 1
            actionsTaken := r.actionsTaken + 1 } (candidates ++ [taskId]) rest
      | (.error e, s) =>
        autoAssign maxTasks prime
          (tickAudit s "autonomy:task_assign_failed" "task" taskId .failed)
          (r.skip ("Failed to auto-assign task " ++ taskId ++ ": " ++ e.text)) candidates rest

def tickTask (w : World) (s : KernelState) (r : TickResult) (taskId : TaskId) :
    KernelState × TickResult :=
  let fresh := match s.tasks.get? taskId with
    | some t => startsFresh t.status
    | none => false
  let execute := fun s : KernelState =>
    match executeLocalRun w s taskId with
    | (.ok runId, s) =>
      (tickAudit s "autonomy:run_completed" "run" runId .success,
        { r with tasksRun := r.tasksRun + 1, actionsTaken := r.actionsTaken + 1 })
    | (.error e, s) =>
      (tickAudit s "autonomy:run_failed" "task" taskId .failed,
        r.skip ("Failed to execute task " ++ taskId ++ ": " ++ e.text))
  if fresh then
    match startRun w s taskId with
    | (.error e, s) =>
      (tickAudit s "autonomy:run_start_failed" "task" taskId .failed,
        r.skip ("Failed to start run for task " ++ taskId ++ ": " ++ e.text))
    | (.ok _, s) => execute s
  else execute s

def tickTasks (w : World) : KernelState → TickResult → List TaskId → KernelState × TickResult
  | s, r, [] => (s, r)
  | s, r, taskId :: rest =>
    let next := tickTask w s r taskId
    tickTasks w next.1 next.2 rest

def tickSummary (r : TickResult) : String :=
  let done :=
    if r.actionsTaken = 0 then "No safe assigned work was ready for Prime autonomy."
    else toString r.tasksRun ++ " task(s) run, " ++ toString r.tasksAssigned ++ " task(s) assigned."
  if r.skippedReasons.isEmpty then done
  else done ++ " Skipped: " ++ joinTexts "; " r.skippedReasons

def finishAutonomyTick (s : KernelState) (tickAt : Stamp) (summary : String) : KernelState :=
  { s with primeAutonomyConfig := { s.primeAutonomyConfig with
      lastTickAt := some tickAt
      lastTickSummary := some summary } }

def skipTick (s : KernelState) (tickAt : Stamp) (summary : String) : KernelState :=
  recordAudit (finishAutonomyTick s tickAt summary) "kernel" "prime" "autonomy:tick_skipped"
    none none .denied

def maxTasks (s : KernelState) : Nat := max s.primeAutonomyConfig.maxTasksPerTick 1

def tickRetries (w : World) (s : KernelState) : List RunId :=
  (transientRetryReady s (w.realNowSecs s.clock)).take (maxTasks s)

def workTick (w : World) (s : KernelState) : KernelState × TickResult :=
  let limit := maxTasks s
  let retried := retryTransient w s ⟨0, 0, 0, 0, []⟩ (tickRetries w s)
  let candidates := waitingTasks retried.1 true
  let assigned :=
    if s.primeAutonomyConfig.autoAssignUnassigned ∧ candidates.length < limit then
      autoAssign limit "prime" retried.1 retried.2 candidates (waitingTasks retried.1 false)
    else (retried.1, retried.2, candidates)
  tickTasks w assigned.1 assigned.2.1 (assigned.2.2.take limit)

def oneAutonomyTick (w : World) (s : KernelState) : KernelState :=
  let config := s.primeAutonomyConfig
  let tickAt := s.stamp
  let s := s.tick
  if ¬ config.enabled then skipTick s tickAt "Autonomy is disabled."
  else if (s.agents.get? "prime").isNone then skipTick s tickAt "Prime agent not found."
  else
    let done := workTick w s
    finishAutonomyTick done.1 tickAt (tickSummary done.2)

end Relux
