import Relux.Tasks

/-! Runs: starting one, the run a task is executed on, and the ways one ends. -/

namespace Relux

def missingPermission (agent : Agent) : List Permission → Option Permission
  | [] => none
  | p :: ps => if agent.permissions.any (·.authorizes p) then missingPermission agent ps else some p

def startRun (w : World) (s : KernelState) (taskId : TaskId) : Outcome RunId :=
  match s.tasks.get? taskId with
  | none => (.error (.unknownTask taskId), s)
  | some task =>
    match task.assignedAgent with
    | none => (.error (.taskNotAssigned taskId), s)
    | some agentId =>
      match s.agents.get? agentId with
      | none => (.error (.unknownAgent agentId), s)
      | some agent =>
        match missingPermission agent task.requiredPermissions with
        | some p =>
          (.error (.permissionDenied agentId p.asStr),
            recordAudit s "agent" agentId "task:start_run" (some "run") none .denied)
        | none =>
          let runId := runIdOf (s.nextRun + 1)
          let run : Run :=
            { id := runId, taskId := taskId, agentId := agentId
              adapterPlugin := agent.adapterPlugin, status := .running
              startedAt := some s.stamp, endedAt := none, summary := none, error := none
              durationMs := none, usage := none, retriedFrom := none, resumedFrom := none, session := none
              failureClass := none, retry := none
              lastActivityAt := some (w.realNowSecs (s.clock + 1)) }
          let started := { s.tick with
            nextRun := s.nextRun + 1
            runs := s.runs.insert runId run }
          let running := started.tick.setTask taskId (fun t =>
            { t with status := .running, updatedAt := started.stamp })
          let logged := pushRunEvent w running runId "run_started" "kernel"
            ("run started for task " ++ taskId ++ " on adapter " ++ agent.adapterPlugin)
          (.ok runId, recordAudit logged "agent" agentId "task:start_run" (some "run")
            (some runId) .success)

def startKey (r : Run) : Nat :=
  match r.startedAt with
  | none => 0
  | some t => t + 1

/-- The last of the runs with the greatest start, as `max_by_key` picks it. -/
def latestStarted : List Run → Option Run
  | [] => none
  | r :: rs =>
    match latestStarted rs with
    | none => some r
    | some best => if startKey best < startKey r then some r else some best

def activeRun (s : KernelState) (taskId : TaskId) : Option RunId :=
  (latestStarted (s.runs.values.filter
    (fun r => r.taskId == taskId && r.status == .running))).map (·.id)

def runAudit (s : KernelState) (agentId : AgentId) (action : String) (runId : RunId)
    (result : AuditResult) : KernelState :=
  recordAudit s "agent" agentId action (some "run") (some runId) result

def completeRun (w : World) (s : KernelState) (runId : RunId) (summary : String) :
    Outcome Unit :=
  let ticked := s.tick
  match s.runs.get? runId with
  | none => (.error (.unknownRun runId), ticked)
  | some run =>
    let s := ticked.setRun runId (fun r =>
      { r with status := .completed, endedAt := some s.stamp, summary := some summary })
    let s := pushRunEvent w s runId "run_completed" "kernel" summary
    (.ok (), runAudit s run.agentId "run:complete" runId .success)

def setRunMetrics (s : KernelState) (runId : RunId) (durationMs : Nat) (usage : Option Json) :
    KernelState :=
  s.setRun runId (fun r => { r with
    durationMs := some durationMs
    usage := if usage.isSome then usage else r.usage })

def sanitizeSessionId (raw : String) : Option String :=
  let kept := ((trimChars raw.toList).filter
    (fun c => c.isAlphanum || c == '-' || c == '_' || c == '.')).take 128
  let cleaned := kept.dropWhile (fun c => c == '-' || c == '.')
  if cleaned.isEmpty then none else some (String.ofList cleaned)

def RunSession.fromEnvelope (sessionId : Option String) (kind : AdapterKind) :
    Option RunSession :=
  (sessionId.bind sanitizeSessionId).map (fun id => ⟨id, kind.sourceLabel, kind.resumeSupported⟩)

def setRunSession (s : KernelState) (runId : RunId) (sessionId : Option String)
    (kind : AdapterKind) : KernelState :=
  match RunSession.fromEnvelope sessionId kind with
  | none => s
  | some session => s.setRun runId (fun r => { r with session := some session })

/-- The walk along `retried_from`, cut off after 64 steps. -/
def transientAttemptWalk (s : KernelState) : Nat → Nat → Option RunId → Nat
  | 0, attempt, _ => attempt
  | _ + 1, attempt, none => attempt
  | fuel + 1, attempt, some prev =>
    if attempt + 1 > 64 then attempt + 1
    else transientAttemptWalk s fuel (attempt + 1)
      ((s.runs.get? prev).bind (·.retriedFrom))

def transientAttemptFor (s : KernelState) (runId : RunId) : Nat :=
  transientAttemptWalk s 66 0 ((s.runs.get? runId).bind (·.retriedFrom))

def failRunClassified (w : World) (s : KernelState) (runId : RunId) (error : String)
    (cls : RunFailureClass) : Outcome Unit :=
  let ticked := s.tick
  let retry := RunRetryState.plan cls (transientAttemptFor s runId) (w.realNowSecs ticked.clock)
  match s.runs.get? runId with
  | none => (.error (.unknownRun runId), ticked)
  | some run =>
    let s := ticked.setRun runId (fun r =>
      { r with
        status := .failed
        endedAt := some s.stamp
        error := some error
        failureClass := some cls
        retry := retry })
    let s := pushRunEvent w s runId "run_failed" "kernel" error
    (.ok (), runAudit s run.agentId "run:fail" runId .failed)

def failRun (w : World) (s : KernelState) (runId : RunId) (error : String) : Outcome Unit :=
  failRunClassified w s runId error (classifyFailure error false)

def cancelRun (w : World) (s : KernelState) (runId : RunId) (reason : String) : Outcome Unit :=
  let ticked := s.tick
  match s.runs.get? runId with
  | none => (.error (.unknownRun runId), ticked)
  | some run =>
    let s := ticked.setRun runId (fun r =>
      { r with
        status := .cancelled
        endedAt := some s.stamp
        error := some reason
        failureClass := some .cancelled
        retry := none })
    let s := pushRunEvent w s runId "run_cancelled" "kernel" reason
    (.ok (), runAudit s run.agentId "run:cancel" runId .failed)

def parkRunning (s : KernelState) (taskId : TaskId) : KernelState :=
  match s.tasks.get? taskId with
  | none => s
  | some task =>
    if task.status = .running then
      s.tick.setTask taskId (fun t => { t with status := .blocked, updatedAt := s.stamp })
    else s

def markRunStale (w : World) (s : KernelState) (runId : RunId) (idleSecs : Nat) :
    KernelState :=
  let ticked := s.tick
  match s.runs.get? runId with
  | none => ticked
  | some run =>
    let idle := toString idleSecs
    let failed := ticked.setRun runId (fun r =>
      { r with
        status := .failed
        endedAt := some s.stamp
        error := some ("run watchdog: no activity for " ++ idle ++
          "s and no live process — recovered as stale")
        failureClass := some .stale
        retry := none })
    let logged := pushRunEvent w failed runId "run_stalled" "kernel"
      ("run recovered by the watchdog after " ++ idle ++
        "s with no activity (no live process behind it)")
    runAudit (parkRunning logged run.taskId) run.agentId "run:stale_recovered" runId .failed

def staleRuns (s : KernelState) (nowSecs : Nat) (activeRunIds : List RunId) :
    List (RunId × Nat) :=
  let config := s.runWatchdog.clamped
  (s.runs.entries.filter (fun e =>
      e.2.status == .running && !activeRunIds.contains e.1 &&
        config.isStale (e.2.lastActivityAt.getD 0) nowSecs)).map
    (fun e => (e.1, nowSecs - e.2.lastActivityAt.getD 0))

def markRunsStale (w : World) (s : KernelState) : List (RunId × Nat) → KernelState
  | [] => s
  | (runId, idleSecs) :: rest => markRunsStale w (markRunStale w s runId idleSecs) rest

def recoverStaleRuns (w : World) (s : KernelState) (nowSecs : Nat) (activeRunIds : List RunId) :
    KernelState :=
  if ¬ s.runWatchdog.enabled then s
  else markRunsStale w s (staleRuns s nowSecs activeRunIds)

def setRunWatchdogConfig (s : KernelState) (config : RunWatchdogConfig) : KernelState :=
  recordAudit { s with runWatchdog := config.clamped } "kernel" "kernel" "watchdog:configure"
    (some "config") none .success

def newestRunOf (s : KernelState) (run : Run) : Bool :=
  s.runs.values.all (fun r => r.taskId != run.taskId || decide (r.id ≤ run.id))

def retryReady (s : KernelState) (nowSecs : Nat) (run : Run) : Bool :=
  run.status == .failed && (match run.failureClass with
      | some cls => cls.retryable
      | none => false) &&
    (match run.retry with
      | some r => r.eligibleAt nowSecs
      | none => false) &&
    (match s.tasks.get? run.taskId with
      | some t => t.assignedAgent.isSome
      | none => false)

def sortTexts (xs : List String) : List String := xs.mergeSort (fun a b => decide (a ≤ b))

def transientRetryReady (s : KernelState) (nowSecs : Nat) : List RunId :=
  sortTexts ((s.runs.values.filter (fun r => newestRunOf s r && retryReady s nowSecs r)).map
    (·.id))

end Relux
