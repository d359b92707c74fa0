import Mathlib.Data.List.Basic
import Relux.Admission.Replay

/-! The task rows of the coordinator and the timeline of attempts that writing a status
opens and closes. -/

namespace Relux.Attempts

inductive RetryPolicy
  | none
  | once
  | bounded
  deriving DecidableEq

def RetryPolicy.asStr : RetryPolicy → String
  | .none => "none"
  | .once => "once"
  | .bounded => "bounded"

inductive CoordinatorError
  | db (message : String)
  | notFound (id : String)
  deriving DecidableEq

/-- The columns of `tasks` that the four operations read or write. -/
structure TaskRow where
  taskId : String
  title : String
  status : String
  ownerSubjectId : String
  flowTemplate : String
  paramsJson : String
  latestResult : Option String
  latestFlowId : Option String
  latestFlowLogPath : Option String
  errorKind : Option Int
  errorCause : Option String
  createdAt : Int
  updatedAt : Int
  retryCount : Nat
  retryPolicy : String
  maxRetries : Int
  maxRuntimeSecs : Option Int
  originSurface : Option String
  lastFailureReason : Option String
  lastFailureClass : Option String
  startedAt : Option Int
  attemptCount : Nat
  currentAttemptId : Option Nat
  investigationMarkedAt : Option Int
  investigationReason : Option String
  consecutiveSameClassCount : Nat
  deriving DecidableEq

structure AttemptRow where
  attemptId : Nat
  taskId : String
  attemptNum : Nat
  startedAt : Int
  finishedAt : Option Int
  status : String
  flowId : Option String
  flowLogPath : Option String
  traceId : Option String
  errorKind : Option Int
  errorCause : Option String
  failureClass : Option String
  deriving DecidableEq

structure EventRow where
  eventId : Nat
  taskId : String
  ts : Int
  eventType : String
  payload : String
  attemptId : Option Nat
  traceId : Option String
  payloadJson : Option String
  deriving DecidableEq

structure EdgeRow where
  taskId : String
  attemptId : Nat
  edgeType : String
  relatedTaskId : String
  relatedAttemptId : Nat
  spawnedByEventId : Option Nat
  createdAt : Int
  deriving DecidableEq

structure TaskStore where
  tasks : List TaskRow
  attempts : List AttemptRow
  events : List EventRow
  edges : List EdgeRow
  deriving DecidableEq

def TaskStore.empty : TaskStore := ⟨[], [], [], []⟩

/-- The arguments of `update_with_trace` next to the task. -/
structure Update where
  status : Option String
  result : Option String
  flowId : Option String
  flowLogPath : Option String
  errorKind : Option Int
  errorCause : Option String
  failureClass : Option String
  traceId : Option String

def jsonEscape (s : String) : String :=
  String.ofList (s.toList.flatMap (fun c =>
    if c = '"' then ['\\', '"']
    else if c = '\\' then ['\\', '\\']
    else if c = '\n' then ['\\', 'n']
    else if c = '\r' then ['\\', 'r']
    else if c = '\t' then ['\\', 't']
    else if c.toNat < 0x20 then
      ['\\', 'u', '0', '0', Admission.hexDigit (c.toNat / 16), Admission.hexDigit c.toNat]
    else [c]))

def jsonString (s : String) : String := "\"" ++ jsonEscape s ++ "\""

def jsonObject (fields : List (String × String)) : String :=
  "\x7b" ++ String.intercalate "," (fields.map (fun f => "\"" ++ f.1 ++ "\":" ++ f.2)) ++ "\x7d"

def antiThrashThreshold : Nat := 3

/-- `consecutive_same_class_count` after a failure of the class. -/
def TaskRow.sameClassCount (t : TaskRow) (newClass : String) : Nat :=
  if t.lastFailureClass = some newClass then
    min (t.consecutiveSameClassCount + 1) 9223372036854775807
  else 1

def TaskRow.autoReason (t : TaskRow) (cls : String) : String :=
  s!"auto-marked: {t.sameClassCount cls} consecutive failures with class={cls}"

/-- The columns that `update_with_trace` sets. -/
def TaskRow.updated (redact : String → String) (u : Update) (now : Int) (t : TaskRow) :
    TaskRow :=
  { t with
    updatedAt := now
    status := u.status.getD t.status
    startedAt := if u.status = some "running" then t.startedAt <|> some now else t.startedAt
    latestResult := u.result <|> t.latestResult
    latestFlowId := u.flowId <|> t.latestFlowId
    latestFlowLogPath := u.flowLogPath <|> t.latestFlowLogPath
    errorKind := u.errorKind <|> t.errorKind
    errorCause := u.errorCause.map redact <|> t.errorCause
    lastFailureReason := u.errorCause.map redact <|> t.lastFailureReason
    lastFailureClass := u.failureClass <|> t.lastFailureClass
    consecutiveSameClassCount := u.failureClass.elim t.consecutiveSameClassCount t.sameClassCount }

def AttemptRow.running (attemptId : Nat) (taskId : String) (attemptNum : Nat) (startedAt : Int)
    (traceId : Option String) : AttemptRow where
  attemptId := attemptId
  taskId := taskId
  attemptNum := attemptNum
  startedAt := startedAt
  finishedAt := none
  status := "running"
  flowId := none
  flowLogPath := none
  traceId := traceId
  errorKind := none
  errorCause := none
  failureClass := none

def AttemptRow.closedAs (newStatus : String) (u : Update) (now : Int) (a : AttemptRow) :
    AttemptRow :=
  { a with
    finishedAt := some now
    status := newStatus
    flowId := u.flowId <|> a.flowId
    flowLogPath := u.flowLogPath <|> a.flowLogPath
    errorKind := u.errorKind <|> a.errorKind
    errorCause := u.errorCause <|> a.errorCause
    failureClass := u.failureClass <|> a.failureClass }

def AttemptRow.timedOut (cause : String) (now : Int) (a : AttemptRow) : AttemptRow :=
  if a.finishedAt.isNone then { a with
    finishedAt := some now
    status := "interrupted"
    failureClass := some "timeout"
    errorCause := some cause }
  else a

def AttemptRow.orphaned (now : Int) (a : AttemptRow) : AttemptRow :=
  if a.finishedAt.isNone then { a with
    finishedAt := some now
    status := "interrupted"
    failureClass := a.failureClass <|> some "orphan"
    errorCause := a.errorCause <|>
      some "attempt left open while task reached terminal status" }
  else a

def TaskRow.interrupted (cause : String) (now : Int) (t : TaskRow) : TaskRow :=
  if t.status = "running" then { t with
    status := "interrupted"
    updatedAt := now
    lastFailureReason := some cause
    lastFailureClass := some "timeout" }
  else t

def TaskRow.retrying (newCount : Nat) (now : Int) (t : TaskRow) : TaskRow :=
  { t with
    status := "retrying"
    retryCount := newCount
    updatedAt := now
    errorKind := none
    errorCause := none }

def TaskRow.marked (reason : String) (now : Int) (t : TaskRow) : TaskRow :=
  { t with
    investigationMarkedAt := some now
    investigationReason := some reason
    updatedAt := now }

def TaskRow.started (attemptCount attemptId : Nat) (t : TaskRow) : TaskRow :=
  { t with
    attemptCount := attemptCount
    currentAttemptId := some attemptId }

def TaskRow.budget (t : TaskRow) : Int :=
  if t.retryPolicy = "once" then 1
  else if t.retryPolicy = "bounded" then max t.maxRetries 0
  else 0

inductive RetryDecision
  | accepted (newRetryCount : Nat) (budget : Int)
  | exhausted (retryCount : Nat) (budget : Int)
  | rejected (reason : String)
  deriving DecidableEq

structure Overdue where
  taskId : String
  started : Int
  max : Int
  currentAttempt : Option Nat
  retryCount : Nat
  attemptCount : Nat

def Overdue.cause (c : Overdue) (now : Int) : String :=
  s!"deadline_exceeded: started_at={c.started} max_runtime_secs={c.max} now={now}"

def terminalStatuses : List String := ["completed", "failed", "cancelled", "interrupted"]

namespace TaskStore

variable (s : TaskStore)

def task? (taskId : String) : Option TaskRow := s.tasks.find? (·.taskId == taskId)

def attempt? (attemptId : Nat) : Option AttemptRow := s.attempts.find? (·.attemptId == attemptId)

def modifyTask (taskId : String) (f : TaskRow → TaskRow) : TaskStore :=
  { s with tasks := s.tasks.map (fun t => if t.taskId = taskId then f t else t) }

def modifyAttempt (attemptId : Nat) (f : AttemptRow → AttemptRow) : TaskStore :=
  { s with attempts := s.attempts.map (fun a => if a.attemptId = attemptId then f a else a) }

def appendAttempt (a : AttemptRow) : TaskStore := { s with attempts := s.attempts ++ [a] }

def insertTypedEvent (taskId : String) (ts : Int) (eventType legacyPayload : String)
    (attemptId : Option Nat) (traceId payloadJson : Option String) : TaskStore :=
  { s with
    events := s.events ++ [{
      eventId := s.events.length + 1
      taskId := taskId
      ts := ts
      eventType := eventType
      payload := legacyPayload
      attemptId := attemptId
      traceId := traceId
      payloadJson := payloadJson }] }

def create (taskId title flowTemplate paramsJson ownerSubjectId : String)
    (retryPolicy : RetryPolicy) (maxRetries : Int) (maxRuntimeSecs : Option Int)
    (originSurface : Option String) (now : Int) : Except CoordinatorError TaskStore :=
  if (s.task? taskId).isSome then .error (.db "UNIQUE constraint failed: tasks.task_id")
  else .ok { s with
    tasks := s.tasks ++ [{
      taskId := taskId
      title := title
      status := "pending"
      ownerSubjectId := ownerSubjectId
      flowTemplate := flowTemplate
      paramsJson := paramsJson
      latestResult := none
      latestFlowId := none
      latestFlowLogPath := none
      errorKind := none
      errorCause := none
      createdAt := now
      updatedAt := now
      retryCount := 0
      retryPolicy := retryPolicy.asStr
      maxRetries := maxRetries
      maxRuntimeSecs := maxRuntimeSecs
      originSurface := originSurface
      lastFailureReason := none
      lastFailureClass := none
      startedAt := none
      attemptCount := 0
      currentAttemptId := none
      investigationMarkedAt := none
      investigationReason := none
      consecutiveSameClassCount := 0 }] }

/-- The most recent `task.retry_requested` of the task. -/
def retryTrigger (taskId : String) : Option Nat :=
  ((s.events.filter (fun e => e.taskId == taskId && e.eventType == "task.retry_requested")).map
    (·.eventId)).getLast?

/-- The new row of `open_attempt_if_needed`, the pointer to it and its event. -/
def insertAttempt (t : TaskRow) (traceId : Option String) (now : Int) : TaskStore :=
  let nextNum := t.attemptCount + 1
  let newId := s.attempts.length + 1
  let traceText := traceId.elim "" (fun tr => s!" trace_id={tr}")
  ((s.appendAttempt (.running newId t.taskId nextNum now traceId)).modifyTask t.taskId
    (·.started nextNum newId)).insertTypedEvent t.taskId now "task.attempt_started"
      (s!"attempt_id={newId} attempt_num={nextNum}" ++ traceText) (some newId) traceId
      (some (jsonObject ([("attempt_id", toString newId), ("attempt_num", toString nextNum)] ++
        traceId.toList.map (fun tr => ("trace_id", jsonString tr)))))

def openAttempt (t : TaskRow) (traceId : Option String) (now : Int) : TaskStore :=
  let opened := s.insertAttempt t traceId now
  if t.attemptCount = 0 then opened
  else { opened with
    edges := opened.edges ++ t.currentAttemptId.toList.map (fun priorId => {
      taskId := t.taskId
      attemptId := s.attempts.length + 1
      edgeType := "retried_from"
      relatedTaskId := t.taskId
      relatedAttemptId := priorId
      spawnedByEventId := opened.retryTrigger t.taskId
      createdAt := now }) }

def openAttemptIfNeeded (taskId : String) (traceId : Option String) (now : Int) :
    Except CoordinatorError TaskStore :=
  match s.task? taskId with
  | none => .error (.notFound taskId)
  | some t =>
    match t.currentAttemptId with
    | none => .ok (s.openAttempt t traceId now)
    | some aid =>
      match s.attempt? aid with
      | none => .error (.db "Query returned no rows")
      | some a => if a.finishedAt.isNone then .ok s else .ok (s.openAttempt t traceId now)

def openAttempt? (taskId : String) : Option AttemptRow :=
  match s.task? taskId with
  | none => none
  | some t =>
    match t.currentAttemptId with
    | none => none
    | some aid => (s.attempt? aid).filter (·.finishedAt.isNone)

def closeOpenAttemptIfAny (taskId newStatus : String) (u : Update) (now : Int) : TaskStore :=
  match s.openAttempt? taskId with
  | none => s
  | some current =>
    let aid := current.attemptId
    let classText := u.failureClass.elim "" (fun fc => s!" failure_class={fc}")
    (s.modifyAttempt aid (·.closedAs newStatus u now)).insertTypedEvent taskId now
        "task.attempt_finished" (s!"attempt_id={aid} status={newStatus}" ++ classText)
        (some aid) none
        (some (jsonObject ([("attempt_id", toString aid), ("status", jsonString newStatus)] ++
          u.failureClass.toList.map (fun fc => ("failure_class", jsonString fc)))))

def terminalSummaries (taskId : String) : Nat :=
  s.events.countP (fun e => e.taskId == taskId && e.eventType == "task.terminal_summary")

def emitTerminalSummary (taskId newStatus : String) (now : Int) : TaskStore :=
  if 0 < s.terminalSummaries taskId then s
  else match s.task? taskId with
  | none => s
  | some t =>
    let wall := t.startedAt.elim 0 (fun started => max (now - started) 0)
    let cls := t.lastFailureClass.getD ""
    s.insertTypedEvent taskId now "task.terminal_summary"
      (s!"{newStatus} · attempts={t.attemptCount} retries={t.retryCount} " ++
        s!"wall_clock_secs={wall} last_failure_class={cls}") none none
      (some (jsonObject [("reason", jsonString newStatus), ("attempts", toString t.attemptCount),
        ("retries", toString t.retryCount), ("wall_clock_secs", toString wall),
        ("last_failure_class", jsonString cls), ("auto_emitted_by", "\"update_task\"")]))

def markThrash (t : TaskRow) (cls : String) (now : Int) : TaskStore :=
  let count := t.sameClassCount cls
  if count < antiThrashThreshold ∨ t.investigationMarkedAt.isSome then s
  else
    let autoReason := t.autoReason cls
    ((s.modifyTask t.taskId (·.marked autoReason now)).insertTypedEvent t.taskId now "task.thrash_detected"
      s!"consecutive failures class={cls} count={count} threshold={antiThrashThreshold}" none none
      (some (jsonObject [("class", jsonString cls), ("count", toString count),
        ("threshold", toString antiThrashThreshold)]))).insertTypedEvent t.taskId now
          "task.investigation_marked" s!"auto-marked (thrash): count={count} class={cls}" none none
          (some (jsonObject [("reason", jsonString autoReason), ("auto", "true"),
            ("thrash_class", jsonString cls), ("thrash_count", toString count)]))

def updateWithTrace (redact : String → String) (taskId : String) (u : Update) (now : Int) :
    Except CoordinatorError TaskStore :=
  match s.task? taskId with
  | none =>
    .error (if u.failureClass.isSome then .db "Query returned no rows" else .notFound taskId)
  | some t =>
    let updated := s.modifyTask taskId (·.updated redact u now)
    let marked := u.failureClass.elim updated (fun cls => updated.markThrash t cls now)
    match u.status with
    | none => .ok marked
    | some status =>
      if status = "running" then marked.openAttemptIfNeeded taskId u.traceId now
      else if status = "completed" ∨ status = "failed" ∨ status = "cancelled" then
        .ok ((marked.closeOpenAttemptIfAny taskId status u now).emitTerminalSummary
          taskId status now)
      else .ok marked

def requestRetry (taskId : String) (now : Int) :
    Except CoordinatorError (RetryDecision × TaskStore) :=
  match s.task? taskId with
  | none => .error (.notFound taskId)
  | some t =>
    if t.status = "paused" ∨ t.status = "frozen" then
      .ok (.rejected (s!"task is \x60{t.status}\x60 — retry suppressed by cooperative " ++
          "interruption (clear via task.resume / task.unfreeze)"),
        s.insertTypedEvent taskId now "task.retry_suppressed"
          s!"retry suppressed: task is \x60{t.status}\x60 (cooperative interruption)" none none
          (some (jsonObject [("suppressed_by", jsonString t.status),
            ("retry_count", toString t.retryCount), ("budget", toString t.maxRetries)])))
    else if t.status ≠ "failed" ∧ t.status ≠ "interrupted" then
      .ok (.rejected s!"task is in status \x60{t.status}\x60, not failed/interrupted", s)
    else if t.retryPolicy = "none" then .ok (.rejected "retry_policy=none on this task", s)
    else if t.budget ≤ t.retryCount then
      .ok (.exhausted t.retryCount t.budget,
        s.insertTypedEvent taskId now "task.retry_exhausted"
          s!"retry_count={t.retryCount} budget={t.budget} policy={t.retryPolicy}" none none
          (some (jsonObject [("retry_count", toString t.retryCount),
            ("budget", toString t.budget), ("policy", jsonString t.retryPolicy)])))
    else
      let newCount := t.retryCount + 1
      let prior := t.lastFailureClass.getD "-"
      .ok (.accepted newCount t.budget,
        (s.modifyTask taskId (·.retrying newCount now)).insertTypedEvent taskId now "task.retry_requested"
            (s!"attempt={newCount} of_budget={t.budget} policy={t.retryPolicy} " ++
              s!"prior_class={prior}") none none
            (some (jsonObject [("attempt", toString newCount), ("of_budget", toString t.budget),
              ("policy", jsonString t.retryPolicy), ("prior_class", jsonString prior)])))

def overdue (now : Int) (t : TaskRow) : Option Overdue :=
  if t.status = "running" then do
    let max ← t.maxRuntimeSecs
    let started ← ((t.currentAttemptId.bind s.attempt?).map (·.startedAt)) <|> t.startedAt
    if started + max < now then
      some ⟨t.taskId, started, max, t.currentAttemptId, t.retryCount, t.attemptCount⟩
    else none
  else none

def markInterrupted (c : Overdue) (now : Int) : TaskStore :=
  (s.modifyTask c.taskId (·.interrupted (c.cause now) now)).insertTypedEvent c.taskId now
    "task.interrupted"
    (s!"started_at={c.started} max_runtime_secs={c.max} now={now} " ++
      "reason=deadline_exceeded") c.currentAttempt none
    (some (jsonObject [("started_at", toString c.started), ("max_runtime_secs", toString c.max),
      ("now", toString now), ("reason", "\"deadline_exceeded\"")]))

def closeInterrupted (c : Overdue) (now : Int) : TaskStore :=
  match c.currentAttempt with
  | none => s
  | some attemptId =>
    (s.modifyAttempt attemptId (·.timedOut (c.cause now) now)).insertTypedEvent c.taskId now
      "task.attempt_finished"
      s!"attempt_id={attemptId} status=interrupted failure_class=timeout" (some attemptId) none
      (some (jsonObject [("attempt_id", toString attemptId), ("status", "\"interrupted\""),
        ("failure_class", "\"timeout\"")]))

def summarizeInterrupted (c : Overdue) (now : Int) : TaskStore :=
  let wallClockSecs := max (now - c.started) 0
  s.insertTypedEvent c.taskId now "task.terminal_summary"
    (s!"interrupted by deadline · attempts={c.attemptCount} retries={c.retryCount} " ++
      s!"wall_clock_secs={wallClockSecs} last_failure_class=timeout") c.currentAttempt none
    (some (jsonObject [("reason", "\"deadline_exceeded\""), ("attempts", toString c.attemptCount),
      ("retries", toString c.retryCount), ("wall_clock_secs", toString wallClockSecs),
      ("last_failure_class", "\"timeout\""), ("auto_emitted_by", "\"recover_interrupted\"")]))

/-- One turn of the loop of `recover_interrupted`. -/
def interruptOverdue (now : Int) (c : Overdue) : TaskStore :=
  if s.tasks.any (fun t => t.taskId == c.taskId && t.status == "running") then
    ((s.markInterrupted c now).closeInterrupted c now).summarizeInterrupted c now
  else s

def orphans : List (AttemptRow × String) :=
  s.attempts.filterMap (fun a =>
    if a.finishedAt.isSome then none
    else ((s.task? a.taskId).filter (fun t => terminalStatuses.contains t.status)).map
      (fun t => (a, t.status)))

def closeOrphan (now : Int) (orphan : AttemptRow × String) : TaskStore :=
  let aid := orphan.1.attemptId
  (s.modifyAttempt aid (·.orphaned now)).insertTypedEvent orphan.1.taskId now
      "task.attempt_orphan_closed" s!"attempt_id={aid} closed_as=interrupted reason=orphan task_status={orphan.2}" (some aid)
      none (some (jsonObject [("attempt_id", toString aid), ("closed_as", "\"interrupted\""),
        ("reason", "\"orphan\""), ("task_status", jsonString orphan.2)]))

def closeOrphanAttempts (now : Int) : List Nat × TaskStore :=
  (s.orphans.map (·.1.attemptId), s.orphans.foldl (·.closeOrphan now ·) s)

def recoverInterrupted (now : Int) : List String × TaskStore :=
  let candidates := s.tasks.filterMap (s.overdue now)
  (candidates.map (·.taskId),
    ((candidates.foldl (·.interruptOverdue now ·) s).closeOrphanAttempts now).2)

end TaskStore

inductive Op
  | create (taskId title flowTemplate paramsJson ownerSubjectId : String)
      (retryPolicy : RetryPolicy) (maxRetries : Int) (maxRuntimeSecs : Option Int)
      (originSurface : Option String) (now : Int)
  | updateWithTrace (taskId : String) (u : Update) (now : Int)
  | requestRetry (taskId : String) (now : Int)
  | recoverInterrupted (now : Int)
  | closeOrphanAttempts (now : Int)

def exec (redact : String → String) (s : TaskStore) : Op → TaskStore
  | .create taskId title flowTemplate paramsJson owner policy maxRetries maxRuntimeSecs surface
      now =>
    (s.create taskId title flowTemplate paramsJson owner policy maxRetries maxRuntimeSecs surface
      now).toOption.getD s
  | .updateWithTrace taskId u now => (s.updateWithTrace redact taskId u now).toOption.getD s
  | .requestRetry taskId now => ((s.requestRetry taskId now).toOption.map (·.2)).getD s
  | .recoverInterrupted now => (s.recoverInterrupted now).2
  | .closeOrphanAttempts now => (s.closeOrphanAttempts now).2

end Relux.Attempts
