import Relux.Numbers
import Relux.Text
import Relux.HashMap
import Relux.Interleave

/-! The schedules of cron jobs: how an expression is read, and when it fires next. -/

namespace Relux.Cron

structure Civil where
  minute : Nat
  hour : Nat
  day : Nat
  month : Nat
  /-- Days since Sunday. -/
  weekday : Nat

/-- The calendar of the `time` crate: an RFC 3339 text as seconds, and seconds as a date. -/
structure Calendar where
  rfc3339 : String → Option Int
  civil : Int → Option Civil

inductive CronField
  | any
  | exact (n : Nat)
  deriving DecidableEq, Repr

def CronField.isMatch : CronField → Nat → Bool
  | any, _ => true
  | exact target, n => target == n

inductive Schedule
  | duration (secs : Nat)
  | cron (minute hour dayOfMonth month dayOfWeek : CronField)
  | oneShot (fireAt : Int)
  deriving DecidableEq, Repr

inductive ScheduleError
  | empty
  | durationBadValue (expr : String)
  | durationZero (expr : String)
  | cronFieldCount (n : Nat)
  | cronBadField (tok : String)
  | cronRange (field : String) (value lo hi : Nat)
  | unrecognised (expr : String)
  deriving DecidableEq, Repr

def u64Max : Nat := 18446744073709551615

def unitSecs : Char → Option Nat
  | 's' => some 1
  | 'm' => some 60
  | 'h' => some 3600
  | 'd' => some 86400
  | 'w' => some 604800
  | _ => none

def durationDigits (s : List Char) : Option (List Char × Nat) := do
  let secs ← s.getLast?.bind unitSecs
  let digits := s.dropLast
  if digits.isEmpty || !digits.all Char.isDigit then none else some (digits, secs)

def parseDuration (s digits : List Char) (secs : Nat) : Except ScheduleError Schedule :=
  match parseUnsigned u64Max digits with
  | none => .error (.durationBadValue (String.ofList s))
  | some 0 => .error (.durationZero (String.ofList s))
  | some n => .ok (.duration (min (n * secs) u64Max))

def parseCronField (tok : List Char) (field : String) (lo hi : Nat) :
    Except ScheduleError CronField :=
  if tok = ['*'] then .ok .any
  else match parseUnsigned 4294967295 tok with
    | none => .error (.cronBadField (String.ofList tok))
    | some n => if n < lo ∨ hi < n then .error (.cronRange field n lo hi) else .ok (.exact n)

def parseCron (s : List Char) : Except ScheduleError Schedule :=
  match (splitFields isWhitespace s).filter (fun tok => !tok.isEmpty) with
  | [minute, hour, dayOfMonth, month, dayOfWeek] => do
    let minute ← parseCronField minute "minute" 0 59
    let hour ← parseCronField hour "hour" 0 23
    let dayOfMonth ← parseCronField dayOfMonth "day_of_month" 1 31
    let month ← parseCronField month "month" 1 12
    let dayOfWeek ← parseCronField dayOfWeek "day_of_week" 0 6
    return .cron minute hour dayOfMonth month dayOfWeek
  | toks => .error (.cronFieldCount toks.length)

namespace Schedule

variable (cal : Calendar)

def parse (expr : String) : Except ScheduleError Schedule :=
  let trimmed := trimChars expr.toList
  if trimmed.isEmpty then .error .empty
  else if trimmed.contains ' ' then parseCron trimmed
  else match durationDigits trimmed with
    | some (digits, secs) => parseDuration trimmed digits secs
    | none =>
      match cal.rfc3339 (String.ofList trimmed) with
      | some fireAt => .ok (.oneShot fireAt)
      | none => .error (.unrecognised (String.ofList trimmed))

/-- The first of `n` minutes from `ts` on that the fields allow. -/
def firstMatch (allows : Civil → Bool) : Nat → Int → Option Int
  | 0, _ => none
  | n + 1, ts =>
    if (cal.civil ts).any allows then some ts else firstMatch allows n (ts + 60)

def nextCronAfter (allows : Civil → Bool) (now : Int) : Int :=
  (firstMatch cal allows 527040 ((now.tdiv 60 + 1) * 60)).getD (now + 31536000)

def nextAfter (now : Int) : Schedule → Int
  | duration secs => saturatingAddI64 now (asI64 secs)
  | cron minute hour dayOfMonth month dayOfWeek =>
    nextCronAfter cal (fun dt => minute.isMatch dt.minute && hour.isMatch dt.hour &&
      dayOfMonth.isMatch dt.day && month.isMatch dt.month && dayOfWeek.isMatch dt.weekday) now
  | oneShot fireAt => fireAt

def isOneShot : Schedule → Bool
  | oneShot _ => true
  | _ => false

end Schedule

end Relux.Cron

/-! The cron scheduler: a tick reads the due jobs and starts a fire for each it has a permit
for; a fire goes through the stores step by step on the job as it was read, and leaves the
call of the model to a task of its own. -/

namespace Relux.Cron

structure CronSchedulerConfig where
  maxConcurrent : Nat
  maxJobSecs : Nat

/-- A row of `cron_jobs`. The last two are no columns: the number of the row's last enabling
and that of its schedule's last edit. -/
structure CronJob where
  jobId : String
  name : String
  schedule : String
  flowTemplate : String
  prompt : String
  subjectId : String
  enabled : Bool
  createdAt : Int
  updatedAt : Int
  lastRunAt : Option Int
  nextRunAt : Int
  runCount : Int
  lastTaskId : Option String
  lastStatus : Option String
  tenantId : String
  enabling : Nat
  edition : Nat

/-- A row of `tasks`, with its events. -/
structure CoordinatorTask where
  title : String
  status : String
  ownerSubjectId : String
  flowTemplate : String
  paramsJson : String
  maxRuntimeSecs : Option Nat
  originSurface : Option String
  latestResult : Option String
  events : List (String × String)

inductive CronStoreError
  | db (message : String)
  | schedule (e : ScheduleError)
  | notFound (jobId : String)
  | badInput (message : String)
  deriving DecidableEq, Repr

inductive FireOutcome
  | fired (taskId : String)
  | skippedPreviousRunning
  | failed (message : String)
  deriving DecidableEq, Repr

structure Fired where
  jobId : String
  /-- The enabling under which the job's row was at that moment, if there was a row. -/
  enabling : Option Nat
  scheduled : Bool
  oneShot : Bool
  deriving DecidableEq, Repr

structure Shared where
  now : Int
  permits : Nat
  jobs : HashMap String CronJob
  tasks : HashMap String CoordinatorTask
  /-- No part of the service: the next number of an enabling or an edit, and the fires. -/
  numbers : Nat
  fires : List Fired

structure Fire where
  job : CronJob
  scheduled : Bool

abbrev Fire.jobId (fire : Fire) : String := fire.job.jobId

inductive Operation
  | create (name schedule flowTemplate prompt subjectId tenantId : String)
  | update (jobId field value : String)
  | delete (jobId : String)

/-- The scheduler's loop, a fire, a dispatch to the model or a call of a capability, by what
it does next. -/
inductive Task
  | scheduler
  | ticking (due : List CronJob)
  | triggering (jobId : String)
  | notFound (jobId : String)
  | checking (fire : Fire)
  | creating (fire : Fire)
  | appending (fire : Fire) (taskId : String)
  | recording (fire : Fire) (taskId : String)
  | dispatching (fire : Fire) (taskId : String)
  | returning (fire : Fire) (outcome : FireOutcome)
  | returned (fire : Fire) (outcome : FireOutcome)
  | chatting (fire : Fire) (taskId : String)
  | reporting (fire : Fire) (taskId : String) (outcome : Except String String)
  | completing (fire : Fire) (taskId : String) (outcome : Except String String)
  | stamping (fire : Fire) (taskId : String) (outcome : Except String String)
  | completed (fire : Fire) (taskId : String)
  | asked (op : Operation)
  | answered (op : Operation) (result : Except CronStoreError Unit)

/-- What the code does not choose: an id that is drawn, a failure of the task store, and how
the call of the model ends. -/
inductive Choice
  | go
  | draws (id : String)
  | createFails (message : String)
  | replies (reply : Option String)
  | timesOut
  | unset

def preview (s : String) (maxChars : Nat) : String :=
  String.ofList ((s.toList.map (fun c =>
    if c = '\n' ∨ c = '\r' ∨ c = '\t' then ' ' else c)).take maxChars)

def jsonEscape (s : String) : String :=
  String.ofList (s.toList.flatMap (fun c =>
    if c = '\\' then ['\\', '\\']
    else if c = '"' then ['\\', '"']
    else if c = '\n' then ['\\', 'n']
    else if c = '\r' then ['\\', 'r']
    else [c]))

/-! The task store. -/

namespace Shared

variable (s : Shared)

def modifyTask (taskId : String) (f : CoordinatorTask → CoordinatorTask) : Shared :=
  { s with tasks := s.tasks.modify taskId f }

def appendEvent (taskId kind payload : String) : Shared :=
  s.modifyTask taskId (fun t => { t with events := t.events ++ [(kind, payload)] })

def createTask (cal : Calendar) (cfg : CronSchedulerConfig) (fire : Fire) (taskId : String) :
    Shared :=
  { s with
    tasks := s.tasks.insert taskId {
      title := s!"cron:{fire.job.name}"
      status := "pending"
      ownerSubjectId := fire.job.subjectId
      flowTemplate := fire.job.flowTemplate
      paramsJson := "\x7b\"cron_job_id\":\"" ++ fire.jobId ++ "\",\"prompt\":\"" ++
        jsonEscape fire.job.prompt ++ "\"\x7d"
      maxRuntimeSecs := some cfg.maxJobSecs
      originSurface := some "scheduler"
      latestResult := none
      events := [] }
    fires := ⟨fire.jobId, (s.jobs.get? fire.jobId).map (·.enabling), fire.scheduled,
      (Schedule.parse cal fire.job.schedule).toOption.any Schedule.isOneShot⟩ :: s.fires }

/-! The cron store. -/

def dueJobs : List CronJob :=
  (s.jobs.values.filter (fun job => job.enabled && job.nextRunAt ≤ s.now)).mergeSort
    (fun a b => a.nextRunAt ≤ b.nextRunAt)

def modifyJob (jobId : String) (f : CronJob → CronJob) : Shared :=
  { s with jobs := s.jobs.modify jobId f }

def recordFire (jobId : String) (firedAt nextRunAt : Int) (taskId : String)
    (disableAfter : Bool) : Shared :=
  s.modifyJob jobId (fun job => { job with
    lastRunAt := some firedAt
    nextRunAt := nextRunAt
    runCount := job.runCount + 1
    lastTaskId := some taskId
    lastStatus := some "running"
    enabled := if disableAfter then false else job.enabled
    updatedAt := firedAt })

def recordStatus (jobId status : String) : Shared :=
  s.modifyJob jobId (fun job => { job with lastStatus := some status, updatedAt := s.now })

def createJob (cal : Calendar) (id name scheduleExpr flowTemplate prompt subjectId
    tenantId : String) : Except CronStoreError Shared :=
  let tenant := if (trimChars tenantId.toList).isEmpty then "default" else tenantId
  if (trimChars name.toList).isEmpty then .error (.badInput "name required")
  else if (trimChars flowTemplate.toList).isEmpty then .error (.badInput "flow_template required")
  else if (trimChars subjectId.toList).isEmpty then .error (.badInput "subject_id required")
  else match Schedule.parse cal scheduleExpr with
    | .error e => .error (.schedule e)
    | .ok schedule =>
      if (s.jobs.get? id).isSome then .error (.db "UNIQUE constraint failed: cron_jobs.job_id")
      else .ok { s with
        numbers := s.numbers + 1
        jobs := s.jobs.insert id {
          jobId := id
          name := name
          schedule := scheduleExpr
          flowTemplate := flowTemplate
          prompt := prompt
          subjectId := subjectId
          enabled := true
          createdAt := s.now
          updatedAt := s.now
          lastRunAt := none
          nextRunAt := schedule.nextAfter cal s.now
          runCount := 0
          lastTaskId := none
          lastStatus := none
          tenantId := tenant
          enabling := s.numbers
          edition := s.numbers } }

def updateJob (jobId : String) (f : CronJob → CronJob) : Except CronStoreError Shared :=
  if (s.jobs.get? jobId).isSome then
    .ok { s.modifyJob jobId f with numbers := s.numbers + 1 }
  else .error (.notFound jobId)

def updateField (cal : Calendar) (jobId field value : String) : Except CronStoreError Shared :=
  if field = "enabled" then
    match parseI64 value.toList with
    | none => .error (.badInput s!"enabled '{value}' not 0/1")
    | some v =>
      if v ≠ 0 ∧ v ≠ 1 then .error (.badInput s!"enabled '{value}' must be 0 or 1")
      else s.updateJob jobId (fun job => { job with
        enabled := v == 1
        updatedAt := s.now
        enabling := if v = 1 ∧ job.enabled = false then s.numbers else job.enabling })
  else if field = "schedule" then
    match Schedule.parse cal value with
    | .error e => .error (.schedule e)
    | .ok schedule =>
      s.updateJob jobId (fun job => { job with
        schedule := value
        nextRunAt := schedule.nextAfter cal s.now
        updatedAt := s.now
        edition := s.numbers })
  else if field = "prompt" then
    s.updateJob jobId (fun job => { job with prompt := value, updatedAt := s.now })
  else .error (.badInput s!"unknown field '{field}' (allowed: enabled, schedule, prompt)")

def deleteJob (jobId : String) : Except CronStoreError Shared :=
  if (s.jobs.get? jobId).isSome then .ok { s with jobs := s.jobs.remove jobId }
  else .error (.notFound jobId)

/-- One call of `cron.create`, `cron.update` or `cron.delete`; `id` is the one drawn. -/
def perform (cal : Calendar) (id : String) : Operation → Except CronStoreError Shared
  | .create name schedule flowTemplate prompt subjectId tenantId =>
    s.createJob cal id name schedule flowTemplate prompt subjectId tenantId
  | .update jobId field value => s.updateField cal jobId field value
  | .delete jobId => s.deleteJob jobId

def previousRunning (job : CronJob) : Bool :=
  ((job.lastTaskId.bind s.tasks.get?).map (fun view => view.status)) == some "running"

end Shared

def chatOutcome (cfg : CronSchedulerConfig) : Choice → Except String String
  | .replies (some reply) => .ok reply
  | .timesOut => .error s!"ai dispatch exceeded max_job_secs={cfg.maxJobSecs}"
  | .unset => .error "ai dispatcher unset"
  | _ => .error "ai dispatcher returned None"

def resultPayload : Except String String → String
  | .ok reply => s!"ok=1|chars={reply.toList.length}|preview=" ++ preview reply 200
  | .error cause =>
    "ok=0|cause=" ++ String.ofList (cause.toList.map (fun c => if c = '|' then ' ' else c))

section
variable (cal : Calendar) (cfg : CronSchedulerConfig) (s : Shared)

/-- The bookkeeping of a fire: its next run is reckoned from the schedule as it was read. -/
def stampJob (fire : Fire) (taskId : String) : Shared :=
  let schedule := (Schedule.parse cal fire.job.schedule).toOption
  let nextRunAt := (schedule.map (Schedule.nextAfter cal s.now)).getD (s.now + 60)
  s.recordFire fire.jobId s.now nextRunAt taskId (schedule.any Schedule.isOneShot)

/-- `fire_job` and what comes before and after it, up to the dispatch. -/
def stepFire (choice : Choice) : Task → Option (Shared × Task × Option Task)
  | .scheduler => some (s, .ticking s.dueJobs, none)
  | .ticking [] => some (s, .scheduler, none)
  | .ticking (job :: due) =>
    if s.permits = 0 then some (s, .ticking due, none)
    else some ({ s with permits := s.permits - 1 }, .ticking due, some (.checking ⟨job, true⟩))
  | .triggering jobId =>
    match s.jobs.get? jobId with
    | none => some (s, .notFound jobId, none)
    | some job => some (s, .checking ⟨job, false⟩, none)
  | .checking fire =>
    if s.previousRunning fire.job then some (s, .returning fire .skippedPreviousRunning, none)
    else some (s, .creating fire, none)
  | .creating fire =>
    match choice with
    | .draws taskId =>
      if (s.tasks.get? taskId).isSome then
        some (s, .returning fire (.failed "task.create: UNIQUE constraint failed: tasks.task_id"),
          none)
      else some (s.createTask cal cfg fire taskId, .appending fire taskId, none)
    | .createFails message => some (s, .returning fire (.failed s!"task.create: {message}"), none)
    | _ => none
  | .appending fire taskId =>
    some (s.appendEvent taskId "cron.job_fired"
      (s!"job_id={fire.jobId}|job_name={fire.job.name}|run_count=" ++
        toString (fire.job.runCount + 1)), .recording fire taskId, none)
  | .recording fire taskId => some (stampJob cal s fire taskId, .dispatching fire taskId, none)
  | .dispatching fire taskId =>
    some (s, .returning fire (.fired taskId), some (.chatting fire taskId))
  | .returning fire outcome =>
    some ({ s with permits := if fire.scheduled then s.permits + 1 else s.permits },
      .returned fire outcome, none)
  | _ => none

/-- `run_ai_then_complete`. -/
def stepDispatch (choice : Choice) : Task → Option (Shared × Task × Option Task)
  | .chatting fire taskId => some (s, .reporting fire taskId (chatOutcome cfg choice), none)
  | .reporting fire taskId outcome =>
    some (s.appendEvent taskId "cron.job_result" (resultPayload outcome),
      .completing fire taskId outcome, none)
  | .completing fire taskId outcome =>
    some (s.modifyTask taskId (fun t => { t with
      status := match outcome with | .ok _ => "completed" | .error _ => "failed"
      latestResult := some (preview (match outcome with | .ok r => r | .error e => e) 800) }),
      .stamping fire taskId outcome, none)
  | .stamping fire taskId outcome =>
    some (s.recordStatus fire.jobId (match outcome with | .ok _ => "ok" | .error _ => "failed"),
      .completed fire taskId, none)
  | _ => none

def stepAsked (choice : Choice) : Task → Option (Shared × Task × Option Task)
  | .asked op =>
    let id := match choice with | .draws id => id | _ => ""
    match s.perform cal id op with
    | .ok s' => some (s', .answered op (.ok ()), none)
    | .error e => some (s, .answered op (.error e), none)
  | _ => none

def step (choice : Choice) (t : Task) : Option (Shared × Task × Option Task) :=
  ((stepFire cal cfg s choice t).or (stepDispatch cfg s choice t)).or (stepAsked cal s choice t)

end

def service (cal : Calendar) (cfg : CronSchedulerConfig) : Tasking Shared Task where
  exec := fun s t s' t' fork => ∃ choice, step cal cfg s choice t = some (s', t', fork)
  env := fun s s' => (∃ now, s' = { s with now := now }) ∨
    ∃ taskId status, s' = s.modifyTask taskId (fun t => { t with status := status })
  spawn := fun s t s' => s' = s ∧ ((∃ jobId, t = .triggering jobId) ∨ ∃ op, t = .asked op)

end Relux.Cron
