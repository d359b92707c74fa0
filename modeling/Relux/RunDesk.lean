import Relux.Admission.AgentStore
import Relux.HashMap
import Relux.Interleave

/-! The coordinator's ledger of Brief runs: its rows, the claims of the Briefs, and the store
operations that write them. -/

namespace Relux.BriefRuns

open Admission (normTenant)

structure RunDiagnosis where
  failureClass : Option String := none
  retryable : Option Bool := none
  retryBudgetRemaining : Option Int := none
  recoveryAction : Option String := none
  recoveryRoute : Option String := none
  deriving DecidableEq, Repr

/-- `rigRetryable` is what the Rig says of a failure, where it is known. -/
def RunDiagnosis.forTerminal (status : String) (rigRetryable : Option Bool) (runId : String) :
    RunDiagnosis :=
  let runRoute := some s!"/runs?run={runId}"
  if status = "done" ∨ status = "continued" then
    { retryable := some false, recoveryAction := some "none" }
  else if status = "failed" then
    if rigRetryable = some true then
      ⟨some "transient", some true, some 1, some "retry_later", runRoute⟩
    else if rigRetryable = some false then
      ⟨some "permanent", some false, some 0, some "inspect_run", runRoute⟩
    else ⟨some "unknown", some false, some 0, some "inspect_run", runRoute⟩
  else if status = "cancelled" then
    ⟨some "cancelled", some false, some 0, some "inspect_run", runRoute⟩
  else if status = "interrupted" then
    ⟨some "interrupted", some true, some 1, some "inspect_run", runRoute⟩
  else {}

def RunDiagnosis.forRefusal (reason briefId runId : String) : RunDiagnosis :=
  if reason = "unassigned" then refused "precondition" "assign_agent" s!"/briefs?brief={briefId}"
  else if reason = "no_adapter" ∨ reason = "adapter_unavailable" then
    refused "adapter_unavailable" "configure_rig" "/settings"
  else if reason = "over_allowance" then refused "budget" "raise_allowance" "/agents"
  else if reason = "over_guild_budget" then refused "budget" "raise_allowance" "/costs"
  else if reason = "workspace_error" ∨ reason = "workspace_context_error" then
    refused "workspace" "review_runtime" "/settings"
  else refused "unknown" "inspect_run" s!"/runs?run={runId}"
where
  refused (failureClass action route : String) : RunDiagnosis :=
    ⟨some failureClass, some false, some 0, some action, some route⟩

structure RunRecord where
  runId : String
  briefId : String
  agentId : String
  rig : String
  status : String
  startedAt : Int
  finishedAt : Option Int
  summary : String
  workspace : Option String
  workspaceContext : Option String
  workspaceFiles : Option Int
  workspaceBytes : Option Int
  review : Option String
  reviewNote : Option String
  reviewedAt : Option Int
  applyStatus : Option String
  appliedAt : Option Int
  applyNote : Option String
  appliedFiles : Option Int
  failedFiles : Option Int
  trigger : Option String
  refusalReason : Option String
  diagnosis : RunDiagnosis
  retriedFromRunId : Option String
  retryAttempt : Option Int
  deriving DecidableEq, Repr

structure Brief where
  tenantId : Option String
  assigneeAgentId : Option String
  claimAgentId : Option String
  claimExpiresAt : Option Int
  checkoutRunId : Option String
  executionRunId : Option String
  deriving DecidableEq, Repr

structure RunStore where
  now : Int
  runs : HashMap String RunRecord
  briefs : HashMap String Brief

inductive CoordinatorError
  | notFound (id : String)
  | invalid (message : String)
  | db (message : String)
  deriving DecidableEq, Repr

def CoordinatorError.text : CoordinatorError → String
  | notFound id => s!"task not found: {id}"
  | invalid message => s!"invalid: {message}"
  | db message => s!"db: {message}"

structure NewRun where
  runId : String
  briefId : String
  agentId : String
  rig : String
  trigger : String
  workspace : Option String
  workspaceContext : Option String
  workspaceFiles : Option Int
  workspaceBytes : Option Int
  deriving DecidableEq, Repr

def NewRun.row (run : NewRun) (now : Int) : RunRecord where
  runId := run.runId
  briefId := run.briefId
  agentId := run.agentId
  rig := run.rig
  status := "running"
  startedAt := now
  finishedAt := none
  summary := ""
  workspace := run.workspace
  workspaceContext := run.workspaceContext
  workspaceFiles := run.workspaceFiles
  workspaceBytes := run.workspaceBytes
  review := none
  reviewNote := none
  reviewedAt := none
  applyStatus := none
  appliedAt := none
  applyNote := none
  appliedFiles := none
  failedFiles := none
  trigger := some run.trigger
  refusalReason := none
  diagnosis := {}
  retriedFromRunId := none
  retryAttempt := none

def MAX_RUN_EVENT_FIELD_BYTES : Nat := 8192

def takeBytes : Nat → List Char → List Char
  | _, [] => []
  | room, c :: cs => if c.utf8Size ≤ room then c :: takeBytes (room - c.utf8Size) cs else []

def clampBytes (s : String) (max : Nat) : String :=
  if s.utf8ByteSize ≤ max then s else String.ofList (takeBytes max s.toList)

def refusalIsDurable (reason : String) : Bool :=
  ["unassigned", "no_adapter", "adapter_unavailable", "workspace_error",
    "workspace_context_error", "over_allowance", "over_guild_budget"].contains reason

namespace RunStore

variable (s : RunStore)

def modifyRun (runId : String) (f : RunRecord → RunRecord) : RunStore :=
  { s with runs := s.runs.modify runId f }

def getRun (runId : String) : Option RunRecord := s.runs.get? runId

def recordRunStart (run : NewRun) : RunStore :=
  if (s.runs.get? run.runId).isSome then s
  else { s with runs := s.runs.insert run.runId (run.row s.now) }

/-- The insert of a refused run; `runId` is the drawn one. -/
def recordRefusedRun (runId briefId agentId rig reason summary trigger : String) :
    Option RunStore :=
  if !refusalIsDurable reason then none
  else if (s.briefs.get? briefId).isNone ∨ (s.runs.get? runId).isSome then none
  else
    let row := NewRun.row ⟨runId, briefId, agentId, rig, trigger, none, none, none, none⟩ s.now
    some { s with runs := s.runs.insert runId { row with
      status := "refused"
      finishedAt := some s.now
      summary := clampBytes summary MAX_RUN_EVENT_FIELD_BYTES
      refusalReason := some reason } }

/-- The first access of `record_run_finish`. -/
def recordRunFinish (runId status summary : String) : RunStore :=
  s.modifyRun runId (fun r => { r with
    status := status
    summary := summary
    finishedAt := some s.now
    review := if status = "done" then some "pending_review" else r.review })

def setRunDiagnosis (runId : String) (diag : RunDiagnosis) : RunStore :=
  s.modifyRun runId (fun r => { r with diagnosis := diag })

def linkRetryChild (childRunId sourceRunId : String) (attempt : Int) :
    Except CoordinatorError RunStore :=
  if (s.runs.get? childRunId).isSome ∧ s.runs.values.any (fun r =>
      r.retriedFromRunId == some sourceRunId && r.runId != childRunId) then
    .error (.db "UNIQUE constraint failed: brief_runs.retried_from_run_id")
  else .ok (s.modifyRun childRunId (fun r => { r with
    retriedFromRunId := some sourceRunId, retryAttempt := some attempt }))

def runBelongsToTenant (runId tenant : String) : Bool :=
  ((s.runs.get? runId).bind (fun r => s.briefs.get? r.briefId)).any (fun b =>
    b.tenantId.getD "default" == normTenant tenant)

def setRunReview (runId decision note : String) : Except CoordinatorError RunStore :=
  if decision ≠ "accepted" ∧ decision ≠ "rejected" then
    .error (.invalid (s!"review decision must be \x60accepted\x60 or \x60rejected\x60, " ++
      s!"got \x60{decision}\x60"))
  else match s.runs.get? runId with
    | none => .error (.notFound runId)
    | some row =>
      if row.status = "done" then
        .ok (s.modifyRun runId (fun r => { r with
          review := some decision
          reviewNote := some (clampBytes note MAX_RUN_EVENT_FIELD_BYTES)
          reviewedAt := some s.now }))
      else .error (.invalid
        s!"only a \x60done\x60 run is reviewable (this run is \x60{row.status}\x60)")

def discardRun (runId : String) : Except CoordinatorError RunStore :=
  match s.runs.get? runId with
  | none => .error (.notFound runId)
  | some row =>
    if row.status = "running" then
      .error (.invalid "cannot discard a running run — cancel it first")
    else
      let reviewed (r : RunRecord) : RunRecord :=
        if row.status = "done" then { r with
          review := some "rejected"
          reviewNote := some "discarded by operator"
          reviewedAt := some s.now }
        else r
      .ok (s.modifyRun runId (fun r => { reviewed r with
        applyStatus := some "discarded"
        applyNote := some "discarded by operator"
        appliedAt := some s.now }))

def setRunApplyStatus (runId status note : String) (appliedFiles failedFiles : Int) :
    Except CoordinatorError RunStore :=
  if (s.runs.get? runId).isNone then .error (.notFound runId)
  else .ok (s.modifyRun runId (fun r => { r with
    applyStatus := some status
    applyNote := some (clampBytes note MAX_RUN_EVENT_FIELD_BYTES)
    appliedAt := some s.now
    appliedFiles := some appliedFiles
    failedFiles := some failedFiles }))

/-- The running rows that `recover_stale_runs` reads: run, Brief, agent and start. -/
def runningRows : List (String × String × String × Int) :=
  (s.runs.values.filter (fun r => r.status == "running")).map (fun r =>
    (r.runId, r.briefId, r.agentId, r.startedAt))

def clearClaim (b : Brief) : Brief :=
  { b with claimAgentId := none, claimExpiresAt := none, checkoutRunId := none,
           executionRunId := none }

def releaseClaim (briefId agentId : String) : RunStore :=
  { s with briefs := s.briefs.modify briefId (fun b =>
      if b.claimAgentId = some (trim agentId) then clearClaim b else b) }

def releaseClaimForRun (briefId agentId runId : String) : RunStore :=
  { s with briefs := s.briefs.modify briefId (fun b =>
      if b.claimAgentId = some (trim agentId) ∧
        (b.executionRunId = some runId ∨ b.checkoutRunId = some runId) then clearClaim b else b) }

end RunStore

def runApplyEligibility (run : RunRecord) : Except String Unit :=
  if run.status ≠ "done" then .error s!"run is \x60{run.status}\x60, not \x60done\x60"
  else if run.review ≠ some "accepted" then
    .error "run is not accepted — review and accept it before applying"
  else if run.workspace.isNone then
    .error "run has no scoped workspace (inherit-mode / legacy) — nothing to apply"
  else .ok ()

def terminalStatuses : List String := ["done", "failed", "cancelled", "interrupted", "refused"]

end Relux.BriefRuns

/-! What is done to the runs of Briefs, one access of the store after the other: the process of
a run ends, the sweep for stale runs judges it, operators review, discard and apply it, and a
retry is linked to it. -/

namespace Relux.BriefRuns

structure Shared extends RunStore where
  /-- No part of the store: the runs whose changes were put into the project, and those that
  were discarded. -/
  applied : List String
  discarded : List String

inductive Outcome
  | done (summary : String)
  | failed (retryable : Bool) (reason : String)
  | continued (note : String)
  | cancelled

def Outcome.status : Outcome → String
  | done _ => "done"
  | failed _ _ => "failed"
  | continued _ => "continued"
  | cancelled => "cancelled"

def Outcome.summary : Outcome → String
  | done summary => summary
  | failed _ reason => reason
  | continued note => note
  | cancelled => "run cancelled by operator (process killed)"

abbrev Row := String × String × String × Int

inductive Task
  | opening (run : NewRun)
  | refusing (briefId agentId rig reason summary trigger : String)
  | stampingRefusal (briefId runId reason : String)
  | executing (run : NewRun)
  | finishing (run : NewRun) (outcome : Outcome)
  | stamping (run : NewRun) (outcome : Outcome)
  | restamping (run : NewRun) (retryable : Bool)
  | releasing (run : NewRun)
  | sweeping (live : List String) (minAgeSecs : Int)
  | recovering (stale : List Row)
  | stampingInterrupted (row : Row) (stale : List Row)
  | freeing (row : Row) (stale : List Row)
  | reviewing (runId decision note : String)
  | discarding (runId : String)
  | applying (runId tenant : String)
  | loading (runId : String)
  | blocking (runId reason : String)
  | listing (run : RunRecord)
  | writing (run : RunRecord)
  | recordingApply (run : RunRecord) (status note : String) (appliedFiles failedFiles : Int)
      (result : Except String String)
  | linking (childRunId sourceRunId : String) (attempt : Int)
  | returned (result : Except String String)

/-- What the code does not choose: an id that is drawn, how a process ends, and what the project
and the run's artifacts make of an apply. -/
inductive Choice
  | go
  | draws (id : String)
  | ends (outcome : Outcome)
  | noArtifacts
  | rootInvalid (message : String)
  | conflicted (note : String)
  | written (appliedFiles failedFiles : Int)

def staleReason : String :=
  "Run interrupted: the executing process is gone " ++
    "(coordinator restart or a dead run thread); no live child was found."

def staleRows (now : Int) (live : List String) (minAgeSecs : Int) (rows : List Row) : List Row :=
  rows.filter (fun row => !live.contains row.1 &&
    !(decide (0 < minAgeSecs) && decide (now - minAgeSecs < row.2.2.2)))

def nextStale (stale : List Row) : Task := .recovering stale

section
variable (s : Shared)

def withStore (store : RunStore) : Shared := { s with toRunStore := store }

def recorded (r : Except CoordinatorError RunStore) : Shared :=
  match r with
  | .error _ => s
  | .ok store => withStore s store

def answer (r : Except CoordinatorError RunStore) (text : String) : Shared × Task :=
  match r with
  | .error e => (s, .returned (.error e.text))
  | .ok store => (withStore s store, .returned (.ok text))

/-- The running of a run and its end: `prepare_claimed_run` and `execute_ready`. -/
def stepRun (choice : Choice) : Task → Option (Shared × Task)
  | .opening run => some (withStore s (s.recordRunStart run), .executing run)
  | .refusing briefId agentId rig reason summary trigger =>
    match choice with
    | .draws id =>
      match s.recordRefusedRun ("ref_" ++ id) briefId agentId rig reason summary trigger with
      | none => some (s, .returned (.ok ""))
      | some store => some (withStore s store, .stampingRefusal briefId ("ref_" ++ id) reason)
    | _ => none
  | .stampingRefusal briefId runId reason =>
    some (withStore s (s.setRunDiagnosis runId (.forRefusal reason briefId runId)),
      .returned (.ok runId))
  | .executing run =>
    match choice with
    | .ends outcome => some (s, .finishing run outcome)
    | _ => none
  | .finishing run outcome =>
    some (withStore s (s.recordRunFinish run.runId outcome.status outcome.summary),
      .stamping run outcome)
  | .stamping run outcome =>
    some (withStore s (s.setRunDiagnosis run.runId
        (.forTerminal outcome.status none run.runId)),
      match outcome with
      | .failed retryable _ => .restamping run retryable
      | _ => .releasing run)
  | .restamping run retryable =>
    some (withStore s (s.setRunDiagnosis run.runId
      (.forTerminal "failed" (some retryable) run.runId)), .releasing run)
  | .releasing run =>
    some (withStore s (s.releaseClaim run.briefId run.agentId), .returned (.ok run.runId))
  | _ => none

/-- `recover_stale_runs`. -/
def stepSweep : Task → Option (Shared × Task)
  | .sweeping live minAgeSecs =>
    some (s, .recovering (staleRows s.now live minAgeSecs s.runningRows))
  | .recovering [] => some (s, .returned (.ok "recovered"))
  | .recovering (row :: stale) =>
    some (withStore s (s.recordRunFinish row.1 "interrupted" staleReason),
      .stampingInterrupted row stale)
  | .stampingInterrupted row stale =>
    some (withStore s (s.setRunDiagnosis row.1 (.forTerminal "interrupted" none row.1)),
      if (trim row.2.2.1).isEmpty then nextStale stale else .freeing row stale)
  | .freeing row stale =>
    some (withStore s (s.releaseClaimForRun row.2.1 row.2.2.1 row.1), nextStale stale)
  | _ => none

/-- `execute_run_apply`. -/
def stepApply (choice : Choice) : Task → Option (Shared × Task)
  | .applying runId tenant =>
    if s.runBelongsToTenant runId tenant then some (s, .loading runId)
    else some (s, .returned (.error s!"run not found: {runId}"))
  | .loading runId =>
    match s.getRun runId with
    | none => some (s, .returned (.error s!"run not found: {runId}"))
    | some run =>
      match runApplyEligibility run with
      | .error reason => some (s, .blocking runId reason)
      | .ok () => some (s, .listing run)
  | .blocking runId reason =>
    some (recorded s (s.setRunApplyStatus runId "blocked" reason 0 0),
      .returned (.error s!"apply refused: {reason}"))
  | .listing run =>
    match choice with
    | .noArtifacts =>
      some ({ s with applied := run.runId :: s.applied },
        .recordingApply run "applied" "no artifacts — nothing to apply" 0 0 (.ok "applied"))
    | .go => some (s, .writing run)
    | _ => none
  | .writing run =>
    match choice with
    | .rootInvalid message =>
      some (s, .recordingApply run "failed" s!"invalid project root: {message}" 0 0
        (.error s!"run.apply: {message}"))
    | .conflicted note => some (s, .recordingApply run "conflicted" note 0 0 (.ok "conflicted"))
    | .written appliedFiles failedFiles =>
      let status := if 0 < failedFiles then "failed" else "applied"
      some ({ s with applied := run.runId :: s.applied },
        .recordingApply run status s!"{appliedFiles} applied, {failedFiles} failed"
          appliedFiles failedFiles (.ok status))
    | _ => none
  | .recordingApply run status note appliedFiles failedFiles result =>
    some (recorded s (s.setRunApplyStatus run.runId status note appliedFiles failedFiles),
      .returned result)
  | _ => none

def stepDecision : Task → Option (Shared × Task)
  | .reviewing runId decision note => some (answer s (s.setRunReview runId decision note) decision)
  | .discarding runId =>
    match s.discardRun runId with
    | .error e => some (s, .returned (.error e.text))
    | .ok store =>
      some ({ withStore s store with discarded := runId :: s.discarded },
        .returned (.ok "discarded"))
  | .linking childRunId sourceRunId attempt =>
    some (answer s (s.linkRetryChild childRunId sourceRunId attempt) childRunId)
  | _ => none

def step (choice : Choice) (t : Task) : Option (Shared × Task) :=
  ((stepRun s choice t).or (stepSweep s t)).or ((stepApply s choice t).or (stepDecision s t))

end

def Task.isCall : Task → Bool
  | .opening _ => true
  | .refusing _ _ _ _ _ _ => true
  | .sweeping _ _ => true
  | .reviewing _ _ _ => true
  | .discarding _ => true
  | .applying _ _ => true
  | .linking _ _ _ => true
  | _ => false

def service : Tasking Shared Task where
  exec := fun s t s' t' fork => fork = none ∧ ∃ choice, step s choice t = some (s', t')
  env := fun s s' => ∃ now briefs, s' = { s with now := now, briefs := briefs }
  spawn := fun s t s' => s' = s ∧ t.isCall = true

def Task.applies : Task → Option RunRecord
  | .listing run => some run
  | .writing run => some run
  | _ => none

def Task.diagnoses : Task → Option String
  | .stampingRefusal _ runId _ => some runId
  | .stamping run _ => some run.runId
  | .restamping run _ => some run.runId
  | .stampingInterrupted row _ => some row.1
  | _ => none

def Task.finishes : Task → Bool
  | .finishing _ _ => true
  | .recovering (_ :: _) => true
  | _ => false

structure Calm (t t' : Task) : Prop where
  finishes : t.finishes = false
  applies : t'.applies = none
  isCall : t'.isCall = false

section
variable (s : Shared) (choice : Choice)

/-- All that a step can do, by what it writes. -/
inductive Acts : Task → Shared → Task → Prop
  | reads {t t'} (h : Calm t t') : Acts t s t'
  | loads {runId run} (h : s.getRun runId = some run) (heligible : runApplyEligibility run = .ok ()) :
      Acts (.loading runId) s (.listing run)
  | writes (run) : Acts (.listing run) s (.writing run)
  | opens (run) : Acts (.opening run) (withStore s (s.recordRunStart run)) (.executing run)
  | refuses {id briefId agentId rig reason summary trigger store} (hid : choice = .draws id)
      (h : s.recordRefusedRun ("ref_" ++ id) briefId agentId rig reason summary trigger = some store) :
      Acts (.refusing briefId agentId rig reason summary trigger) (withStore s store)
        (.stampingRefusal briefId ("ref_" ++ id) reason)
  | stamps {t t' id diag} (h : Calm t t') (hid : t.diagnoses = some id) :
      Acts t (withStore s (s.setRunDiagnosis id diag)) t'
  | finishes (run outcome) : Acts (.finishing run outcome)
      (withStore s (s.recordRunFinish run.runId outcome.status outcome.summary))
      (.stamping run outcome)
  | interrupts (row stale) : Acts (.recovering (row :: stale))
      (withStore s (s.recordRunFinish row.1 "interrupted" staleReason))
      (.stampingInterrupted row stale)
  | releases (run) : Acts (.releasing run) (withStore s (s.releaseClaim run.briefId run.agentId))
      (.returned (.ok run.runId))
  | frees (row stale) : Acts (.freeing row stale)
      (withStore s (s.releaseClaimForRun row.2.1 row.2.2.1 row.1)) (nextStale stale)
  | marks {t t' runId status note appliedFiles failedFiles} (h : Calm t t') :
      Acts t (recorded s (s.setRunApplyStatus runId status note appliedFiles failedFiles)) t'
  | applies {t t' run} (h : Calm t t') (hrun : t.applies = some run) :
      Acts t { s with applied := run.runId :: s.applied } t'
  | reviews {runId decision note s' t'} (h : answer s (s.setRunReview runId decision note) decision = (s', t')) :
      Acts (.reviewing runId decision note) s' t'
  | discards {runId store} (h : s.discardRun runId = .ok store) : Acts (.discarding runId)
      { withStore s store with discarded := runId :: s.discarded } (.returned (.ok "discarded"))
  | links {childRunId sourceRunId attempt s' t'}
      (h : answer s (s.linkRetryChild childRunId sourceRunId attempt) childRunId = (s', t')) :
      Acts (.linking childRunId sourceRunId attempt) s' t'

variable {s choice} {s' : Shared} {t t' : Task}

theorem stepRun_acts (h : stepRun s choice t = some (s', t')) : Acts s choice t s' t' := by
  cases t with
  | opening run =>
    cases h
    exact .opens run
  | refusing briefId agentId rig reason summary trigger =>
    simp only [stepRun] at h
    split at h
    · split at h
      · cases h
        exact .reads ⟨rfl, rfl, rfl⟩
      next store hstore =>
        cases h
        exact .refuses rfl hstore
    · cases h
  | executing run =>
    simp only [stepRun] at h
    split at h
    · cases h
      exact .reads ⟨rfl, rfl, rfl⟩
    · cases h
  | finishing run outcome =>
    cases h
    exact .finishes run outcome
  | stampingRefusal briefId runId reason | restamping run retryable =>
    cases h
    exact .stamps ⟨rfl, rfl, rfl⟩ rfl
  | stamping run outcome =>
    cases h
    refine .stamps ⟨rfl, ?_, ?_⟩ rfl
    all_goals cases outcome <;> rfl
  | releasing run =>
    cases h
    exact .releases run
  | _ => cases h

theorem stepSweep_acts (h : stepSweep s t = some (s', t')) : Acts s choice t s' t' := by
  cases t with
  | sweeping live minAgeSecs =>
    cases h
    exact .reads ⟨rfl, rfl, rfl⟩
  | recovering stale =>
    cases stale with
    | nil =>
      cases h
      exact .reads ⟨rfl, rfl, rfl⟩
    | cons row stale =>
      cases h
      exact .interrupts row stale
  | stampingInterrupted row stale =>
    cases h
    refine .stamps ⟨rfl, ?_, ?_⟩ rfl
    all_goals split <;> rfl
  | freeing row stale =>
    cases h
    exact .frees row stale
  | _ => cases h

theorem stepApply_acts (h : stepApply s choice t = some (s', t')) : Acts s choice t s' t' := by
  cases t with
  | applying runId tenant =>
    simp only [stepApply] at h
    split at h
    all_goals
      cases h
      exact .reads ⟨rfl, rfl, rfl⟩
  | loading runId =>
    simp only [stepApply] at h
    split at h
    · cases h
      exact .reads ⟨rfl, rfl, rfl⟩
    next run hrun =>
      split at h
      · cases h
        exact .reads ⟨rfl, rfl, rfl⟩
      next heligible =>
        cases h
        exact .loads hrun heligible
  | listing run =>
    simp only [stepApply] at h
    split at h <;> cases h
    · exact .applies ⟨rfl, rfl, rfl⟩ rfl
    · exact .writes run
  | writing run =>
    simp only [stepApply] at h
    split at h <;> cases h
    · exact .reads ⟨rfl, rfl, rfl⟩
    · exact .reads ⟨rfl, rfl, rfl⟩
    · exact .applies ⟨rfl, rfl, rfl⟩ rfl
  | blocking runId reason | recordingApply run status note appliedFiles failedFiles result =>
    cases h
    exact .marks ⟨rfl, rfl, rfl⟩
  | _ => cases h

theorem stepDecision_acts (h : stepDecision s t = some (s', t')) : Acts s choice t s' t' := by
  cases t with
  | reviewing runId decision note => exact .reviews (Option.some.inj h)
  | discarding runId =>
    simp only [stepDecision] at h
    split at h <;> cases h
    · exact .reads ⟨rfl, rfl, rfl⟩
    next hstore => exact .discards hstore
  | linking childRunId sourceRunId attempt => exact .links (Option.some.inj h)
  | _ => cases h

theorem step_acts (h : step s choice t = some (s', t')) : Acts s choice t s' t' := by
  rcases Option.or_eq_some_iff.mp h with hleft | ⟨-, hright⟩
  · rcases Option.or_eq_some_iff.mp hleft with hrun | ⟨-, hsweep⟩
    · exact stepRun_acts hrun
    · exact stepSweep_acts hsweep
  · rcases Option.or_eq_some_iff.mp hright with happly | ⟨-, hdecision⟩
    · exact stepApply_acts happly
    · exact stepDecision_acts hdecision

end

end Relux.BriefRuns
