import Relux.Dispatch

/-! Running an orchestration: the rounds of a batch, the blocks that cascade down its
dependencies, and the status it is left in. -/

namespace Relux

structure OrchestrationBatchResult where
  orchestrationId : OrchestrationId
  ran : Nat
  completed : Nat
  failed : Nat
  blocked : Nat
  pending : Nat
  concurrency : Nat
  rounds : Nat
  waiting : Nat
  dependencyBlocked : Nat
  skippedReasons : List String
  perAgent : List String
  summary : String
  nextAction : String
  status : OrchestrationStatus

def clampMax (max : Nat) : Nat := Nat.max 1 (min max 25)
def clampConcurrency (concurrency : Nat) : Nat := Nat.max 1 (min concurrency 4)

def newOrchestrationBatchResult (s : KernelState) (id : OrchestrationId) (concurrency : Nat) :
    Except KernelError OrchestrationBatchResult :=
  match s.orchestrations.get? id with
  | none => .error (.unknownOrchestration id)
  | some _ => .ok
    { orchestrationId := id, ran := 0, completed := 0, failed := 0, blocked := 0, pending := 0
      concurrency := clampConcurrency concurrency, rounds := 0, waiting := 0
      dependencyBlocked := 0, skippedReasons := [], perAgent := [], summary := ""
      nextAction := "", status := .planned }

def KernelState.setStep (s : KernelState) (id : OrchestrationId) (idx : Nat)
    (f : OrchestrationStep → OrchestrationStep) : KernelState :=
  { s with
    orchestrations := s.orchestrations.modify id
      (fun o => { o with steps := o.steps.modify idx f }) }

def needsSomeone : KernelError → Bool
  | .adapterRuntimeDisabled _ => true
  | .adapterRuntimeNotConfigured _ => true
  | .invalidAdapterConfig _ _ => true
  | .adapterBinaryMissing _ _ => true
  | .permissionDenied _ _ => true
  | _ => false

def briefOutcome (exec : Except KernelError RunId) : StepOutcome :=
  match exec with
  | .ok _ => .completed
  | .error e => if needsSomeone e then .blocked else .failed

def tally (result : OrchestrationBatchResult) (taskId : TaskId)
    (exec : Except KernelError RunId) : OrchestrationBatchResult :=
  match exec with
  | .ok _ => { result with completed := result.completed + 1 }
  | .error e =>
    let reasons := result.skippedReasons ++ [taskId ++ ": " ++ e.text]
    if needsSomeone e then
      { result with blocked := result.blocked + 1, skippedReasons := reasons }
    else { result with failed := result.failed + 1, skippedReasons := reasons }

def latestRunOf (s : KernelState) (taskId : TaskId) : Option RunId :=
  ((s.runs.values.filter (fun r => r.taskId == taskId)).map (·.id)).foldl (fun best id =>
    match best with
    | none => some id
    | some b => if decide (b ≤ id) then some id else some b) none

structure Attempt where
  index : Nat
  roundNo : Nat
  agentLabel : String
  taskId : TaskId
  startedAt : Stamp

def recordBriefOutcome (s : KernelState) (id : OrchestrationId) (a : Attempt)
    (exec : Except KernelError RunId) (finishedAt : Stamp) (result : OrchestrationBatchResult) :
    KernelState × OrchestrationBatchResult :=
  let runId := latestRunOf s a.taskId
  let outcome := briefOutcome exec
  let note := match exec with
    | .ok _ => none
    | .error e => some e.text
  let result := tally result a.taskId exec
  let result := { result with perAgent := result.perAgent ++ ["round " ++ toString a.roundNo ++
    " " ++ a.agentLabel ++ ": " ++ a.taskId ++ " " ++ outcome.label] }
  (s.setStep id a.index (fun step =>
    { step with
      outcome := outcome
      runId := runId
      note := note
      startedAt := some a.startedAt
      finishedAt := some finishedAt
      round := some a.roundNo }), result)

def isDown : StepOutcome → Bool
  | .failed => true
  | .blocked => true
  | _ => false

def stepOutcome? (steps : List OrchestrationStep) (j : Nat) : Option StepOutcome :=
  (steps[j]?).map (·.outcome)

def downDependency (steps : List OrchestrationStep) (step : OrchestrationStep) : Option Nat :=
  step.dependsOn.find? (fun j => match stepOutcome? steps j with
    | some o => isDown o
    | none => false)

def blockReason (steps : List OrchestrationStep) (j : Nat) : String :=
  match steps[j]? with
  | none => ""
  | some dep => "blocked: depends on " ++ dep.taskId ++ " which " ++ dep.outcome.label

def blockPass (steps : List OrchestrationStep) : List OrchestrationStep :=
  steps.map (fun step =>
    if step.outcome = .pending then
      match downDependency steps step with
      | none => step
      | some j => { step with outcome := .blocked, note := some (blockReason steps j) }
    else step)

def isBlockable (steps : List OrchestrationStep) (step : OrchestrationStep) : Bool :=
  step.outcome == .pending && (downDependency steps step).isSome

def pendingCount (steps : List OrchestrationStep) : Nat :=
  steps.countP (fun step => step.outcome == .pending)

/-- Passes until one has nothing to block. Every other pass blocks a pending step, so as
many passes as there are steps are enough. -/
def blockPasses : Nat → List OrchestrationStep → List OrchestrationStep
  | 0, steps => steps
  | fuel + 1, steps =>
    if steps.any (isBlockable steps) then blockPasses fuel (blockPass steps) else steps

def propagateDependencyBlocks (s : KernelState) (id : OrchestrationId) : Nat × KernelState :=
  match s.orchestrations.get? id with
  | none => (0, s)
  | some o =>
    let steps := blockPasses o.steps.length o.steps
    (pendingCount o.steps - pendingCount steps,
      { s with orchestrations := s.orchestrations.modify id (fun o => { o with steps := steps }) })

structure PreparedBrief where
  attempt : Attempt
  plan : CliExecPlan

structure RoundPrep where
  ranInline : Nat
  prepared : List PreparedBrief

def RoundPrep.ran (p : RoundPrep) : Bool := 0 < p.ranInline || !p.prepared.isEmpty

def isReady (steps : List OrchestrationStep) (step : OrchestrationStep) : Bool :=
  step.outcome == .pending && step.dependsOn.all (fun j => match stepOutcome? steps j with
    | some o => o == .completed
    | none => true)

def readySteps (s : KernelState) (id : OrchestrationId) : List (Nat × TaskId × AgentId) :=
  match s.orchestrations.get? id with
  | none => []
  | some o => ((o.steps.zipIdx).filter (fun e => isReady o.steps e.1)).map
      (fun e => (e.2, e.1.taskId, e.1.agentId))

def recordInline (s : KernelState) (id : OrchestrationId) (a : Attempt)
    (exec : Except KernelError RunId) (prep : RoundPrep) (result : OrchestrationBatchResult) :
    KernelState × RoundPrep × OrchestrationBatchResult :=
  let recorded := recordBriefOutcome s.tick id a exec s.stamp result
  (recorded.1, { prep with ranInline := prep.ranInline + 1 }, recorded.2)

/-- One ready brief: started, and either executed to its end or prepared for its process. -/
def attemptBrief (w : World) (s : KernelState) (id : OrchestrationId) (a : Attempt)
    (adapter : Option PluginId) (prep : RoundPrep) (result : OrchestrationBatchResult) :
    KernelState × RoundPrep × OrchestrationBatchResult :=
  match adapter with
  | none =>
    let exec := executeAssignedRun w s a.taskId
    recordInline exec.2 id a exec.1 prep result
  | some adapterId =>
    if recognizeAdapterKind adapterId = some .localPrime then
      let exec := executeLocalRun w s a.taskId
      recordInline exec.2 id a exec.1 prep result
    else match prepareCliRun w s a.taskId adapterId with
      | (.error e, s) => recordInline s id a (.error e) prep result
      | (.ok plan, s) =>
        (s.setStep id a.index (fun step =>
            { step with
              runId := some plan.runId
              startedAt := some a.startedAt
              round := some a.roundNo }),
          { prep with prepared := prep.prepared ++ [⟨a, plan⟩] }, result)

def prepareBrief (w : World) (s : KernelState) (id : OrchestrationId) (roundNo : Nat)
    (brief : Nat × TaskId × AgentId) (prep : RoundPrep) (result : OrchestrationBatchResult) :
    KernelState × RoundPrep × OrchestrationBatchResult :=
  let result := { result with ran := result.ran + 1 }
  let attempt : Attempt := ⟨brief.1, roundNo, brief.2.2, brief.2.1, s.stamp⟩
  let s := s.tick
  let adapter := (s.agents.get? brief.2.2).map (·.adapterPlugin)
  let needsStart := match s.tasks.get? brief.2.1 with
    | some t => startsFresh t.status
    | none => false
  if needsStart then
    match startRun w s brief.2.1 with
    | (.error e, s) => recordInline s id attempt (.error e) prep result
    | (.ok _, s) => attemptBrief w s id attempt adapter prep result
  else attemptBrief w s id attempt adapter prep result

def prepareBriefs (w : World) (id : OrchestrationId) (roundNo : Nat) :
    KernelState → RoundPrep → OrchestrationBatchResult → List (Nat × TaskId × AgentId) →
      KernelState × RoundPrep × OrchestrationBatchResult
  | s, prep, result, [] => (s, prep, result)
  | s, prep, result, brief :: rest =>
    let next := prepareBrief w s id roundNo brief prep result
    prepareBriefs w id roundNo next.1 next.2.1 next.2.2 rest

def prepareOrchestrationRound (w : World) (s : KernelState) (id : OrchestrationId)
    (max concurrency roundNo : Nat) (result : OrchestrationBatchResult) :
    KernelState × RoundPrep × OrchestrationBatchResult :=
  if clampMax max ≤ result.ran then (s, ⟨0, []⟩, result)
  else
    let propagated := propagateDependencyBlocks s id
    let result := { result with dependencyBlocked := result.dependencyBlocked + propagated.1 }
    let take := min (clampConcurrency concurrency) (clampMax max - result.ran)
    prepareBriefs w id roundNo propagated.2 ⟨0, []⟩ result
      ((readySteps propagated.2 id).take take)

def finalizePreparedBrief (w : World) (s : KernelState) (id : OrchestrationId)
    (brief : PreparedBrief) (outcome : Except String AdapterRunOutcome)
    (result : OrchestrationBatchResult) : KernelState × OrchestrationBatchResult :=
  let exec := finalizeCliRun w s brief.plan outcome
  recordBriefOutcome exec.2.tick id brief.attempt exec.1 exec.2.stamp result

def finalizePrepared (w : World) (id : OrchestrationId) :
    KernelState → OrchestrationBatchResult → List PreparedBrief →
      KernelState × OrchestrationBatchResult
  | s, result, [] => (s, result)
  | s, result, brief :: rest =>
    let next := finalizePreparedBrief w s id brief (w.runAdapterCommand brief.plan) result
    finalizePrepared w id next.1 next.2 rest

def batchStatus (steps : List OrchestrationStep) : OrchestrationStatus :=
  if 0 < pendingCount steps then .running
  else if steps.any (fun step => isDown step.outcome) then .needsAttention
  else .completed

def waitingCount (steps : List OrchestrationStep) : Nat :=
  steps.countP (fun step => step.outcome == .pending &&
    step.dependsOn.any (fun j => match stepOutcome? steps j with
      | some o => o != .completed
      | none => false))

def batchSummary (r : OrchestrationBatchResult) : String :=
  toString r.rounds ++ " round(s), up to " ++ toString r.concurrency ++
    " brief(s) at a time: " ++ toString r.ran ++ " ran (" ++ toString r.completed ++
    " completed, " ++ toString r.failed ++ " failed, " ++ toString r.blocked ++
    " blocked); " ++ toString r.dependencyBlocked ++ " blocked by a failed dependency; " ++
    toString r.waiting ++ " waiting on a dependency; " ++ toString r.pending ++ " pending."

def batchNextAction (r : OrchestrationBatchResult) : String :=
  match r.status with
  | .completed => "All briefs completed. Review the runs."
  | .running =>
    if 0 < r.waiting then toString r.pending ++ " brief(s) pending (" ++ toString r.waiting ++
      " waiting on a dependency that has not completed). Run the orchestration again to " ++
      "continue."
    else "Run the orchestration again to continue " ++ toString r.pending ++ " remaining brief(s)."
  | .needsAttention => toString (r.blocked + r.failed + r.dependencyBlocked) ++
      " brief(s) need attention. Blocked briefs need their adapter runtime enabled, an " ++
      "upstream brief retried, or reassignment; failed briefs can be retried. Then run again."
  | .planned => "Run the orchestration to start the briefs."

def closeBatch (steps : List OrchestrationStep) (dependencyBlocked : Nat)
    (result : OrchestrationBatchResult) : OrchestrationBatchResult :=
  let counted := { result with
    dependencyBlocked := result.dependencyBlocked + dependencyBlocked
    pending := pendingCount steps
    waiting := waitingCount steps
    status := batchStatus steps }
  { counted with summary := batchSummary counted, nextAction := batchNextAction counted }

def finalizeOrchestrationBatch (s : KernelState) (id : OrchestrationId)
    (result : OrchestrationBatchResult) : Except KernelError OrchestrationBatchResult ×
      KernelState :=
  let propagated := propagateDependencyBlocks s id
  match propagated.2.orchestrations.get? id with
  | none => (.error (.unknownOrchestration id), s)
  | some o =>
    let closed := closeBatch o.steps propagated.1 result
    let s := { propagated.2.tick with
      orchestrations := propagated.2.orchestrations.modify id (fun o =>
        { o with
          status := closed.status
          updatedAt := propagated.2.stamp
          lastBatchSummary := some closed.summary }) }
    (.ok closed, recordAudit s "agent" "prime" "orchestration:batch" (some "orchestration")
      (some id) (if 0 < closed.failed ∨ 0 < closed.blocked ∨ 0 < closed.dependencyBlocked
        then .failed else .success))

def runRounds (w : World) (id : OrchestrationId) (max concurrency : Nat) :
    Nat → KernelState → Nat → OrchestrationBatchResult →
      Option (KernelState × OrchestrationBatchResult)
  | 0, _, _, _ => none
  | fuel + 1, s, roundNo, result =>
    match prepareOrchestrationRound w s id max concurrency (roundNo + 1) result with
    | (s, prep, result) =>
      if ¬ prep.ran then some (s, { result with rounds := roundNo })
      else
        let finished := finalizePrepared w id s result prep.prepared
        runRounds w id max concurrency fuel finished.1 (roundNo + 1) finished.2

def runOrchestration (w : World) (fuel : Nat) (s : KernelState) (id : OrchestrationId)
    (max concurrency : Nat) :
    Option (Except KernelError OrchestrationBatchResult × KernelState) :=
  match newOrchestrationBatchResult s id concurrency with
  | .error e => some (.error e, s)
  | .ok result =>
    (runRounds w id max concurrency fuel s 0 result).map
      (fun done => finalizeOrchestrationBatch done.1 id done.2)

end Relux
