import Mathlib.Data.List.Sort
import Mathlib.Data.List.Dedup
import Relux.HashMap
import Relux.Transition

/-! The Chronicle of the tasks and its retention: a run counts the old events of each finished
task in a snapshot and then deletes them, so many a pass. -/

namespace Relux.Retention

def MAX_ROWS_PER_RETENTION_PASS : Nat := 1000

def snapshotType : String := "task.snapshot"

def terminal (status : String) : Bool :=
  status ∈ ["completed", "failed", "cancelled", "interrupted"]

structure CompactionSummary where
  eventCount : Nat
  firstTs : Option Int
  lastTs : Option Int
  finalStatus : String
  deriving DecidableEq

/-- A row of `task_events`; `summary` is the `payload_json` of a snapshot. -/
structure Event where
  eventId : Nat
  taskId : String
  ts : Int
  eventType : String
  payload : String
  summary : Option CompactionSummary
  deriving DecidableEq

structure TaskStore where
  tasks : HashMap String String
  events : List Event
  nextId : Nat

def tsText (ts : Option Int) : String := (ts.map toString).getD "—"

def snapshotPayload (summary : CompactionSummary) : String :=
  s!"task.snapshot: compacted {summary.eventCount} events ({tsText summary.firstTs} → " ++
    s!"{tsText summary.lastTs}); final_status={summary.finalStatus}"

namespace TaskStore

variable (s : TaskStore)

def isTerminal (taskId : String) : Bool := (s.tasks.get? taskId).any terminal

def old (cutoff ts : Int) (eventType : String) : Bool := ts < cutoff && eventType != snapshotType

def matching (cutoff : Int) : List Event :=
  s.events.filter (fun e => old cutoff e.ts e.eventType && s.isTerminal e.taskId)

/-- `rank` is the order in which the database gives the rows, which no statement asks for. -/
def candidateTasks (cutoff : Int) (rank : String → Nat) : List (String × String) :=
  ((s.matching cutoff).map
    (fun e => (e.taskId, (s.tasks.get? e.taskId).getD ""))).dedup.insertionSort
      (fun a b => rank a.1 ≤ rank b.1)

def oldEvents (taskId : String) (cutoff : Int) : List Event :=
  s.events.filter (fun e => e.taskId == taskId && old cutoff e.ts e.eventType)

def computeCompactionSummary (taskId : String) (cutoff : Int) (finalStatus : String) :
    CompactionSummary where
  eventCount := (s.oldEvents taskId cutoff).length
  firstTs := ((s.oldEvents taskId cutoff).map (·.ts)).min?
  lastTs := ((s.oldEvents taskId cutoff).map (·.ts)).max?
  finalStatus := finalStatus

def insertEvent (taskId : String) (ts : Int) (eventType payload : String)
    (summary : Option CompactionSummary) : TaskStore :=
  { s with
    events := s.events ++ [⟨s.nextId, taskId, ts, eventType, payload, summary⟩]
    nextId := s.nextId + 1 }

def emitSnapshotEvent (taskId : String) (summary : CompactionSummary) (now : Int) : TaskStore :=
  s.insertEvent taskId now snapshotType (snapshotPayload summary) (some summary)

def picked (cutoff : Int) (rank : Nat → Nat) : List Event :=
  ((s.matching cutoff).insertionSort (fun a b => rank a.eventId ≤ rank b.eventId)).take
    MAX_ROWS_PER_RETENTION_PASS

def without (rows : List Event) : TaskStore :=
  { s with events := s.events.filter (fun e => decide (e.eventId ∉ rows.map (·.eventId))) }

def createTask (taskId status : String) : TaskStore :=
  if (s.tasks.get? taskId).isSome then s else { s with tasks := s.tasks.insert taskId status }

def update (taskId status : String) : TaskStore :=
  { s with tasks := s.tasks.modify taskId (fun _ => status) }

def appendEvent (taskId : String) (now : Int) (eventType payload : String) : TaskStore :=
  if (s.tasks.get? taskId).isSome then s.insertEvent taskId now eventType payload none else s

end TaskStore

/-- Between two locks a run is about to summarise a task, to put its snapshot, or, with no
candidates left, to delete. -/
inductive Phase
  | summarise
  | emit (taskId : String) (summary : CompactionSummary) (covered : List Event)
  deriving DecidableEq

structure RetentionResult where
  cutoffTs : Int
  tasksCompacted : Nat
  eventsDeleted : Nat
  snapshotsEmitted : Nat
  passesRun : Nat
  stoppedAtPassLimit : Bool
  deriving DecidableEq

structure RetentionRun where
  maxPasses : Nat
  phase : Phase
  candidates : List (String × String)
  result : RetentionResult

def RetentionRun.cutoff (r : RetentionRun) : Int := r.result.cutoffTs

structure Entry where
  eventId : Nat
  taskId : String
  covered : List Event
  deriving DecidableEq

/-- The store, the run under way and what the last ones answered; and on the side all snapshots
and all events that were deleted. -/
structure State where
  store : TaskStore
  running : Option RetentionRun
  results : List RetentionResult
  ledger : List Entry
  deleted : List Event

def State.advance (s : State) (r : RetentionRun) (now : Int) (rank : Nat → Nat) : State :=
  match r.phase with
  | .emit taskId summary covered =>
    { s with
      store := s.store.emitSnapshotEvent taskId summary now
      ledger := s.ledger ++ [⟨s.store.nextId, taskId, covered⟩]
      running := some { r with
        phase := .summarise
        result := { r.result with snapshotsEmitted := r.result.snapshotsEmitted + 1 } } }
  | .summarise =>
    match r.candidates with
    | (taskId, finalStatus) :: candidates =>
      if (s.store.computeCompactionSummary taskId r.cutoff finalStatus).eventCount = 0 then
        { s with running := some { r with candidates := candidates } }
      else { s with running := some { r with
        candidates := candidates
        phase := .emit taskId (s.store.computeCompactionSummary taskId r.cutoff finalStatus)
          (s.store.oldEvents taskId r.cutoff) } }
    | [] =>
      if r.maxPasses ≤ r.result.passesRun then
        { s with
          running := none
          results := s.results ++ [{ r.result with stoppedAtPassLimit := true }] }
      else if (s.store.picked r.cutoff rank).isEmpty then
        { s with running := none, results := s.results ++ [r.result] }
      else { s with
        store := s.store.without (s.store.picked r.cutoff rank)
        deleted := s.deleted ++ s.store.picked r.cutoff rank
        running := some { r with result := { r.result with
          eventsDeleted := r.result.eventsDeleted + (s.store.picked r.cutoff rank).length
          passesRun := r.result.passesRun + 1 } } }

/-- What happens to the store: the calls of others, and the steps of the runs, one run at a
time. -/
inductive Op
  | createTask (taskId status : String)
  | update (taskId status : String)
  | appendEvent (taskId : String) (now : Int) (eventType payload : String)
  | runRetention (cutoff : Int) (maxPasses : Nat) (rank : String → Nat)
  | advance (now : Int) (rank : Nat → Nat)

def Op.step (s : State) : Op → State
  | createTask taskId status => { s with store := s.store.createTask taskId status }
  | update taskId status => { s with store := s.store.update taskId status }
  | appendEvent taskId now eventType payload =>
    { s with store := s.store.appendEvent taskId now eventType payload }
  | runRetention cutoff maxPasses rank =>
    match s.running with
    | some _ => s
    | none =>
      { s with running := some ⟨maxPasses, .summarise, s.store.candidateTasks cutoff rank,
        ⟨cutoff, (s.store.candidateTasks cutoff rank).length, 0, 0, 0, false⟩⟩ }
  | advance now rank =>
    match s.running with
    | some r => s.advance r now rank
    | none => s

def State.initial : State := ⟨⟨HashMap.empty, [], 1⟩, none, [], [], []⟩

end Relux.Retention
