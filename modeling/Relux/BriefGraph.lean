import Relux.Admission.AgentStore
import Relux.Chains
import Relux.HashMap
import Relux.Text
import Relux.Transition

/-! The edges between Briefs: who is whose Sub-brief, who waits for whom, and the guards of the
calls that put them there. -/

namespace Relux.BriefGraph

open Admission (normTenant)
open Chains (search)

inductive EdgeType
  | spawned
  | blockedOn
  | delegatedTo
  | awaited
  deriving DecidableEq, Repr

def EdgeType.asStr : EdgeType → String
  | spawned => "spawned"
  | blockedOn => "blocked_on"
  | delegatedTo => "delegated_to"
  | awaited => "awaited"

structure Edge where
  taskId : String
  edgeType : EdgeType
  relatedTaskId : String
  deriving DecidableEq, Repr

inductive CoordinatorError
  | notFound (id : String)
  | invalid (message : String)
  deriving DecidableEq, Repr

structure Guild where
  name : String
  normal : normTenant name = name
  deriving DecidableEq

structure TaskStore where
  tenants : HashMap String (Option Guild)
  edges : List Edge

def MAX_SUBBRIEF_DELEGATION_DEPTH : Nat := 1024

def MAX_NODES : Nat := 10000

def MAX_EXPANSIONS : Nat := 100000

def MAX_OPERATOR_NOTE_LEN : Nat := 2000

abbrev Answer := Except CoordinatorError Unit × TaskStore

namespace TaskStore

variable (s : TaskStore)

def taskRowExists (taskId : String) : Bool := (s.tenants.get? taskId).isSome

def taskTenant (taskId : String) : Option String :=
  (s.tenants.get? taskId).map (fun tenant => (tenant.map (·.name)).getD "default")

def related (edgeType : EdgeType) (taskId : String) : List String :=
  (s.edges.filter (fun e => e.taskId = taskId ∧ e.edgeType = edgeType)).map (·.relatedTaskId)

def hasEdge (taskId : String) (edgeType : EdgeType) (relatedId : String) : Bool :=
  s.edges.contains ⟨taskId, edgeType, relatedId⟩

def insertEdge (taskId : String) (edgeType : EdgeType) (relatedId : String) : TaskStore :=
  { s with edges := s.edges ++ [⟨taskId, edgeType, relatedId⟩] }

def parentsIn (tenant node : String) : List String :=
  ((s.edges.filter (fun e => e.relatedTaskId = node ∧ e.edgeType = .spawned)).map (·.taskId)).filter
    (fun p => s.taskTenant p = some tenant)

def depthLoop (parents : String → List String) : Nat → HashMap String Nat →
    List (String × Nat) → Nat → Nat
  | 0, _, _, maxDepth => maxDepth
  | _ + 1, _, [], maxDepth => maxDepth
  | n + 1, best, (node, depth) :: stack, maxDepth =>
    if (best.get? node).any (fun prev => decide (depth ≤ prev)) then
      depthLoop parents n best stack maxDepth
    else depthLoop parents n (best.insert node depth)
      (((parents node).map (fun p => (p, depth + 1))).reverse ++ stack) (max maxDepth depth)

def delegationDepthInTenant (brief tenant : String) : Nat :=
  depthLoop (s.parentsIn (normTenant tenant)) MAX_EXPANSIONS .empty [(brief, 0)] 0

def briefDelegationDepth (brief : String) : Option Nat :=
  (s.taskTenant brief).map (s.delegationDepthInTenant brief)

def tooDeep (parent : String) : Bool :=
  (s.briefDelegationDepth parent).any (fun depth => decide (MAX_SUBBRIEF_DELEGATION_DEPTH < depth + 1))

/-- The search for a way back from `relatedId` to the Brief. -/
def findsCycle (taskId : String) (edgeType : EdgeType) (relatedId : String) : Bool :=
  search (s.related edgeType) taskId MAX_NODES [] [relatedId]

def addBriefEdge (taskId relatedId : String) (edgeType : EdgeType) (label : String) : Answer :=
  if taskId = relatedId then (.error (.invalid s!"a Brief cannot be its own {label}"), s)
  else if !s.taskRowExists taskId then (.error (.notFound taskId), s)
  else if !s.taskRowExists relatedId then (.error (.notFound relatedId), s)
  else if s.findsCycle taskId edgeType relatedId then
    (.error (.invalid s!"{label} would create a cycle"), s)
  else if s.hasEdge taskId edgeType relatedId then (.ok (), s)
  else (.ok (), s.insertEdge taskId edgeType relatedId)

def linkSubbrief (parent child : String) : Answer :=
  if !s.hasEdge parent .spawned child && s.tooDeep parent then
    (.error (.invalid ("Sub-brief would exceed the max delegation depth of " ++
      s!"{MAX_SUBBRIEF_DELEGATION_DEPTH} (parent \x60{parent}\x60 is already at delegation depth " ++
      s!"{(s.briefDelegationDepth parent).getD 0})")), s)
  else s.addBriefEdge parent child .spawned "Sub-brief"

def addSnag (task blocker : String) : Answer := s.addBriefEdge task blocker .blockedOn "Snag"

def wantedBlockers (task : String) : List String → List String →
    Except CoordinatorError (List String)
  | want, [] => .ok want
  | want, b :: blockers =>
    if (trim b).isEmpty then wantedBlockers task want blockers
    else if trim b = task then .error (.invalid "a Brief cannot be its own Snag")
    else if !s.taskRowExists (trim b) then .error (.notFound (trim b))
    else if trim b ∈ want then wantedBlockers task want blockers
    else wantedBlockers task (want ++ [trim b]) blockers

def insertBlockers (task : String) : TaskStore → List String → Except CoordinatorError TaskStore
  | s, [] => .ok s
  | s, b :: want =>
    if s.findsCycle task .blockedOn b then .error (.invalid "Snag would create a cycle")
    else insertBlockers task (s.insertEdge task .blockedOn b) want

def withoutSnags (task : String) : TaskStore :=
  { s with edges := s.edges.filter (fun e => ¬(e.taskId = task ∧ e.edgeType = .blockedOn)) }

def setBriefBlockers (task : String) (blockers : List String) : Answer :=
  if !s.taskRowExists task then (.error (.notFound task), s)
  else match s.wantedBlockers task [] blockers with
    | .error e => (.error e, s)
    | .ok want =>
      -- `BEGIN`, and `ROLLBACK` on an error
      match insertBlockers task (s.withoutSnags task) want with
      | .error e => (.error e, s)
      | .ok s' => (.ok (), s')

def recordCrossTaskEdge (parent relatedId : String) (edgeType : EdgeType)
    (reason : Option String) : Answer :=
  let trimmedReason := (reason.map trim).filter (fun r => !r.isEmpty)
  if parent = relatedId then
    (.error (.invalid (s!"{edgeType.asStr}: parent and related task_id must differ " ++
      "(intra-task edges have dedicated types)")), s)
  else if trimmedReason.any (fun r => decide (MAX_OPERATOR_NOTE_LEN < r.utf8ByteSize)) then
    (.error (.invalid (s!"{edgeType.asStr}: reason exceeds {MAX_OPERATOR_NOTE_LEN} bytes (got " ++
      toString (trimmedReason.getD "").utf8ByteSize ++ ")")), s)
  else if !s.taskRowExists parent then (.error (.notFound parent), s)
  else if !s.taskRowExists relatedId then (.error (.notFound relatedId), s)
  else (.ok (), s.insertEdge parent edgeType relatedId)

end TaskStore

inductive GraphOp
  | linkSubbrief (parent child : String)
  | addSnag (task blocker : String)
  | setBriefBlockers (task : String) (blockers : List String)
  | recordSpawned (parent child : String)
  | recordDelegated (parent child : String) (reason : Option String)
  | recordAwaited (parent awaited : String) (reason : Option String)

def GraphOp.exec (s : TaskStore) : GraphOp → Answer
  | linkSubbrief parent child => s.linkSubbrief parent child
  | addSnag task blocker => s.addSnag task blocker
  | setBriefBlockers task blockers => s.setBriefBlockers task blockers
  | recordSpawned parent child => s.recordCrossTaskEdge parent child .spawned none
  | recordDelegated parent child reason => s.recordCrossTaskEdge parent child .delegatedTo reason
  | recordAwaited parent awaited reason => s.recordCrossTaskEdge parent awaited .awaited reason

def GraphOp.step (s : TaskStore) (op : GraphOp) : TaskStore := (op.exec s).2

end Relux.BriefGraph
