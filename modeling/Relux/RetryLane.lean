import Mathlib.Data.List.Sort
import Relux.Numbers
import Relux.RunDesk

/-! The retries of failed runs: the claims of Briefs, the check of a source run, the start of its
child under the Operative's start lock, the link of the child to its source, and the lane that
opens retries on its own. -/

namespace Relux.BriefRuns

open Admission (normTenant)

def Brief.names (b : Brief) (runId : String) : Bool :=
  b.executionRunId == some runId || b.checkoutRunId == some runId

namespace RunStore

variable (s : RunStore)

end RunStore

structure RetryCandidate where
  runId : String
  briefId : String
  tenant : String
  deriving DecidableEq, Repr

inductive RetryOpen
  | notFound
  | alreadyRetried (childRunId : String)
  | refused (status summary : String)
  | ready (childRunId : String) (attempt : Int)
  deriving DecidableEq, Repr

structure RecoveryRecord where
  sourceRunId : String
  briefId : String
  outcome : String
  childRunId : Option String
  detail : Option String
  deriving DecidableEq, Repr

def RetryOpen.record (cand : RetryCandidate) : RetryOpen → RecoveryRecord
  | notFound => ⟨cand.runId, cand.briefId, "not_found", none, none⟩
  | alreadyRetried child => ⟨cand.runId, cand.briefId, "already_retried", some child, none⟩
  | refused _ summary => ⟨cand.runId, cand.briefId, "refused", none, some summary⟩
  | ready child _ => ⟨cand.runId, cand.briefId, "opened", some child, none⟩

/-- Who opens a retry: an operator, or a tick of the lane, with the candidates that it has still
to come to and what it recorded of those before. -/
inductive Provenance
  | operator
  | autonomous (cand : RetryCandidate) (rest : List RetryCandidate) (records : List RecoveryRecord)

structure Retry where
  runId : String
  tenant : String
  provenance : Provenance

structure Attempt extends Retry where
  briefId : String
  attempt : Int

structure Start extends Attempt where
  assignee : String
  rig : String

structure RetryDesk extends Shared where
  /-- The Operatives whose start lock is held. -/
  starting : List String
  /-- No part of the store: the ids that were drawn for runs, those of them that were drawn for
  retries, the retries that the lane opened, and those that gave up after the draw. -/
  drawn : List String
  retries : List String
  opened : List String
  lost : List String

inductive Lane
  | desk (t : Task)
  | starting (run : NewRun)
  | ticking (max : Nat) (tenant : Option String)
  | deciding (candidates : List RetryCandidate) (records : List RecoveryRecord)
  | checking (r : Retry)
  | loading (r : Retry)
  | searching (r : Retry) (source : RunRecord)
  | placing (r : Retry) (source : RunRecord) (briefId : String)
  | preflighting (a : Attempt)
  | entering (st : Start)
  | guarding (st : Start)
  | reclaiming (st : Start)
  | claiming (st : Start)
  | preparing (st : Start) (runId : String)
  | abandoning (st : Start) (runId status summary : String)
  | recording (st : Start) (run : NewRun)
  | leaving (st : Start) (run : NewRun)
  | linking (st : Start) (run : NewRun)
  | running (cand : RetryCandidate) (rest : List RetryCandidate) (records : List RecoveryRecord)
      (child : String) (attempt : Int) (t : Task)
  | answered (result : Except String RetryOpen)
  | recovered (result : Except String (List RecoveryRecord))

/-- What the code does not choose: ids that are drawn, what is decided of a candidate, what the
Rig and the workspace turn out to be, and what a run chooses. -/
inductive Pick
  | go
  | desk (choice : Choice)
  | draws (id checkout : String)
  | skip
  | noRig
  | unavailable (detail : String)
  | rig (name : String)
  | noWorkspace (status message : String)
  | workspace (path context : Option String) (files bytes : Option Int)

def Retry.settled (r : Retry) (result : RetryOpen) : Lane :=
  match r.provenance with
  | .operator => .answered (.ok result)
  | .autonomous cand rest records => .deciding rest (records ++ [result.record cand])

def Retry.failed (r : Retry) (e : CoordinatorError) : Lane :=
  match r.provenance with
  | .operator => .answered (.error e.text)
  | .autonomous _ _ _ => .recovered (.error e.text)

namespace RetryDesk

variable (s : RetryDesk)

def withStore (store : RunStore) : RetryDesk := { s with toRunStore := store }

def fresh (id : String) : Bool :=
  !s.drawn.contains id && (s.runs.get? id).isNone && s.briefs.values.all (fun b => !b.names id) &&
    trim id == id

end RetryDesk

section
variable (leaseSecs : Int) (s : RetryDesk)

end

def Lane.isCall : Lane → Bool
  | .desk (.opening _) => false
  | .desk (.linking _ _ _) => false
  | .desk t => t.isCall
  | .starting _ => true
  | .ticking _ _ => true
  | .checking ⟨_, _, .operator⟩ => true
  | _ => false

end Relux.BriefRuns
