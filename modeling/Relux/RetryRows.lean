import Relux.RetryLane

/-! What the steps of runs do to the lineage of retries: they link no run to another, and leave
the budget of a run that has one, unless they diagnose it once more. -/

namespace Relux.BriefRuns

def RunRecord.budget (r : RunRecord) : Int := r.diagnosis.retryBudgetRemaining.getD 0

def RunStore.Retried (s : RunStore) (source child : String) : Prop :=
  ∃ row, s.runs.get? child = some row ∧ row.retriedFromRunId = some source

def Task.Unspent (s : RunStore) (t : Task) : Prop :=
  ∀ id row, t.diagnoses = some id → s.runs.get? id = some row → row.budget ≤ 0

structure RunStore.Tame (s s' : RunStore) (born : Option String) : Prop where
  back : ∀ id row', s'.runs.get? id = some row' →
    (∃ row, s.runs.get? id = some row ∧ row'.retriedFromRunId = row.retriedFromRunId) ∨
      (born = some id ∧ s.runs.get? id = none ∧ row'.retriedFromRunId = none)
  kept : ∀ id row, s.runs.get? id = some row →
    ∃ row', s'.runs.get? id = some row' ∧ (1 ≤ row.budget → 1 ≤ row'.budget)
  keyed : s.runs.KeyedBy (·.runId) → s'.runs.KeyedBy (·.runId)
  named : ∀ id b' runId, s'.briefs.get? id = some b' → b'.names runId = true →
    ∃ b, s.briefs.get? id = some b ∧ b.names runId = true ∧ b'.claimAgentId = b.claimAgentId

namespace RunStore

variable {s s' : RunStore} {born : Option String}

variable {runId : String}

end RunStore

def Task.born (choice : Choice) : Task → Option String
  | .opening run => some run.runId
  | .refusing _ _ _ _ _ _ =>
    match choice with
    | .draws id => some ("ref_" ++ id)
    | _ => none
  | _ => none

def Task.links : Task → Bool
  | .linking _ _ _ => true
  | _ => false

section
variable {s s' : Shared} {t t' : Task} {choice : Choice} {r : Except CoordinatorError RunStore}
  {born : Option String}

end

end Relux.BriefRuns
