import Relux.RunDesk

/-! Which steps leave a run that has ended as it ended: all but a finish that comes for one. -/

namespace Relux.BriefRuns

open Crowd (Runs Step Label)

def RunRecord.Terminal (r : RunRecord) : Prop := r.status ∈ terminalStatuses

instance (r : RunRecord) : Decidable r.Terminal :=
  inferInstanceAs (Decidable (r.status ∈ terminalStatuses))

def RunRecord.ending (r : RunRecord) : String × Option Int := (r.status, r.finishedAt)

def RunStore.Final (s s' : RunStore) : Prop :=
  ∀ id row, s.runs.get? id = some row → row.Terminal →
    ∃ row', s'.runs.get? id = some row' ∧ row'.ending = row.ending

/-- A finish of the run as `status` finds it not ended, or ended just so at this moment. -/
def RunStore.Ends (s : RunStore) (runId status : String) : Prop :=
  ∀ row, s.runs.get? runId = some row → row.Terminal → row.ending = (status, some s.now)

def Task.EndsOnce (s : RunStore) : Task → Prop
  | .finishing run outcome => s.Ends run.runId outcome.status
  | .recovering (row :: _) => s.Ends row.1 "interrupted"
  | _ => True

def EndsOnce (c : Crowd Shared Task) (l : Label Task) : Prop :=
  ∀ i t, l = .run i → c.tasks[i]? = some t → t.EndsOnce c.shared.toRunStore

variable {runId : String}

section
variable {s s' : RunStore}

theorem final_of_runs (h : s'.runs = s.runs) : s.Final s' := by
  intro id row hrow _
  exact ⟨row, h ▸ hrow, rfl⟩

theorem RunStore.Final.trans {s'' : RunStore} (h : s.Final s') (h' : s'.Final s'') :
    s.Final s'' := by
  intro id row hrow hterminal
  obtain ⟨row', hrow', hending⟩ := h id row hrow hterminal
  have hterminal' : row'.Terminal := by
    have hstatus : row'.status = row.status := congrArg Prod.fst hending
    unfold RunRecord.Terminal at *
    rw [hstatus]
    exact hterminal
  obtain ⟨row'', hrow'', hending'⟩ := h' id row' hrow' hterminal'
  exact ⟨row'', hrow'', hending'.trans hending⟩

theorem modifyRun_final (s : RunStore) (runId : String) {f : RunRecord → RunRecord}
    (hf : ∀ r, (f r).ending = r.ending) : s.Final (s.modifyRun runId f) := by
  intro id row hrow _
  refine ⟨_, HashMap.modify_of_some hrow runId f, ?_⟩
  split
  · exact hf row
  · rfl

theorem insert_final {id : String} {row : RunRecord} (hnew : s.runs.get? id = none)
    (hruns : s'.runs = s.runs.insert id row) : s.Final s' := by
  intro id' row' hrow _
  refine ⟨row', ?_, rfl⟩
  rw [hruns]
  exact HashMap.insert_of_some hrow hnew row

theorem recordRunStart_final (s : RunStore) (run : NewRun) : s.Final (s.recordRunStart run) := by
  unfold RunStore.recordRunStart
  by_cases hthere : (s.runs.get? run.runId).isSome = true
  · rw [if_pos hthere]
    exact final_of_runs rfl
  · rw [if_neg hthere]
    exact insert_final (Option.not_isSome_iff_eq_none.mp hthere) rfl

theorem recordRefusedRun_final {briefId agentId rig reason summary trigger : String}
    (h : s.recordRefusedRun runId briefId agentId rig reason summary trigger = some s') :
    s.Final s' := by
  unfold RunStore.recordRefusedRun at h
  split at h
  · cases h
  · split at h
    · cases h
    next hfree =>
      cases h
      have hnew : ¬(s.runs.get? runId).isSome = true := fun hsome => hfree (.inr hsome)
      exact insert_final (Option.not_isSome_iff_eq_none.mp hnew) rfl

theorem setRunDiagnosis_final (s : RunStore) (runId : String) (diag : RunDiagnosis) :
    s.Final (s.setRunDiagnosis runId diag) :=
  modifyRun_final s runId (fun _ => rfl)

theorem linkRetryChild_final {childRunId sourceRunId : String} {attempt : Int}
    (h : s.linkRetryChild childRunId sourceRunId attempt = .ok s') : s.Final s' := by
  unfold RunStore.linkRetryChild at h
  split at h
  · cases h
  · cases h
    exact modifyRun_final s childRunId (fun _ => rfl)

theorem setRunReview_final {decision note : String}
    (h : s.setRunReview runId decision note = .ok s') : s.Final s' := by
  unfold RunStore.setRunReview at h
  split at h
  · cases h
  · split at h
    · cases h
    · split at h
      · cases h
        exact modifyRun_final s runId (fun _ => rfl)
      · cases h

theorem discardRun_final (h : s.discardRun runId = .ok s') : s.Final s' := by
  unfold RunStore.discardRun at h
  split at h
  · cases h
  · split at h
    · cases h
    · cases h
      refine modifyRun_final s runId (fun r => ?_)
      split <;> rfl

theorem setRunApplyStatus_final {status note : String} {appliedFiles failedFiles : Int}
    (h : s.setRunApplyStatus runId status note appliedFiles failedFiles = .ok s') : s.Final s' := by
  unfold RunStore.setRunApplyStatus at h
  split at h
  · cases h
  · cases h
    exact modifyRun_final s runId (fun _ => rfl)

theorem recordRunFinish_final_iff (s : RunStore) (runId status summary : String) :
    s.Final (s.recordRunFinish runId status summary) ↔ s.Ends runId status := by
  have hget : ∀ row, s.runs.get? runId = some row →
      ∃ row', (s.recordRunFinish runId status summary).runs.get? runId = some row' ∧
        row'.ending = (status, some s.now) := by
    intro row hrow
    unfold RunStore.recordRunFinish RunStore.modifyRun
    rw [HashMap.get?_modify, if_pos rfl, hrow]
    exact ⟨_, rfl, rfl⟩
  constructor
  · intro h row hrow hterminal
    obtain ⟨row', hrow', hending⟩ := h runId row hrow hterminal
    obtain ⟨row'', hrow'', hwritten⟩ := hget row hrow
    have heq : row' = row'' := Option.some.inj (hrow'.symm.trans hrow'')
    rw [← hending, heq, hwritten]
  · intro h id row hrow hterminal
    by_cases hid : id = runId
    · subst hid
      obtain ⟨row', hrow', hwritten⟩ := hget row hrow
      exact ⟨row', hrow', hwritten.trans (h row hrow hterminal).symm⟩
    · refine ⟨row, ?_, rfl⟩
      unfold RunStore.recordRunFinish RunStore.modifyRun
      rw [HashMap.get?_modify, if_neg hid]
      exact hrow

end

section
variable {s s' : Shared} {t t' : Task} {choice : Choice} {r : Except CoordinatorError RunStore}

theorem recorded_final (h : ∀ store, r = .ok store → s.toRunStore.Final store) :
    s.toRunStore.Final (recorded s r).toRunStore := by
  cases r with
  | error e => exact final_of_runs rfl
  | ok store => exact h store rfl

theorem answer_final {text : String} (h : ∀ store, r = .ok store → s.toRunStore.Final store) :
    s.toRunStore.Final (answer s r text).1.toRunStore := by
  cases r with
  | error e => exact final_of_runs rfl
  | ok store => exact h store rfl

def Keeps (s : Shared) (t : Task) (s' : Shared) : Prop :=
  s.toRunStore.Final s'.toRunStore ↔ t.EndsOnce s.toRunStore

theorem keeps_of_final (h : s.toRunStore.Final s'.toRunStore) (ht : t.finishes = false) :
    Keeps s t s' := by
  have honce : t.EndsOnce s.toRunStore := by
    cases t with
    | finishing run outcome => cases ht
    | recovering stale =>
      cases stale with
      | nil => trivial
      | cons row stale => cases ht
    | _ => trivial
  exact ⟨fun _ => honce, fun _ => h⟩

theorem step_keeps (h : step s choice t = some (s', t')) : Keeps s t s' := by
  cases step_acts h with
  | reads h => exact keeps_of_final (final_of_runs rfl) h.finishes
  | loads _ _ | writes _ | releases _ | frees _ _ => exact keeps_of_final (final_of_runs rfl) rfl
  | opens run => exact keeps_of_final (recordRunStart_final _ run) rfl
  | refuses _ hstore => exact keeps_of_final (recordRefusedRun_final hstore) rfl
  | stamps h _ => exact keeps_of_final (setRunDiagnosis_final _ _ _) h.finishes
  | finishes _ _ | interrupts _ _ => exact recordRunFinish_final_iff _ _ _ _
  | marks h =>
    exact keeps_of_final (recorded_final (fun store hs => setRunApplyStatus_final hs)) h.finishes
  | applies h _ => exact keeps_of_final (final_of_runs rfl) h.finishes
  | reviews h =>
    obtain rfl := congrArg Prod.fst h
    exact keeps_of_final (answer_final (fun store hs => setRunReview_final hs)) rfl
  | discards hstore => exact keeps_of_final (discardRun_final hstore) rfl
  | links h =>
    obtain rfl := congrArg Prod.fst h
    exact keeps_of_final (answer_final (fun store hs => linkRetryChild_final hs)) rfl

end

theorem step_final_iff {c c' : Crowd Shared Task} {l : Label Task} (h : Step service c l c') :
    c.shared.toRunStore.Final c'.shared.toRunStore ↔ EndsOnce c l := by
  cases h with
  | env h =>
    obtain ⟨now, briefs, rfl⟩ := h
    refine ⟨fun _ i t hl => ?_, fun _ => final_of_runs rfl⟩
    cases hl
  | spawn h =>
    obtain ⟨rfl, -⟩ := h
    refine ⟨fun _ i t hl => ?_, fun _ => final_of_runs rfl⟩
    cases hl
  | @run s s' ts i t t' fork hi h =>
    obtain ⟨-, choice, hstep⟩ := h
    refine (step_keeps hstep).trans ⟨fun honce j u hl hu => ?_, fun h => h i t rfl hi⟩
    cases hl
    rw [Option.some.inj (hu.symm.trans hi)]
    exact honce

/-- In every run of the service, from any state, in which no finish comes for a run that has
ended otherwise, the runs that have ended stay as they ended; and a step that is such a finish
changes one. -/
theorem terminal_status_final (c : Crowd Shared Task) :
    (∀ c', Runs service EndsOnce c c' → c.shared.toRunStore.Final c'.shared.toRunStore) ∧
      ∀ l c', Step service c l c' → ¬EndsOnce c l →
        ¬c.shared.toRunStore.Final c'.shared.toRunStore := by
  refine ⟨fun c' h => ?_, fun l c' h hnot hfinal => hnot ((step_final_iff h).mp hfinal)⟩
  induction h with
  | refl => exact final_of_runs rfl
  | tail _ hlast ih =>
    obtain ⟨l, hok, hstep⟩ := hlast
    exact ih.trans ((step_final_iff hstep).mpr hok)

def playerOf (allows : Crowd Shared Task → Label Task → Bool) :
    Crowd.Player Shared Task Choice Int where
  outside := fun s now => { s with now := now }
  starts := Task.isCall
  exec := fun s choice t => (step s choice t).map (fun r => (r.1, r.2, none))
  allows := allows

theorem playerOf_plays {allows : Crowd Shared Task → Label Task → Bool}
    {ok : Crowd Shared Task → Label Task → Prop} (hok : ∀ c l, allows c l = true → ok c l) :
    (playerOf allows).Plays service ok where
  env := by
    intro s now
    exact ⟨now, s.briefs, rfl⟩
  spawn := by
    intro s t ht
    exact ⟨rfl, ht⟩
  exec := by
    intro s choice t s' t' fork h
    obtain ⟨⟨s₁, t₁⟩, hstep, heq⟩ := Option.map_eq_some_iff.mp h
    cases heq
    exact ⟨rfl, choice, hstep⟩
  allows := hok

def player : Crowd.Player Shared Task Choice Int := playerOf (fun _ _ => true)

theorem player_plays : player.Plays service (fun _ _ => True) :=
  playerOf_plays (fun _ _ _ => trivial)

def cautious : Crowd.Player Shared Task Choice Int := playerOf (fun c l => match l with
  | .run i => (c.tasks[i]?).all (fun t => match t with
    | .finishing run _ => (c.shared.runs.get? run.runId).all (fun r => decide ¬r.Terminal)
    | .recovering (row :: _) => (c.shared.runs.get? row.1).all (fun r => decide ¬r.Terminal)
    | _ => true)
  | _ => true)

theorem ends_of_all {s : RunStore} {status : String}
    (h : (s.runs.get? runId).all (fun r => decide ¬r.Terminal) = true) : s.Ends runId status := by
  intro row hrow hterminal
  rw [hrow, Option.all_some] at h
  exact absurd hterminal (of_decide_eq_true h)

theorem cautious_plays : cautious.Plays service EndsOnce := by
  refine playerOf_plays (fun c l hallows i t hl ht => ?_)
  subst hl
  simp only [ht, Option.all_some] at hallows
  cases t with
  | finishing run outcome => exact ends_of_all hallows
  | recovering stale =>
    cases stale with
    | nil => trivial
    | cons row stale => exact ends_of_all hallows
  | _ => trivial

def emptyDesk : Crowd Shared Task where
  shared := ⟨⟨1700000000, .empty, .empty⟩, [], []⟩
  tasks := []

def sampleRun : NewRun :=
  ⟨"run_1", "brief_1", "agt_1", "codex", "manual", some "/ws/run_1", some "empty", none, none⟩

def sweptRun : List (Crowd.Play Task Choice Int) :=
  [.spawn (.opening sampleRun), .run 0 .go, .spawn (.sweeping [] 0), .run 1 .go, .run 1 .go]

def finishedLate : List (Crowd.Play Task Choice Int) :=
  [.env 1700000060, .run 0 (.ends (.done "all good")), .run 0 .go]

def acceptedLate : List (Crowd.Play Task Choice Int) :=
  [.spawn (.reviewing "run_1" "accepted" ""), .run 2 .go]

def doneRun : List (Crowd.Play Task Choice Int) :=
  [.spawn (.opening sampleRun), .run 0 .go, .run 0 (.ends (.done "all good")), .run 0 .go]

def afterDone : List (Crowd.Play Task Choice Int) :=
  [.spawn (.sweeping [] 0), .run 1 .go, .run 1 .go, .spawn (.reviewing "run_1" "rejected" ""),
    .run 2 .go, .spawn (.discarding "run_1"), .run 3 .go]

theorem terminal_status_final_sample : ∃ c c' : Crowd Shared Task,
    (c.shared.getRun "run_1").map (·.status) = some "done" ∧
    (c'.shared.getRun "run_1").map (·.applyStatus) = some (some "discarded") ∧
    c.shared.toRunStore.Final c'.shared.toRunStore := by
  have hplay : (doneRun.foldlM cautious.play emptyDesk).any (fun c =>
      decide ((c.shared.getRun "run_1").map (·.status) = some "done") &&
      (afterDone.foldlM cautious.play c).any (fun c' =>
        decide ((c'.shared.getRun "run_1").map (·.applyStatus) =
          some (some "discarded")))) = true := by decide +kernel
  obtain ⟨c, -, htest⟩ := cautious_plays.reaches hplay
  obtain ⟨hdone, hafter⟩ := Bool.and_eq_true_iff.mp htest
  obtain ⟨c', hc', hdiscarded⟩ := cautious_plays.reaches hafter
  exact ⟨c, c', of_decide_eq_true hdone, of_decide_eq_true hdiscarded,
    (terminal_status_final c).1 c' hc'⟩

/-- A run that recovery declared interrupted becomes done when its process ends, and can then
be accepted and applied. -/
theorem interrupted_run_becomes_done : ∃ c c' c'' : Crowd Shared Task,
    Runs service (fun _ _ => True) emptyDesk c ∧ Runs service (fun _ _ => True) c c' ∧
    Runs service (fun _ _ => True) c' c'' ∧
    (c.shared.getRun "run_1").map RunRecord.ending = some ("interrupted", some 1700000000) ∧
    (c'.shared.getRun "run_1").map RunRecord.ending = some ("done", some 1700000060) ∧
    (c''.shared.getRun "run_1").map (fun r => (runApplyEligibility r).toBool) = some true ∧
    ¬c.shared.toRunStore.Final c'.shared.toRunStore := by
  have hplay : (sweptRun.foldlM player.play emptyDesk).any (fun c =>
      decide ((c.shared.getRun "run_1").map RunRecord.ending =
        some ("interrupted", some 1700000000)) &&
      (finishedLate.foldlM player.play c).any (fun c' =>
        decide ((c'.shared.getRun "run_1").map RunRecord.ending = some ("done", some 1700000060)) &&
        (acceptedLate.foldlM player.play c').any (fun c'' =>
          decide ((c''.shared.getRun "run_1").map (fun r => (runApplyEligibility r).toBool) =
            some true)))) = true := by decide +kernel
  obtain ⟨c, hc, htest⟩ := player_plays.reaches hplay
  obtain ⟨hswept, hlate⟩ := Bool.and_eq_true_iff.mp htest
  obtain ⟨c', hc', htest'⟩ := player_plays.reaches hlate
  obtain ⟨hdone, haccepted⟩ := Bool.and_eq_true_iff.mp htest'
  obtain ⟨c'', hc'', heligible⟩ := player_plays.reaches haccepted
  have hswept' := of_decide_eq_true hswept
  have hdone' := of_decide_eq_true hdone
  refine ⟨c, c', c'', hc, hc', hc'', hswept', hdone', of_decide_eq_true heligible, ?_⟩
  intro hfinal
  obtain ⟨row, hrow, hending⟩ := Option.map_eq_some_iff.mp hswept'
  have hterminal : row.Terminal := by
    have hstatus : row.status = "interrupted" := congrArg Prod.fst hending
    unfold RunRecord.Terminal
    rw [hstatus]
    decide
  obtain ⟨row', hrow', hsame⟩ := hfinal "run_1" row hrow hterminal
  obtain ⟨row'', hrow'', hlast⟩ := Option.map_eq_some_iff.mp hdone'
  have heq : row' = row'' := Option.some.inj (hrow'.symm.trans hrow'')
  rw [heq, hlast, hending] at hsame
  exact absurd (congrArg Prod.fst hsame) (by decide)

end Relux.BriefRuns
