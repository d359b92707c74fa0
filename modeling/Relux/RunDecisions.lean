import Relux.RunFinality

/-! What is decided about a run that is done: it is reviewed, put into the project, discarded.
The decisions are consistent as long as none of them comes for a run that another has settled
or that is just being put into the project. -/

namespace Relux.BriefRuns

open Crowd (Runs Step Label Meets)

def RunRecord.Eligible (r : RunRecord) : Prop := runApplyEligibility r = .ok ()

theorem eligible_iff {r : RunRecord} :
    r.Eligible ↔ r.status = "done" ∧ r.review = some "accepted" ∧ r.workspace.isSome = true := by
  unfold RunRecord.Eligible runApplyEligibility
  constructor
  · intro h
    split at h
    · cases h
    next hdone =>
      split at h
      · cases h
      next hreview =>
        split at h
        · cases h
        next hworkspace =>
          refine ⟨not_not.mp hdone, not_not.mp hreview, ?_⟩
          cases hw : r.workspace with
          | none => simp [hw] at hworkspace
          | some w => rfl
  · rintro ⟨hdone, hreview, hworkspace⟩
    have hsome : ¬r.workspace.isNone = true := by
      cases hw : r.workspace with
      | none => simp [hw] at hworkspace
      | some w => simp
    rw [if_neg (not_not_intro hdone), if_neg (not_not_intro hreview), if_neg hsome]

def RunRecord.decision (r : RunRecord) : String × Option String × Option String :=
  (r.status, r.review, r.workspace)

theorem eligible_congr {r r' : RunRecord} (h : r'.decision = r.decision) :
    r'.Eligible ↔ r.Eligible := by
  obtain ⟨hstatus, hrest⟩ := Prod.mk.inj h
  obtain ⟨hreview, hworkspace⟩ := Prod.mk.inj hrest
  rw [eligible_iff, eligible_iff, hstatus, hreview, hworkspace]

def Idle (c : Crowd Shared Task) (runId : String) : Prop :=
  ∀ (j : Nat) (u : Task) run, c.tasks[j]? = some u → u.applies = some run → run.runId ≠ runId

/-- The step settles nothing that is settled: no finish comes for a run that is being put into
the project, a discarded run is not accepted, and a run that is in the project, or on its way
there, is neither rejected nor discarded. -/
def Task.Orderly (c : Crowd Shared Task) : Task → Prop
  | .finishing run _ => Idle c run.runId
  | .recovering (row :: _) => Idle c row.1
  | .reviewing runId decision _ => ∀ row, c.shared.runs.get? runId = some row →
      row.status = "done" →
      (decision = "accepted" → row.workspace.isSome = true → runId ∉ c.shared.discarded) ∧
      (decision = "rejected" → runId ∉ c.shared.applied ∧ Idle c runId)
  | .discarding runId => ∀ row, c.shared.runs.get? runId = some row → row.status ≠ "running" →
      runId ∉ c.shared.applied ∧ Idle c runId
  | _ => True

def Orderly (c : Crowd Shared Task) (l : Label Task) : Prop :=
  ∀ i t, l = .run i → c.tasks[i]? = some t → t.Orderly c

variable {runId note : String}

namespace Shared

variable (s s' : Shared)

/-- No discarded run may be put into the project, and what was put there is neither discarded
nor rejected. -/
structure Consistent : Prop where
  discarded : ∀ id ∈ s.discarded, ∃ row, s.runs.get? id = some row ∧ ¬row.Eligible
  applied : ∀ id ∈ s.applied, id ∉ s.discarded ∧
    ∃ row, s.runs.get? id = some row ∧ row.review ≠ some "rejected"

/-- What the step puts into the project is done and accepted at that moment and was never
discarded; what it discards is not in the project. -/
structure Decides : Prop where
  applies : s'.applied = s.applied ∨ ∃ id row, s'.applied = id :: s.applied ∧
    s.runs.get? id = some row ∧ row.status = "done" ∧ row.review = some "accepted" ∧
    id ∉ s.discarded
  discards : s'.discarded = s.discarded ∨ ∃ id, s'.discarded = id :: s.discarded ∧ id ∉ s.applied

def Checks (t t' : Task) : Prop :=
  ∀ run, t'.applies = some run →
    s' = s ∧ (t.applies = some run ∨ ∃ runId, s.runs.get? runId = some run ∧ run.Eligible)

structure Quiet : Prop where
  kept : ∀ id row, s.runs.get? id = some row →
    ∃ row', s'.runs.get? id = some row' ∧ row'.decision = row.decision
  keyed : s.runs.KeyedBy (·.runId) → s'.runs.KeyedBy (·.runId)
  applied : s'.applied = s.applied
  discarded : s'.discarded = s.discarded

inductive Does : Task → Shared → Prop
  | quiet {t s'} (h : s.Quiet s') : Does t s'
  | ends (run : NewRun) (outcome : Outcome) : Does (.finishing run outcome)
      (withStore s (s.recordRunFinish run.runId outcome.status outcome.summary))
  | interrupts (row : Row) (stale : List Row) : Does (.recovering (row :: stale))
      (withStore s (s.recordRunFinish row.1 "interrupted" staleReason))
  | reviews {runId decision note store} (h : s.setRunReview runId decision note = .ok store) :
      Does (.reviewing runId decision note) (withStore s store)
  | discards {runId store} (h : s.discardRun runId = .ok store) : Does (.discarding runId)
      { withStore s store with discarded := runId :: s.discarded }
  | applies {t run} (h : t.applies = some run) : Does t { s with applied := run.runId :: s.applied }

variable {s s'}

theorem quiet_same (hruns : s'.runs = s.runs) (happlied : s'.applied = s.applied)
    (hdiscarded : s'.discarded = s.discarded) : s.Quiet s' where
  kept := fun _ row hrow => ⟨row, hruns ▸ hrow, rfl⟩
  keyed := fun hkeyed => hruns ▸ hkeyed
  applied := happlied
  discarded := hdiscarded

theorem quiet_modify {f : RunRecord → RunRecord} (hf : ∀ r, (f r).decision = r.decision)
    (hid : ∀ r, (f r).runId = r.runId) : s.Quiet (withStore s (s.modifyRun runId f)) where
  kept := by
    intro id row hrow
    refine ⟨_, HashMap.modify_of_some hrow runId f, ?_⟩
    split
    · exact hf row
    · rfl
  keyed := fun hkeyed => hkeyed.modify runId hid
  applied := rfl
  discarded := rfl

theorem quiet_insert {row : RunRecord} (hnew : s.runs.get? runId = none) (hid : row.runId = runId) :
    s.Quiet (withStore s { s.toRunStore with runs := s.runs.insert runId row }) where
  kept := by
    intro id row' hrow
    exact ⟨row', HashMap.insert_of_some hrow hnew row, rfl⟩
  keyed := fun hkeyed => hkeyed.insert hid
  applied := rfl
  discarded := rfl

theorem recordRunStart_quiet (run : NewRun) : s.Quiet (withStore s (s.recordRunStart run)) := by
  unfold RunStore.recordRunStart
  by_cases hthere : (s.runs.get? run.runId).isSome = true
  · rw [if_pos hthere]
    exact quiet_same rfl rfl rfl
  · rw [if_neg hthere]
    exact quiet_insert (Option.not_isSome_iff_eq_none.mp hthere) rfl

theorem recordRefusedRun_quiet {briefId agentId rig reason summary trigger : String}
    {store : RunStore}
    (h : s.recordRefusedRun runId briefId agentId rig reason summary trigger = some store) :
    s.Quiet (withStore s store) := by
  unfold RunStore.recordRefusedRun at h
  split at h
  · cases h
  · split at h
    · cases h
    next hfree =>
      cases h
      have hnew : ¬(s.runs.get? runId).isSome = true := fun hsome => hfree (.inr hsome)
      exact quiet_insert (Option.not_isSome_iff_eq_none.mp hnew) rfl

theorem setRunApplyStatus_quiet {status : String} {appliedFiles failedFiles : Int} :
    s.Quiet (recorded s (s.setRunApplyStatus runId status note appliedFiles failedFiles)) := by
  unfold RunStore.setRunApplyStatus
  by_cases hnone : (s.runs.get? runId).isNone = true
  · rw [if_pos hnone]
    exact quiet_same rfl rfl rfl
  · rw [if_neg hnone]
    exact quiet_modify (fun _ => rfl) (fun _ => rfl)

theorem linkRetryChild_quiet {childRunId sourceRunId text : String} {attempt : Int} :
    s.Quiet (answer s (s.linkRetryChild childRunId sourceRunId attempt) text).1 := by
  unfold RunStore.linkRetryChild
  split
  · exact quiet_same rfl rfl rfl
  · exact quiet_modify (fun _ => rfl) (fun _ => rfl)

theorem setRunDiagnosis_quiet {diag : RunDiagnosis} :
    s.Quiet (withStore s (s.setRunDiagnosis runId diag)) :=
  quiet_modify (fun _ => rfl) (fun _ => rfl)

end Shared

section
variable {s s' : Shared} {t t' : Task} {choice : Choice}

theorem checks_none (h : t'.applies = none) : s.Checks s' t t' := by
  intro run hrun
  rw [h] at hrun
  cases hrun

theorem answer_checks {r : Except CoordinatorError RunStore} {text : String}
    (h : answer s r text = (s', t')) : s.Checks s' t t' := by
  cases r with
  | error e =>
    cases h
    exact checks_none rfl
  | ok store =>
    cases h
    exact checks_none rfl

theorem step_does (h : step s choice t = some (s', t')) :
    s.Does t s' ∧ s.Checks s' t t' := by
  have hsame : s.Quiet s := Shared.quiet_same rfl rfl rfl
  cases step_acts h with
  | reads h => exact ⟨.quiet hsame, checks_none h.applies⟩
  | @loads runId run hrun heligible =>
    refine ⟨.quiet hsame, fun row hrow => ?_⟩
    cases hrow
    exact ⟨rfl, .inr ⟨runId, hrun, heligible⟩⟩
  | writes run => exact ⟨.quiet hsame, fun row hrow => ⟨rfl, .inl hrow⟩⟩
  | opens run => exact ⟨.quiet (Shared.recordRunStart_quiet run), checks_none rfl⟩
  | refuses _ hstore => exact ⟨.quiet (Shared.recordRefusedRun_quiet hstore), checks_none rfl⟩
  | stamps h _ => exact ⟨.quiet Shared.setRunDiagnosis_quiet, checks_none h.applies⟩
  | finishes run outcome => exact ⟨.ends run outcome, checks_none rfl⟩
  | interrupts row stale => exact ⟨.interrupts row stale, checks_none rfl⟩
  | releases _ | frees _ _ => exact ⟨.quiet (Shared.quiet_same rfl rfl rfl), checks_none rfl⟩
  | marks h => exact ⟨.quiet Shared.setRunApplyStatus_quiet, checks_none h.applies⟩
  | applies h hrun => exact ⟨.applies hrun, checks_none h.applies⟩
  | reviews h =>
    refine ⟨?_, answer_checks h⟩
    obtain rfl := congrArg Prod.fst h
    cases hreview : s.setRunReview _ _ _ with
    | error e => exact .quiet hsame
    | ok store => exact .reviews hreview
  | discards hstore => exact ⟨.discards hstore, checks_none rfl⟩
  | links h =>
    refine ⟨?_, answer_checks h⟩
    obtain rfl := congrArg Prod.fst h
    exact .quiet Shared.linkRetryChild_quiet

end

structure Shared.Settled (s : Shared) : Prop extends s.Consistent where
  keyed : s.runs.KeyedBy (·.runId)

def Shared.Holds (s : Shared) (t : Task) : Prop :=
  ∀ run, t.applies = some run → ∃ row, s.runs.get? run.runId = some row ∧ row.Eligible

abbrev Kept (c : Crowd Shared Task) : Prop := Meets Shared.Settled Shared.Holds (fun _ _ => True) c

variable {t : Task}

section
variable {c : Crowd Shared Task} {s' : Shared}

theorem Shared.Quiet.kept_after (h : c.shared.Quiet s') (hc : Kept c) :
    s'.Settled ∧ ∀ u, c.shared.Holds u → s'.Holds u := by
  refine ⟨⟨⟨?_, ?_⟩, h.keyed hc.shared.keyed⟩, ?_⟩
  · intro id hid
    rw [h.discarded] at hid
    obtain ⟨row, hrow, hnot⟩ := hc.shared.discarded id hid
    obtain ⟨row', hrow', hsame⟩ := h.kept id row hrow
    exact ⟨row', hrow', fun heligible => hnot ((eligible_congr hsame).mp heligible)⟩
  · intro id hid
    rw [h.applied] at hid
    obtain ⟨hnew, row, hrow, hreview⟩ := hc.shared.applied id hid
    obtain ⟨row', hrow', hsame⟩ := h.kept id row hrow
    have hsame' : row'.review = row.review := (Prod.mk.inj (Prod.mk.inj hsame).2).1
    refine ⟨h.discarded ▸ hnew, row', hrow', ?_⟩
    rw [hsame']
    exact hreview
  · intro u hu run hrun
    obtain ⟨row, hrow, heligible⟩ := hu run hrun
    obtain ⟨row', hrow', hsame⟩ := h.kept _ row hrow
    exact ⟨row', hrow', (eligible_congr hsame).mpr heligible⟩

theorem modify_kept {f : RunRecord → RunRecord} (hc : Kept c)
    (hruns : s'.runs = c.shared.runs.modify runId f) (hid : ∀ r, (f r).runId = r.runId)
    (happlied : s'.applied = c.shared.applied)
    (hdiscarded : ∀ id ∈ s'.discarded, id ∈ c.shared.discarded ∨
      id = runId ∧ (c.shared.runs.get? runId).isSome = true)
    (hrow : ∀ row, c.shared.runs.get? runId = some row →
      (runId ∈ s'.discarded → ¬(f row).Eligible) ∧
      (runId ∈ c.shared.applied → row.review ≠ some "rejected" →
        runId ∉ s'.discarded ∧ (f row).review ≠ some "rejected") ∧
      (row.Eligible → (f row).Eligible ∨ Idle c runId)) :
    s'.Settled ∧ ∀ (j : Nat) u, c.tasks[j]? = some u → c.shared.Holds u → s'.Holds u := by
  have hself : ∀ row, c.shared.runs.get? runId = some row →
      s'.runs.get? runId = some (f row) := by
    intro row h
    rw [hruns, HashMap.get?_modify, if_pos rfl, h, Option.map_some]
  have hother : ∀ id, id ≠ runId → s'.runs.get? id = c.shared.runs.get? id := by
    intro id hne
    rw [hruns, HashMap.get?_modify, if_neg hne]
  refine ⟨⟨⟨?_, ?_⟩, ?_⟩, ?_⟩
  · intro id hmem
    by_cases heq : id = runId
    · subst heq
      have hthere : ∃ row, c.shared.runs.get? id = some row := by
        rcases hdiscarded id hmem with hold | ⟨-, hsome⟩
        · obtain ⟨row, h, -⟩ := hc.shared.discarded id hold
          exact ⟨row, h⟩
        · exact Option.isSome_iff_exists.mp hsome
      obtain ⟨row, h⟩ := hthere
      exact ⟨f row, hself row h, (hrow row h).1 hmem⟩
    · rcases hdiscarded id hmem with hold | ⟨hsame, -⟩
      · rw [hother id heq]
        exact hc.shared.discarded id hold
      · exact absurd hsame heq
  · intro id hmem
    rw [happlied] at hmem
    obtain ⟨hnew, row, h, hreview⟩ := hc.shared.applied id hmem
    by_cases heq : id = runId
    · subst heq
      obtain ⟨hnot, hreview'⟩ := (hrow row h).2.1 hmem hreview
      exact ⟨hnot, f row, hself row h, hreview'⟩
    · rw [hother id heq]
      refine ⟨fun hnow => ?_, row, h, hreview⟩
      rcases hdiscarded id hnow with hold | ⟨hsame, -⟩
      · exact hnew hold
      · exact heq hsame
  · rw [hruns]
    exact hc.shared.keyed.modify runId hid
  · intro j u hj hu run hrun
    obtain ⟨row, h, heligible⟩ := hu run hrun
    by_cases heq : run.runId = runId
    · rw [heq] at h ⊢
      rcases (hrow row h).2.2 heligible with hstill | hidle
      · exact ⟨f row, hself row h, hstill⟩
      · exact absurd heq (hidle j u run hj hrun)
    · rw [hother _ heq]
      exact ⟨row, h, heligible⟩

theorem finish_kept {status summary : String} (hc : Kept c) (hidle : Idle c runId) :
    (withStore c.shared (c.shared.recordRunFinish runId status summary)).Settled ∧
      ∀ (j : Nat) u, c.tasks[j]? = some u → c.shared.Holds u →
        (withStore c.shared (c.shared.recordRunFinish runId status summary)).Holds u := by
  refine modify_kept hc rfl (fun _ => rfl) rfl (fun id hid => .inl hid) ?_
  intro row hrow
  refine ⟨fun _ heligible => ?_, fun happlied hreview => ⟨(hc.shared.applied _ happlied).1, ?_⟩,
    fun _ => .inr hidle⟩
  · obtain ⟨hdone, hreview, -⟩ := eligible_iff.mp heligible
    rw [if_pos hdone] at hreview
    exact absurd (Option.some.inj hreview) (by decide)
  · dsimp only
    split
    · decide
    · exact hreview

variable {decision : String} {store : RunStore}

theorem setRunReview_ok {s : RunStore} (h : s.setRunReview runId decision note = .ok store) :
    (decision = "accepted" ∨ decision = "rejected") ∧
      ∃ row, s.runs.get? runId = some row ∧ row.status = "done" ∧
        store = s.modifyRun runId (fun r => { r with
          review := some decision
          reviewNote := some (clampBytes note MAX_RUN_EVENT_FIELD_BYTES)
          reviewedAt := some s.now }) := by
  unfold RunStore.setRunReview at h
  split at h
  · cases h
  next hdecision =>
    split at h
    · cases h
    next row hrow =>
      split at h
      next hdone =>
        refine ⟨?_, row, hrow, hdone, (Except.ok.inj h).symm⟩
        by_cases haccepted : decision = "accepted"
        · exact .inl haccepted
        · exact .inr (not_not.mp (fun hnot => hdecision ⟨haccepted, hnot⟩))
      · cases h

theorem review_kept (hc : Kept c) (hok : (Task.reviewing runId decision note).Orderly c)
    (h : c.shared.setRunReview runId decision note = .ok store) :
    (withStore c.shared store).Settled ∧
      ∀ (j : Nat) u, c.tasks[j]? = some u → c.shared.Holds u → (withStore c.shared store).Holds u := by
  obtain ⟨hdecision, row, hrow, hdone, rfl⟩ := setRunReview_ok h
  refine modify_kept hc rfl (fun _ => rfl) rfl (fun id hid => .inl hid) ?_
  intro row' hrow'
  have heq : row' = row := Option.some.inj (hrow'.symm.trans hrow)
  subst heq
  obtain ⟨haccepts, hrejects⟩ := hok row' hrow hdone
  rcases hdecision with rfl | rfl
  · refine ⟨fun hmem heligible => ?_, fun happlied _ => ⟨(hc.shared.applied _ happlied).1, ?_⟩,
      fun heligible => .inl ?_⟩
    · exact haccepts rfl (eligible_iff.mp heligible).2.2 hmem
    · simp
    · obtain ⟨-, -, hworkspace⟩ := eligible_iff.mp heligible
      exact eligible_iff.mpr ⟨hdone, rfl, hworkspace⟩
  · obtain ⟨hnot, hidle⟩ := hrejects rfl
    refine ⟨fun _ heligible => ?_, fun happlied => absurd happlied hnot, fun _ => .inr hidle⟩
    exact absurd (Option.some.inj (eligible_iff.mp heligible).2.1) (by decide)

theorem discard_kept (hc : Kept c) (hok : (Task.discarding runId).Orderly c)
    (h : c.shared.discardRun runId = .ok store) :
    runId ∉ c.shared.applied ∧
      Shared.Settled { withStore c.shared store with
        discarded := runId :: c.shared.discarded } ∧
      ∀ (j : Nat) u, c.tasks[j]? = some u → c.shared.Holds u →
        Shared.Holds { withStore c.shared store with
          discarded := runId :: c.shared.discarded } u := by
  unfold RunStore.discardRun at h
  split at h
  · cases h
  next row hrow =>
    split at h
    · cases h
    next hrunning =>
      obtain ⟨hnot, hidle⟩ := hok row hrow hrunning
      obtain rfl := Except.ok.inj h
      refine ⟨hnot, modify_kept hc rfl ?_ rfl ?_ ?_⟩
      · intro r
        split <;> rfl
      · intro id hid
        rcases List.mem_cons.mp hid with heq | hold
        · exact .inr ⟨heq, by rw [hrow]; rfl⟩
        · exact .inl hold
      · intro row' hrow'
        have heq : row' = row := Option.some.inj (hrow'.symm.trans hrow)
        subst heq
        refine ⟨fun _ heligible => ?_, fun happlied => absurd happlied hnot, fun _ => .inr hidle⟩
        obtain ⟨hdone, hreview, -⟩ := eligible_iff.mp heligible
        by_cases hstatus : row'.status = "done"
        · simp only [if_pos hstatus] at hreview
          exact absurd (Option.some.inj hreview) (by decide)
        · simp only [if_neg hstatus] at hdone
          exact hstatus hdone

theorem applies_kept {run : RunRecord} (hc : Kept c) (ht : t.applies = some run)
    (hholds : c.shared.Holds t) :
    Shared.Settled { c.shared with applied := run.runId :: c.shared.applied } := by
  obtain ⟨row, hrow, heligible⟩ := hholds run ht
  refine ⟨⟨hc.shared.discarded, ?_⟩, hc.shared.keyed⟩
  intro id hid
  rcases List.mem_cons.mp hid with rfl | hold
  · refine ⟨fun hdiscarded => ?_, row, hrow, ?_⟩
    · obtain ⟨row', hrow', hnot⟩ := hc.shared.discarded _ hdiscarded
      have heq : row' = row := Option.some.inj (hrow'.symm.trans hrow)
      exact hnot (heq ▸ heligible)
    · rw [(eligible_iff.mp heligible).2.1]
      decide
  · exact hc.shared.applied id hold

theorem does_kept (hc : Kept c) (hok : t.Orderly c) (hholds : c.shared.Holds t)
    (h : c.shared.Does t s') :
    c.shared.Decides s' ∧ s'.Settled ∧
      ∀ (j : Nat) u, c.tasks[j]? = some u → c.shared.Holds u → s'.Holds u := by
  cases h with
  | quiet hquiet =>
    obtain ⟨hsettled, hothers⟩ := hquiet.kept_after hc
    exact ⟨⟨.inl hquiet.applied, .inl hquiet.discarded⟩, hsettled, fun _ u _ => hothers u⟩
  | ends run outcome | interrupts row stale => exact ⟨⟨.inl rfl, .inl rfl⟩, finish_kept hc hok⟩
  | reviews hreview =>
    obtain ⟨-, row, -, -, rfl⟩ := setRunReview_ok hreview
    exact ⟨⟨.inl rfl, .inl rfl⟩, review_kept hc hok hreview⟩
  | discards hdiscard =>
    obtain ⟨hnot, hkept⟩ := discard_kept hc hok hdiscard
    exact ⟨⟨.inl rfl, .inr ⟨_, rfl, hnot⟩⟩, hkept⟩
  | @applies _ run happlies =>
    have hsettled := applies_kept hc happlies hholds
    obtain ⟨row, hrow, heligible⟩ := hholds run happlies
    obtain ⟨hdone, hreview, -⟩ := eligible_iff.mp heligible
    have hnew := (hsettled.applied run.runId List.mem_cons_self).1
    exact ⟨⟨.inr ⟨run.runId, row, rfl, hrow, hdone, hreview, hnew⟩, .inl rfl⟩, hsettled,
      fun _ _ _ hu => hu⟩

end

theorem holds_call {s : Shared} (h : t.isCall = true) : s.Holds t := by
  intro run hrun
  cases t with
  | listing _ => cases h
  | writing _ => cases h
  | _ => cases hrun

theorem checks_holds {s s' : Shared} {t' : Task} (hs : s.Settled) (ht : s.Holds t)
    (h : s.Checks s' t t') : s'.Holds t' := by
  intro run hrun
  obtain ⟨rfl, hsame | ⟨runId, hrow, heligible⟩⟩ := h run hrun
  · exact ht run hsame
  · have hid : run.runId = runId := hs.keyed runId run hrow
    exact ⟨run, hid ▸ hrow, heligible⟩

variable {c : Crowd Shared Task} {c' : Crowd Shared Task}

theorem step_kept (l : Label Task) (hok : Orderly c l)
    (h : Step service c l c') (hc : Kept c) : Kept c' := by
  refine Step.meets (fun _ _ _ => trivial) ?_ ?_ ?_ l hok h hc
  · rintro s s' hs ⟨now, briefs, rfl⟩
    exact ⟨⟨⟨hs.discarded, hs.applied⟩, hs.keyed⟩, fun u hu => hu⟩
  · rintro c t s' - hc ⟨rfl, hcall⟩
    exact ⟨hc.shared, holds_call hcall, fun j u hu => ⟨hc.task j u hu, trivial⟩⟩
  · rintro c i t s' t' fork hok hc ht ⟨rfl, choice, hstep⟩
    obtain ⟨hdoes, hchecks⟩ := step_does hstep
    obtain ⟨-, hsettled, hothers⟩ := does_kept hc (hok i t rfl ht) (hc.task i t ht) hdoes
    refine ⟨hsettled, checks_holds hc.shared (hc.task i t ht) hchecks, ?_, ?_⟩
    · intro f hf
      cases hf
    · intro j u _ hu
      refine ⟨hothers j u hu (hc.task j u hu), trivial, ?_⟩
      intro f hf
      cases hf

theorem step_decides {l : Label Task} (hok : Orderly c l)
    (h : Step service c l c') (hc : Kept c) : c.shared.Decides c'.shared := by
  cases h with
  | env h =>
    obtain ⟨now, briefs, rfl⟩ := h
    exact ⟨.inl rfl, .inl rfl⟩
  | spawn h =>
    obtain ⟨rfl, -⟩ := h
    exact ⟨.inl rfl, .inl rfl⟩
  | @run s s' ts i t t' fork hi h =>
    obtain ⟨-, choice, hstep⟩ := h
    exact (does_kept hc (hok i t rfl hi) (hc.task i t hi) (step_does hstep).1).1

structure Opened (c : Crowd Shared Task) : Prop where
  runs : c.shared.runs = .empty
  applied : c.shared.applied = []
  discarded : c.shared.discarded = []
  tasks : c.tasks = []

theorem opened_kept (h : Opened c) : Kept c := by
  obtain ⟨s, ts⟩ := c
  obtain rfl := h.tasks
  refine Crowd.meets_nil ⟨⟨?_, ?_⟩, ?_⟩
  · intro id hid
    rw [h.discarded] at hid
    cases hid
  · intro id hid
    rw [h.applied] at hid
    cases hid
  · rw [h.runs]
    exact .empty _

/-- In every run of orderly steps of the service the decisions are consistent in every state
reached, and every step that goes on in order decides consistently. -/
theorem decisions_consistent {c₀ c : Crowd Shared Task} (hopened : Opened c₀)
    (h : Runs service Orderly c₀ c) :
    c.shared.Consistent ∧
      ∀ l c', Orderly c l → Step service c l c' → c.shared.Decides c'.shared := by
  have hc : Kept c := h.keeps (fun _ l _ hok hstep => step_kept l hok hstep) (opened_kept hopened)
  exact ⟨hc.shared.toConsistent, fun l c' hok hstep => step_decides hok hstep hc⟩

/-- Finishes, reviews and discards wait for the applies, and come only for runs that are neither
in the project nor discarded. -/
def patient : Crowd.Player Shared Task Choice Int := playerOf (fun c l => match l with
  | .run i => (c.tasks[i]?).all (fun t => match t with
    | .finishing _ _ => c.tasks.all (fun u => u.applies.isNone)
    | .recovering (_ :: _) => c.tasks.all (fun u => u.applies.isNone)
    | .reviewing runId _ _ => c.tasks.all (fun u => u.applies.isNone) &&
      decide (runId ∉ c.shared.discarded) && decide (runId ∉ c.shared.applied)
    | .discarding runId => c.tasks.all (fun u => u.applies.isNone) &&
      decide (runId ∉ c.shared.applied)
    | _ => true)
  | _ => true)

theorem idle_of_all (h : c.tasks.all (fun u => u.applies.isNone) = true) (runId : String) :
    Idle c runId := by
  intro j u run hu hrun
  have hnone := List.all_eq_true.mp h u (List.mem_of_getElem? hu)
  rw [hrun] at hnone
  cases hnone

theorem patient_plays : patient.Plays service Orderly := by
  refine playerOf_plays (fun c l hallows i t hl ht => ?_)
  subst hl
  simp only [ht, Option.all_some] at hallows
  cases t with
  | finishing run outcome => exact idle_of_all hallows run.runId
  | recovering stale =>
    cases stale with
    | nil => trivial
    | cons row stale => exact idle_of_all hallows row.1
  | reviewing runId decision note =>
    obtain ⟨hleft, happlied⟩ := Bool.and_eq_true_iff.mp hallows
    obtain ⟨hidle, hdiscarded⟩ := Bool.and_eq_true_iff.mp hleft
    intro row _ _
    exact ⟨fun _ _ => of_decide_eq_true hdiscarded,
      fun _ => ⟨of_decide_eq_true happlied, idle_of_all hidle runId⟩⟩
  | discarding runId =>
    obtain ⟨hidle, happlied⟩ := Bool.and_eq_true_iff.mp hallows
    intro row _ _
    exact ⟨of_decide_eq_true happlied, idle_of_all hidle runId⟩
  | _ => trivial

def briefDesk : Crowd Shared Task where
  shared := ⟨⟨1700000000, .empty,
    HashMap.empty.insert "brief_1" ⟨none, some "agt_1", none, none, none, none⟩⟩, [], []⟩
  tasks := []

def accepted (task : Nat) : List (Crowd.Play Task Choice Int) :=
  [.spawn (.reviewing "run_1" "accepted" "fine"), .run task .go]

def discarded (task : Nat) : List (Crowd.Play Task Choice Int) :=
  [.spawn (.discarding "run_1"), .run task .go]

def applied (task : Nat) : List (Crowd.Play Task Choice Int) :=
  [.spawn (.applying "run_1" "default"), .run task .go, .run task .go, .run task .go,
    .run task (.written 2 0), .run task .go]

theorem decisions_consistent_sample : ∃ c c' : Crowd Shared Task,
    "run_1" ∉ c.shared.applied ∧ c'.shared.applied = ["run_1"] ∧ c.shared.Consistent ∧
    c'.shared.Consistent := by
  have hplay : ((doneRun ++ accepted 1).foldlM patient.play briefDesk).any (fun c =>
      decide ("run_1" ∉ c.shared.applied) && ((applied 2).foldlM patient.play c).any (fun c' =>
        decide (c'.shared.applied = ["run_1"]))) = true := by decide +kernel
  obtain ⟨c, hc, htest⟩ := patient_plays.reaches hplay
  obtain ⟨hbefore, hafter⟩ := Bool.and_eq_true_iff.mp htest
  obtain ⟨c', hc', happlied⟩ := patient_plays.reaches hafter
  have hopened : Opened briefDesk := ⟨rfl, rfl, rfl, rfl⟩
  exact ⟨c, c', of_decide_eq_true hbefore, of_decide_eq_true happlied,
    (decisions_consistent hopened hc).1, (decisions_consistent hopened (hc.trans hc')).1⟩

/-- A discarded run is accepted and put into the project; and a run that is in the project is
discarded, and marked rejected. -/
theorem discarded_run_applied :
    (∃ c c' : Crowd Shared Task, Runs service (fun _ _ => True) briefDesk c ∧
      Runs service (fun _ _ => True) c c' ∧ c.shared.discarded = ["run_1"] ∧
      c.shared.applied = [] ∧ c'.shared.applied = ["run_1"]) ∧
    ∃ c c' : Crowd Shared Task, Runs service (fun _ _ => True) briefDesk c ∧
      Runs service (fun _ _ => True) c c' ∧ c.shared.applied = ["run_1"] ∧
      (c.shared.getRun "run_1").map (·.applyStatus) = some (some "applied") ∧
      c'.shared.discarded = ["run_1"] ∧
      (c'.shared.getRun "run_1").map (fun r => (r.review, r.applyStatus)) =
        some (some "rejected", some "discarded") := by
  have hdiscarded : ((doneRun ++ discarded 1).foldlM player.play briefDesk).any (fun c =>
      (decide (c.shared.discarded = ["run_1"]) && decide (c.shared.applied = [])) &&
        ((accepted 2 ++ applied 3).foldlM player.play c).any (fun c' =>
          decide (c'.shared.applied = ["run_1"]))) = true := by decide +kernel
  have happlied : ((doneRun ++ accepted 1 ++ applied 2).foldlM player.play briefDesk).any (fun c =>
      (decide (c.shared.applied = ["run_1"]) &&
        decide ((c.shared.getRun "run_1").map (·.applyStatus) = some (some "applied"))) &&
        ((discarded 3).foldlM player.play c).any (fun c' =>
          decide (c'.shared.discarded = ["run_1"]) &&
            decide ((c'.shared.getRun "run_1").map (fun r => (r.review, r.applyStatus)) =
              some (some "rejected", some "discarded")))) = true := by decide +kernel
  constructor
  · obtain ⟨c, hc, htest⟩ := player_plays.reaches hdiscarded
    obtain ⟨hbefore, hafter⟩ := Bool.and_eq_true_iff.mp htest
    obtain ⟨hgone, hclean⟩ := Bool.and_eq_true_iff.mp hbefore
    obtain ⟨c', hc', hin⟩ := player_plays.reaches hafter
    exact ⟨c, c', hc, hc', of_decide_eq_true hgone, of_decide_eq_true hclean, of_decide_eq_true hin⟩
  · obtain ⟨c, hc, htest⟩ := player_plays.reaches happlied
    obtain ⟨hbefore, hafter⟩ := Bool.and_eq_true_iff.mp htest
    obtain ⟨hin, hstatus⟩ := Bool.and_eq_true_iff.mp hbefore
    obtain ⟨c', hc', htest'⟩ := player_plays.reaches hafter
    obtain ⟨hgone, hrejected⟩ := Bool.and_eq_true_iff.mp htest'
    exact ⟨c, c', hc, hc', of_decide_eq_true hin, of_decide_eq_true hstatus,
      of_decide_eq_true hgone, of_decide_eq_true hrejected⟩

end Relux.BriefRuns
