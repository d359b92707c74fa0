import Relux.CronScheduler

/-! What a step of the cron service does: to the rows of the jobs, to the fires made, and to
the jobs that its task is at work on. -/

namespace Relux.Cron

inductive Stepped (cal : Calendar) (cfg : CronSchedulerConfig) (s : Shared) :
    Task → Shared → Task → Option Task → Prop
  | tick : Stepped cal cfg s .scheduler s (.ticking s.dueJobs) none
  | tickOver : Stepped cal cfg s (.ticking []) s .scheduler none
  | defer {job due} : Stepped cal cfg s (.ticking (job :: due)) s (.ticking due) none
  | start {job due} (h : s.permits ≠ 0) : Stepped cal cfg s (.ticking (job :: due))
      { s with permits := s.permits - 1 } (.ticking due) (some (.checking ⟨job, true⟩))
  | notFound {jobId} : Stepped cal cfg s (.triggering jobId) s (.notFound jobId) none
  | trigger {jobId job} (h : s.jobs.get? jobId = some job) :
      Stepped cal cfg s (.triggering jobId) s (.checking ⟨job, false⟩) none
  | skip {fire} : Stepped cal cfg s (.checking fire) s
      (.returning fire .skippedPreviousRunning) none
  | pass {fire} : Stepped cal cfg s (.checking fire) s (.creating fire) none
  | createFails {fire message} : Stepped cal cfg s (.creating fire) s
      (.returning fire (.failed message)) none
  | create {fire taskId} : Stepped cal cfg s (.creating fire)
      (s.createTask cal cfg fire taskId) (.appending fire taskId) none
  | append {fire taskId kind payload} : Stepped cal cfg s (.appending fire taskId)
      (s.appendEvent taskId kind payload) (.recording fire taskId) none
  | record {fire taskId} : Stepped cal cfg s (.recording fire taskId)
      (stampJob cal s fire taskId) (.dispatching fire taskId) none
  | dispatch {fire taskId} : Stepped cal cfg s (.dispatching fire taskId) s
      (.returning fire (.fired taskId)) (some (.chatting fire taskId))
  | return {fire outcome permits} : Stepped cal cfg s (.returning fire outcome)
      { s with permits := permits } (.returned fire outcome) none
  | chatEnds {fire taskId outcome} : Stepped cal cfg s (.chatting fire taskId) s
      (.reporting fire taskId outcome) none
  | report {fire taskId outcome f} : Stepped cal cfg s (.reporting fire taskId outcome)
      (s.modifyTask taskId f) (.completing fire taskId outcome) none
  | complete {fire taskId outcome f} : Stepped cal cfg s (.completing fire taskId outcome)
      (s.modifyTask taskId f) (.stamping fire taskId outcome) none
  | stamp {fire taskId outcome status} : Stepped cal cfg s (.stamping fire taskId outcome)
      (s.recordStatus fire.jobId status) (.completed fire taskId) none
  | perform {op id s'} (h : s.perform cal id op = .ok s') :
      Stepped cal cfg s (.asked op) s' (.answered op (.ok ())) none
  | refuse {op e} : Stepped cal cfg s (.asked op) s (.answered op (.error e)) none

theorem step_cases {cal : Calendar} {cfg : CronSchedulerConfig} {s s' : Shared} {choice : Choice}
    {t t' : Task} {fork : Option Task} (h : step cal cfg s choice t = some (s', t', fork)) :
    Stepped cal cfg s t s' t' fork := by
  cases t with
  | scheduler => cases h; exact .tick
  | ticking due =>
    cases due with
    | nil => cases h; exact .tickOver
    | cons job due =>
      simp only [step, stepFire, stepDispatch, stepAsked] at h
      split at h
      · cases h; exact .defer
      · next hpermits => cases h; exact .start hpermits
  | triggering jobId =>
    cases hjob : s.jobs.get? jobId with
    | none =>
      simp only [step, stepFire, stepDispatch, stepAsked, hjob] at h
      cases h
      exact .notFound
    | some job =>
      simp only [step, stepFire, stepDispatch, stepAsked, hjob] at h
      cases h
      exact .trigger hjob
  | checking fire =>
    simp only [step, stepFire, stepDispatch, stepAsked] at h
    split at h
    · cases h; exact .skip
    · cases h; exact .pass
  | creating fire =>
    cases choice with
    | draws taskId =>
      simp only [step, stepFire, stepDispatch, stepAsked] at h
      split at h
      · cases h; exact .createFails
      · cases h; exact .create
    | createFails message => cases h; exact .createFails
    | _ => cases h
  | appending fire taskId => cases h; exact .append
  | recording fire taskId => cases h; exact .record
  | dispatching fire taskId => cases h; exact .dispatch
  | returning fire outcome => cases h; exact .return
  | chatting fire taskId => cases h; exact .chatEnds
  | reporting fire taskId outcome => cases h; exact .report
  | completing fire taskId outcome => cases h; exact .complete
  | stamping fire taskId outcome => cases h; exact .stamp
  | asked op =>
    simp only [step, stepFire, stepDispatch, stepAsked, Option.none_or] at h
    split at h
    · next hperform => cases h; exact .perform hperform
    · cases h; exact .refuse
  | _ => cases h

theorem service_exec {cal : Calendar} {cfg : CronSchedulerConfig} {s s' : Shared} {t t' : Task}
    {fork : Option Task} (h : (service cal cfg).exec s t s' t' fork) :
    Stepped cal cfg s t s' t' fork := by
  obtain ⟨choice, hstep⟩ := h
  exact step_cases hstep

def Task.reads : Task → List CronJob
  | .ticking due => due
  | .checking fire => [fire.job]
  | .creating fire => [fire.job]
  | .appending fire _ => [fire.job]
  | .recording fire _ => [fire.job]
  | _ => []

def Task.unfired : Task → List CronJob
  | .ticking due => due
  | .checking fire => [fire.job]
  | .creating fire => [fire.job]
  | _ => []

def Task.unrecorded : Task → Option Fire
  | .appending fire _ => some fire
  | .recording fire _ => some fire
  | _ => none

def Task.holds : Task → List String
  | .dispatching fire _ => [fire.jobId]
  | t => t.reads.map (·.jobId)

def Task.inFlight : Task → List String
  | .chatting fire _ => [fire.jobId]
  | _ => []

def Task.busy (t : Task) : List String := t.holds ++ t.inFlight

def Task.isFire : Task → Bool
  | .checking fire => fire.scheduled
  | .creating fire => fire.scheduled
  | .appending fire _ => fire.scheduled
  | .recording fire _ => fire.scheduled
  | .dispatching fire _ => fire.scheduled
  | .chatting fire _ => fire.scheduled
  | _ => false

def isOneShot (cal : Calendar) (job : CronJob) : Bool :=
  (Schedule.parse cal job.schedule).toOption.any Schedule.isOneShot

def oneShotFires (s : Shared) (jobId : String) (n : Nat) : Nat :=
  s.fires.countP (fun f => f.jobId == jobId && f.enabling == some n && f.scheduled && f.oneShot)

def SameTerms (row job : CronJob) : Prop :=
  row.enabled = job.enabled ∧ row.schedule = job.schedule ∧ row.edition = job.edition ∧
    row.enabling = job.enabling

theorem SameTerms.refl (job : CronJob) : SameTerms job job := ⟨rfl, rfl, rfl, rfl⟩

theorem SameTerms.trans {a b c : CronJob} (h : SameTerms a b) (h' : SameTerms b c) :
    SameTerms a c :=
  ⟨h.1.trans h'.1, h.2.1.trans h'.2.1, h.2.2.1.trans h'.2.2.1, h.2.2.2.trans h'.2.2.2⟩

def Operation.changes : Operation → Option String
  | .create _ _ _ _ _ _ => none
  | .update jobId field _ => if field = "prompt" then none else some jobId
  | .delete jobId => some jobId

/-- What a step of `t` does to the row of one job. -/
inductive RowStep (cal : Calendar) (s s' : Shared) (t : Task) (id : String) :
    Option CronJob → Option CronJob → Prop
  | same {row} : RowStep cal s s' t id row row
  | kept {row row'} (hid : row'.jobId = row.jobId) (hterms : SameTerms row' row) :
      RowStep cal s s' t id (some row) (some row')
  | recorded {row row' fire taskId} (ht : t = .recording fire taskId) (hfire : fire.jobId = id)
      (hid : row'.jobId = row.jobId) (hschedule : row'.schedule = row.schedule)
      (hedition : row'.edition = row.edition) (henabling : row'.enabling = row.enabling)
      (henabled : row'.enabled = if isOneShot cal fire.job then false else row.enabled) :
      RowStep cal s s' t id (some row) (some row')
  | changed {row row' op} (ht : t = .asked op) (hop : op.changes = some id)
      (hid : row'.jobId = row.jobId)
      (henabling : (row'.enabling = row.enabling ∧ (row'.enabled = true → row.enabled = true)) ∨
        (row'.enabling = s.numbers ∧ s.numbers < s'.numbers)) :
      RowStep cal s s' t id (some row) (some row')
  | deleted {row op} (ht : t = .asked op) (hop : op.changes = some id) :
      RowStep cal s s' t id (some row) none
  | created {row' op} (ht : t = .asked op) (hid : row'.jobId = id)
      (henabling : row'.enabling = s.numbers) (hnumbers : s.numbers < s'.numbers) :
      RowStep cal s s' t id none (some row')

section
variable {cal : Calendar} {cfg : CronSchedulerConfig} {s s' : Shared} {t t' : Task}
  {fork : Option Task}

variable {jobId : String} {f : CronJob → CronJob}

theorem updateJob_ok (h : s.updateJob jobId f = .ok s') :
    s' = { s.modifyJob jobId f with numbers := s.numbers + 1 } := by
  unfold Shared.updateJob at h
  split at h
  · cases h; rfl
  · cases h

theorem rowStep_modify (id : String) (hjobs : s'.jobs = s.jobs.modify jobId f)
    (h : ∀ row, id = jobId → RowStep cal s s' t id (some row) (some (f row))) :
    RowStep cal s s' t id (s.jobs.get? id) (s'.jobs.get? id) := by
  rw [hjobs, HashMap.get?_modify]
  by_cases heq : id = jobId
  · rw [if_pos heq, ← heq]
    cases s.jobs.get? id with
    | none => exact .same
    | some row => exact h row heq
  · rw [if_neg heq]
    exact .same

variable {op : Operation}

theorem rowStep_perform {id' : String} (h : s.perform cal id' op = .ok s') (id : String) :
    RowStep cal s s' (.asked op) id (s.jobs.get? id) (s'.jobs.get? id) := by
  cases op with
  | create name schedule flowTemplate prompt subjectId tenantId =>
    simp only [Shared.perform, Shared.createJob] at h
    split at h
    · cases h
    split at h
    · cases h
    split at h
    · cases h
    split at h
    · cases h
    split at h
    · cases h
    next htaken =>
    cases h
    by_cases heq : id = id'
    · have hnone : s.jobs.get? id = none := by
        rw [heq]
        exact Option.not_isSome_iff_eq_none.mp htaken
      rw [hnone, HashMap.get?_insert, if_pos heq]
      exact .created rfl heq.symm rfl (Nat.lt_succ_self _)
    · rw [HashMap.get?_insert, if_neg heq]
      exact .same
  | update jobId field value =>
    have hchanged : ∀ f : CronJob → CronJob, field ≠ "prompt" →
        s.updateJob jobId f = .ok s' → (∀ job, (f job).jobId = job.jobId) →
        (∀ job, ((f job).enabling = job.enabling ∧ ((f job).enabled = true → job.enabled = true)) ∨
          (f job).enabling = s.numbers) →
        RowStep cal s s' (.asked (.update jobId field value)) id (s.jobs.get? id)
          (s'.jobs.get? id) := by
      intro f hfield hok hid henabling
      have hs' := updateJob_ok hok
      have hjobs : s'.jobs = s.jobs.modify jobId f := by rw [hs']; rfl
      have hnumbers : s.numbers < s'.numbers := by rw [hs']; exact Nat.lt_succ_self _
      refine rowStep_modify id hjobs (fun row heq => ?_)
      have hop : (Operation.update jobId field value).changes = some id := by
        rw [Operation.changes, if_neg hfield, heq]
      exact .changed rfl hop (hid row) ((henabling row).imp_right (fun h => ⟨h, hnumbers⟩))
    simp only [Shared.perform, Shared.updateField] at h
    split at h
    · next hfield =>
      split at h
      · cases h
      next v _ =>
      split at h
      · cases h
      refine hchanged _ ?_ h (fun _ => rfl) (fun job => ?_)
      · rw [hfield]
        decide
      · by_cases hnew : v = 1 ∧ job.enabled = false
        · exact .inr (if_pos hnew)
        · refine .inl ⟨if_neg hnew, fun hv => ?_⟩
          by_cases henabled : job.enabled = true
          · exact henabled
          · exact absurd ⟨eq_of_beq hv, Bool.eq_false_iff.mpr henabled⟩ hnew
    split at h
    · next hfield =>
      split at h
      · cases h
      refine hchanged _ ?_ h (fun _ => rfl) (fun job => .inl ⟨rfl, fun henabled => henabled⟩)
      rw [hfield]
      decide
    split at h
    · have hs' := updateJob_ok h
      refine rowStep_modify id (by rw [hs']; rfl) (fun row _ => ?_)
      exact .kept rfl (SameTerms.refl row)
    · cases h
  | delete jobId =>
    simp only [Shared.perform, Shared.deleteJob] at h
    split at h
    · cases h
      by_cases heq : id = jobId
      · rw [HashMap.get?_remove, if_pos heq]
        cases s.jobs.get? id with
        | none => exact .same
        | some row => exact .deleted rfl (by rw [heq]; rfl)
      · rw [HashMap.get?_remove, if_neg heq]
        exact .same
    · cases h

theorem perform_frame {id : String} (h : s.perform cal id op = .ok s') :
    s'.fires = s.fires ∧ s.numbers ≤ s'.numbers ∧ s'.permits = s.permits := by
  cases op with
  | create name schedule flowTemplate prompt subjectId tenantId =>
    simp only [Shared.perform, Shared.createJob] at h
    repeat (split at h; · cases h)
    cases h
    exact ⟨rfl, Nat.le_succ _, rfl⟩
  | update jobId field value =>
    have hupdate : ∀ f : CronJob → CronJob, s.updateJob jobId f = .ok s' →
        s'.fires = s.fires ∧ s.numbers ≤ s'.numbers ∧ s'.permits = s.permits := by
      intro f hok
      rw [updateJob_ok hok]
      exact ⟨rfl, Nat.le_succ _, rfl⟩
    simp only [Shared.perform, Shared.updateField] at h
    split at h
    · split at h
      · cases h
      split at h
      · cases h
      exact hupdate _ h
    split at h
    · split at h
      · cases h
      exact hupdate _ h
    split at h
    · exact hupdate _ h
    · cases h
  | delete jobId =>
    simp only [Shared.perform, Shared.deleteJob] at h
    split at h
    · cases h
      exact ⟨rfl, Nat.le_refl _, rfl⟩
    · cases h

theorem Stepped.rowStep (h : Stepped cal cfg s t s' t' fork) (id : String) :
    RowStep cal s s' t id (s.jobs.get? id) (s'.jobs.get? id) := by
  cases h with
  | @record fire taskId =>
    refine rowStep_modify id rfl (fun row heq => ?_)
    exact .recorded rfl heq.symm rfl rfl rfl rfl rfl
  | stamp =>
    refine rowStep_modify id rfl (fun row _ => ?_)
    exact .kept rfl (SameTerms.refl row)
  | perform hperform => exact rowStep_perform hperform id
  | _ => exact .same

theorem Stepped.fires (h : Stepped cal cfg s t s' t' fork) :
    s'.fires = s.fires ∨ ∃ fire taskId, t = .creating fire ∧ t' = .appending fire taskId ∧
      s'.fires = ⟨fire.jobId, (s.jobs.get? fire.jobId).map (·.enabling), fire.scheduled,
        isOneShot cal fire.job⟩ :: s.fires := by
  cases h with
  | @create fire taskId => exact .inr ⟨fire, taskId, rfl, rfl, rfl⟩
  | perform hperform => exact .inl (perform_frame hperform).1
  | _ => exact .inl rfl

theorem Stepped.numbers (h : Stepped cal cfg s t s' t' fork) : s.numbers ≤ s'.numbers := by
  cases h with
  | perform hperform => exact (perform_frame hperform).2.1
  | _ => exact Nat.le_refl _

theorem Stepped.busy (h : Stepped cal cfg s t s' t' fork) :
    (∀ id ∈ t'.busy, id ∈ t.busy ∨ (t = .scheduler ∧ id ∈ s.dueJobs.map (·.jobId)) ∨
      ∃ jobId job, t = .triggering jobId ∧ s.jobs.get? jobId = some job ∧ job.jobId = id) ∧
    ∀ f, fork = some f → ∀ id ∈ f.busy, id ∈ t.busy := by
  cases h with
  | tick =>
    refine ⟨fun id hid => ?_, fun f hf => by cases hf⟩
    have hheld : id ∈ s.dueJobs.map (·.jobId) ++ [] := hid
    rw [List.append_nil] at hheld
    exact .inr (.inl ⟨rfl, hheld⟩)
  | defer =>
    refine ⟨fun id hid => .inl ?_, fun f hf => by cases hf⟩
    exact List.mem_cons_of_mem _ hid
  | start =>
    refine ⟨fun id hid => .inl (List.mem_cons_of_mem _ hid), fun f hf id hid => ?_⟩
    cases hf
    rw [List.mem_singleton.mp hid]
    exact List.mem_cons_self
  | @trigger jobId job hjob =>
    refine ⟨fun id hid => ?_, fun f hf => by cases hf⟩
    exact .inr (.inr ⟨jobId, job, rfl, hjob, (List.mem_singleton.mp hid).symm⟩)
  | dispatch =>
    refine ⟨fun id hid => (by cases hid), fun f hf id hid => ?_⟩
    cases hf
    exact hid
  | _ => exact ⟨fun id hid => .inl (by first | exact hid | cases hid), fun f hf => by cases hf⟩

theorem Stepped.isFire (h : Stepped cal cfg s t s' t' fork) :
    ([t'] ++ fork.toList).countP Task.isFire ≤ [t].countP Task.isFire ∨
      ∃ job due, t = .ticking (job :: due) ∧ s.permits ≠ 0 ∧
        ([t'] ++ fork.toList).countP Task.isFire ≤ 1 := by
  cases h with
  | @start job due hpermits => exact .inr ⟨job, due, rfl, hpermits, Nat.le_refl 1⟩
  | dispatch | pass | create | append | record => exact .inl (Nat.le_refl _)
  | _ => exact .inl (by simp [Task.isFire])

end

end Relux.Cron
