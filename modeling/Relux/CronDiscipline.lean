import Relux.CronRuns

/-! Disciplined runs of the cron service: those in which a job is read, edited and fired by
one task at a time. -/

namespace Relux.Cron

/-- A job is read only when no task is at work on it and none of its calls of the model is in
flight, and by a trigger only when it is enabled; a tick starts a fire only while fewer of its own
are at work than allowed; a job is not edited or deleted between the reading of its row and the
dispatch. -/
def Disciplined (cfg : CronSchedulerConfig) (c : Crowd Shared Task) : Crowd.Label Task → Prop
  | .run i =>
    (c.tasks[i]? = some .scheduler → ∀ job ∈ c.shared.dueJobs, ∀ (j : Nat) (u : Task),
      c.tasks[j]? = some u → job.jobId ∉ u.busy) ∧
    (∀ job due, c.tasks[i]? = some (.ticking (job :: due)) → c.shared.permits ≠ 0 →
      c.tasks.countP Task.isFire < cfg.maxConcurrent) ∧
    (∀ jobId job, c.tasks[i]? = some (.triggering jobId) →
      c.shared.jobs.get? jobId = some job → job.enabled = true ∧
        ∀ (j : Nat) (u : Task), c.tasks[j]? = some u → jobId ∉ u.busy) ∧
    (∀ op jobId, c.tasks[i]? = some (.asked op) → op.changes = some jobId →
      ∀ (j : Nat) (u : Task), c.tasks[j]? = some u → jobId ∉ u.holds)
  | _ => True

structure Shared.Sound (s : Shared) : Prop where
  keyed : s.jobs.KeyedBy (·.jobId)
  rows : ∀ id row, s.jobs.get? id = some row → row.enabling < s.numbers
  fires : ∀ f ∈ s.fires, ∀ n, f.enabling = some n → n < s.numbers
  once : ∀ id n, oneShotFires s id n ≤ 1

/-- The rows a task has read are as they were, enabled, and those it has not fired yet were not
fired under their enabling. -/
structure Task.Sound (cal : Calendar) (s : Shared) (t : Task) : Prop where
  reads : ∀ job ∈ t.reads, ∃ row, s.jobs.get? job.jobId = some row ∧ row.enabled = true ∧
    SameTerms row job
  unfired : ∀ job ∈ t.unfired, oneShotFires s job.jobId job.enabling = 0
  dispatch : ∀ fire taskId, t = .dispatching fire taskId → ∃ row,
    s.jobs.get? fire.jobId = some row ∧ (row.enabled = true ∨ isOneShot cal fire.job = true)
  distinct : (t.reads.map (·.jobId)).Nodup

def Task.Apart (t u : Task) : Prop := ∀ id ∈ t.busy, id ∉ u.busy

/-- Where a one-shot job is enabled and has a fire under this enabling, that fire is on its way
to the row. -/
def Unrecorded (cal : Calendar) (c : Crowd Shared Task) : Prop :=
  ∀ id row, c.shared.jobs.get? id = some row → row.enabled = true →
    oneShotFires c.shared id row.enabling ≠ 0 → ∃ (j : Nat) (u : Task) (fire : Fire),
      c.tasks[j]? = some u ∧ u.unrecorded = some fire ∧ fire.jobId = id ∧
        isOneShot cal fire.job = true

variable {t : Task}

theorem Task.Apart.symm {u : Task} (h : t.Apart u) : u.Apart t := fun id hu ht => h id ht hu

variable {job : CronJob}

theorem mem_holds (h : job ∈ t.reads) : job.jobId ∈ t.holds := by
  cases t with
  | dispatching fire taskId => cases h
  | _ => exact List.mem_map_of_mem h

variable {id : String}

theorem mem_busy (h : id ∈ t.holds) : id ∈ t.busy := List.mem_append_left _ h

theorem unrecorded_holds {fire : Fire} (h : t.unrecorded = some fire) :
    t.holds = [fire.jobId] ∧ ∀ op, t ≠ .asked op := by
  cases t with
  | appending f taskId | recording f taskId => cases h; exact ⟨rfl, fun _ h => by cases h⟩
  | _ => cases h

section
variable {cal : Calendar} {cfg : CronSchedulerConfig} {s s' : Shared} {t t' u : Task}
  {fork : Option Task}

variable {row : CronJob}

theorem Stepped.stays (h : Stepped cal cfg s t s' t' fork) (hid : id ∉ t.holds)
    (hop : ∀ op, t = .asked op → op.changes ≠ some id)
    (hrow : s.jobs.get? id = some row) :
    ∃ row', s'.jobs.get? id = some row' ∧ SameTerms row' row := by
  have hstep := h.rowStep id
  rw [hrow] at hstep
  generalize s'.jobs.get? id = o at hstep
  cases hstep with
  | same => exact ⟨row, rfl, SameTerms.refl row⟩
  | kept _ hterms => exact ⟨_, rfl, hterms⟩
  | recorded ht hfire => exact absurd (by rw [ht, ← hfire]; exact List.mem_singleton_self _) hid
  | changed ht hchanges => exact absurd hchanges (hop _ ht)
  | deleted ht hchanges => exact absurd hchanges (hop _ ht)

theorem Stepped.oneShotFires (h : Stepped cal cfg s t s' t' fork) (id : String) (n : Nat) :
    oneShotFires s' id n = oneShotFires s id n ∨
      ∃ fire taskId row, t = .creating fire ∧ t' = .appending fire taskId ∧ fire.jobId = id ∧
        s.jobs.get? id = some row ∧ row.enabling = n ∧ isOneShot cal fire.job = true ∧
        oneShotFires s' id n = oneShotFires s id n + 1 := by
  rcases h.fires with hsame | ⟨fire, taskId, ht, ht', hcons⟩
  · exact .inl (by unfold Cron.oneShotFires; rw [hsame])
  · unfold Cron.oneShotFires
    rw [hcons, List.countP_cons]
    split
    · next hcounted =>
      simp only [Bool.and_eq_true, beq_iff_eq] at hcounted
      obtain ⟨⟨⟨hid, henabling⟩, -⟩, honeShot⟩ := hcounted
      obtain ⟨row, hrow, hn⟩ := Option.map_eq_some_iff.mp henabling
      rw [hid] at hrow
      exact .inr ⟨fire, taskId, row, ht, ht', hid, hrow, hn, honeShot, rfl⟩
    · exact .inl rfl

theorem Task.Sound.other (hu : u.Sound cal s) (h : Stepped cal cfg s t s' t' fork)
    (hapart : t.Apart u) (hop : ∀ op id, t = .asked op → op.changes = some id → id ∉ u.holds) :
    u.Sound cal s' := by
  have hstays : ∀ id ∈ u.holds, ∀ row, s.jobs.get? id = some row →
      ∃ row', s'.jobs.get? id = some row' ∧ SameTerms row' row := by
    intro id hid row hrow
    refine h.stays (fun ht => hapart id (mem_busy ht) (mem_busy hid)) ?_ hrow
    exact fun op ht hchanges => hop op id ht hchanges hid
  refine ⟨?_, ?_, ?_, hu.distinct⟩
  · intro job hjob
    obtain ⟨row, hrow, henabled, hterms⟩ := hu.reads job hjob
    obtain ⟨row', hrow', hterms'⟩ := hstays _ (mem_holds hjob) row hrow
    exact ⟨row', hrow', hterms'.1.trans henabled, hterms'.trans hterms⟩
  · intro job hjob
    rcases h.oneShotFires job.jobId job.enabling with
      hsame | ⟨fire, taskId, row, ht, -, hid, -⟩
    · rw [hsame]
      exact hu.unfired job hjob
    · have hread : job ∈ u.reads := by
        cases u with
        | ticking due | checking fire | creating fire => exact hjob
        | _ => cases hjob
      refine absurd (mem_busy (mem_holds hread)) (hapart _ ?_)
      rw [ht, ← hid]
      exact List.mem_singleton_self _
  · intro fire taskId heq
    obtain ⟨row, hrow, hstate⟩ := hu.dispatch fire taskId heq
    have hheld : fire.jobId ∈ u.holds := by
      rw [heq]
      exact List.mem_singleton_self _
    obtain ⟨row', hrow', hterms⟩ := hstays _ hheld row hrow
    exact ⟨row', hrow', hstate.imp_left hterms.1.trans⟩

theorem mem_dueJobs (hkeyed : s.jobs.KeyedBy (·.jobId)) (h : job ∈ s.dueJobs) :
    s.jobs.get? job.jobId = some job ∧ job.enabled = true := by
  unfold Shared.dueJobs at h
  rw [List.mem_mergeSort, List.mem_filter, Bool.and_eq_true] at h
  obtain ⟨hvalue, henabled, -⟩ := h
  obtain ⟨id, hrow⟩ := HashMap.mem_values.mp hvalue
  have hid : job.jobId = id := hkeyed id job hrow
  rw [hid]
  exact ⟨hrow, henabled⟩

theorem dueJobs_nodup (hkeyed : s.jobs.KeyedBy (·.jobId)) :
    (s.dueJobs.map (·.jobId)).Nodup := by
  have hsub : ((s.jobs.values.filter (fun job => job.enabled && job.nextRunAt ≤ s.now)).map
      (·.jobId)).Nodup := hkeyed.values_nodup.sublist (List.filter_sublist.map _)
  exact ((List.mergeSort_perm _ _).map _).nodup_iff.mpr hsub

theorem Task.Sound.idle (hreads : t.reads = []) (hunfired : t.unfired = [])
    (hdispatch : ∀ fire taskId, t ≠ .dispatching fire taskId) : t.Sound cal s := by
  refine ⟨?_, ?_, fun fire taskId heq => absurd heq (hdispatch fire taskId), ?_⟩
  · rw [hreads]
    exact fun job hjob => by cases hjob
  · rw [hunfired]
    exact fun job hjob => by cases hjob
  · rw [hreads]
    exact List.nodup_nil

theorem Task.Sound.checking {scheduled : Bool}
    (hrow : s.jobs.get? job.jobId = some row) (henabled : row.enabled = true)
    (hterms : SameTerms row job) (hfires : Cron.oneShotFires s job.jobId job.enabling = 0) :
    (Task.checking ⟨job, scheduled⟩).Sound cal s := by
  refine ⟨?_, ?_, fun fire taskId heq => (by cases heq), List.nodup_singleton _⟩
  · intro j hj
    rw [List.mem_singleton.mp hj]
    exact ⟨row, hrow, henabled, hterms⟩
  · intro j hj
    rw [List.mem_singleton.mp hj]
    exact hfires

theorem Task.Sound.own (ht : t.Sound cal s) (hs : s.Sound) (h : Stepped cal cfg s t s' t' fork)
    (hdue : t = .scheduler → ∀ job ∈ s.dueJobs, Cron.oneShotFires s job.jobId job.enabling = 0)
    (htrigger : ∀ jobId job, t = .triggering jobId → s.jobs.get? jobId = some job →
      job.enabled = true ∧ Cron.oneShotFires s job.jobId job.enabling = 0) :
    t'.Sound cal s' ∧ ∀ f, fork = some f → f.Sound cal s' := by
  have hnone : ∀ {p : Task → Prop}, ∀ f, none = some f → p f := by
    intro p f hf
    cases hf
  cases h with
  | tick =>
    refine ⟨⟨?_, hdue rfl, fun _ _ heq => (by cases heq), dueJobs_nodup hs.keyed⟩, hnone⟩
    intro job hjob
    obtain ⟨hrow, henabled⟩ := mem_dueJobs hs.keyed hjob
    exact ⟨job, hrow, henabled, SameTerms.refl job⟩
  | defer =>
    refine ⟨⟨?_, ?_, fun _ _ heq => (by cases heq), (List.nodup_cons.mp ht.distinct).2⟩, hnone⟩
    · exact fun job hjob => ht.reads job (List.mem_cons_of_mem _ hjob)
    · exact fun job hjob => ht.unfired job (List.mem_cons_of_mem _ hjob)
  | @start job due =>
    refine ⟨⟨?_, ?_, fun _ _ heq => (by cases heq), (List.nodup_cons.mp ht.distinct).2⟩, ?_⟩
    · exact fun job hjob => ht.reads job (List.mem_cons_of_mem _ hjob)
    · exact fun job hjob => ht.unfired job (List.mem_cons_of_mem _ hjob)
    · intro f hf
      cases hf
      obtain ⟨row, hrow, henabled, hterms⟩ := ht.reads job List.mem_cons_self
      exact .checking hrow henabled hterms (ht.unfired job List.mem_cons_self)
  | @trigger jobId job hjob =>
    obtain ⟨henabled, hfires⟩ := htrigger jobId job rfl hjob
    have hid : job.jobId = jobId := hs.keyed jobId job hjob
    refine ⟨.checking ?_ henabled (SameTerms.refl job) hfires, hnone⟩
    rw [hid]
    exact hjob
  | pass => exact ⟨⟨ht.reads, ht.unfired, fun _ _ heq => (by cases heq), ht.distinct⟩, hnone⟩
  | create =>
    refine ⟨⟨ht.reads, fun job hjob => (by cases hjob), fun _ _ heq => (by cases heq),
      ht.distinct⟩, hnone⟩
  | append =>
    refine ⟨⟨ht.reads, fun job hjob => (by cases hjob), fun _ _ heq => (by cases heq),
      ht.distinct⟩, hnone⟩
  | @record fire taskId =>
    refine ⟨⟨fun job hjob => (by cases hjob), fun job hjob => (by cases hjob), ?_, List.nodup_nil⟩,
      hnone⟩
    intro fire' taskId' heq
    cases heq
    obtain ⟨row, hrow, henabled, -⟩ := ht.reads fire.job (List.mem_singleton_self _)
    have hstamped : (stampJob cal s fire taskId).jobs.get? fire.jobId =
        (s.jobs.get? fire.jobId).map _ :=
      (HashMap.get?_modify _ _ _ _).trans (if_pos rfl)
    rw [hrow, Option.map_some] at hstamped
    refine ⟨_, hstamped, ?_⟩
    by_cases honeShot : isOneShot cal fire.job = true
    · exact .inr honeShot
    · exact .inl ((if_neg honeShot).trans henabled)
  | dispatch =>
    refine ⟨.idle rfl rfl (fun _ _ heq => by cases heq), fun f hf => ?_⟩
    cases hf
    exact .idle rfl rfl (fun _ _ heq => by cases heq)
  | _ => exact ⟨.idle rfl rfl (fun _ _ heq => by cases heq), hnone⟩

theorem Shared.Sound.step (hs : s.Sound) (ht : t.Sound cal s)
    (h : Stepped cal cfg s t s' t' fork) : s'.Sound := by
  have hnumbers := h.numbers
  refine ⟨?_, ?_, ?_, ?_⟩
  · intro id row hrow
    have hstep := h.rowStep id
    rw [hrow] at hstep
    generalize hold : s.jobs.get? id = o at hstep
    cases hstep with
    | same => exact hs.keyed id row hold
    | kept hid | recorded _ _ hid | changed _ _ hid => exact hid.trans (hs.keyed id _ hold)
    | created _ hid => exact hid
  · intro id row hrow
    have hstep := h.rowStep id
    rw [hrow] at hstep
    generalize hold : s.jobs.get? id = o at hstep
    cases hstep with
    | same => exact Nat.lt_of_lt_of_le (hs.rows id row hold) hnumbers
    | kept _ hterms =>
      rw [hterms.2.2.2]
      exact Nat.lt_of_lt_of_le (hs.rows id _ hold) hnumbers
    | recorded _ _ _ _ _ henabling =>
      rw [henabling]
      exact Nat.lt_of_lt_of_le (hs.rows id _ hold) hnumbers
    | changed _ _ _ henabling =>
      rcases henabling with ⟨heq, -⟩ | ⟨heq, hlt⟩
      · rw [heq]
        exact Nat.lt_of_lt_of_le (hs.rows id _ hold) hnumbers
      · rw [heq]
        exact hlt
    | created _ _ heq hlt =>
      rw [heq]
      exact hlt
  · intro f hf n hn
    rcases h.fires with hsame | ⟨fire, taskId, -, -, hcons⟩
    · rw [hsame] at hf
      exact Nat.lt_of_lt_of_le (hs.fires f hf n hn) hnumbers
    · rw [hcons] at hf
      rcases List.mem_cons.mp hf with rfl | hold
      · obtain ⟨row, hrow, rfl⟩ := Option.map_eq_some_iff.mp hn
        exact Nat.lt_of_lt_of_le (hs.rows _ row hrow) hnumbers
      · exact Nat.lt_of_lt_of_le (hs.fires f hold n hn) hnumbers
  · intro id n
    rcases h.oneShotFires id n with hsame | ⟨fire, taskId, row, rfl, -, hid, hrow, hn, -, hcount⟩
    · rw [hsame]
      exact hs.once id n
    · -- the row is under the enabling the fire has read, which has no fire yet
      obtain ⟨row', hrow', -, hterms⟩ := ht.reads fire.job (List.mem_singleton_self _)
      have hzero := ht.unfired fire.job (List.mem_singleton_self _)
      have hfireId : fire.job.jobId = id := hid
      rw [hfireId, hrow] at hrow'
      have hrows : row = row' := Option.some.inj hrow'
      rw [hfireId, ← hterms.2.2.2, ← hrows, hn] at hzero
      omega

structure Kept (cal : Calendar) (cfg : CronSchedulerConfig) (c : Crowd Shared Task) : Prop where
  sound : Crowd.Meets Shared.Sound (Task.Sound cal) Task.Apart c
  unrecorded : Unrecorded cal c
  fires : c.tasks.countP Task.isFire ≤ cfg.maxConcurrent

variable {c c' : Crowd Shared Task}

theorem Unrecorded.unfired (h : Unrecorded cal c) (hrow : c.shared.jobs.get? id = some job)
    (henabled : job.enabled = true)
    (hfree : ∀ (j : Nat) (u : Task), c.tasks[j]? = some u → id ∉ u.busy) :
    Cron.oneShotFires c.shared id job.enabling = 0 := by
  by_contra hfires
  obtain ⟨j, u, fire, hj, hu, hid, -⟩ := h id job hrow henabled hfires
  refine hfree j u hj (mem_busy ?_)
  rw [(unrecorded_holds hu).1, hid]
  exact List.mem_singleton_self _

theorem Stepped.enabled (h : Stepped cal cfg s t s' t' fork) {row' : CronJob}
    (hrow' : s'.jobs.get? id = some row') (henabled : row'.enabled = true) :
    row'.enabling = s.numbers ∨ ∃ row, s.jobs.get? id = some row ∧ row.enabled = true ∧
      row.enabling = row'.enabling ∧ ∀ fire taskId, t = .recording fire taskId →
        fire.jobId = id → isOneShot cal fire.job = false := by
  have hstep := h.rowStep id
  rw [hrow'] at hstep
  generalize hold : s.jobs.get? id = o at hstep
  by_cases hrecording : ∃ fire taskId, t = .recording fire taskId ∧ fire.jobId = id
  · obtain ⟨fire, taskId, rfl, hid⟩ := hrecording
    cases h with
    | record =>
      have hstamped : (stampJob cal s fire taskId).jobs.get? fire.jobId =
          (s.jobs.get? fire.jobId).map _ :=
        (HashMap.get?_modify _ _ _ _).trans (if_pos rfl)
      rw [hid, hrow', hold] at hstamped
      obtain ⟨row, rfl, rfl⟩ := Option.map_eq_some_iff.mp hstamped.symm
      by_cases honeShot : isOneShot cal fire.job = true
      · have hoff : false = true := (if_pos honeShot).symm.trans henabled
        cases hoff
      · refine .inr ⟨row, rfl, (if_neg honeShot).symm.trans henabled, rfl, ?_⟩
        intro fire' taskId' heq _
        cases heq
        exact Bool.eq_false_iff.mpr honeShot
  · have hother : ∀ fire taskId, t = .recording fire taskId → fire.jobId = id →
        isOneShot cal fire.job = false :=
      fun fire taskId ht hid => absurd ⟨fire, taskId, ht, hid⟩ hrecording
    cases hstep with
    | same => exact .inr ⟨row', rfl, henabled, rfl, hother⟩
    | kept _ hterms =>
      exact .inr ⟨_, rfl, hterms.1.symm.trans henabled, hterms.2.2.2.symm, hother⟩
    | recorded ht hid => exact absurd ⟨_, _, ht, hid⟩ hrecording
    | changed _ _ _ henabling =>
      rcases henabling with ⟨heq, hwas⟩ | ⟨heq, -⟩
      · exact .inr ⟨_, rfl, hwas henabled, heq.symm, hother⟩
      · exact .inl heq
    | created _ _ heq => exact .inl heq

theorem oneShotFires_fresh (hs : s.Sound) (id : String) {n : Nat} (hn : s.numbers ≤ n) :
    Cron.oneShotFires s id n = 0 := by
  unfold Cron.oneShotFires
  rw [List.countP_eq_zero]
  intro f hf hcounted
  simp only [Bool.and_eq_true, beq_iff_eq] at hcounted
  exact absurd (hs.fires f hf n hcounted.1.1.2) (Nat.not_lt.mpr hn)

theorem Unrecorded.run {i : Nat} {ts : List Task} (hkept : Kept cal cfg ⟨s, ts⟩)
    (hi : ts[i]? = some t) (h : Stepped cal cfg s t s' t' fork) :
    Unrecorded cal ⟨s', ts.set i t' ++ fork.toList⟩ := by
  have hlt : i < ts.length := (List.getElem?_eq_some_iff.mp hi).1
  have hafter : ∀ {j : Nat}, j < ts.length →
      (ts.set i t' ++ fork.toList)[j]? = (ts.set i t')[j]? := by
    intro j hj
    refine List.getElem?_append_left ?_
    rw [List.length_set]
    exact hj
  intro id row' hrow' henabled hfires
  rcases h.oneShotFires id row'.enabling with
    hsame | ⟨fire, taskId, row, rfl, rfl, hid, -, -, honeShot, -⟩
  · have hs := hkept.sound.shared
    rcases h.enabled hrow' henabled with hnew | ⟨row, hrow, hwas, henabling, hrecording⟩
    · exact absurd (hsame.trans (oneShotFires_fresh hs id (Nat.le_of_eq hnew.symm))) hfires
    · rw [hsame, ← henabling] at hfires
      obtain ⟨j, u, fire, hj, hu, hid, honeShot⟩ := hkept.unrecorded id row hrow hwas hfires
      by_cases hji : j = i
      · -- the fire that is on its way makes its step
        subst hji
        have htu : t = u := Option.some.inj (hi.symm.trans hj)
        subst htu
        cases h with
        | @append f taskId =>
          cases hu
          refine ⟨j, .recording fire taskId, fire, ?_, rfl, hid, honeShot⟩
          rw [hafter hlt]
          exact List.getElem?_set_self hlt
        | @record f taskId =>
          cases hu
          rw [hrecording fire taskId rfl hid] at honeShot
          cases honeShot
        | _ => cases hu
      · refine ⟨j, u, fire, ?_, hu, hid, honeShot⟩
        rw [hafter (List.getElem?_eq_some_iff.mp hj).1, List.getElem?_set_ne (Ne.symm hji)]
        exact hj
  · refine ⟨i, .appending fire taskId, fire, ?_, rfl, hid, honeShot⟩
    rw [hafter hlt]
    exact List.getElem?_set_self hlt

end

end Relux.Cron
