import Relux.Retention

/-! When every event that the retention deletes is counted once, all along a run. -/

namespace Relux.Retention

open Transition (Guarded)

theorem filter_split {α : Type} {p q r : α → Bool} {l : List α}
    (hor : ∀ x ∈ l, r x = (p x || q x)) (hnot : ∀ x ∈ l, ¬(p x = true ∧ q x = true)) :
    (l.filter r).Perm (l.filter p ++ l.filter q) := by
  induction l with
  | nil => exact .refl _
  | cons x l ih =>
    have hrest := ih (fun y hy => hor y (List.mem_cons_of_mem _ hy))
      (fun y hy => hnot y (List.mem_cons_of_mem _ hy))
    have hx := hor x List.mem_cons_self
    have hx' := hnot x List.mem_cons_self
    cases hp : p x <;> cases hq : q x
    · simp only [hp, hq, Bool.or_self] at hx
      simpa only [List.filter_cons, hp, hq, hx, Bool.false_eq_true, if_false] using hrest
    · simp only [hp, hq, Bool.or_true] at hx
      simp only [List.filter_cons, hp, hq, hx, Bool.false_eq_true, if_false, if_true]
      exact (hrest.cons x).trans List.perm_middle.symm
    · simp only [hp, hq, Bool.or_false] at hx
      simp only [List.filter_cons, hp, hq, hx, Bool.false_eq_true, if_false, if_true,
        List.cons_append]
      exact hrest.cons x
    · exact absurd ⟨hp, hq⟩ hx'

theorem take_split {α β : Type} [DecidableEq β] {f : α → β} {l sorted : List α}
    (hsorted : sorted.Perm l) (hnodup : (l.map f).Nodup) (n : Nat) :
    l.Perm (sorted.take n ++ l.filter (fun x => decide (f x ∉ (sorted.take n).map f))) := by
  have hkeys : ((sorted.take n ++ sorted.drop n).map f).Nodup := by
    rw [List.take_append_drop]
    exact (hsorted.map f).nodup_iff.mpr hnodup
  rw [List.map_append] at hkeys
  have hdisjoint := (List.nodup_append.mp hkeys).2.2
  have htake : (sorted.take n).filter (fun x => decide (f x ∉ (sorted.take n).map f)) = [] := by
    apply List.filter_eq_nil_iff.mpr
    intro x hx
    simp only [decide_eq_true_eq, Classical.not_not]
    exact List.mem_map_of_mem hx
  have hdrop : (sorted.drop n).filter (fun x => decide (f x ∉ (sorted.take n).map f)) =
      sorted.drop n := by
    apply List.filter_eq_self.mpr
    intro x hx
    rw [decide_eq_true_eq]
    intro hmem
    exact hdisjoint _ hmem _ (List.mem_map_of_mem hx) rfl
  have hrest : (sorted.drop n).Perm
      (l.filter (fun x => decide (f x ∉ (sorted.take n).map f))) := by
    have hfilter := hsorted.filter (fun x => decide (f x ∉ (sorted.take n).map f))
    rw [← List.take_append_drop n sorted, List.filter_append, List.take_append_drop, htake, hdrop,
      List.nil_append] at hfilter
    exact hfilter
  have hsplit : l.Perm (sorted.take n ++ sorted.drop n) := by
    rw [List.take_append_drop]
    exact hsorted.symm
  exact hsplit.trans (hrest.append_left _)

variable {t : String} {e : Event}

namespace TaskStore

variable {s : TaskStore} {cutoff : Int}

theorem mem_matching : e ∈ s.matching cutoff ↔
    e ∈ s.events ∧ old cutoff e.ts e.eventType = true ∧ s.isTerminal e.taskId = true := by
  simp only [matching, List.mem_filter, Bool.and_eq_true]

theorem mem_oldEvents : e ∈ s.oldEvents t cutoff ↔
    e ∈ s.events ∧ e.taskId = t ∧ old cutoff e.ts e.eventType = true := by
  simp only [oldEvents, List.mem_filter, Bool.and_eq_true, beq_iff_eq]

theorem matching_congr {s' : TaskStore} (hevents : s'.events = s.events)
    (h : ∀ e ∈ s.events, old cutoff e.ts e.eventType = true →
      s'.isTerminal e.taskId = s.isTerminal e.taskId) : s'.matching cutoff = s.matching cutoff := by
  simp only [matching, hevents]
  apply List.filter_congr
  intro e he
  by_cases hold : old cutoff e.ts e.eventType = true
  · rw [h e he hold]
  · simp only [hold, Bool.false_and]

theorem matching_insert (t : String) (ts : Int) (eventType payload : String)
    (summary : Option CompactionSummary) :
    (s.insertEvent t ts eventType payload summary).matching cutoff = s.matching cutoff ++
      if old cutoff ts eventType && s.isTerminal t then
        [⟨s.nextId, t, ts, eventType, payload, summary⟩] else [] := by
  simp only [matching, insertEvent, List.filter_append, List.filter_cons, List.filter_nil]
  rfl

theorem matching_snapshot (t : String) (ts : Int) (payload : String)
    (summary : Option CompactionSummary) :
    (s.insertEvent t ts snapshotType payload summary).matching cutoff = s.matching cutoff := by
  rw [matching_insert, if_neg, List.append_nil]
  simp [old]

theorem matching_without (rows : List Event) : (s.without rows).matching cutoff =
    (s.matching cutoff).filter (fun e => decide (e.eventId ∉ rows.map (·.eventId))) := by
  simp only [matching, without, List.filter_filter]
  apply List.filter_congr
  intro e _
  exact Bool.and_comm _ _

theorem picked_split (hids : (s.events.map (·.eventId)).Nodup) (rank : Nat → Nat) :
    (s.matching cutoff).Perm
      (s.picked cutoff rank ++ (s.without (s.picked cutoff rank)).matching cutoff) := by
  rw [matching_without]
  apply take_split (List.perm_insertionSort _ _)
  exact hids.sublist (List.filter_sublist.map _)

variable {rank : Nat → Nat}

theorem picked_eq_nil (h : s.picked cutoff rank = []) :
    s.matching cutoff = [] := by
  rcases List.take_eq_nil_iff.mp h with hzero | hsorted
  · cases hzero
  · exact List.perm_nil.mp (hsorted ▸ (List.perm_insertionSort _ _).symm)

theorem mem_picked (h : e ∈ s.picked cutoff rank) : e ∈ s.matching cutoff :=
  (List.perm_insertionSort _ _).mem_iff.mp (List.mem_of_mem_take h)

theorem mem_candidateTasks {rank : String → Nat} :
    t ∈ (s.candidateTasks cutoff rank).map Prod.fst ↔ ∃ e ∈ s.matching cutoff, e.taskId = t := by
  simp only [candidateTasks, List.mem_map, List.mem_insertionSort, List.mem_dedup]
  constructor
  · rintro ⟨x, ⟨e, he, rfl⟩, rfl⟩
    exact ⟨e, he, rfl⟩
  · rintro ⟨e, he, rfl⟩
    exact ⟨_, ⟨e, he, rfl⟩, rfl⟩

theorem candidateTasks_nodup (cutoff : Int) (rank : String → Nat) :
    ((s.candidateTasks cutoff rank).map Prod.fst).Nodup := by
  have hpairs : (s.candidateTasks cutoff rank).Nodup :=
    (List.perm_insertionSort _ _).nodup_iff.mpr (List.nodup_dedup _)
  apply hpairs.map_on
  intro x hx y hy hxy
  simp only [candidateTasks, List.mem_map, List.mem_insertionSort, List.mem_dedup] at hx hy
  obtain ⟨e, -, rfl⟩ := hx
  obtain ⟨e', -, rfl⟩ := hy
  simp only at hxy
  rw [hxy]

end TaskStore

def snapshotOf (e : Event) : Option (Nat × String × Nat) :=
  e.summary.map (fun summary => (e.eventId, e.taskId, summary.eventCount))

def Entry.row (n : Entry) : Nat × String × Nat := (n.eventId, n.taskId, n.covered.length)

/-- The events have each their id and a task, and the snapshots among them are those of the
ledger. -/
structure State.Filed (s : State) : Prop where
  ids : ((s.deleted ++ s.store.events).map (·.eventId)).Nodup
  fresh : ∀ e ∈ s.deleted ++ s.store.events, e.eventId < s.store.nextId
  founded : ∀ e ∈ s.store.events, (s.store.tasks.get? e.taskId).isSome = true
  typed : ∀ e ∈ s.store.events, e.summary.isSome = true → e.eventType = snapshotType
  snapshots : s.store.events.filterMap snapshotOf = s.ledger.map Entry.row
  covered : ∀ n ∈ s.ledger, ∀ e ∈ n.covered, e.taskId = n.taskId

structure Waits (store : TaskStore) (r : RetentionRun) : Prop where
  nodup : (r.candidates.map Prod.fst).Nodup
  finished : ∀ t ∈ r.candidates.map Prod.fst, store.isTerminal t = true
  some : ∀ t ∈ r.candidates.map Prod.fst, store.oldEvents t r.cutoff ≠ []
  emitted : ∀ t summary covered, r.phase = .emit t summary covered →
    summary.eventCount = covered.length ∧ (∀ e ∈ covered, e.taskId = t) ∧
      (store.tasks.get? t).isSome = true

structure State.WellKept (s : State) : Prop extends s.Filed where
  waits : ∀ r, s.running = some r → Waits s.store r

def State.pending (s : State) : List Event :=
  match s.running with
  | some ⟨_, .emit _ _ covered, _, _⟩ => covered
  | _ => []

def State.atStake (s : State) : List Event :=
  match s.running with
  | none => []
  | some r =>
    (s.store.matching r.cutoff).filter (fun e => decide (e.taskId ∉ r.candidates.map Prod.fst))

def State.Sound (s : State) : Prop :=
  (s.ledger.flatMap (·.covered) ++ s.pending).Perm (s.deleted ++ s.atStake)

def sum (counts : List Nat) : Nat := counts.foldr (· + ·) 0

def State.compacted (s : State) (taskId : String) : Nat :=
  sum (((s.store.events.filterMap snapshotOf).filter (fun n => n.2.1 == taskId)).map (·.2.2))

/-- Every event that was deleted is counted once, in a snapshot of its task, and the snapshots of
a task count as many as were deleted. -/
structure State.Recorded (s : State) : Prop where
  once : ∀ e ∈ s.deleted, (s.ledger.flatMap (·.covered)).count e = 1 ∧
    ∃ n ∈ s.ledger, e ∈ n.covered ∧ n.taskId = e.taskId ∧
      ∃ row ∈ s.store.events, row.eventId = n.eventId ∧ row.taskId = e.taskId ∧
        row.eventType = snapshotType ∧ row.summary.map (·.eventCount) = some n.covered.length
  compacted : ∀ taskId, s.compacted taskId = (s.deleted.filter (fun e => e.taskId == taskId)).length

namespace State

variable {s : State}

theorem Filed.compacted_eq (h : s.Filed) (taskId : String) : s.compacted taskId =
    ((s.ledger.flatMap (·.covered)).filter (fun e => e.taskId == taskId)).length := by
  rw [compacted, h.snapshots]
  have hcovered := h.covered
  generalize s.ledger = ledger at hcovered
  induction ledger with
  | nil => rfl
  | cons n ledger ih =>
    have hrest := ih (fun m hm => hcovered m (List.mem_cons_of_mem _ hm))
    have hn : ∀ e ∈ n.covered, e.taskId = n.taskId := hcovered n List.mem_cons_self
    rw [List.flatMap_cons, List.filter_append, List.length_append, ← hrest]
    by_cases htask : n.taskId = taskId
    · have hall : n.covered.filter (fun e => e.taskId == taskId) = n.covered := by
        apply List.filter_eq_self.mpr
        intro e he
        rw [hn e he, htask, beq_self_eq_true]
      simp [Entry.row, htask, hall, sum]
    · have hnone : n.covered.filter (fun e => e.taskId == taskId) = [] := by
        apply List.filter_eq_nil_iff.mpr
        intro e he
        rw [hn e he, beq_iff_eq]
        exact htask
      simp [Entry.row, htask, hnone]

theorem Filed.snapshot_row (h : s.Filed) {n : Entry} (hn : n ∈ s.ledger) :
    ∃ row ∈ s.store.events, row.eventId = n.eventId ∧ row.taskId = n.taskId ∧
      row.eventType = snapshotType ∧ row.summary.map (·.eventCount) = some n.covered.length := by
  have hrow : n.row ∈ s.store.events.filterMap snapshotOf := by
    rw [h.snapshots]
    exact List.mem_map_of_mem hn
  obtain ⟨row, hmem, heq⟩ := List.mem_filterMap.mp hrow
  obtain ⟨summary, hsummary, hfields⟩ := Option.map_eq_some_iff.mp heq
  obtain ⟨hid, htask, hcount⟩ : row.eventId = n.eventId ∧ row.taskId = n.taskId ∧
      summary.eventCount = n.covered.length := by
    simpa [Entry.row] using hfields
  refine ⟨row, hmem, hid, htask, h.typed row hmem ?_, ?_⟩
  · rw [hsummary]
    rfl
  · rw [hsummary]
    exact congrArg some hcount

theorem Filed.recorded_iff (h : s.Filed) {left : List Event}
    (hcounted : (s.ledger.flatMap (·.covered)).Perm (s.deleted ++ left)) :
    s.Recorded ↔ left = [] := by
  constructor
  · intro hrecorded
    rw [List.eq_nil_iff_forall_not_mem]
    intro e he
    have hcount := hrecorded.compacted e.taskId
    rw [h.compacted_eq, (hcounted.filter _).length_eq, List.filter_append, List.length_append]
      at hcount
    have hmem : e ∈ left.filter (fun e' => e'.taskId == e.taskId) := by
      rw [List.mem_filter]
      exact ⟨he, beq_self_eq_true _⟩
    have hpos := List.length_pos_of_mem hmem
    omega
  · rintro rfl
    rw [List.append_nil] at hcounted
    have hnodup : s.deleted.Nodup := by
      have hids := h.ids
      rw [List.map_append] at hids
      exact (List.nodup_append.mp hids).1.of_map _
    refine ⟨fun e he => ⟨?_, ?_⟩, fun taskId => ?_⟩
    · rw [hcounted.count_eq]
      exact List.count_eq_one_of_mem hnodup he
    · obtain ⟨n, hn, hen⟩ := List.mem_flatMap.mp (hcounted.mem_iff.mpr he)
      have htask := h.covered n hn e hen
      obtain ⟨row, hrow, hid, hrowtask, htype, hcount⟩ := h.snapshot_row hn
      exact ⟨n, hn, hen, htask.symm, row, hrow, hid, hrowtask.trans htask.symm, htype, hcount⟩
    · rw [h.compacted_eq, (hcounted.filter _).length_eq]

theorem Filed.ids_events (h : s.Filed) : (s.store.events.map (·.eventId)).Nodup := by
  have hids := h.ids
  rw [List.map_append] at hids
  exact (List.nodup_append.mp hids).2.1

theorem Filed.tasks (h : s.Filed) {tasks : HashMap String String}
    (hsome : ∀ t, (s.store.tasks.get? t).isSome = true → (tasks.get? t).isSome = true) :
    Filed { s with store := { s.store with tasks := tasks } } :=
  ⟨h.ids, h.fresh, fun e he => hsome _ (h.founded e he), h.typed, h.snapshots, h.covered⟩

theorem Filed.insert (h : s.Filed) {t : String} (ht : (s.store.tasks.get? t).isSome = true)
    (ts : Int) (eventType payload : String) (summary : Option CompactionSummary)
    (more : List Entry) (htype : summary.isSome = true → eventType = snapshotType)
    (hsnapshot : (snapshotOf ⟨s.store.nextId, t, ts, eventType, payload, summary⟩).toList =
      more.map Entry.row)
    (hcovered : ∀ n ∈ more, ∀ e ∈ n.covered, e.taskId = n.taskId) :
    Filed { s with
      store := s.store.insertEvent t ts eventType payload summary
      ledger := s.ledger ++ more } := by
  refine ⟨?_, ?_, ?_, ?_, ?_, ?_⟩
  · simp only [TaskStore.insertEvent]
    rw [← List.append_assoc, List.map_append, List.nodup_append]
    refine ⟨h.ids, List.nodup_singleton _, ?_⟩
    intro i hi j hj hij
    obtain ⟨e, he, rfl⟩ := List.mem_map.mp hi
    have hfresh : e.eventId < s.store.nextId := h.fresh e he
    have hnew : j = s.store.nextId := List.mem_singleton.mp hj
    omega
  · intro e he
    simp only [TaskStore.insertEvent] at he ⊢
    rw [← List.append_assoc, List.mem_append, List.mem_singleton] at he
    rcases he with he | rfl
    · exact Nat.lt_succ_of_lt (h.fresh e he)
    · exact Nat.lt_succ_self _
  · intro e he
    rcases List.mem_append.mp he with he | he
    · exact h.founded e he
    · rw [List.mem_singleton.mp he]
      exact ht
  · intro e he
    rcases List.mem_append.mp he with he | he
    · exact h.typed e he
    · rw [List.mem_singleton.mp he]
      exact htype
  · simp only [TaskStore.insertEvent]
    rw [List.filterMap_append, h.snapshots, List.map_append, ← hsnapshot]
    cases hrow : snapshotOf ⟨s.store.nextId, t, ts, eventType, payload, summary⟩ with
    | none => simp [hrow]
    | some row => simp [hrow]
  · intro n hn
    rcases List.mem_append.mp hn with hn | hn
    · exact h.covered n hn
    · exact hcovered n hn

theorem Filed.without (h : s.Filed) {rows : List Event} (hrows : ∀ e ∈ rows, e ∈ s.store.events)
    (htypes : ∀ e ∈ rows, e.eventType ≠ snapshotType) (hnodup : (rows.map (·.eventId)).Nodup) :
    Filed { s with store := s.store.without rows, deleted := s.deleted ++ rows } := by
  have hids := h.ids
  rw [List.map_append, List.nodup_append] at hids
  obtain ⟨hdeleted, hevents, hdisjoint⟩ := hids
  refine ⟨?_, ?_, ?_, ?_, ?_, h.covered⟩
  · simp only [TaskStore.without]
    rw [List.map_append, List.map_append, List.append_assoc, List.nodup_append]
    refine ⟨hdeleted, ?_, ?_⟩
    · rw [List.nodup_append]
      refine ⟨hnodup, hevents.sublist (List.filter_sublist.map _), ?_⟩
      intro i hi j hj hij
      obtain ⟨e, he, rfl⟩ := List.mem_map.mp hj
      rw [List.mem_filter, decide_eq_true_eq] at he
      exact he.2 (hij ▸ hi)
    · intro i hi j hj
      apply hdisjoint i hi j
      rcases List.mem_append.mp hj with hj | hj
      · obtain ⟨e, he, rfl⟩ := List.mem_map.mp hj
        exact List.mem_map_of_mem (hrows e he)
      · obtain ⟨e, he, rfl⟩ := List.mem_map.mp hj
        exact List.mem_map_of_mem (List.mem_filter.mp he).1
  · intro e he
    apply h.fresh e
    rw [List.append_assoc, List.mem_append, List.mem_append] at he
    rw [List.mem_append]
    rcases he with he | he | he
    · exact .inl he
    · exact .inr (hrows e he)
    · exact .inr (List.mem_filter.mp he).1
  · intro e he
    exact h.founded e (List.mem_filter.mp he).1
  · intro e he
    exact h.typed e (List.mem_filter.mp he).1
  · have hkept : (s.store.without rows).events.filterMap snapshotOf =
        s.store.events.filterMap snapshotOf := by
      simp only [TaskStore.without, List.filterMap_filter]
      apply List.filterMap_congr
      intro e he
      by_cases hrow : e.eventId ∈ rows.map (·.eventId)
      · obtain ⟨e', he', hid⟩ := List.mem_map.mp hrow
        have hsame : e' = e := List.inj_on_of_nodup_map hevents (hrows e' he') he hid
        subst hsame
        have hnone : e'.summary = none := by
          rw [Option.eq_none_iff_forall_ne_some]
          intro summary hsummary
          exact htypes e' he' (h.typed e' he (by rw [hsummary]; rfl))
        simp [hrow, snapshotOf, hnone]
      · simp [hrow]
    exact hkept.trans h.snapshots

end State

/-- While a run is under way no task with old events is finished or taken up again, and no old
event comes to a finished task that the run has been through. -/
def Op.Quiet (s : State) : Op → Prop
  | update t status => ∀ r, s.running = some r → s.store.oldEvents t r.cutoff ≠ [] →
      terminal status = s.store.isTerminal t
  | appendEvent t now eventType _ => ∀ r, s.running = some r →
      TaskStore.old r.cutoff now eventType = true → s.store.isTerminal t = true →
        t ∈ r.candidates.map Prod.fst
  | _ => True

def Op.Drains (s : State) : Op → Prop
  | advance _ _ => ∀ r, s.running = some r → r.phase = .summarise → r.candidates = [] →
      r.maxPasses ≤ r.result.passesRun → s.store.matching r.cutoff = []
  | _ => True

namespace State

variable {s : State} {store : TaskStore}

theorem Waits.tasks {r : RetentionRun} (h : Waits store r) {tasks : HashMap String String}
    (hsome : ∀ t, (store.tasks.get? t).isSome = true → (tasks.get? t).isSome = true)
    (hfinished : ∀ t, store.isTerminal t = true → store.oldEvents t r.cutoff ≠ [] →
      TaskStore.isTerminal { store with tasks := tasks } t = true) :
    Waits { store with tasks := tasks } r := by
  refine ⟨h.nodup, fun t ht => hfinished t (h.finished t ht) (h.some t ht), h.some, ?_⟩
  intro t summary covered hphase
  obtain ⟨hcount, hcovered, ht⟩ := h.emitted t summary covered hphase
  exact ⟨hcount, hcovered, hsome t ht⟩

theorem Waits.insert {r : RetentionRun} (h : Waits store r) (t : String)
    (ts : Int) (eventType payload : String) (summary : Option CompactionSummary) :
    Waits (store.insertEvent t ts eventType payload summary) r := by
  refine ⟨h.nodup, h.finished, ?_, h.emitted⟩
  intro t' ht' hnil
  apply h.some t' ht'
  simp only [TaskStore.oldEvents, TaskStore.insertEvent, List.filter_append,
    List.append_eq_nil_iff] at hnil
  exact hnil.1

theorem atStake_congr {s' : State} (hrunning : s'.running = s.running)
    (h : ∀ r, s.running = some r →
      (s'.store.matching r.cutoff).filter (fun e => decide (e.taskId ∉ r.candidates.map Prod.fst)) =
      (s.store.matching r.cutoff).filter
        (fun e => decide (e.taskId ∉ r.candidates.map Prod.fst))) :
    s'.atStake = s.atStake := by
  rw [atStake, atStake, hrunning]
  cases hr : s.running with
  | none => rfl
  | some r => exact h r hr

theorem Filed.running (h : s.Filed) (running : Option RetentionRun)
    (results : List RetentionResult) :
    Filed { s with running := running, results := results } :=
  ⟨h.ids, h.fresh, h.founded, h.typed, h.snapshots, h.covered⟩

theorem WellKept.tasks (h : s.WellKept) {tasks : HashMap String String}
    (hsome : ∀ t, (s.store.tasks.get? t).isSome = true → (tasks.get? t).isSome = true)
    (hsame : ∀ r, s.running = some r → ∀ t, s.store.oldEvents t r.cutoff ≠ [] →
      TaskStore.isTerminal { s.store with tasks := tasks } t = s.store.isTerminal t) :
    WellKept { s with store := { s.store with tasks := tasks } } ∧
      atStake { s with store := { s.store with tasks := tasks } } = s.atStake := by
  refine ⟨⟨h.toFiled.tasks hsome, ?_⟩, ?_⟩
  · intro r hr
    refine Waits.tasks (h.waits r hr) hsome (fun t ht hold => ?_)
    rw [hsame r hr t hold]
    exact ht
  · refine atStake_congr ?_ ?_
    · rfl
    intro r hr
    congr 1
    refine TaskStore.matching_congr ?_ ?_
    · rfl
    intro e he hold
    exact hsame r hr e.taskId (List.ne_nil_of_mem (TaskStore.mem_oldEvents.mpr ⟨he, rfl, hold⟩))

theorem Filed.exists_of_old (h : s.Filed) {cutoff : Int} (hold : s.store.oldEvents t cutoff ≠ []) :
    (s.store.tasks.get? t).isSome = true := by
  obtain ⟨e, he⟩ := List.exists_mem_of_ne_nil _ hold
  obtain ⟨hmem, rfl, -⟩ := TaskStore.mem_oldEvents.mp he
  exact h.founded e hmem

theorem createTask_kept (h : s.WellKept) (t status : String) :
    ((Op.createTask t status).step s).WellKept ∧
      ((Op.createTask t status).step s).atStake = s.atStake := by
  by_cases ht : (s.store.tasks.get? t).isSome = true
  · have heq : (Op.createTask t status).step s = s := by
      simp only [Op.step, TaskStore.createTask, ht, if_true]
    rw [heq]
    exact ⟨h, rfl⟩
  · have heq : (Op.createTask t status).step s =
        { s with store := { s.store with tasks := s.store.tasks.insert t status } } := by
      simp only [Op.step, TaskStore.createTask, ht, Bool.false_eq_true, if_false]
    rw [heq]
    apply h.tasks
    · intro t' ht'
      rw [HashMap.get?_insert]
      split
      · rfl
      · exact ht'
    · intro r _ t' hold
      have hne : t' ≠ t := by
        rintro rfl
        exact ht (h.toFiled.exists_of_old hold)
      simp only [TaskStore.isTerminal, HashMap.get?_insert, hne, if_false]

variable {status : String}

theorem update_kept (h : s.WellKept) (hquiet : (Op.update t status).Quiet s) :
    ((Op.update t status).step s).WellKept ∧ ((Op.update t status).step s).atStake = s.atStake := by
  apply h.tasks
  · intro t' ht'
    rw [HashMap.get?_modify]
    split
    · rename_i heq
      rw [Option.isSome_map, ← heq]
      exact ht'
    · exact ht'
  · intro r hr t' hold
    by_cases heq : t' = t
    · subst heq
      obtain ⟨status', hstatus⟩ := Option.isSome_iff_exists.mp (h.toFiled.exists_of_old hold)
      have hsame := hquiet r hr hold
      rw [← hsame]
      simp only [TaskStore.isTerminal, HashMap.get?_modify, if_true, hstatus, Option.map_some,
        Option.any_some]
    · simp only [TaskStore.isTerminal, HashMap.get?_modify, heq, if_false]

theorem appendEvent_kept (h : s.WellKept) {now : Int} {eventType payload : String}
    (hquiet : (Op.appendEvent t now eventType payload).Quiet s) :
    ((Op.appendEvent t now eventType payload).step s).WellKept ∧
      ((Op.appendEvent t now eventType payload).step s).atStake = s.atStake := by
  by_cases ht : (s.store.tasks.get? t).isSome = true
  case neg =>
    have heq : (Op.appendEvent t now eventType payload).step s = s := by
      simp only [Op.step, TaskStore.appendEvent, ht, Bool.false_eq_true, if_false]
    rw [heq]
    exact ⟨h, rfl⟩
  have heq : (Op.appendEvent t now eventType payload).step s =
      { s with store := s.store.insertEvent t now eventType payload none } := by
    simp only [Op.step, TaskStore.appendEvent, ht, if_true]
  rw [heq]
  refine ⟨⟨?_, ?_⟩, ?_⟩
  · have hfiled := h.toFiled.insert ht now eventType payload none [] (fun hnone => by cases hnone)
      rfl (fun n hn => by cases hn)
    rw [List.append_nil] at hfiled
    exact hfiled
  · intro r hr
    exact Waits.insert (h.waits r hr) t now eventType payload none
  · refine atStake_congr ?_ ?_
    · rfl
    intro r hr
    rw [TaskStore.matching_insert, List.filter_append]
    have hnone : (if TaskStore.old r.cutoff now eventType && s.store.isTerminal t then
        [(⟨s.store.nextId, t, now, eventType, payload, none⟩ : Event)] else []).filter
          (fun e => decide (e.taskId ∉ r.candidates.map Prod.fst)) = [] := by
      split
      · rename_i hboth
        rw [Bool.and_eq_true] at hboth
        have hwaits := hquiet r hr hboth.1 hboth.2
        simp only [List.filter_cons, List.filter_nil, hwaits, not_true_eq_false, decide_false,
          Bool.false_eq_true, if_false]
      · rfl
    rw [hnone, List.append_nil]

theorem sound_of_atStake {s' : State} (hstake : s'.atStake = s.atStake)
    (hledger : s'.ledger = s.ledger) (hrunning : s'.running = s.running)
    (hdeleted : s'.deleted = s.deleted) : s'.Sound ↔ s.Sound := by
  rw [Sound, Sound, hledger, hdeleted, hstake, pending, pending, hrunning]

theorem Waits.begin (store : TaskStore) (cutoff : Int) (maxPasses : Nat) (rank : String → Nat)
    (result : RetentionResult) (hcutoff : result.cutoffTs = cutoff) :
    Waits store ⟨maxPasses, .summarise, store.candidateTasks cutoff rank, result⟩ := by
  refine ⟨TaskStore.candidateTasks_nodup cutoff rank, ?_, ?_, ?_⟩
  · intro t ht
    obtain ⟨e, he, rfl⟩ := TaskStore.mem_candidateTasks.mp ht
    exact (TaskStore.mem_matching.mp he).2.2
  · intro t ht
    obtain ⟨e, he, rfl⟩ := TaskStore.mem_candidateTasks.mp ht
    obtain ⟨hmem, hold, -⟩ := TaskStore.mem_matching.mp he
    apply List.ne_nil_of_mem (a := e)
    rw [TaskStore.mem_oldEvents]
    exact ⟨hmem, rfl, by rw [RetentionRun.cutoff, hcutoff]; exact hold⟩
  · intro t summary covered hphase
    cases hphase

theorem candidates_cover (store : TaskStore) (cutoff : Int) (rank : String → Nat) :
    (store.matching cutoff).filter
      (fun e => decide (e.taskId ∉ (store.candidateTasks cutoff rank).map Prod.fst)) = [] := by
  apply List.filter_eq_nil_iff.mpr
  intro e he
  rw [decide_eq_true_eq, Classical.not_not]
  exact TaskStore.mem_candidateTasks.mpr ⟨e, he, rfl⟩

theorem runRetention_kept (h : s.WellKept) (hsound : s.Sound) (cutoff : Int) (maxPasses : Nat)
    (rank : String → Nat) :
    ((Op.runRetention cutoff maxPasses rank).step s).WellKept ∧
      ((Op.runRetention cutoff maxPasses rank).step s).Sound := by
  simp only [Op.step]
  cases hrunning : s.running with
  | some r => exact ⟨h, hsound⟩
  | none =>
    refine ⟨⟨h.toFiled.running _ s.results, ?_⟩, ?_⟩
    · intro r hr
      rw [← Option.some.inj hr]
      exact Waits.begin s.store cutoff maxPasses rank _ rfl
    · have hidle := hsound
      simp only [Sound, pending, atStake, hrunning] at hidle
      simp only [Sound, pending, atStake, RetentionRun.cutoff, candidates_cover]
      exact hidle

section
variable {r : RetentionRun}

theorem oldEvents_eq {store : TaskStore} {cutoff : Int} (ht : store.isTerminal t = true) :
    store.oldEvents t cutoff = (store.matching cutoff).filter (fun e => e.taskId == t) := by
  simp only [TaskStore.oldEvents, TaskStore.matching, List.filter_filter]
  apply List.filter_congr
  intro e _
  by_cases heq : e.taskId = t
  · rw [heq, ht, Bool.and_true]
  · have hbeq : (e.taskId == t) = false := beq_eq_false_iff_ne.mpr heq
    simp only [hbeq, Bool.false_and]

variable {candidates : List (String × String)}

theorem stake_split (h : Waits s.store r) (hr : r.candidates = (t, status) :: candidates) :
    ((s.store.matching r.cutoff).filter
      (fun e => decide (e.taskId ∉ candidates.map Prod.fst))).Perm
      ((s.store.matching r.cutoff).filter
          (fun e => decide (e.taskId ∉ r.candidates.map Prod.fst)) ++
        s.store.oldEvents t r.cutoff) := by
  have hnodup := h.nodup
  have hterminal := h.finished t (by rw [hr]; exact List.mem_cons_self)
  rw [hr, List.map_cons, List.nodup_cons] at hnodup
  rw [oldEvents_eq hterminal, hr]
  apply filter_split
  · intro e _
    by_cases heq : e.taskId = t
    · simp only [heq, hnodup.1, not_false_eq_true, decide_true, beq_self_eq_true, Bool.or_true]
    · have hbeq : (e.taskId == t) = false := beq_eq_false_iff_ne.mpr heq
      simp only [List.map_cons, List.mem_cons, heq, false_or, hbeq, Bool.or_false]
  · rintro e _ ⟨hnot, heq⟩
    rw [decide_eq_true_eq, List.map_cons] at hnot
    rw [beq_iff_eq] at heq
    apply hnot
    rw [heq]
    exact List.mem_cons_self

theorem emit_kept (h : s.WellKept) (hsound : s.Sound) (hrunning : s.running = some r)
    {summary : CompactionSummary} {covered : List Event}
    (hphase : r.phase = .emit t summary covered) (now : Int) (rank : Nat → Nat) :
    (s.advance r now rank).WellKept ∧ (s.advance r now rank).Sound := by
  have hwaits := h.waits r hrunning
  obtain ⟨hcount, hcovered, ht⟩ := hwaits.emitted t summary covered hphase
  simp only [advance, hphase]
  refine ⟨⟨?_, ?_⟩, ?_⟩
  · have hfiled := h.toFiled.insert ht now snapshotType (snapshotPayload summary) (some summary)
      [⟨s.store.nextId, t, covered⟩] (fun _ => rfl) (by simp [snapshotOf, Entry.row, hcount])
      (fun n hn => by rw [List.mem_singleton.mp hn]; exact hcovered)
    exact hfiled.running _ s.results
  · intro r' hr'
    rw [← Option.some.inj hr']
    have hinsert := Waits.insert hwaits t now snapshotType (snapshotPayload summary) (some summary)
    exact ⟨hinsert.nodup, hinsert.finished, hinsert.some, fun _ _ _ hphase => by cases hphase⟩
  · have hopen := hsound
    obtain ⟨maxPasses, phase, candidates, result⟩ := r
    subst hphase
    simp only [Sound, pending, atStake, hrunning] at hopen
    simp only [Sound, pending, atStake, RetentionRun.cutoff, TaskStore.emitSnapshotEvent,
      TaskStore.matching_snapshot, List.flatMap_append, List.flatMap_singleton, List.append_nil]
    exact hopen

theorem summarise_kept (h : s.WellKept) (hsound : s.Sound) (hrunning : s.running = some r)
    (hphase : r.phase = .summarise)
    (hr : r.candidates = (t, status) :: candidates) (now : Int) (rank : Nat → Nat) :
    (s.advance r now rank).WellKept ∧ (s.advance r now rank).Sound := by
  have hwaits := h.waits r hrunning
  have hsplit := stake_split hwaits hr
  have hmem : ∀ t' ∈ candidates.map Prod.fst, t' ∈ r.candidates.map Prod.fst := by
    intro t' ht'
    rw [hr]
    exact List.mem_cons_of_mem _ ht'
  have ht : t ∈ r.candidates.map Prod.fst := by
    rw [hr]
    exact List.mem_cons_self
  have hnodup : (candidates.map Prod.fst).Nodup := by
    have hall := hwaits.nodup
    rw [hr, List.map_cons, List.nodup_cons] at hall
    exact hall.2
  have hsome : (s.store.computeCompactionSummary t r.cutoff status).eventCount ≠ 0 := by
    intro hzero
    exact hwaits.some t ht (List.eq_nil_of_length_eq_zero hzero)
  simp only [advance, hphase, hr, hsome, if_false]
  refine ⟨⟨h.toFiled.running _ s.results, ?_⟩, ?_⟩
  · intro r' hr'
    rw [← Option.some.inj hr']
    refine ⟨hnodup, fun t' ht' => hwaits.finished t' (hmem t' ht'),
      fun t' ht' => hwaits.some t' (hmem t' ht'), ?_⟩
    intro t' summary covered hemit
    cases hemit
    refine ⟨rfl, fun e he => (TaskStore.mem_oldEvents.mp he).2.1, ?_⟩
    exact h.toFiled.exists_of_old (hwaits.some t ht)
  · have hopen := hsound
    obtain ⟨maxPasses, phase, waiting, result⟩ := r
    subst hphase
    simp only [Sound, pending, atStake, hrunning, List.append_nil] at hopen
    have hmore := (hopen.append_right (s.store.oldEvents t result.cutoffTs)).trans
      (by rw [List.append_assoc])
    exact hmore.trans (hsplit.symm.append_left s.deleted)

theorem Sound.counted (h : s.Sound) (hrunning : s.running = some r) (hphase : r.phase = .summarise)
    (hr : r.candidates = []) :
    (s.ledger.flatMap (·.covered)).Perm (s.deleted ++ s.store.matching r.cutoff) := by
  obtain ⟨maxPasses, phase, candidates, result⟩ := r
  subst hphase
  subst hr
  simpa only [Sound, pending, atStake, hrunning, List.append_nil, List.map_nil, List.not_mem_nil,
    not_false_eq_true, decide_true, List.filter_true] using h

theorem ended_sound_iff (running : s.running = none) :
    s.Sound ↔ (s.ledger.flatMap (·.covered)).Perm s.deleted := by
  rw [Sound, pending, atStake, running, List.append_nil, List.append_nil]

theorem limit_kept (h : s.WellKept) (hsound : s.Sound) (hrunning : s.running = some r)
    (hphase : r.phase = .summarise) (hr : r.candidates = [])
    (hlimit : r.maxPasses ≤ r.result.passesRun) (now : Int) (rank : Nat → Nat) :
    (s.advance r now rank).WellKept ∧
      ((s.advance r now rank).Sound ↔ s.store.matching r.cutoff = []) := by
  have hcounted := hsound.counted hrunning hphase hr
  simp only [advance, hphase, hr, hlimit, if_true]
  refine ⟨⟨h.toFiled.running none _, fun r' hr' => by cases hr'⟩, ?_⟩
  rw [ended_sound_iff rfl]
  constructor
  · intro hperm
    have hlength : s.deleted.length = s.deleted.length + (s.store.matching r.cutoff).length := by
      rw [← List.length_append]
      exact (hperm.symm.trans hcounted).length_eq
    apply List.eq_nil_of_length_eq_zero
    omega
  · intro hnil
    rw [hnil, List.append_nil] at hcounted
    exact hcounted

theorem pass_kept (h : s.WellKept) (hsound : s.Sound) (hrunning : s.running = some r)
    (hphase : r.phase = .summarise) (hr : r.candidates = [])
    (hlimit : ¬r.maxPasses ≤ r.result.passesRun) (now : Int) (rank : Nat → Nat) :
    (s.advance r now rank).WellKept ∧ (s.advance r now rank).Sound := by
  have hcounted := hsound.counted hrunning hphase hr
  simp only [advance, hphase, hr, hlimit, if_false]
  by_cases hempty : (s.store.picked r.cutoff rank).isEmpty = true
  · simp only [hempty, if_true]
    have hnil := TaskStore.picked_eq_nil (List.isEmpty_iff.mp hempty)
    refine ⟨⟨h.toFiled.running none _, fun r' hr' => by cases hr'⟩, ?_⟩
    rw [ended_sound_iff rfl]
    rw [hnil, List.append_nil] at hcounted
    exact hcounted
  · simp only [hempty, Bool.false_eq_true, if_false]
    have hsplit : (s.store.matching r.cutoff).Perm (s.store.picked r.cutoff rank ++
        (s.store.without (s.store.picked r.cutoff rank)).matching r.cutoff) :=
      TaskStore.picked_split h.toFiled.ids_events rank
    refine ⟨⟨?_, ?_⟩, ?_⟩
    · have hrows : ∀ e ∈ s.store.picked r.cutoff rank, e ∈ s.store.events :=
        fun e he => (TaskStore.mem_matching.mp (TaskStore.mem_picked he)).1
      have htypes : ∀ e ∈ s.store.picked r.cutoff rank, e.eventType ≠ snapshotType := by
        intro e he
        have hold := (TaskStore.mem_matching.mp (TaskStore.mem_picked he)).2.1
        simp only [TaskStore.old, Bool.and_eq_true, bne_iff_ne] at hold
        exact hold.2
      have hids : ((s.store.matching r.cutoff).map (·.eventId)).Nodup :=
        h.toFiled.ids_events.sublist (List.filter_sublist.map _)
      have hpicked := (hsplit.map (·.eventId)).nodup_iff.mp hids
      rw [List.map_append] at hpicked
      have hfiled := h.toFiled.without hrows htypes (List.nodup_append.mp hpicked).1
      exact hfiled.running _ s.results
    · intro r' hr'
      rw [← Option.some.inj hr']
      exact ⟨List.nodup_nil, fun t ht => (by cases ht), fun t ht => (by cases ht),
        fun t summary covered hemit => (by cases hemit)⟩
    · have hmore : (s.ledger.flatMap (·.covered)).Perm ((s.deleted ++ s.store.picked r.cutoff rank) ++
          (s.store.without (s.store.picked r.cutoff rank)).matching r.cutoff) := by
        rw [List.append_assoc]
        exact hcounted.trans (hsplit.append_left s.deleted)
      simpa only [Sound, pending, atStake, RetentionRun.cutoff, List.append_nil, List.map_nil,
        List.not_mem_nil, not_false_eq_true, decide_true, List.filter_true] using hmore

end

theorem advance_kept (h : s.WellKept) (hsound : s.Sound) (now : Int) (rank : Nat → Nat) :
    ((Op.advance now rank).step s).WellKept ∧
      (((Op.advance now rank).step s).Sound ↔ (Op.advance now rank).Drains s) := by
  simp only [Op.step, Op.Drains]
  cases hrunning : s.running with
  | none => exact ⟨h, iff_of_true hsound (fun r hr => by cases hr)⟩
  | some r =>
    simp only
    cases hphase : r.phase with
    | emit t summary covered =>
      obtain ⟨hkept, hsound'⟩ := emit_kept h hsound hrunning hphase now rank
      refine ⟨hkept, iff_of_true hsound' (fun r' hr' hsummarise => ?_)⟩
      rw [← Option.some.inj hr', hphase] at hsummarise
      cases hsummarise
    | summarise =>
      cases hr : r.candidates with
      | cons candidate candidates =>
        obtain ⟨hkept, hsound'⟩ := summarise_kept h hsound hrunning hphase hr now rank
        refine ⟨hkept, iff_of_true hsound' (fun r' hr' _ hnil => ?_)⟩
        rw [← Option.some.inj hr', hr] at hnil
        cases hnil
      | nil =>
        by_cases hlimit : r.maxPasses ≤ r.result.passesRun
        · obtain ⟨hkept, hiff⟩ := limit_kept h hsound hrunning hphase hr hlimit now rank
          refine ⟨hkept, hiff.trans ⟨fun hnil r' hr' _ _ _ => ?_, fun hdrains => ?_⟩⟩
          · rw [← Option.some.inj hr']
            exact hnil
          · exact hdrains r rfl hphase hr hlimit
        · obtain ⟨hkept, hsound'⟩ := pass_kept h hsound hrunning hphase hr hlimit now rank
          refine ⟨hkept, iff_of_true hsound' (fun r' hr' _ _ hover => ?_)⟩
          rw [← Option.some.inj hr'] at hover
          exact absurd hover hlimit

theorem step_kept (h : s.WellKept) (hsound : s.Sound) {op : Op} (hquiet : op.Quiet s) :
    (op.step s).WellKept ∧ ((op.step s).Sound ↔ op.Drains s) := by
  cases op with
  | createTask t status =>
    obtain ⟨hkept, hstake⟩ := createTask_kept h t status
    exact ⟨hkept, iff_of_true ((sound_of_atStake hstake rfl rfl rfl).mpr hsound) trivial⟩
  | update t status =>
    obtain ⟨hkept, hstake⟩ := update_kept h hquiet
    exact ⟨hkept, iff_of_true ((sound_of_atStake hstake rfl rfl rfl).mpr hsound) trivial⟩
  | appendEvent t now eventType payload =>
    obtain ⟨hkept, hstake⟩ := appendEvent_kept h hquiet
    exact ⟨hkept, iff_of_true ((sound_of_atStake hstake rfl rfl rfl).mpr hsound) trivial⟩
  | runRetention cutoff maxPasses rank =>
    obtain ⟨hkept, hsound'⟩ := runRetention_kept h hsound cutoff maxPasses rank
    exact ⟨hkept, iff_of_true hsound' trivial⟩
  | advance now rank => exact advance_kept h hsound now rank

theorem step_store (s : State) (op : Op) :
    (∃ tasks, (op.step s).store = { s.store with tasks := tasks }) ∨
    (∃ t ts eventType payload summary,
      (op.step s).store = s.store.insertEvent t ts eventType payload summary) ∨
    ∃ cutoff rank, (op.step s).store = s.store.without (s.store.picked cutoff rank) := by
  cases op with
  | createTask t status =>
    left
    simp only [Op.step, TaskStore.createTask]
    split
    · exact ⟨_, rfl⟩
    · exact ⟨_, rfl⟩
  | update t status => exact .inl ⟨_, rfl⟩
  | appendEvent t now eventType payload =>
    simp only [Op.step, TaskStore.appendEvent]
    split
    · exact .inr (.inl ⟨_, _, _, _, _, rfl⟩)
    · exact .inl ⟨_, rfl⟩
  | runRetention cutoff maxPasses rank =>
    left
    simp only [Op.step]
    split
    · exact ⟨_, rfl⟩
    · exact ⟨_, rfl⟩
  | advance now rank =>
    simp only [Op.step]
    split
    case h_2 => exact .inl ⟨_, rfl⟩
    rw [advance]
    split
    · exact .inr (.inl ⟨_, _, _, _, _, rfl⟩)
    split
    · split
      · exact .inl ⟨_, rfl⟩
      · exact .inl ⟨_, rfl⟩
    split
    · exact .inl ⟨_, rfl⟩
    split
    · exact .inl ⟨_, rfl⟩
    · exact .inr (.inr ⟨_, _, rfl⟩)

structure Numbered (s : State) : Prop where
  ids : (s.store.events.map (·.eventId)).Nodup
  fresh : ∀ e ∈ s.store.events, e.eventId < s.store.nextId

theorem Numbered.step (h : s.Numbered) (op : Op) : (op.step s).Numbered := by
  rcases step_store s op with ⟨tasks, heq⟩ | ⟨t, ts, eventType, payload, summary, heq⟩ |
    ⟨cutoff, rank, heq⟩
  · refine ⟨?_, ?_⟩
    · rw [heq]
      exact h.ids
    · rw [heq]
      exact h.fresh
  · refine ⟨?_, ?_⟩
    · rw [heq, TaskStore.insertEvent, List.map_append, List.nodup_append]
      refine ⟨h.ids, List.nodup_singleton _, ?_⟩
      intro i hi j hj hij
      obtain ⟨e, he, rfl⟩ := List.mem_map.mp hi
      have hfresh : e.eventId < s.store.nextId := h.fresh e he
      have hnew : j = s.store.nextId := List.mem_singleton.mp hj
      omega
    · rw [heq]
      intro e he
      rcases List.mem_append.mp he with he | he
      · exact Nat.lt_succ_of_lt (h.fresh e he)
      · rw [List.mem_singleton.mp he]
        exact Nat.lt_succ_self _
  · refine ⟨?_, ?_⟩
    · rw [heq]
      exact h.ids.sublist (List.filter_sublist.map _)
    · rw [heq]
      exact fun e he => h.fresh e (List.mem_filter.mp he).1

theorem Numbered.removed_terminal (h : s.Numbered) {op : Op} (he : e ∈ s.store.events)
    (hgone : e ∉ (op.step s).store.events) : s.store.isTerminal e.taskId = true := by
  rcases step_store s op with ⟨tasks, heq⟩ | ⟨t, ts, eventType, payload, summary, heq⟩ |
    ⟨cutoff, rank, heq⟩
  · rw [heq] at hgone
    exact absurd he hgone
  · rw [heq] at hgone
    exact absurd (List.mem_append_left _ he) hgone
  · rw [heq, TaskStore.without, List.mem_filter, decide_eq_true_eq, not_and,
      Classical.not_not] at hgone
    obtain ⟨e', he', hid⟩ := List.mem_map.mp (hgone he)
    obtain ⟨hmem, -, hterminal⟩ := TaskStore.mem_matching.mp (TaskStore.mem_picked he')
    have hsame : e' = e := List.inj_on_of_nodup_map h.ids hmem he hid
    rw [← hsame]
    exact hterminal

end State

open State

theorem initial_kept : State.initial.WellKept ∧ State.initial.Sound := by
  refine ⟨⟨⟨List.nodup_nil, ?_, ?_, ?_, rfl, ?_⟩, fun r hr => by cases hr⟩, .refl _⟩
  · intro e he
    cases he
  · intro e he
    cases he
  · intro e he
    cases he
  · intro n hn
    cases hn

theorem initial_numbered : State.initial.Numbered := ⟨List.nodup_nil, fun e he => (by cases he)⟩

def Op.run (ops : List Op) : State := Transition.run Op.step State.initial ops

theorem recorded_of_sound {s : State} (h : s.WellKept) (hsound : s.Sound)
    (hrunning : s.running = none) : s.Recorded := by
  rw [ended_sound_iff hrunning] at hsound
  have hcounted : (s.ledger.flatMap (·.covered)).Perm (s.deleted ++ []) := by
    rw [List.append_nil]
    exact hsound
  exact (h.toFiled.recorded_iff hcounted).mpr rfl

theorem drains_of_recorded {s : State} (h : s.WellKept) (hsound : s.Sound) {op : Op}
    (hquiet : op.Quiet s) (hrecorded : (op.step s).running = none → (op.step s).Recorded) :
    op.Drains s := by
  obtain ⟨hkept, hiff⟩ := step_kept h hsound hquiet
  cases op with
  | advance now rank =>
    intro r hrunning hphase hr hlimit
    have hcounted := hsound.counted hrunning hphase hr
    have hstep : (Op.advance now rank).step s = { s with
        running := none
        results := s.results ++ [{ r.result with stoppedAtPassLimit := true }] } := by
      simp only [Op.step, hrunning, advance, hphase, hr, hlimit, if_true]
    rw [hstep] at hrecorded hkept
    exact (hkept.toFiled.recorded_iff hcounted).mp (hrecorded rfl)
  | createTask => trivial
  | update => trivial
  | appendEvent => trivial
  | runRetention => trivial

/-- In a run of which the calls of others are quiet, all is recorded whenever no retention is under
way exactly if no retention stops at its limit with events left; and no step takes away an
event of a task that is not finished. -/
theorem retention_recorded_iff (ops : List Op) :
    (Guarded Op.step Op.Quiet State.initial ops →
      ((∀ pre, pre <+: ops → (Op.run pre).running = none → (Op.run pre).Recorded) ↔
        Guarded Op.step Op.Drains State.initial ops)) ∧
    ∀ pre, pre <+: ops → ∀ op, ∀ e ∈ (Op.run pre).store.events,
      e ∉ (Op.step (Op.run pre) op).store.events →
        (Op.run pre).store.isTerminal e.taskId = true := by
  constructor
  · intro hquiet
    have hinv : ∀ (s : State) (op : Op), s.WellKept ∧ s.Sound → op.Quiet s → op.Drains s →
        (op.step s).WellKept ∧ (op.step s).Sound := by
      intro s op h hquiet hdrains
      obtain ⟨hkept, hiff⟩ := step_kept h.1 h.2 hquiet
      exact ⟨hkept, hiff.mpr hdrains⟩
    have hgood : ∀ s : State, s.WellKept ∧ s.Sound → s.running = none → s.Recorded :=
      fun s h hrunning => recorded_of_sound h.1 h.2 hrunning
    have hguard : ∀ (s : State) (op : Op), s.WellKept ∧ s.Sound → op.Quiet s →
        ((op.step s).running = none → (op.step s).Recorded) → op.Drains s :=
      fun s op h hquiet hrecorded => drains_of_recorded h.1 h.2 hquiet hrecorded
    exact Transition.prefixes_iff_guarded_of_quiet hinv hgood hguard initial_kept hquiet
  · intro pre _ op e he hgone
    have hstep : ∀ (s : State) (op : Op), s.Numbered → True → (op.step s).Numbered :=
      fun s op hs _ => hs.step op
    have hnumbered : (Op.run pre).Numbered :=
      Transition.invariant_run hstep initial_numbered (Transition.guarded_true _ _ pre)
    exact hnumbered.removed_terminal he hgone

def lateFinish : List Op :=
  [.createTask "a" "completed", .createTask "b" "running", .appendEvent "a" 10 "step" "",
    .appendEvent "b" 10 "step" "", .runRetention 100 10 (fun _ => 0), .update "b" "completed",
    .advance 200 (fun _ => 0), .advance 200 (fun _ => 0), .advance 200 (fun _ => 0),
    .advance 200 (fun _ => 0)]

theorem late_finish_unrecorded :
    (Op.run lateFinish).running.isNone = true ∧ ¬(Op.run lateFinish).Recorded := by
  refine ⟨by decide +kernel, fun h => ?_⟩
  have hsame := h.compacted "b"
  cases hsame

end Relux.Retention
