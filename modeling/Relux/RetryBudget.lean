import Relux.AutonomyLocal
import Relux.Lineage

/-! The budget of automatic retries. The newest run of a task is the only one a tick
retries, and each retry puts a younger run with a larger attempt in its place, so a family
of runs is retried at most as often as there are attempts. -/

namespace Relux

open Transition (Guarded)
open KernelState (Lineage Descends Newest)

def retryCalls (w : World) : KernelState → List RunId → List (KernelState × RunId)
  | _, [] => []
  | s, runId :: rest => (s, runId) :: retryCalls w (afterRetry w s runId) rest

def tickCalls (w : World) (s : KernelState) : List (KernelState × RunId) :=
  if ¬ s.primeAutonomyConfig.enabled then []
  else if (s.agents.get? "prime").isNone then []
  else retryCalls w s.tick (tickRetries w s.tick)

/-- Every automatic call of `retry_run` in a sequence of ticks. -/
def automaticRetries : KernelState → List World → List (KernelState × RunId)
  | _, [] => []
  | s, w :: ticks => tickCalls w s ++ automaticRetries (oneAutonomyTick w s) ticks

open Classical in
noncomputable def familyCalls (root : RunId) (calls : List (KernelState × RunId)) : Nat :=
  calls.countP (fun c => decide (c.1.Descends root c.2))

theorem familyCalls_append (root : RunId) (calls more : List (KernelState × RunId)) :
    familyCalls root (calls ++ more) = familyCalls root calls + familyCalls root more :=
  List.countP_append

/-- After `k` retries of the family no newest run of it is at an attempt below `k`. -/
structure Budget (root : RunId) (k : Nat) (s : KernelState) : Prop where
  within : k ≤ maxTransientRetries
  stored : ∃ t, s.taskOf root = some t
  newest : ∀ r, s.Newest r → s.Descends root r → k ≤ transientAttemptFor s r

variable {s s' : KernelState} {root r : RunId}

theorem KernelState.Descends.congr (h : s'.origin = s.origin) :
    s'.Descends root r ↔ s.Descends root r := by
  simp only [Descends, h]

theorem KernelState.Descends.of_update {new q : RunId}
    (horigin : s'.origin = Function.update s.origin new (some q))
    (hnew : ∀ p, s.origin p ≠ some new) (hr : r ≠ new) (h : s'.Descends root r) :
    s.Descends root r := by
  have hback : ∀ {b}, Relation.ReflTransGen (fun a b => s'.origin b = some a) root b →
      b ≠ new → s.Descends root b := by
    intro b hb
    induction hb with
    | refl => exact fun _ => .refl
    | @tail c d _ ho ih =>
      intro hd
      rw [horigin, Function.update_of_ne hd] at ho
      have hc : c ≠ new := by
        rintro rfl
        exact hnew d ho
      exact .tail (ih hc) ho
  exact hback h hr

theorem KernelState.Newest.before {t : TaskId}
    (htask : ∀ r t, s.taskOf r = some t → s'.taskOf r = some t) (hr : s.taskOf r = some t)
    (h : s'.Newest r) : s.Newest r := by
  obtain ⟨t', ht', hmax⟩ := h
  rw [htask r t hr] at ht'
  cases ht'
  exact ⟨t, hr, fun r' hr' => hmax r' (htask r' t hr')⟩

theorem Budget.keep {k : Nat} (h : Budget root k s) (hl : s.Lineage) (hu : Upholds s s') :
    Budget root k s' := by
  have horigin := hu.origin hl.minted
  have htask := hu.taskOf hl.minted
  obtain ⟨t, hroot⟩ := h.stored
  refine ⟨h.within, ⟨t, htask root t hroot⟩, fun r hnewest hdesc => ?_⟩
  rw [KernelState.Descends.congr horigin] at hdesc
  rw [transientAttemptFor_congr horigin]
  have hr : s.taskOf r = some t := hl.descends_task hdesc hroot
  exact h.newest r (hnewest.before htask hr) hdesc

structure Pending (s₀ s : KernelState) (rest : List RunId) : Prop where
  lineage : s.Lineage
  during : DuringRetries s₀ s
  nodup : rest.Nodup
  newest : ∀ r ∈ rest, s.Newest r
  attempt : ∀ r ∈ rest, transientAttemptFor s r < maxTransientRetries
  target : ∀ r ∈ rest, ∃ t, s₀.board.run r = some (t, .failed) ∧
    retryTarget s₀ r = some t ∧ startable s₀ t = true
  room : s.nextRun + rest.length ≤ 9999

section Retry

variable {s₀ s s' : KernelState} {r : RunId} {t : TaskId} {rest : List RunId}

theorem AddsRetry.taskOf_old (h : AddsRetry s s' s.board.freshRun r t) (hl : s.Lineage)
    (q : RunId) (t' : TaskId) (hq : s.taskOf q = some t') : s'.taskOf q = some t' := by
  have hne : q ≠ s.board.freshRun := by
    rintro rfl
    rw [hl.fresh] at hq
    cases hq
  rw [h.taskOf, Function.update_of_ne hne, hq]

theorem KernelState.Lineage.lt_fresh (hl : s.Lineage) (hroom : s.nextRun + 1 ≤ 9999)
    {q : RunId} {t' : TaskId} (hq : s.taskOf q = some t') : q < s.board.freshRun := by
  rw [KernelState.taskOf_board, Option.map_eq_some_iff] at hq
  obtain ⟨e, hrun, -⟩ := hq
  obtain ⟨n, hn, rfl⟩ := hl.numbered q e hrun
  exact mintedId_lt "run_" (Nat.lt_succ_of_le hn) hroom

theorem Budget.retry {k : Nat} (h : Budget root k s) (hl : s.Lineage)
    (ha : AddsRetry s s' s.board.freshRun r t) (hr : s.taskOf r = some t) (hnewest : s.Newest r)
    (hattempt : transientAttemptFor s r < maxTransientRetries) (hroom : s.nextRun + 1 ≤ 9999) :
    (s.Descends root r → Budget root (k + 1) s') ∧ (¬ s.Descends root r → Budget root k s') := by
  obtain ⟨t₀, hroot⟩ := h.stored
  have hroot' := ha.taskOf_old hl root t₀ hroot
  have hunlinked := hl.origin_ne_fresh
  have hfresh : s'.origin s.board.freshRun = some r := by
    rw [ha.origin, Function.update_self]
  have hne_root : root ≠ s.board.freshRun := by
    rintro rfl
    rw [hl.fresh] at hroot
    cases hroot
  have hne_r : r ≠ s.board.freshRun := by
    rintro rfl
    rw [hl.fresh] at hr
    cases hr
  -- The new run is in the family exactly where the retried one is.
  have hchild : s'.Descends root s.board.freshRun → s.Descends root r := by
    intro hdesc
    rcases Relation.ReflTransGen.cases_tail hdesc with he | ⟨q, hq, ho⟩
    · exact absurd he hne_root.symm
    · rw [hfresh] at ho
      cases ho
      exact KernelState.Descends.of_update ha.origin hunlinked hne_r hq
  have hold : ∀ q, q ≠ s.board.freshRun → s'.Newest q → s'.Descends root q →
      s.Newest q ∧ s.Descends root q ∧ transientAttemptFor s' q = transientAttemptFor s q := by
    intro q hq hnew hdesc
    have hback := KernelState.Descends.of_update ha.origin hunlinked hq hdesc
    exact ⟨hnew.before (ha.taskOf_old hl) (hl.descends_task hback hroot), hback,
      transientAttemptFor_update ha.origin hunlinked hq⟩
  have hsame : transientAttemptFor s' r = transientAttemptFor s r :=
    transientAttemptFor_update ha.origin hunlinked hne_r
  constructor
  · intro hfamily
    have hk : k ≤ transientAttemptFor s r := h.newest r hnewest hfamily
    refine ⟨by omega, ⟨t₀, hroot'⟩, fun q hnew hdesc => ?_⟩
    by_cases hq : q = s.board.freshRun
    · subst hq
      have hlt : transientAttemptFor s' r < 64 := by
        rw [hsame]
        exact hattempt.trans (by decide)
      rw [transientAttemptFor_child hfresh hlt, hsame]
      omega
    · -- An older run of the family is no longer the newest: the new one is of its task.
      exfalso
      obtain ⟨hnew', hback, -⟩ := hold q hq hnew hdesc
      have hqt : s.taskOf q = some t := by
        have hqt₀ := hl.descends_task hback hroot
        have hrt₀ := hl.descends_task hfamily hroot
        rw [hr] at hrt₀
        rw [hqt₀, hrt₀]
      obtain ⟨t', ht', hmax⟩ := hnew
      rw [ha.taskOf_old hl q t hqt] at ht'
      cases ht'
      have hnewt : s'.taskOf s.board.freshRun = some t := by
        rw [ha.taskOf, Function.update_self]
      exact hmax _ hnewt (hl.lt_fresh hroom hqt)
  · intro hfamily
    refine ⟨h.within, ⟨t₀, hroot'⟩, fun q hnew hdesc => ?_⟩
    by_cases hq : q = s.board.freshRun
    · subst hq
      exact absurd (hchild hdesc) hfamily
    · obtain ⟨hnew', hback, hatt⟩ := hold q hq hnew hdesc
      rw [hatt]
      exact h.newest q hnew' hback

theorem afterRetry_adds (w : World) (hl : s.Lineage) (htarget : retryTarget s r = some t)
    (hstart : startable s t = true) (hroom : s.nextRun + 1 ≤ 9999) :
    AddsRetry s (afterRetry w s r) s.board.freshRun r t ∧
      (afterRetry w s r).nextRun = s.nextRun + 1 := by
  obtain ⟨hadds, hnext⟩ := retryRun_adds w hl htarget hstart hroom
  obtain ⟨action, target, id, result, hafter⟩ := DuringRetries.afterRetry_audit w s r
  rw [hafter]
  have haudit := tickAudit_trace (retryRun w s r).2 action target id result
  have hup : Upholds (retryRun w s r).2 (tickAudit (retryRun w s r).2 action target id result) :=
    .aside rfl rfl (Nat.le_succ _)
  exact ⟨⟨hadds.lineage.keep haudit.board (haudit.keyed hadds.lineage.keyed) hup,
    hadds.origin, hadds.taskOf⟩, hnext⟩

theorem Pending.head (h : Pending s₀ s (r :: rest)) : ∃ t, retryTarget s r = some t ∧
    startable s t = true ∧ s.taskOf r = some t ∧ s.nextRun + 1 ≤ 9999 := by
  obtain ⟨t, hrun, htarget, hstart⟩ := h.target r List.mem_cons_self
  have hroom := h.room
  rw [List.length_cons] at hroom
  refine ⟨t, by rw [h.during.target hrun, htarget], by rw [h.during.startable, hstart], ?_,
    by omega⟩
  rw [KernelState.taskOf_board, h.during.failed r t hrun]
  rfl

theorem Pending.next (w : World) (h : Pending s₀ s (r :: rest)) :
    Pending s₀ (afterRetry w s r) rest := by
  obtain ⟨t, htarget, hstart, hr, hroom⟩ := h.head
  obtain ⟨hadds, hnext⟩ := afterRetry_adds w h.lineage htarget hstart hroom
  have hne : ∀ q ∈ rest, q ≠ r := by
    intro q hq he
    have hnot := (List.nodup_cons.mp h.nodup).1
    rw [he] at hq
    exact hnot hq
  have hfresh : ∀ q, s.Newest q → q ≠ s.board.freshRun := by
    rintro q ⟨t', ht', -⟩ rfl
    rw [h.lineage.fresh] at ht'
    cases ht'
  refine ⟨hadds.lineage, h.during.next r, (List.nodup_cons.mp h.nodup).2, fun q hq => ?_,
    fun q hq => ?_, fun q hq => h.target q (List.mem_cons_of_mem r hq), ?_⟩
  · have hqnew := h.newest q (List.mem_cons_of_mem r hq)
    obtain ⟨t', ht', hmax⟩ := hqnew
    refine ⟨t', hadds.taskOf_old h.lineage q t' ht', fun q' hq' => ?_⟩
    rw [hadds.taskOf, Function.update_apply] at hq'
    split at hq'
    · -- The new run is of the task of `r`, which is not that of `q`.
      cases hq'
      obtain ⟨t'', ht'', hmax'⟩ := h.newest r List.mem_cons_self
      rw [hr] at ht''
      cases ht''
      exact absurd (String.le_antisymm (hmax' q ht') (hmax r hr)) (hne q hq)
    · exact hmax q' hq'
  · have hqold := hfresh q (h.newest q (List.mem_cons_of_mem r hq))
    rw [transientAttemptFor_update hadds.origin h.lineage.origin_ne_fresh hqold]
    exact h.attempt q (List.mem_cons_of_mem r hq)
  · have hall := h.room
    rw [List.length_cons] at hall
    omega

end Retry

variable (w : World)

theorem retryPass_budget {s₀ : KernelState} {rest : List RunId} (h : Pending s₀ s rest) :
    (rest.foldl (afterRetry w) s).Lineage ∧ ∀ root k, Budget root k s →
      Budget root (k + familyCalls root (retryCalls w s rest))
        (rest.foldl (afterRetry w) s) := by
  induction rest generalizing s with
  | nil => exact ⟨h.lineage, fun root k hb => hb⟩
  | cons r rest ih =>
    obtain ⟨t, htarget, hstart, hr, hroom⟩ := h.head
    obtain ⟨hadds, -⟩ := afterRetry_adds w h.lineage htarget hstart hroom
    obtain ⟨hlineage, hbudget⟩ := ih (h.next w)
    refine ⟨hlineage, fun root k hb => ?_⟩
    obtain ⟨hin, hout⟩ := hb.retry h.lineage hadds hr (h.newest r List.mem_cons_self)
      (h.attempt r List.mem_cons_self) hroom
    have hcount : familyCalls root (retryCalls w s (r :: rest)) =
        familyCalls root (retryCalls w (afterRetry w s r) rest) + familyCalls root [(s, r)] := by
      rw [Nat.add_comm, ← familyCalls_append]
      rfl
    by_cases hfamily : s.Descends root r
    · have hone : familyCalls root [(s, r)] = 1 := by simp [familyCalls, hfamily]
      have hafter := hbudget root (k + 1) (hin hfamily)
      rw [hcount, hone]
      rw [Nat.add_right_comm] at hafter
      exact hafter
    · have hzero : familyCalls root [(s, r)] = 0 := by simp [familyCalls, hfamily]
      rw [hcount, hzero, Nat.add_zero]
      exact hbudget root k (hout hfamily)

theorem tickRetries_nodup (hk : s.Keyed) : (tickRetries w s).Nodup := by
  have hready : (transientRetryReady s (w.realNowSecs s.clock)).Nodup := by
    refine (List.mergeSort_perm _ _).nodup_iff.mpr ?_
    exact (HashMap.KeyedBy.values_nodup hk.run).sublist (List.filter_sublist.map _)
  exact hready.sublist (List.take_sublist _ _)

theorem tickRetries_spec (hl : s.Lineage) (h : r ∈ tickRetries w s) :
    s.Newest r ∧ transientAttemptFor s r < maxTransientRetries ∧
      ∃ t, s.board.run r = some (t, .failed) ∧ retryTarget s r = some t := by
  have hmem := List.mem_of_mem_take h
  unfold transientRetryReady at hmem
  rw [mem_sortTexts, List.mem_map] at hmem
  obtain ⟨run, hrun, hid⟩ := hmem
  rw [List.mem_filter, HashMap.mem_values, Bool.and_eq_true] at hrun
  obtain ⟨⟨key, hget⟩, hnewest, hready⟩ := hrun
  have hkey : key = r := by rw [← hid, hl.keyed.run key run hget]
  subst hkey
  simp only [retryReady, Bool.and_eq_true, beq_iff_eq] at hready
  obtain ⟨⟨⟨hfailed, -⟩, heligible⟩, hassigned⟩ := hready
  have hboard : s.board.run key = some (run.taskId, .failed) := by
    simp only [KernelState.board, hget, Option.map_some, hfailed]
  refine ⟨⟨run.taskId, by simp only [KernelState.taskOf, hget, Option.map_some], ?_⟩, ?_,
    run.taskId, hboard, ?_⟩
  · intro r' hr'
    obtain ⟨run', hget', htask⟩ := Option.map_eq_some_iff.mp hr'
    simp only [newestRunOf, List.all_eq_true] at hnewest
    have hle := hnewest run' (HashMap.mem_values.mpr ⟨r', hget'⟩)
    simp only [htask, bne_self_eq_false, Bool.false_or, decide_eq_true_eq, hid,
      hl.keyed.run r' run' hget'] at hle
    exact hle
  · cases hretry : run.retry with
    | none => simp [hretry] at heligible
    | some st =>
      rw [hretry] at heligible
      obtain ⟨cls, now, -, hplan⟩ := hl.planned key run hget hfailed st hretry
      exact (RunRetryState.plan_eligible hplan heligible).2.1
  · rw [retryTarget_iff]
    refine ⟨hboard, ?_⟩
    cases htask : s.tasks.get? run.taskId with
    | none => simp [htask] at hassigned
    | some task =>
      simp only [htask, Option.isSome_iff_exists] at hassigned
      obtain ⟨agentId, ha⟩ := hassigned
      exact ⟨agentId, by simp [KernelState.brief, htask, Task.brief, ha]⟩

theorem tickRetries_pending (hl : s.Lineage) (h : RetriesStart s (tickRetries w s))
    (hsome : tickRetries w s ≠ []) : Pending s s (tickRetries w s) where
  lineage := hl
  during := .refl hl.keyed hl.minted
  nodup := tickRetries_nodup w hl.keyed
  newest r hr := (tickRetries_spec w hl hr).1
  attempt r hr := (tickRetries_spec w hl hr).2.1
  target r hr := by
    obtain ⟨t, hrun, htarget⟩ := (tickRetries_spec w hl hr).2.2
    exact ⟨t, hrun, htarget, h.1 r hr t htarget⟩
  room := h.2 hsome

theorem secondPass_upholds (s : KernelState)
    (hk : ((tickRetries w s).foldl (afterRetry w) s).Keyed) :
    (∃ moves, Trace ((tickRetries w s).foldl (afterRetry w) s) (workTick w s).1 moves) ∧
      Upholds ((tickRetries w s).foldl (afterRetry w) s) (workTick w s).1 := by
  have hstate := retryTransient_fst w s ⟨0, 0, 0, 0, []⟩ (tickRetries w s)
  unfold workTick
  dsimp only
  generalize retryTransient w s ⟨0, 0, 0, 0, []⟩ (tickRetries w s) = retried at hstate ⊢
  rw [← hstate] at hk ⊢
  have hassign : (∃ moves, Trace retried.1 (if s.primeAutonomyConfig.autoAssignUnassigned ∧
        (waitingTasks retried.1 true).length < maxTasks s then
          autoAssign (maxTasks s) "prime" retried.1 retried.2 (waitingTasks retried.1 true)
            (waitingTasks retried.1 false)
        else (retried.1, retried.2, waitingTasks retried.1 true)).1 moves) ∧
      Upholds retried.1 (if s.primeAutonomyConfig.autoAssignUnassigned ∧
        (waitingTasks retried.1 true).length < maxTasks s then
          autoAssign (maxTasks s) "prime" retried.1 retried.2 (waitingTasks retried.1 true)
            (waitingTasks retried.1 false)
        else (retried.1, retried.2, waitingTasks retried.1 true)).1 := by
    split
    · obtain ⟨moves, htrace, -⟩ := autoAssign_trace retried.1 (maxTasks s) "prime" retried.2
        (waitingTasks retried.1 true) (waitingTasks retried.1 false)
      exact ⟨⟨moves, htrace⟩, autoAssign_upholds retried.1 _ _ _ _ _⟩
    · exact ⟨⟨[], .refl _⟩, .refl _⟩
  generalize (if s.primeAutonomyConfig.autoAssignUnassigned ∧
    (waitingTasks retried.1 true).length < maxTasks s then _ else _) = assigned at hassign ⊢
  obtain ⟨⟨moves, htrace⟩, hup⟩ := hassign
  obtain ⟨more, hacts, -⟩ := tickTasks_acts w assigned.1 assigned.2.1
    (assigned.2.2.take (maxTasks s))
  exact ⟨⟨_, htrace.trans hacts.trace⟩, hup.trans hacts.works.toUpholds⟩

theorem tick_budget (hl : s.Lineage)
    (h : autonomyWorks s → RetriesStart s.tick (tickRetries w s.tick)) :
    (oneAutonomyTick w s).Lineage ∧ ∀ root k, Budget root k s →
      Budget root (k + familyCalls root (tickCalls w s)) (oneAutonomyTick w s) := by
  have haside : ∀ s', s'.board = s.board → (s.Keyed → s'.Keyed) → s'.runs = s.runs →
      s'.nextRun = s.nextRun → s.clock ≤ s'.clock →
        s'.Lineage ∧ ∀ root k, Budget root k s → Budget root k s' := by
    intro s' hboard hkeyed hruns hnext hclock
    have hup : Upholds s s' := .aside hruns hnext hclock
    have hplay : s'.board = s.board.play [] := hboard
    exact ⟨hl.keep hplay (hkeyed hl.keyed) hup, fun root k hb => hb.keep hl hup⟩
  unfold oneAutonomyTick tickCalls
  by_cases henabled : ¬ s.primeAutonomyConfig.enabled = true
  · rw [if_pos henabled, if_pos henabled]
    exact haside _ rfl (fun hk => ⟨hk.task, hk.run⟩) rfl rfl (Nat.le_add_right s.clock 2)
  · rw [if_neg henabled, if_neg henabled]
    by_cases hprime : (s.agents.get? "prime").isNone = true
    · have hprime' : (s.tick.agents.get? "prime").isNone = true := hprime
      rw [if_pos hprime', if_pos hprime]
      exact haside _ rfl (fun hk => ⟨hk.task, hk.run⟩) rfl rfl (Nat.le_add_right s.clock 2)
    · have hprime' : ¬ (s.tick.agents.get? "prime").isNone = true := hprime
      rw [if_neg hprime', if_neg hprime]
      have hworks : autonomyWorks s := by
        refine ⟨not_not.mp henabled, ?_⟩
        rw [Option.isNone_iff_eq_none] at hprime
        exact Option.isSome_iff_ne_none.mpr hprime
      obtain ⟨htick, hkeep⟩ := haside s.tick rfl (fun hk => ⟨hk.task, hk.run⟩) rfl rfl
        (Nat.le_succ s.clock)
      have hfirst : ((tickRetries w s.tick).foldl (afterRetry w) s.tick).Lineage ∧
          ∀ root k, Budget root k s.tick →
            Budget root (k + familyCalls root (retryCalls w s.tick (tickRetries w s.tick)))
              ((tickRetries w s.tick).foldl (afterRetry w) s.tick) := by
        by_cases hsome : tickRetries w s.tick = []
        · rw [hsome]
          exact ⟨htick, fun root k hb => hb⟩
        · exact retryPass_budget w (tickRetries_pending w htick (h hworks) hsome)
      obtain ⟨hlineage, hbudget⟩ := hfirst
      obtain ⟨⟨moves, htrace⟩, hup⟩ := secondPass_upholds w s.tick hlineage.keyed
      have hfinish : Trace (workTick w s.tick).1 (finishAutonomyTick (workTick w s.tick).1
          s.stamp (tickSummary (workTick w s.tick).2)) [] :=
        ⟨rfl, rfl, fun hk => ⟨hk.task, hk.run⟩, id⟩
      have hfinishUp : Upholds (workTick w s.tick).1 (finishAutonomyTick (workTick w s.tick).1
          s.stamp (tickSummary (workTick w s.tick).2)) := .aside rfl rfl (Nat.le_refl _)
      have hupAll := hup.trans hfinishUp
      have hall := htrace.andThen hfinish
      exact ⟨hlineage.keep hall.board (hall.keyed hlineage.keyed) hupAll,
        fun root k hb => (hbudget root k (hkeep root k hb)).keep hlineage hupAll⟩

theorem KernelOp.exec_lineage (p : ControlPlane) (op : KernelOp)
    (hl : p.kernel.Lineage) (h : op.RetriesStart w p.kernel) :
    (op.exec w p).kernel.Lineage := by
  cases hretries : op.retries with
  | false =>
    obtain ⟨moves, hboard⟩ := op.exec_board w p hl.keyed
    exact hl.keep hboard (op.exec_orchestrations w p hl.keyed).1
      (op.exec_upholds w p hl.minted hretries)
  | true =>
    cases op with
    | run op =>
      cases op with
      | retryRun runId =>
        change (Relux.retryRun w p.kernel runId).2.Lineage
        cases htarget : retryTarget p.kernel runId with
        | none =>
          obtain ⟨e, he⟩ := retryRun_refused htarget
          rw [he]
          exact hl
        | some t =>
          have hroom := h.2 (List.cons_ne_nil runId [])
          exact (retryRun_adds w hl htarget (h.1 runId List.mem_cons_self t htarget)
            hroom).1.lineage
      | _ => cases hretries
    | background op =>
      cases op with
      | oneAutonomyTick => exact (tick_budget w hl h).1
      | _ => cases hretries
    | _ => cases hretries

theorem KernelState.new_lineage : KernelState.new.Lineage where
  keyed := new_keyed
  minted := new_wellKept.minted
  numbered r e h := by simp [KernelState.new, KernelState.board] at h
  planned r run h := by simp [KernelState.new] at h
  origin r q h := by simp [KernelState.origin, KernelState.new] at h

def tickOps (ticks : List World) : List (World × KernelOp) :=
  ticks.map (fun w => (w, .background .oneAutonomyTick))

theorem automaticRetries_budget {k : Nat} {p : ControlPlane} {ticks : List World}
    (hl : p.kernel.Lineage) (hb : Budget root k p.kernel)
    (h : Guarded ControlPlane.step (fun p e => e.2.RetriesStart e.1 p.kernel) p
      (tickOps ticks)) :
    k + familyCalls root (automaticRetries p.kernel ticks) ≤ maxTransientRetries := by
  induction ticks generalizing p k with
  | nil => exact hb.within
  | cons w ticks ih =>
    obtain ⟨hlineage, hbudget⟩ := tick_budget w hl h.1
    have hrest := ih (p := p.step (w, .background .oneAutonomyTick)) hlineage
      (hbudget root k hb) h.2
    rw [automaticRetries, familyCalls_append, ← Nat.add_assoc]
    exact hrest

/-- In every run whose accepted retries start their run while ids have four digits, a run
and all that descend from it are retried automatically at most as often as the schedule has
delays, by any sequence of ticks, at any times and with any outcomes. -/
theorem automatic_retries_bounded (ops : List (World × KernelOp)) (ticks : List World)
    (root : RunId) (run : Run)
    (hguard : Guarded ControlPlane.step (fun p e => e.2.RetriesStart e.1 p.kernel)
      (ControlPlane.of KernelState.new) (ops ++ tickOps ticks)) :
    let s := (Transition.run ControlPlane.step (ControlPlane.of KernelState.new) ops).kernel
    s.runs.get? root = some run →
      familyCalls root (automaticRetries s ticks) ≤ maxTransientRetries := by
  intro s hroot
  obtain ⟨hsetup, hticks⟩ := hguard.append
  have hstep : ∀ (p : ControlPlane) (e : World × KernelOp), p.kernel.Lineage →
      e.2.RetriesStart e.1 p.kernel → (p.step e).kernel.Lineage :=
    fun p e hp he => e.2.exec_lineage e.1 p hp he
  have hnew : (ControlPlane.of KernelState.new).kernel.Lineage := KernelState.new_lineage
  have hlineage : s.Lineage := Transition.invariant_run hstep hnew hsetup
  have hbudget : Budget root 0 s :=
    ⟨Nat.zero_le _, ⟨run.taskId, by simp only [KernelState.taskOf, hroot, Option.map_some]⟩,
      fun _ _ _ => Nat.zero_le _⟩
  have hall := automaticRetries_budget hlineage hbudget hticks
  rw [Nat.zero_add] at hall
  exact hall

/-- A run of an agent that holds the permission its task requires times out, and autonomy
is turned on. -/
def flakyOps : List (World × KernelOp) :=
  [ (laterWorld, .config (.registerPlugin ⟨localPrimeAdapterId, "Local Prime", "1.0.0",
      .adapter, "", "", .official, [], [], .healthy⟩)),
    (laterWorld, .config (.registerPlugin ⟨codexCliAdapterId, "Codex", "1.0.0", .adapter, "",
      "", .official, [], [], .healthy⟩)),
    (laterWorld, .config (.createAgent "prime" "Prime" localPrimeAdapterId none [])),
    (laterWorld, .config (.createAgent "coder" "Coder" codexCliAdapterId none
      [⟨"task:tidy"⟩])),
    (laterWorld, .config (.configureAdapterRuntime codexCliAdapterId
      ⟨some true, none, none, none, none⟩)),
    (.silent, .run (.createTask "tidy up" .null "founder" [⟨"task:tidy"⟩])),
    (.silent, .run (.assignTask "task_0001" "coder")),
    (.silent, .run (.startRun "task_0001")),
    (laterWorld, .run (.prepareCliRun "task_0001" codexCliAdapterId)),
    (.silent, .run (.finalizeCliRun 0 (.ok timedOutExit))),
    (.silent, autonomyOn) ]

def flakyPlane (ops : List (World × KernelOp)) : ControlPlane :=
  Transition.run ControlPlane.step (ControlPlane.of KernelState.new) (flakyOps ++ ops)

theorem automatic_retries_bounded_sample :
    familyCalls "run_0001" (automaticRetries (flakyPlane []).kernel [laterWorld]) ≤
      maxTransientRetries := by
  have htick : KernelOp.RetriesStart laterWorld (flakyPlane []).kernel tickOp := by
    intro _
    have hretries : tickRetries laterWorld (flakyPlane []).kernel.tick = ["run_0001"] := by
      decide +kernel
    have hnext : (flakyPlane []).kernel.tick.nextRun = 1 := rfl
    rw [hretries]
    refine ⟨fun runId hmem t ht => ?_, fun _ => by rw [hnext]; decide⟩
    rw [List.mem_singleton] at hmem
    subst hmem
    cases ht
    rfl
  exact automatic_retries_bounded flakyOps [laterWorld] "run_0001" _
    ⟨trivial, trivial, trivial, trivial, trivial, trivial, trivial, trivial, trivial, trivial,
      trivial, htick, trivial⟩ rfl

/-- The agent loses the permission: every tick calls the retry again, and none starts. -/
theorem automatic_retries_unbounded :
    maxTransientRetries < familyCalls "run_0001" (automaticRetries
      (flakyPlane [(.silent, .config (.revokePermissionFromAgent "coder" ⟨"task:tidy"⟩))]).kernel
      (List.replicate 5 laterWorld)) := by
  generalize hcalls : automaticRetries _ _ = calls
  have hself : calls.countP (fun c => c.2 == "run_0001") ≤ familyCalls "run_0001" calls := by
    refine List.countP_mono_left fun c _ hc => ?_
    rw [beq_iff_eq] at hc
    simp only [hc, decide_eq_true_eq]
    exact .refl
  have hcount : calls.countP (fun c => c.2 == "run_0001") = 5 := by
    rw [← hcalls]
    decide +kernel
  rw [hcount] at hself
  exact lt_of_lt_of_le (by decide) hself

end Relux
