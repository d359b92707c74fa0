import Mathlib.Data.String.Basic
import Relux.Reachable
import Relux.RetryDispatch
import Relux.TickDispatch

/-! The lineage of retried runs. A run that retries another one is younger and of the same
task, and the attempt its plan counts is its distance from the run it descends from. Every
operation keeps this where the retries it accepts start their run. -/

namespace Relux

def Board.Numbered (b : Board) : Prop :=
  ∀ r e, b.run r = some e → ∃ n, n ≤ b.nextRun ∧ r = runIdOf n

variable {b : Board}

theorem Board.Numbered.move (h : b.Numbered) (m : BoardMove) : (b.move m).Numbered := by
  intro r e hr
  cases m with
  | create => exact h r e hr
  | task t status => exact h r e hr
  | start t =>
    rw [start_run] at hr
    split at hr
    next he => exact ⟨b.nextRun + 1, le_refl _, he⟩
    · obtain ⟨n, hn, rfl⟩ := h r e hr
      exact ⟨n, Nat.le_succ_of_le hn, rfl⟩
  | run r' status =>
    change (b.setRun r' status).run r = some e at hr
    rw [setRun_run] at hr
    split at hr
    next he =>
      rw [Option.map_eq_some_iff] at hr
      obtain ⟨old, hold, -⟩ := hr
      exact h r old (he ▸ hold)
    · exact h r e hr

theorem Board.Numbered.play (h : b.Numbered) (moves : List BoardMove) :
    (b.play moves).Numbered := by
  induction moves generalizing b with
  | nil => exact h
  | cons m moves ih => exact ih (h.move m)

variable {s : KernelState} {t : TaskId} {r : RunId}

namespace KernelState

def Descends (s : KernelState) (ancestor r : RunId) : Prop :=
  Relation.ReflTransGen (fun a b => s.origin b = some a) ancestor r

structure Lineage (s : KernelState) : Prop where
  keyed : s.Keyed
  minted : s.board.Minted
  numbered : s.board.Numbered
  planned : s.Planned
  origin : ∀ r q, s.origin r = some q → ∃ t, s.taskOf r = some t ∧ s.taskOf q = some t

theorem Lineage.fresh (h : s.Lineage) : s.taskOf s.board.freshRun = none := by
  rw [taskOf_board, h.minted.fresh, Option.map_none]

theorem Lineage.origin_ne_fresh (h : s.Lineage) (r : RunId) :
    s.origin r ≠ some s.board.freshRun := by
  intro ho
  obtain ⟨t, -, hq⟩ := h.origin r _ ho
  rw [h.fresh] at hq
  cases hq

theorem Lineage.descends_task (h : s.Lineage) {a : RunId} (hd : s.Descends a r)
    (ha : s.taskOf a = some t) : s.taskOf r = some t := by
  induction hd with
  | refl => exact ha
  | tail _ ho ih =>
    obtain ⟨t', hr, hq⟩ := h.origin _ _ ho
    rw [ih] at hq
    cases hq
    exact hr

def Newest (s : KernelState) (r : RunId) : Prop :=
  ∃ t, s.taskOf r = some t ∧ ∀ r', s.taskOf r' = some t → r' ≤ r

end KernelState

open KernelState (Lineage Descends Newest)

variable {moves : List BoardMove} {s' : KernelState}

theorem KernelState.Lineage.keep (h : s.Lineage) (hb : s'.board = s.board.play moves)
    (hk : s'.Keyed) (hu : Upholds s s') : s'.Lineage where
  keyed := hk
  minted := hu.minted h.minted
  numbered := hb ▸ h.numbered.play moves
  planned := hu.planned h.minted h.planned
  origin r q ho := by
    rw [hu.origin h.minted] at ho
    obtain ⟨t, hr, hq⟩ := h.origin r q ho
    exact ⟨t, hu.taskOf h.minted r t hr, hu.taskOf h.minted q t hq⟩

theorem transientAttemptWalk_le (s : KernelState) (fuel attempt : Nat) (prev : Option RunId) :
    attempt ≤ transientAttemptWalk s fuel attempt prev := by
  induction fuel generalizing attempt prev with
  | zero => exact le_refl _
  | succ fuel ih =>
    cases prev with
    | none => exact le_refl _
    | some r =>
      simp only [transientAttemptWalk]
      split
      · omega
      · exact (Nat.le_succ attempt).trans (ih (attempt + 1) _)

theorem transientAttemptWalk_succ (s : KernelState) (fuel attempt : Nat)
    (prev : Option RunId) (hfuel : 65 ≤ attempt + fuel)
    (hshort : transientAttemptWalk s (fuel + 1) attempt prev < 64) :
    transientAttemptWalk s fuel (attempt + 1) prev =
      transientAttemptWalk s (fuel + 1) attempt prev + 1 := by
  induction fuel generalizing attempt prev with
  | zero =>
    have hle := transientAttemptWalk_le s (0 + 1) attempt prev
    omega
  | succ fuel ih =>
    cases prev with
    | none => rfl
    | some r =>
      have hle := transientAttemptWalk_le s (fuel + 1 + 1) attempt (some r)
      have hcut : ¬ attempt + 1 > 64 := by omega
      have hone : transientAttemptWalk s (fuel + 1 + 1) attempt (some r) =
          transientAttemptWalk s (fuel + 1) (attempt + 1) (s.origin r) := by
        simp only [transientAttemptWalk, if_neg hcut]
        rfl
      rw [hone] at hshort ⊢
      have hle' := transientAttemptWalk_le s (fuel + 1) (attempt + 1) (s.origin r)
      have hcut' : ¬ attempt + 1 + 1 > 64 := by omega
      have htwo : transientAttemptWalk s (fuel + 1) (attempt + 1) (some r) =
          transientAttemptWalk s fuel (attempt + 1 + 1) (s.origin r) := by
        simp only [transientAttemptWalk, if_neg hcut']
        rfl
      rw [htwo]
      exact ih (attempt + 1) (s.origin r) (by omega) hshort

theorem transientAttemptFor_child {q : RunId} (h : s.origin r = some q)
    (hshort : transientAttemptFor s q < 64) :
    transientAttemptFor s r = transientAttemptFor s q + 1 := by
  have hchild : transientAttemptFor s r = transientAttemptWalk s 66 0 (some q) := by
    rw [← h]
    rfl
  have hstep : transientAttemptWalk s 66 0 (some q) =
      transientAttemptWalk s 65 1 (s.origin q) := rfl
  rw [hchild, hstep]
  exact transientAttemptWalk_succ s 65 0 (s.origin q) (by omega) hshort

variable {new : RunId}

theorem transientAttemptWalk_update (horigin : s'.origin = Function.update s.origin new (some r))
    (hnew : ∀ q, s.origin q ≠ some new) (fuel attempt : Nat) {prev : Option RunId}
    (hprev : prev ≠ some new) :
    transientAttemptWalk s' fuel attempt prev = transientAttemptWalk s fuel attempt prev := by
  induction fuel generalizing attempt prev with
  | zero => rfl
  | succ fuel ih =>
    cases prev with
    | none => rfl
    | some q =>
      have hne : q ≠ new := fun he => hprev (by rw [he])
      have hq : s'.origin q = s.origin q := by
        rw [horigin, Function.update_of_ne hne]
      have hnext := ih (attempt + 1) (hnew q)
      simp only [transientAttemptWalk]
      split
      · rfl
      · change transientAttemptWalk s' fuel (attempt + 1) (s'.origin q) =
          transientAttemptWalk s fuel (attempt + 1) (s.origin q)
        rw [hq, hnext]

theorem transientAttemptFor_update {q : RunId}
    (horigin : s'.origin = Function.update s.origin new (some r))
    (hnew : ∀ q, s.origin q ≠ some new) (hq : q ≠ new) :
    transientAttemptFor s' q = transientAttemptFor s q := by
  have hsame : s'.origin q = s.origin q := by
    rw [horigin, Function.update_of_ne hq]
  change transientAttemptWalk s' 66 0 (s'.origin q) = transientAttemptWalk s 66 0 (s.origin q)
  rw [hsame]
  exact transientAttemptWalk_update horigin hnew 66 0 (hnew q)

/-- What an accepted retry that starts does to the lineage: it adds one run below the
retried one. -/
structure AddsRetry (s s' : KernelState) (new r : RunId) (t : TaskId) : Prop where
  lineage : s'.Lineage
  origin : s'.origin = Function.update s.origin new (some r)
  taskOf : s'.taskOf = Function.update s.taskOf new (some t)

theorem Run.PlannedAt.retryable {run : Run} {attempt : Nat} (h : run.PlannedAt attempt)
    (hfailed : run.status = .failed) {st : RunRetryState} (hst : run.retry = some st) :
    ∃ cls, run.failureClass = some cls ∧ cls.retryable = true := by
  obtain ⟨cls, now, hcls, hplan⟩ := h hfailed st hst
  refine ⟨cls, hcls, ?_⟩
  unfold RunRetryState.plan at hplan
  split at hplan
  · cases hplan
  next hr => exact not_not.mp hr

theorem replanRetry_planned (w : World) (s : KernelState) (runId : RunId) (attempt : Nat)
    (hother : ∀ r run, r ≠ runId → s.runs.get? r = some run →
      run.PlannedAt (transientAttemptFor s r))
    (hself : ∀ run, s.runs.get? runId = some run → run.PlannedAt attempt) :
    (replanRetry w s runId).Planned ∧ (replanRetry w s runId).origin = s.origin ∧
      (replanRetry w s runId).taskOf = s.taskOf := by
  -- A run that is not replanned carries no plan, or has not failed.
  have hkeep : (∀ run, s.runs.get? runId = some run → ∀ n, run.PlannedAt n) → s.Planned := by
    intro h r run hr
    by_cases he : r = runId
    · subst he
      exact h run hr _
    · exact hother r run he hr
  unfold replanRetry
  cases hrun : s.runs.get? runId with
  | none =>
    refine ⟨hkeep fun run hr => ?_, rfl, rfl⟩
    rw [hrun] at hr
    cases hr
  | some run =>
    dsimp only
    have hplanned := hself run hrun
    cases hcls : run.failureClass with
    | none =>
      refine ⟨hkeep fun run' hr n hfailed st hst => ?_, rfl, rfl⟩
      rw [hrun, Option.some.injEq] at hr
      subst hr
      obtain ⟨cls, hcls', -⟩ := hplanned.retryable hfailed hst
      rw [hcls] at hcls'
      cases hcls'
    | some cls =>
      dsimp only
      by_cases hretry : run.status = .failed ∧ cls.retryable = true
      · rw [if_pos hretry]
        have hget : ∀ r, (s.setRun runId (fun r => { r with
            retry := RunRetryState.plan cls (transientAttemptFor s runId)
              (w.realNowSecs s.clock) })).runs.get? r =
            if r = runId then (s.runs.get? runId).map (fun r => { r with
              retry := RunRetryState.plan cls (transientAttemptFor s runId)
                (w.realNowSecs s.clock) }) else s.runs.get? r :=
          fun r => HashMap.get?_modify s.runs runId r _
        have horigin : (s.setRun runId (fun r => { r with
            retry := RunRetryState.plan cls (transientAttemptFor s runId)
              (w.realNowSecs s.clock) })).origin = s.origin := by
          funext r
          simp only [KernelState.origin, hget]
          split
          next he => simp [he, hrun]
          · rfl
        refine ⟨fun r run' hr => ?_, horigin, ?_⟩
        · rw [transientAttemptFor_congr horigin]
          rw [hget] at hr
          split at hr
          next he =>
            subst he
            rw [hrun, Option.map_some, Option.some.injEq] at hr
            subst hr
            intro _ st hst
            exact ⟨cls, _, hcls, hst⟩
          next he => exact hother r run' he hr
        · funext r
          simp only [KernelState.taskOf, hget]
          split
          next he => simp [he, hrun]
          · rfl
      · rw [if_neg hretry]
        refine ⟨hkeep fun run' hr n hfailed st hst => ?_, rfl, rfl⟩
        rw [hrun, Option.some.injEq] at hr
        subst hr
        obtain ⟨cls', hcls', hret⟩ := hplanned.retryable hfailed hst
        rw [hcls] at hcls'
        cases hcls'
        exact absurd ⟨hfailed, hret⟩ hretry

theorem linkRetry_adds (w : World) (ok : Bool) (h : s.Lineage) (hnew : s.taskOf new = some t)
    (hr : s.taskOf r = some t) (hunlinked : ∀ q, s.origin q ≠ some new) :
    AddsRetry s (linkRetry w s new r ok) new r t := by
  obtain ⟨run, hrun, htask⟩ := Option.map_eq_some_iff.mp hnew
  have hget : ∀ q, (s.setRun new (fun e => { e with retriedFrom := some r })).runs.get? q =
      if q = new then (s.runs.get? new).map (fun e => { e with retriedFrom := some r })
      else s.runs.get? q :=
    fun q => HashMap.get?_modify s.runs new q _
  have horigin : (s.setRun new (fun e => { e with retriedFrom := some r })).origin =
      Function.update s.origin new (some r) := by
    funext q
    rw [Function.update_apply]
    simp only [KernelState.origin, hget]
    split
    · simp [hrun]
    · rfl
  have htaskOf : (s.setRun new (fun e => { e with retriedFrom := some r })).taskOf =
      s.taskOf := by
    funext q
    simp only [KernelState.taskOf, hget]
    split
    next he => simp [he, hrun]
    · rfl
  have hlinked : Trace s (s.setRun new (fun e => { e with retriedFrom := some r })) [] :=
    noteRun_trace s new _ (fun _ => ⟨rfl, rfl, rfl⟩)
  have htrace := linkRetry_trace w s new r ok
  unfold linkRetry at htrace ⊢
  generalize s.setRun new (fun e => { e with retriedFrom := some r }) = linked
    at hget horigin htaskOf hlinked htrace ⊢
  have hattempt : ∀ q, q ≠ new → transientAttemptFor linked q = transientAttemptFor s q :=
    fun q hq => transientAttemptFor_update horigin hunlinked hq
  obtain ⟨hplanned, horigin', htaskOf'⟩ := replanRetry_planned w linked new
    (transientAttemptFor s new)
    (fun q e hq he => by
      rw [hget, if_neg hq] at he
      rw [hattempt q hq]
      exact h.planned q e he)
    (fun e he => by
      rw [hget, if_pos rfl, hrun, Option.map_some, Option.some.injEq] at he
      subst he
      exact h.planned new run hrun)
  have hminted : (replanRetry w linked new).board.Minted := by
    rw [(hlinked.andThen (replanRetry_trace w linked new)).board]
    exact h.minted
  have hlogged := (pushRunEvent_works w (replanRetry w linked new) new "run_retried_from"
    "kernel" ("retry of failed run " ++ r)).toUpholds.trans
    (recordAudit_works _ "user" "founder" "run:retry" (some "run") (some new)
      (if ok then .success else .failed)).toUpholds
  generalize recordAudit (pushRunEvent w (replanRetry w linked new) new "run_retried_from"
    "kernel" ("retry of failed run " ++ r)) "user" "founder" "run:retry" (some "run")
    (some new) (if ok then .success else .failed) = done at htrace hlogged ⊢
  have hfinal : done.origin = Function.update s.origin new (some r) :=
    (hlogged.origin hminted).trans (horigin'.trans horigin)
  have htaskOf : done.taskOf = s.taskOf := by
    funext q
    rw [KernelState.taskOf_board, KernelState.taskOf_board, htrace.board, Board.play_nil]
  refine ⟨⟨htrace.keyed h.keyed, ?_, ?_, hlogged.planned hminted hplanned, fun q p ho => ?_⟩,
    hfinal, ?_⟩
  · rw [htrace.board]
    exact h.minted
  · rw [htrace.board]
    exact h.numbered
  · rw [hfinal, Function.update_apply] at ho
    rw [htaskOf]
    split at ho
    next he =>
      cases ho
      exact ⟨t, he ▸ hnew, hr⟩
    · exact h.origin q p ho
  · rw [htaskOf, ← hnew, Function.update_eq_self]

theorem foldl_newest_iff (ids : List RunId) (id : RunId) :
    ids.foldl (fun best id =>
      match best with
      | none => some id
      | some b => if decide (b ≤ id) then some id else some b) none = some id ↔
      id ∈ ids ∧ ∀ id' ∈ ids, id' ≤ id := by
  have hfrom : ∀ (rest : List RunId) (b : RunId), rest.foldl (fun best id =>
      match best with
      | none => some id
      | some b => if decide (b ≤ id) then some id else some b) (some b) = some id ↔
      id ∈ b :: rest ∧ ∀ id' ∈ b :: rest, id' ≤ id := by
    intro rest
    induction rest with
    | nil =>
      intro b
      simp only [List.foldl_nil, Option.some.injEq, List.mem_singleton, forall_eq]
      exact ⟨fun h => ⟨h.symm, h ▸ le_refl b⟩, fun h => h.1.symm⟩
    | cons x rest ih =>
      intro b
      rw [List.foldl_cons]
      by_cases hle : b ≤ x
      · simp only [hle, decide_true, if_true, ih, List.mem_cons, forall_eq_or_imp]
        grind
      · have hlt := not_le.mp hle
        simp only [hle, decide_false, Bool.false_eq_true, if_false, ih, List.mem_cons,
          forall_eq_or_imp]
        grind
  cases ids with
  | nil => simp
  | cons x rest =>
    rw [List.foldl_cons]
    exact hfrom rest x

theorem newestRunId_fresh {n : Nat} (hk : s.Keyed) (hnumbered : s.board.Numbered)
    (hn : s.nextRun = n) (hroom : n ≤ 9999) (hstored : s.taskOf (runIdOf n) = some t) :
    newestRunId s = some (runIdOf n) := by
  obtain ⟨run, hrun, -⟩ := Option.map_eq_some_iff.mp hstored
  refine (foldl_newest_iff _ _).mpr ⟨?_, fun id hid => ?_⟩
  · rw [List.mem_map]
    exact ⟨run, HashMap.mem_values.mpr ⟨_, hrun⟩, hk.run _ run hrun⟩
  · rw [List.mem_map] at hid
    obtain ⟨run', hmem, rfl⟩ := hid
    obtain ⟨key, hget⟩ := HashMap.mem_values.mp hmem
    rw [hk.run key run' hget]
    have hboard : s.board.run key = some (run'.taskId, run'.status) := by
      simp only [KernelState.board, hget, Option.map_some]
    obtain ⟨m, hm, rfl⟩ := hnumbered key _ hboard
    have hle : m ≤ n := hn ▸ hm
    rcases Nat.lt_or_eq_of_le hle with hlt | rfl
    · exact (mintedId_lt "run_" hlt hroom).le
    · exact le_refl _

theorem Board.Executes.taskOf (h : b.Executes t moves) (r : RunId) :
    ((b.play moves).run r).map Prod.fst = (b.run r).map Prod.fst := by
  have hset : ∀ r' status, ((b.setRun r' status).run r).map Prod.fst =
      (b.run r).map Prod.fst := by
    intro r' status
    rw [setRun_run]
    split
    next he => simp only [he, Option.map_map, Function.comp_def]
    · rfl
  cases h with
  | nothing => rfl
  | ended _ _ hend => cases hend <;> exact hset _ _

theorem Board.Executes.nextRun (h : b.Executes t moves) : (b.play moves).nextRun = b.nextRun := by
  cases h with
  | nothing => rfl
  | ended _ _ hend => cases hend <;> rfl

theorem requeued_taskOf (w : World) (hk : s.Keyed) (htarget : retryTarget s r = some t) :
    let after := (executeAssignedRun w (requeue s t) t).2
    after.taskOf = (if startable s t then Function.update s.taskOf s.board.freshRun (some t)
      else s.taskOf) ∧
    after.nextRun = if startable s t then s.nextRun + 1 else s.nextRun := by
  rcases requeued_executed w htarget with
    ⟨hstart, agentId, s₁, -, hready, hexec⟩ | ⟨hno, e, s₁, hexec, hready, hruns⟩
  · obtain ⟨moves, htrace₂, hexecutes⟩ :=
      dispatchAssigned_trace w s₁ (hready.keyed hk) agentId t
    simp only [hexec, hstart, if_true]
    refine ⟨?_, ?_⟩
    · funext q
      have hrun : (s.board.play [.task t .queued, .start t]).run q =
          if q = s.board.freshRun then some (t, .running) else s.board.run q :=
        Board.start_run (s.board.setTask t .queued) t q
      rw [KernelState.taskOf_board, htrace₂.board, hexecutes.taskOf, hready.board,
        Function.update_apply, hrun]
      split
      · rfl
      · rw [KernelState.taskOf_board]
    · have hb := congrArg Board.nextRun htrace₂.board
      rw [hexecutes.nextRun, hready.board] at hb
      exact hb
  · simp only [hexec, hno, Bool.false_eq_true, if_false]
    refine ⟨?_, ?_⟩
    · funext q
      simp only [KernelState.taskOf, hruns]
    · exact congrArg Board.nextRun hready.board

theorem retryRun_adds (w : World) (h : s.Lineage) (htarget : retryTarget s r = some t)
    (hstart : startable s t = true) (hroom : s.nextRun + 1 ≤ 9999) :
    AddsRetry s (retryRun w s r).2 s.board.freshRun r t ∧
      (retryRun w s r).2.nextRun = s.nextRun + 1 := by
  have hfailed : s.board.run r = some (t, .failed) := (retryTarget_iff.mp htarget).1
  rcases requeued_executed w htarget with ⟨-, agentId, s₁, -, hready, hexec⟩ | ⟨hno, -⟩
  · obtain ⟨moves, htrace₂, hexecutes⟩ :=
      dispatchAssigned_trace w s₁ (hready.keyed h.keyed) agentId t
    have hall := hready.toTrace.trans htrace₂
    have hup : Upholds s (dispatchAssigned w s₁ agentId t).2 :=
      (hready.writes.works.trans (dispatchAssigned_works w s₁ agentId t)).toUpholds
    have hexecuted : (executeAssignedRun w (requeue s t) t).2 =
        (dispatchAssigned w s₁ agentId t).2 := by rw [hexec]
    obtain ⟨htaskOf, hnext⟩ := requeued_taskOf w h.keyed htarget
    simp only [hstart, if_true] at htaskOf hnext
    rw [retryRun_accepted w htarget]
    generalize executeAssignedRun w (requeue s t) t = result at hexecuted htaskOf hnext ⊢
    rw [← hexecuted] at hall hup htrace₂
    have hlin : result.2.Lineage := h.keep hall.board (hall.keyed h.keyed) hup
    have hunlinked : ∀ q, result.2.origin q ≠ some s.board.freshRun := by
      rw [hup.origin h.minted]
      exact h.origin_ne_fresh
    have hne : s.board.freshRun ≠ r := by
      rintro rfl
      rw [h.minted.fresh] at hfailed
      cases hfailed
    have hr : result.2.taskOf r = some t := by
      rw [htaskOf, Function.update_of_ne hne.symm, KernelState.taskOf_board, hfailed]
      rfl
    have hnew : result.2.taskOf s.board.freshRun = some t := by
      rw [htaskOf, Function.update_self]
    have hnewest : newestRunId result.2 = some s.board.freshRun :=
      newestRunId_fresh hlin.keyed hlin.numbered hnext hroom hnew
    have hfilter : (newestRunId result.2).filter (· != r) = some s.board.freshRun := by
      rw [hnewest]
      simp [hne]
    simp only [linkNewest, hfilter]
    obtain ⟨hlin', horigin, htask'⟩ := linkRetry_adds w result.1.toBool hlin hnew hr hunlinked
    refine ⟨⟨hlin', ?_, ?_⟩, ?_⟩
    · rw [horigin, hup.origin h.minted]
    · rw [htask', htaskOf, Function.update_idem]
    · have hb := congrArg Board.nextRun
        (linkRetry_trace w result.2 s.board.freshRun r result.1.toBool).board
      exact hb.trans hnext
  · rw [hstart] at hno
    cases hno

end Relux

/-! Every operation keeps the lineage, where the retries it accepts start their run while
ids still have four digits. -/

namespace Relux

open KernelState (Lineage Descends Newest)

/-- The retries that are accepted start, and the runs they start get ids of four digits. -/
def RetriesStart (s : KernelState) (runIds : List RunId) : Prop :=
  (∀ runId ∈ runIds, ∀ t, retryTarget s runId = some t → startable s t = true) ∧
    (runIds ≠ [] → s.nextRun + runIds.length ≤ 9999)

def KernelOp.RetriesStart (w : World) (s : KernelState) : KernelOp → Prop
  | .run (.retryRun runId) => Relux.RetriesStart s [runId]
  | .background .oneAutonomyTick =>
    autonomyWorks s → Relux.RetriesStart s.tick (tickRetries w s.tick)
  | _ => True

theorem ConfigOp.exec_works (w : World) (s : KernelState) (op : ConfigOp) :
    Works s (op.exec w s) := by
  have h := op.exec_configures w s
  have hwork := h.work
  simp only [KernelState.work, Prod.mk.injEq] at hwork
  exact .aside hwork.1 hwork.2.1 hwork.2.2.2.1 h.clock

def RunOp.isRetry : RunOp → Bool
  | .retryRun _ => true
  | _ => false

theorem RunOp.exec_upholds (w : World) (p : ControlPlane) (op : RunOp)
    (hm : p.kernel.board.Minted) (h : op.isRetry = false) : Upholds p.kernel (op.exec w p).kernel := by
  cases op with
  | createTask title input createdBy permissions =>
    exact .aside rfl rfl (Nat.le_add_right p.kernel.clock 2)
  | createTaskWithParent title input createdBy namespaceId permissions parent =>
    simp only [RunOp.exec, ControlPlane.withKernel, Relux.createTaskWithParent]
    repeat' split
    all_goals first
      | exact .refl _
      | exact .aside rfl rfl (Nat.le_add_right p.kernel.clock 2)
  | reparentTask taskId newParent =>
    simp only [RunOp.exec, ControlPlane.withKernel, Relux.reparentTask]
    repeat' split
    all_goals first
      | exact .refl _
      | exact .aside rfl rfl (Nat.le_add_right p.kernel.clock 2)
  | assignTask taskId agentId => exact assignTask_upholds p.kernel taskId agentId
  | startRun taskId => exact (startRun_works w p.kernel taskId).toUpholds
  | executeAssignedRun taskId => exact (executeAssignedRun_works w p.kernel taskId).toUpholds
  | prepareCliRun taskId adapter =>
    have hworks := (prepareCliRun_works w p.kernel taskId adapter).toUpholds
    simp only [RunOp.exec]
    cases hprep : Relux.prepareCliRun w p.kernel taskId adapter with
    | mk result s =>
      rw [hprep] at hworks
      cases result <;> exact hworks
  | finalizeCliRun i outcome =>
    simp only [RunOp.exec, ControlPlane.finalized]
    split
    · exact .refl _
    · exact (finalizeCliRun_works w p.kernel _ outcome).toUpholds
  | setTaskStatus taskId target =>
    simp only [RunOp.exec, ControlPlane.withKernel, Relux.setTaskStatus]
    repeat' split
    all_goals first
      | exact .refl _
      | exact .aside rfl rfl (Nat.le_add_right p.kernel.clock 2)
  | reopenTask taskId =>
    simp only [RunOp.exec, ControlPlane.withKernel, Relux.reopenTask]
    repeat' split
    all_goals first
      | exact .refl _
      | exact .aside rfl rfl (Nat.le_add_right p.kernel.clock 2)
  | retryRun runId => cases h
  | resumeRun runId => exact (resumeRun_works w p.kernel hm runId).toUpholds
  | completeRun runId summary => exact (completeRun_works w p.kernel runId summary).toUpholds
  | failRun runId error => exact (failRun_works w p.kernel runId error).toUpholds
  | completeTask taskId => exact (completeTask_works p.kernel taskId).toUpholds
  | failTask taskId => exact (failTask_works p.kernel taskId).toUpholds

/-- A call of `retry_run`, or a tick, which may make some. -/
def KernelOp.retries : KernelOp → Bool
  | .run op => op.isRetry
  | .background .oneAutonomyTick => true
  | _ => false

theorem KernelOp.exec_upholds (w : World) (p : ControlPlane) (op : KernelOp)
    (hm : p.kernel.board.Minted) (h : op.retries = false) :
    Upholds p.kernel (op.exec w p).kernel := by
  cases op with
  | run op => exact op.exec_upholds w p hm h
  | background op =>
    cases op with
    | recoverStaleRuns nowSecs ids =>
      exact (recoverStaleRuns_works w p.kernel nowSecs ids).toUpholds
    | oneAutonomyTick => cases h
    | configureAutonomy config => exact .aside rfl rfl (Nat.le_refl _)
    | setRunWatchdogConfig config => exact .aside rfl rfl (Nat.le_succ p.kernel.clock)
  | config op => exact (op.exec_works w p.kernel).toUpholds
  | approval op => exact (op.exec_rules w p.kernel).works.toUpholds
  | manager call =>
    have hd := call.exec_directs p.kernel
    exact .aside hd.runs hd.nextRun hd.clock
  | rehash runs tasks grants =>
    exact .of_get? (fun r => HashMap.get?_reorder _ _ _) rfl (Nat.le_refl _)

end Relux
