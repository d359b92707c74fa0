import Relux.NewestRun

/-! A retry and a resume: each puts the task of a run back in the queue and starts a run of it.
The run is looked for afterwards, by its start and by its id, so what a call writes depends on
the runs that are there. -/

namespace Relux

open Transition (Guarded)

variable {s : KernelState} {t : TaskId} {r : RunId}

/-- The run is running for the task, and started later in its day than the others that are. -/
def KernelState.Foremost (s : KernelState) (t : TaskId) (r : RunId) : Prop :=
  ∃ run, s.runs.get? r = some run ∧ RunsOf t run ∧ ∀ r' run', s.runs.get? r' = some run' →
    RunsOf t run' → r' ≠ r → startKey run' < startKey run

theorem KernelState.Foremost.activeRun (hk : s.Keyed) (h : s.Foremost t r) :
    activeRun s t = some r := by
  obtain ⟨run, hget, hp, hlead⟩ := h
  have hmem : ∀ {e}, e ∈ s.runs.values.filter (fun e => e.taskId == t && e.status == .running) ↔
      (∃ k, s.runs.get? k = some e) ∧ RunsOf t e := by
    intro e
    simp only [List.mem_filter, HashMap.mem_values, RunsOf, Bool.and_eq_true, beq_iff_eq]
  have hrun := hmem.mpr ⟨⟨r, hget⟩, hp⟩
  obtain ⟨best, hbest⟩ := latestStarted_some hrun
  obtain ⟨⟨k, hk'⟩, hpb⟩ := hmem.mp (latestStarted_mem hbest)
  have hle := latestStarted_max hbest run hrun
  by_cases hne : k = r
  · rw [Relux.activeRun, hbest, Option.map_some, hk.run k best hk', hne]
  · have hlt := hlead k best hk' hpb hne
    omega

theorem KernelState.Foremost.setRun (h : s.Foremost t r) (q : RunId) (f : Run → Run)
    (hf : ∀ run, ((f run).taskId, (f run).status, (f run).startedAt) =
      (run.taskId, run.status, run.startedAt)) : (s.setRun q f).Foremost t r := by
  have hsame : ∀ run, (RunsOf t (f run) ↔ RunsOf t run) ∧ startKey (f run) = startKey run := by
    intro run
    have hrun := hf run
    simp only [Prod.mk.injEq] at hrun
    simp only [RunsOf, startKey, hrun, and_self]
  have hback : ∀ {k e}, (s.setRun q f).runs.get? k = some e → ∃ old, s.runs.get? k = some old ∧
      (RunsOf t e ↔ RunsOf t old) ∧ startKey e = startKey old := by
    intro k e he
    rcases KernelState.get?_setRun_some he with ⟨-, old, hold, rfl⟩ | he
    · exact ⟨old, hold, hsame old⟩
    · exact ⟨e, he, Iff.rfl, rfl⟩
  obtain ⟨run, hget, hp, hlead⟩ := h
  have hstored : ∃ e, (s.setRun q f).runs.get? r = some e := by
    rw [KernelState.get?_setRun]
    split
    next he => exact ⟨f run, by rw [← he, hget, Option.map_some]⟩
    · exact ⟨run, hget⟩
  obtain ⟨e, he⟩ := hstored
  obtain ⟨old, hold, hrunsOf, hkey⟩ := hback he
  rw [hget] at hold
  cases hold
  refine ⟨e, he, hrunsOf.mpr hp, fun r' run' hr' hp' hne => ?_⟩
  obtain ⟨old', hold', hrunsOf', hkey'⟩ := hback hr'
  rw [hkey, hkey']
  exact hlead r' old' hold' (hrunsOf'.mp hp') hne

theorem KernelState.Foremost.pushRunEvent (w : World) (h : s.Foremost t r) (q : RunId)
    (kind source message : String) :
    (Relux.pushRunEvent w s q kind source message).Foremost t r :=
  h.setRun q _ (by exact fun _ => rfl)

theorem KernelState.Foremost.stampRedirect (w : World) (h : s.Foremost t r)
    (effective : EffectiveRunAdapter) : (Relux.stampRedirect w s t effective).Foremost t r := by
  unfold Relux.stampRedirect
  split
  · exact h
  · split
    · exact h
    next q _ => exact (h.setRun q _ (by exact fun _ => rfl)).pushRunEvent w q _ _ _

theorem dispatchAssigned_foremost (w : World) (hk : s.Keyed) (h : s.Foremost t r)
    (agentId : AgentId) : Writes w (· = r) s (dispatchAssigned w s agentId t).2 := by
  have hmine : ∀ q, activeRun s t = some q → q = r := by
    intro q hq
    rw [h.activeRun hk] at hq
    exact (Option.some.inj hq).symm
  have hstamp := stampRedirect_acts w s t (effectiveRunAdapter w s agentId t) hmine
  obtain ⟨_, hacts, -⟩ := dispatchAssigned_acts w s agentId t hmine fun q hq => by
    rw [(h.stampRedirect w _).activeRun (hstamp.keyed hk)] at hq
    exact (Option.some.inj hq).symm
  exact hacts.writes

/-- No run of the task that is running has started as late in its day as one started now. -/
def KernelState.DayClear (s : KernelState) (t : TaskId) : Prop :=
  ∀ r run, s.runs.get? r = some run → RunsOf t run →
    ∀ start, run.startedAt = some start → start < s.stamp

theorem startRun_stored (w : World) (hstart : startable s t = true) :
    ∃ run, (startRun w s t).2.runs.get? s.board.freshRun = some run ∧ RunsOf t run ∧
      run.startedAt = some s.stamp := by
  have hresult := startRun_result w s t
  rw [if_pos hstart] at hresult
  unfold startRun at hresult ⊢
  split
  next h => simp [h] at hresult
  next task htask =>
    simp only [htask] at hresult
    split
    next h => simp [h] at hresult
    next agentId hagent =>
      simp only [hagent] at hresult
      split
      next h => simp [h] at hresult
      next agent hget =>
        simp only [hget] at hresult
        split
        next p hp => simp [hp] at hresult
        next hp =>
          dsimp only
          simp only [recordAudit, pushRunEvent, KernelState.setTask, KernelState.tick,
            HashMap.get?_modify, HashMap.get?_insert, Board.freshRun, KernelState.board, if_true,
            Option.map_some, Option.some.injEq, exists_eq_left', RunsOf, and_self]

theorem startRun_foremost (w : World) (hstart : startable s t = true) (hday : s.DayClear t) :
    (startRun w s t).2.Foremost t s.board.freshRun := by
  obtain ⟨run, hget, hp, hstamp⟩ := startRun_stored w hstart
  obtain ⟨s₁, hs₁, -, hwrites⟩ := startRun_of_startable w hstart
  refine ⟨run, hget, hp, fun r' run' hr' hp' hne => ?_⟩
  have hsame := congrArg RunDossier.record (hwrites.dossier hne)
  simp only [KernelState.dossier] at hsame
  rw [hs₁] at hr'
  rw [hsame] at hr'
  have hkey : startKey run = s.stamp + 1 := by rw [startKey, hstamp]
  rw [hkey, startKey]
  cases hs : run'.startedAt with
  | none => exact Nat.succ_pos _
  | some start => exact Nat.succ_lt_succ (hday r' run' hr' hp' start hs)

inductive Relaunch where
  | retry (runId : RunId)
  | resume (runId : RunId)

namespace Relaunch

def exec (w : World) (s : KernelState) : Relaunch → Outcome RunId
  | retry r => retryRun w s r
  | resume r => resumeRun w s r

def target (s : KernelState) : Relaunch → Option TaskId
  | retry r => retryTarget s r
  | resume r => (resumeTarget s r).map Prod.fst

/-- For a retry, which takes the greatest id for that of its new run: no stored run sorts after
the one retried, and after the new one if there is one. -/
def Sorted (s : KernelState) (new : Option RunId) : Relaunch → Prop
  | retry r => ∀ q run, s.runs.get? q = some run → q ≤ r ∨ ∃ n ∈ new, q ≤ n
  | resume _ => True

/-- If the task can start, its runs that are running have all started earlier in their day. -/
def Daylight (s : KernelState) (call : Relaunch) : Prop :=
  ∀ t, call.target s = some t → startable s t = true → s.tick.DayClear t

def Ordered (s : KernelState) (call : Relaunch) : Prop :=
  ∀ t, call.target s = some t → (startable s t = false → s.board.task t = some .queued) ∧
    call.Sorted s (if startable s t then some s.board.freshRun else none)

/-- A call writes no run but the one it starts, under an id that is free, and leaves the status
of every task alone where it fails and starts none. -/
structure Isolated (w : World) (s : KernelState) (call : Relaunch) : Prop where
  free : s.runs.get? s.board.freshRun = none
  others : ∀ r, r ≠ s.board.freshRun → (call.exec w s).2.dossier r = s.dossier r
  status : ∀ e, (call.exec w s).1 = .error e → (call.exec w s).2.nextRun = s.nextRun →
    ∀ t, (call.exec w s).2.board.task t = s.board.task t

inductive Attempted (w : World) (s : KernelState) (t : TaskId) : Outcome RunId → Prop where
  | started {result : Except KernelError RunId} {s' : KernelState}
    (hstart : startable s t = true) (hwrites : Writes w (· = s.board.freshRun) s s')
    (hkeyed : s'.Keyed) (hnext : s.nextRun < s'.nextRun)
    (hstored : ∃ run, s'.runs.get? s.board.freshRun = some run) : Attempted w s t (result, s')
  | refused {e : KernelError} {s' : KernelState} (hno : startable s t = false)
    (hwrites : Writes w (fun _ => False) s s') (hkeyed : s'.Keyed)
    (htrace : Trace s s' [.task t .queued]) : Attempted w s t (.error e, s')

end Relaunch

open Relaunch (Attempted Daylight Isolated Ordered)

theorem replanRetry_cases (w : World) (s : KernelState) (new : RunId) :
    replanRetry w s new = s ∨
      ∃ plan, replanRetry w s new = s.setRun new (fun r => { r with retry := plan }) := by
  unfold replanRetry
  split
  · exact .inl rfl
  · split
    · exact .inl rfl
    · split
      · exact .inr ⟨_, rfl⟩
      · exact .inl rfl

variable {q : RunId} {new : RunId}

theorem linkRetry_dossier (w : World) (s : KernelState) (r : RunId) (ok : Bool)
    (hq : q ≠ new) : (linkRetry w s new r ok).dossier q = s.dossier q := by
  have hreplan : ∀ s : KernelState, (replanRetry w s new).dossier q = s.dossier q := by
    intro s
    rcases replanRetry_cases w s new with h | ⟨plan, h⟩
    · rw [h]
    · rw [h, s.dossier_setRun _ hq]
  calc (linkRetry w s new r ok).dossier q
      = (pushRunEvent w (replanRetry w (s.setRun new (fun e => { e with retriedFrom := some r }))
          new) new "run_retried_from" "kernel" ("retry of failed run " ++ r)).dossier q := rfl
    _ = s.dossier q := by
      rw [dossier_pushRunEvent w _ _ _ _ hq, hreplan, s.dossier_setRun _ hq]

theorem linkRetry_linked (w : World) (h : s.Linked) (hold : Older r new)
    (ok : Bool) : (linkRetry w s new r ok).Linked := by
  have hlinked : (s.setRun new (fun e => { e with retriedFrom := some r })).Linked := by
    refine h.setRun new _ fun run q _ hq => ?_
    rcases hq with hq | hq
    · cases hq
      exact .inr hold
    · exact .inl (.inr hq)
  have hreplan : ∀ s : KernelState, s.Linked → (replanRetry w s new).Linked := by
    intro s h
    rcases replanRetry_cases w s new with he | ⟨plan, he⟩
    · rwa [he]
    · rw [he]
      exact h.setRun new _ fun _ _ _ hq => .inl hq
  exact (hreplan _ hlinked).setRun new _ fun _ _ _ hq => .inl hq

theorem newestRunId_spec (hk : s.Keyed) (h : newestRunId s = some q) :
    (∃ run, s.runs.get? q = some run) ∧ ∀ r run, s.runs.get? r = some run → r ≤ q := by
  obtain ⟨hmem, hmax⟩ := (foldl_newest_iff _ q).mp h
  refine ⟨?_, fun r run hr => ?_⟩
  · obtain ⟨run, hrun, rfl⟩ := List.mem_map.mp hmem
    obtain ⟨k, hget⟩ := HashMap.mem_values.mp hrun
    exact ⟨run, (hk.run k run hget).symm ▸ hget⟩
  · exact hmax r (List.mem_map.mpr ⟨run, HashMap.mem_values.mpr ⟨r, hr⟩, hk.run r run hr⟩)

theorem newestRunId_some {run : Run} (hrun : s.runs.get? r = some run) :
    ∃ q, newestRunId s = some q := by
  have hfrom : ∀ (f : Option RunId → RunId → Option RunId), (∀ b x, ∃ c, f (some b) x = some c) →
      ∀ (ids : List RunId) (b : RunId), ∃ q, ids.foldl f (some b) = some q := by
    intro f hf ids
    induction ids with
    | nil => exact fun b => ⟨b, rfl⟩
    | cons x ids ih =>
      intro b
      obtain ⟨c, hc⟩ := hf b x
      rw [List.foldl_cons, hc]
      exact ih c
  have hmem : run ∈ s.runs.values := HashMap.mem_values.mpr ⟨r, hrun⟩
  unfold newestRunId
  cases hvalues : s.runs.values with
  | nil =>
    rw [hvalues] at hmem
    cases hmem
  | cons first rest =>
    refine hfrom _ (fun b x => ?_) (rest.map (·.id)) first.id
    dsimp only
    split <;> exact ⟨_, rfl⟩

theorem KernelState.get?_of_dossier {s' : KernelState} (h : s'.dossier r = s.dossier r) :
    s'.runs.get? r = s.runs.get? r := congrArg RunDossier.record h

theorem linkNewest_kept_iff (w : World) (result : Outcome RunId) (new : RunId) :
    (∀ q, q ≠ new → (linkNewest w r result).2.dossier q = result.2.dossier q) ↔
      ∀ q, newestRunId result.2 = some q → q = r ∨ q = new := by
  unfold linkNewest
  constructor
  · intro hkept q hq
    by_contra hnot
    rw [not_or] at hnot
    have hfound : (newestRunId result.2).filter (· != r) = some q := by
      rw [hq]
      simp [hnot.1]
    have hsame := congrArg (fun d => d.transcript.length) (hkept q hnot.2)
    simp only [hfound] at hsame
    have hevents : ∀ s : KernelState, (replanRetry w s q).runEvents = s.runEvents := by
      intro s
      rcases replanRetry_cases w s q with h | ⟨plan, h⟩ <;> rw [h]
      rfl
    simp only [KernelState.dossier, linkRetry, recordAudit, pushRunEvent, hevents,
      KernelState.setRun, List.filter_append, List.length_append, List.filter_cons,
      beq_self_eq_true, if_true, List.length_cons] at hsame
    omega
  · intro hnewest q hq
    split
    · rfl
    next found hfound =>
      obtain ⟨hsome, hother⟩ := Option.filter_eq_some_iff.mp hfound
      rw [bne_iff_ne] at hother
      rcases hnewest found hsome with he | he
      · exact absurd he hother
      · exact linkRetry_dossier w result.2 r _ (he ▸ hq)

theorem linkNewest_board (w : World) (result : Outcome RunId) :
    (linkNewest w r result).1 = result.1 ∧ (linkNewest w r result).2.board = result.2.board := by
  unfold linkNewest
  split
  · exact ⟨rfl, rfl⟩
  · exact ⟨rfl, (linkRetry_trace w _ _ _ _).board⟩

namespace Relaunch.Attempted

variable {w : World} {result : Outcome RunId}

theorem dossier (h : Attempted w s t result) (hq : q ≠ s.board.freshRun) :
    result.2.dossier q = s.dossier q := by
  cases h with
  | started _ hwrites _ _ _ => exact hwrites.dossier hq
  | refused _ hwrites _ _ => exact hwrites.dossier id

theorem works (h : Attempted w s t result) : Works s result.2 := by
  cases h with
  | started _ hwrites _ _ _ => exact hwrites.works
  | refused _ hwrites _ _ => exact hwrites.works

theorem status_iff (h : Attempted w s t result) {status : TaskStatus}
    (htask : s.board.task t = some status) :
    (∀ e, result.1 = .error e → result.2.nextRun = s.nextRun →
      ∀ t', result.2.board.task t' = s.board.task t') ↔
      (startable s t = false → s.board.task t = some .queued) := by
  cases h with
  | started hstart _ _ hnext _ =>
    rw [hstart]
    exact ⟨fun _ hno => (by cases hno), fun _ _ _ hsame => absurd hsame hnext.ne'⟩
  | @refused e s' hno hwrites _ htrace =>
    have hmoved : ∀ t', s'.board.task t' =
        if t' = t then some .queued else s.board.task t' := by
      intro t'
      rw [htrace.board]
      change (s.board.setTask t .queued).task t' = _
      rw [Board.setTask_task, htask, Option.map_some]
    have hcount : s'.nextRun = s.nextRun := congrArg Board.nextRun htrace.board
    constructor
    · intro hkept _
      rw [← hkept e rfl hcount t, hmoved, if_pos rfl]
    · intro hqueued _ _ _ t'
      rw [hmoved]
      split
      next he => rw [he, hqueued hno]
      · rfl

theorem newest_iff (h : Attempted w s t result) (hfree : s.runs.get? s.board.freshRun = none)
    {run : Run} (hrun : s.runs.get? r = some run) :
    (∀ q, newestRunId result.2 = some q → q = r ∨ q = s.board.freshRun) ↔
      (Relaunch.retry r).Sorted s (if startable s t then some s.board.freshRun else none) := by
  have hold : ∀ {q}, q ≠ s.board.freshRun → result.2.runs.get? q = s.runs.get? q :=
    fun hq => KernelState.get?_of_dossier (h.dossier hq)
  have hne : ∀ {q e}, s.runs.get? q = some e → q ≠ s.board.freshRun := by
    rintro q e he rfl
    rw [hfree] at he
    cases he
  have hkeyed : result.2.Keyed := by
    cases h with
    | started _ _ hkeyed _ _ => exact hkeyed
    | refused _ _ hkeyed _ => exact hkeyed
  have hstored : ∀ {e}, result.2.runs.get? s.board.freshRun = some e → startable s t = true := by
    intro e he
    cases h with
    | started hstart _ _ _ _ => exact hstart
    | refused _ hwrites _ _ =>
      rw [KernelState.get?_of_dossier (hwrites.dossier id), hfree] at he
      cases he
  have hr := (hold (hne hrun)).trans hrun
  constructor
  · intro hnewest q e he
    obtain ⟨x, hx⟩ := newestRunId_some hr
    obtain ⟨⟨e', hx'⟩, hmax⟩ := newestRunId_spec hkeyed hx
    have hle := hmax q e ((hold (hne he)).trans he)
    rcases hnewest x hx with rfl | rfl
    · exact .inl hle
    · rw [if_pos (hstored hx')]
      exact .inr ⟨_, rfl, hle⟩
  · intro hsorted x hx
    obtain ⟨⟨e, he⟩, hmax⟩ := newestRunId_spec hkeyed hx
    by_cases hfresh : x = s.board.freshRun
    · exact .inr hfresh
    · rw [hold hfresh] at he
      rcases hsorted x e he with hle | ⟨n, hn, hle⟩
      · exact .inl (le_antisymm hle (hmax r run hr))
      · cases h with
        | started hstart _ _ _ hnew =>
          rw [if_pos hstart] at hn
          cases hn
          obtain ⟨e', he'⟩ := hnew
          exact .inr (le_antisymm hle (hmax _ e' he'))
        | refused hno _ _ _ =>
          rw [hno, if_neg Bool.false_ne_true] at hn
          cases hn

end Relaunch.Attempted

theorem retryRun_attempted (w : World) (h : s.Chronicled) (htarget : retryTarget s r = some t)
    (hday : startable s t = true → s.tick.DayClear t) :
    ∃ result, Attempted w s t result ∧ retryRun w s r = linkNewest w r result := by
  refine ⟨_, ?_, retryRun_accepted w htarget⟩
  rcases requeued_executed w htarget with
    ⟨hstart, agentId, s₁, hs₁, hready, hexec⟩ | ⟨hno, e, s₁, hexec, hmoved, -⟩
  · have hstart' : startable (requeue s t) t = true := (requeue_startable s t t).trans hstart
    have hforemost := startRun_foremost w hstart' (hday hstart)
    rw [hs₁] at hforemost
    have hdispatch := dispatchAssigned_foremost w (hready.keyed h.keyed) hforemost agentId
    obtain ⟨moves, htrace₂, -⟩ := dispatchAssigned_trace w s₁ (hready.keyed h.keyed) agentId t
    obtain ⟨first, hget, hp, -⟩ := hforemost
    have hfirst : s₁.taskOf s.board.freshRun = some t := by
      have hsame : s₁.runs.get? s.board.freshRun = some first := hget
      rw [KernelState.taskOf, hsame, Option.map_some, hp.1]
    obtain ⟨run, hstored, -⟩ := Option.map_eq_some_iff.mp
      (hdispatch.works.taskOf (hready.writes.works.minted h.timed.minted) _ t hfirst)
    have hone : s₁.nextRun = s.nextRun + 1 := congrArg Board.nextRun hready.board
    have hle := hdispatch.nextRun_le
    rw [hone] at hle
    rw [hexec]
    exact .started hstart (hready.writes.trans hdispatch) (htrace₂.keyed (hready.keyed h.keyed))
      hle ⟨run, hstored⟩
  · rw [hexec]
    exact .refused hno hmoved.writes (hmoved.keyed h.keyed) hmoved.toTrace

theorem resumeRun_attempted (w : World) (h : s.Chronicled)
    {target : TaskId × RunSession × PluginId} (htarget : resumeTarget s r = some target)
    (hday : startable s target.1 = true → s.tick.DayClear target.1) :
    Attempted w s target.1 (resumeRun w s r) := by
  cases hstart : startable s target.1 with
  | true =>
    have hstart' : startable (requeue s target.1) target.1 = true :=
      (requeue_startable s target.1 target.1).trans hstart
    have hmine : ∀ s₁,
        startRun w (requeue s target.1) target.1 = (.ok s.board.freshRun, s₁) → ∀ q,
          activeRun (noteResume w s₁ r target.2.1 s.board.freshRun) target.1 = some q →
            q = s.board.freshRun := by
      intro s₁ hs₁ q hq
      obtain ⟨s₁', hs₁', hacts⟩ := startRun_of_startable w hstart'
      have hforemost := startRun_foremost w hstart' (hday hstart)
      rw [hs₁'] at hs₁ hforemost
      cases hs₁
      have hkeyed := ((requeue_trace s target.1).trans hacts.toTrace).keyed h.keyed
      have hnote : Trace s₁ (noteResume w s₁ r target.2.1 s.board.freshRun) [] :=
        (noteRun_trace s₁ _ _ (by exact fun _ => ⟨rfl, rfl, rfl⟩)).andThen
          (pushRunEvent_trace w _ _ _ _ _)
      have hnoted : (noteResume w s₁ r target.2.1 s.board.freshRun).Foremost target.1
          s.board.freshRun :=
        (hforemost.setRun _ _ (by exact fun _ => rfl)).pushRunEvent w _ _ _ _
      rw [hnoted.activeRun (hnote.keyed hkeyed)] at hq
      exact (Option.some.inj hq).symm
    obtain ⟨hwrites, hnext, htask⟩ :=
      @resumeRun_writes _ w _ (· = s.board.freshRun) _ h.timed.minted htarget hstart rfl hmine
    obtain ⟨moves, htrace, -⟩ := resumeRun_trace w s h.keyed r
    obtain ⟨run, hstored, -⟩ := Option.map_eq_some_iff.mp htask
    exact .started hstart hwrites (htrace.keyed h.keyed) hnext ⟨run, hstored⟩
  | false =>
    obtain ⟨e, s', heq, hmoved⟩ := resumeRun_refused w htarget hstart
    rw [heq]
    exact .refused hstart hmoved.writes (hmoved.keyed h.keyed) hmoved.toTrace

namespace Relaunch

variable {w : World} {call : Relaunch}

theorem exec_refused (w : World) (h : call.target s = none) :
    ∃ e, call.exec w s = (.error e, s) := by
  cases call with
  | retry r =>
    obtain ⟨e, he⟩ := @retryRun_refused s r h
    exact ⟨e, he w⟩
  | resume r =>
    rcases resumeRun_eq s r with ⟨e, -, heq⟩ | ⟨target, run, htarget, -⟩
    · exact ⟨e, heq w⟩
    · rw [Relaunch.target, htarget] at h
      cases h

theorem exec_attempted (w : World) (h : s.Chronicled) (hday : call.Daylight s)
    (htarget : call.target s = some t) : (∃ status, s.board.task t = some status) ∧
    ∃ result, Attempted w s t result ∧ (call.exec w s).1 = result.1 ∧
      (call.exec w s).2.board = result.2.board ∧
      ((∀ q, q ≠ s.board.freshRun → (call.exec w s).2.dossier q = result.2.dossier q) ↔
        call.Sorted s (if startable s t then some s.board.freshRun else none)) := by
  cases call with
  | retry r =>
    obtain ⟨result, hattempted, heq⟩ := retryRun_attempted w h htarget (hday t htarget)
    obtain ⟨task, -, htask, -⟩ := retryTarget_assigned htarget
    obtain ⟨run, hrun, -⟩ := Option.map_eq_some_iff.mp (retryTarget_iff.mp htarget).1
    refine ⟨⟨task.status, by simp only [KernelState.board, htask, Option.map_some]⟩, result,
      hattempted, ?_⟩
    rw [exec, heq]
    refine ⟨(linkNewest_board w result).1, (linkNewest_board w result).2, ?_⟩
    rw [linkNewest_kept_iff, hattempted.newest_iff h.timed.minted.get?_fresh hrun]
  | resume r =>
    rcases resumeRun_eq s r with ⟨e, hnone, -⟩ | ⟨target, run, hsome, -, ⟨task, htask⟩, -⟩
    · rw [Relaunch.target, hnone] at htarget
      cases htarget
    · have htarget' := htarget
      rw [Relaunch.target, hsome, Option.map_some] at htarget'
      cases htarget'
      exact ⟨⟨task.status, by simp only [KernelState.board, htask, Option.map_some]⟩, _,
        resumeRun_attempted w h hsome (hday _ htarget), rfl, rfl,
        ⟨fun _ => trivial, fun _ _ _ => rfl⟩⟩

theorem isolated_iff (w : World) (h : s.Chronicled) (hday : call.Daylight s) :
    call.Isolated w s ↔ call.Ordered s := by
  have hfree := h.timed.minted.get?_fresh
  cases htarget : call.target s with
  | none =>
    obtain ⟨e, he⟩ := exec_refused w htarget
    refine iff_of_true ⟨hfree, fun _ _ => ?_, fun _ _ _ _ => ?_⟩ fun t ht => ?_
    · rw [he]
    · rw [he]
    · rw [htarget] at ht
      cases ht
  | some t =>
    obtain ⟨⟨status, hstatus⟩, result, hattempted, herror, hboard, hkept⟩ :=
      exec_attempted w h hday htarget
    have hcount : (call.exec w s).2.nextRun = result.2.nextRun := congrArg Board.nextRun hboard
    have hothers : (∀ q, q ≠ s.board.freshRun → (call.exec w s).2.dossier q = s.dossier q) ↔
        call.Sorted s (if startable s t then some s.board.freshRun else none) := by
      rw [← hkept]
      exact forall₂_congr fun q hq => by rw [hattempted.dossier hq]
    have hquiet := hattempted.status_iff hstatus
    rw [← herror, ← hcount, ← hboard] at hquiet
    constructor
    · intro hi t' ht'
      rw [htarget] at ht'
      cases ht'
      exact ⟨hquiet.mp hi.status, hothers.mp hi.others⟩
    · intro hord
      exact ⟨hfree, hothers.mpr (hord t htarget).2, hquiet.mpr (hord t htarget).1⟩

theorem linked (w : World) (h : s.Chronicled) (hl : s.Linked) (hday : call.Daylight s)
    (hord : call.Ordered s) : (call.exec w s).2.Linked := by
  cases call with
  | resume r => exact (resumeRun_works w s h.timed.minted r).linked h.timed hl
  | retry r =>
    cases htarget : retryTarget s r with
    | none =>
      obtain ⟨e, he⟩ := retryRun_refused htarget
      rw [exec, he]
      exact hl
    | some t =>
      obtain ⟨result, hattempted, heq⟩ := retryRun_attempted w h htarget (hday t htarget)
      obtain ⟨run, hrun, -⟩ := Option.map_eq_some_iff.mp (retryTarget_iff.mp htarget).1
      have hlinked := hattempted.works.linked h.timed hl
      have hnewest := (hattempted.newest_iff h.timed.minted.get?_fresh hrun).mpr
        (hord t htarget).2
      rw [exec, heq, linkNewest]
      split
      · exact hlinked
      next new hnew =>
        obtain ⟨hsome, hother⟩ := Option.filter_eq_some_iff.mp hnew
        rw [bne_iff_ne] at hother
        obtain ⟨start, -, -, hstamp⟩ := h.timed
        obtain ⟨-, n, hn, -, hle, -⟩ := hstamp r run hrun
        have hfresh := (hnewest new hsome).resolve_left hother
        exact linkRetry_linked w hlinked
          ⟨n, s.nextRun + 1, hn, hfresh, Nat.lt_succ_of_le hle⟩ _

end Relaunch

/-- The calls an activity makes, each with the state it is made in: those of an operator, and
those of a tick, one after the other. -/
def Activity.relaunches (w : World) (p : ControlPlane) : Activity → List (KernelState × Relaunch)
  | .operation (.run (.retryRun r)) => [(p.kernel, .retry r)]
  | .operation (.run (.resumeRun r)) => [(p.kernel, .resume r)]
  | .operation (.background .oneAutonomyTick) =>
    (tickCalls w p.kernel).map (fun c => (c.1, .retry c.2))
  | _ => []

def Activity.Clear (w : World) (p : ControlPlane) (activity : Activity) : Prop :=
  ∀ c ∈ activity.relaunches w p, c.2.Daylight c.1 ∧ c.2.Ordered c.1

def planeAfter (activities : List (World × Activity)) : ControlPlane :=
  Transition.run (fun p e => e.2.exec e.1 p) (ControlPlane.of KernelState.new) activities

theorem retryCalls_chronicled (w : World) (h : s.Chronicled) (runIds : List RunId) :
    ∀ c ∈ retryCalls w s runIds, c.1.Chronicled := by
  induction runIds generalizing s with
  | nil => exact fun _ hc => by cases hc
  | cons r rest ih =>
    have hone := retries_chronicled w h [r]
    simp only [retryCalls, List.forall_mem_cons]
    exact ⟨h, ih hone⟩

theorem Activity.relaunches_chronicled (w : World) (p : ControlPlane) (activity : Activity)
    (h : p.kernel.Chronicled) : ∀ c ∈ activity.relaunches w p, c.1.Chronicled := by
  intro c hc
  unfold Activity.relaunches at hc
  split at hc
  · rw [List.mem_singleton.mp hc]
    exact h
  · rw [List.mem_singleton.mp hc]
    exact h
  · obtain ⟨call, hcall, rfl⟩ := List.mem_map.mp hc
    unfold tickCalls at hcall
    split at hcall
    · cases hcall
    · split at hcall
      · cases hcall
      · exact retryCalls_chronicled w (h.continue (tick_continues p.kernel)) _ call hcall
  · cases hc

theorem retries_linked (w : World) (h : s.Chronicled) (hl : s.Linked) (runIds : List RunId)
    (hclear : ∀ c ∈ retryCalls w s runIds,
      (Relaunch.retry c.2).Daylight c.1 ∧ (Relaunch.retry c.2).Ordered c.1) :
    (runIds.foldl (afterRetry w) s).Linked := by
  induction runIds generalizing s with
  | nil => exact hl
  | cons r rest ih =>
    simp only [retryCalls, List.forall_mem_cons] at hclear
    have hone := retries_chronicled w h [r]
    have hlinked : (afterRetry w s r).Linked := by
      obtain ⟨action, target, id, result, hafter⟩ := DuringRetries.afterRetry_audit w s r
      rw [hafter]
      exact Relaunch.linked w h hl hclear.1.1 hclear.1.2
    exact ih hone hlinked hclear.2

theorem oneAutonomyTick_linked (w : World) (h : s.Chronicled) (hl : s.Linked)
    (hclear : ∀ c ∈ tickCalls w s,
      (Relaunch.retry c.2).Daylight c.1 ∧ (Relaunch.retry c.2).Ordered c.1) :
    (oneAutonomyTick w s).Linked := by
  unfold tickCalls at hclear
  unfold oneAutonomyTick
  dsimp only
  split
  · exact hl
  next henabled =>
    rw [if_neg henabled] at hclear
    split
    · exact hl
    next hprime =>
      have hsome : ¬ (s.agents.get? "prime").isNone = true := hprime
      rw [if_neg hsome] at hclear
      have htick := h.continue (tick_continues s)
      have hretried := retries_chronicled w htick (tickRetries w s.tick)
      have hlinked := retries_linked w htick hl _ hclear
      exact (secondPass_upholds w s.tick hretried.keyed).2.linked hretried.timed hlinked

theorem Activity.exec_linked (w : World) (p : ControlPlane) (activity : Activity)
    (h : p.kernel.Chronicled) (hl : p.kernel.Linked) (hclear : activity.Clear w p) :
    (activity.exec w p).kernel.Linked := by
  cases activity with
  | operation op =>
    cases hretries : op.retries with
    | false => exact (op.exec_upholds w p h.timed.minted hretries).linked h.timed hl
    | true =>
      cases op with
      | run op =>
        cases op with
        | retryRun r =>
          obtain ⟨hday, hord⟩ := hclear (_, .retry r) List.mem_cons_self
          exact Relaunch.linked w h hl hday hord
        | _ => cases hretries
      | background op =>
        cases op with
        | oneAutonomyTick =>
          refine oneAutonomyTick_linked w h hl fun c hc => ?_
          exact hclear (c.1, .retry c.2) (List.mem_map.mpr ⟨c, hc, rfl⟩)
        | _ => cases hretries
      | _ => cases hretries
  | prepare id roundNo brief prep result =>
    exact (prepareBrief_continues w p.kernel id roundNo brief prep result).linked h.timed hl
  | finalize id brief outcome result =>
    exact (finalizePreparedBrief_continues w p.kernel id brief outcome result).linked h.timed hl

theorem Older.trans {a b c : RunId} (h : Older a b) (h' : Older b c) : Older a c := by
  obtain ⟨m, n, rfl, rfl, hmn⟩ := h
  obtain ⟨n', k, hn, rfl, hnk⟩ := h'
  obtain rfl := runIdOf_inj hn
  exact ⟨m, k, rfl, rfl, hmn.trans hnk⟩

theorem Older.irrefl (a : RunId) : ¬ Older a a := by
  rintro ⟨m, n, rfl, hn, hmn⟩
  obtain rfl := runIdOf_inj hn
  exact lt_irrefl m hmn

def KernelState.Link (s : KernelState) (r q : RunId) : Prop :=
  ∃ run, s.runs.get? r = some run ∧ run.LinksTo q

theorem KernelState.Linked.acyclic (h : s.Linked) (r : RunId) :
    ¬ Relation.TransGen s.Link r r := by
  have hold : ∀ {a b}, Relation.TransGen s.Link a b → Older b a := by
    intro a b hab
    induction hab with
    | single hlink =>
      obtain ⟨run, hget, hq⟩ := hlink
      exact h _ run hget _ hq
    | tail _ hlink ih =>
      obtain ⟨run, hget, hq⟩ := hlink
      exact (h _ run hget _ hq).trans ih
  exact fun hcycle => Older.irrefl r (hold hcycle)

theorem planeAfter_chronicled (activities : List (World × Activity)) :
    (planeAfter activities).kernel.Chronicled := afterActivities_chronicled activities

/-- Whatever the kernel has done, a call whose task has no running run that started as late in its
day writes no run but its own, and leaves the tasks as they are where it starts none, exactly where
the ids are in order. Where all calls are so, retries and resumes are of older runs, without a
cycle. -/
theorem relaunches_isolated (activities : List (World × Activity)) :
    (∀ (w : World) (activity : Activity),
      ∀ c ∈ activity.relaunches w (planeAfter activities), c.2.Daylight c.1 →
        (c.2.Isolated w c.1 ↔ c.2.Ordered c.1)) ∧
    (Guarded (fun p e => e.2.exec e.1 p) (fun p e => e.2.Clear e.1 p)
        (ControlPlane.of KernelState.new) activities →
      (∀ r q, (planeAfter activities).kernel.Link r q → Older q r) ∧
        ∀ r, ¬ Relation.TransGen (planeAfter activities).kernel.Link r r) := by
  have hchronicled := planeAfter_chronicled activities
  refine ⟨fun w activity c hc hday => ?_, fun hguarded => ?_⟩
  · exact Relaunch.isolated_iff w (activity.relaunches_chronicled w _ hchronicled c hc) hday
  · have hstep : ∀ (p : ControlPlane) (e : World × Activity),
        p.kernel.Chronicled ∧ p.kernel.Linked → e.2.Clear e.1 p →
          (e.2.exec e.1 p).kernel.Chronicled ∧ (e.2.exec e.1 p).kernel.Linked :=
      fun p e hp hclear =>
        ⟨e.2.exec_chronicled e.1 p hp.1, e.2.exec_linked e.1 p hp.1 hp.2 hclear⟩
    have hnew : KernelState.new.Linked := fun r run hr => by simp [KernelState.new] at hr
    have hlinked := (Transition.invariant_run hstep
      ⟨planeAfter_chronicled [], hnew⟩ hguarded).2
    refine ⟨?_, hlinked.acyclic⟩
    rintro r q ⟨run, hget, hq⟩
    exact hlinked r run hget q hq

def tidyOps : List KernelOp :=
  [ .config (.registerPlugin ⟨localPrimeAdapterId, "Local Prime", "1.0.0", .adapter, "", "",
      .official, [], [], .healthy⟩),
    .config (.createAgent "coder" "Coder" localPrimeAdapterId none [⟨"task:tidy"⟩]),
    .run (.createTask "tidy up" .null "founder" [⟨"task:tidy"⟩]),
    .run (.assignTask "task_0001" "coder"),
    .run (.startRun "task_0001"),
    .run (.failRun "run_0001" "out of time"),
    .run (.failTask "task_0001") ]

def tidied (later : List KernelOp) : List (World × Activity) :=
  (tidyOps ++ later).map (fun op => (.silent, .operation op))

theorem tidied_clear : (Relaunch.retry "run_0001").Daylight (planeAfter (tidied [])).kernel ∧
    (Relaunch.retry "run_0001").Ordered (planeAfter (tidied [])).kernel := by
  obtain ⟨htarget, hstart, hfailed, hnext⟩ :
      Relaunch.target (planeAfter (tidied [])).kernel (.retry "run_0001") = some "task_0001" ∧
        startable (planeAfter (tidied [])).kernel "task_0001" = true ∧
        ((planeAfter (tidied [])).kernel.runs.get? "run_0001").map (·.status) = some .failed ∧
        (planeAfter (tidied [])).kernel.nextRun = 1 := by
    decide +kernel
  obtain ⟨start, -, -, hstamp⟩ := (planeAfter_chronicled (tidied [])).timed
  generalize (planeAfter (tidied [])).kernel = s at *
  have honly : ∀ q run, s.runs.get? q = some run → q = "run_0001" := by
    intro q run hq
    obtain ⟨-, n, rfl, h0, hn, -⟩ := hstamp q run hq
    have hone : n = 1 := by omega
    rw [hone]
    decide
  refine ⟨fun t ht _ q run hq hp => ?_, fun t ht => ⟨fun hno => ?_, fun q run hq => ?_⟩⟩
  · have hget : s.runs.get? q = some run := hq
    rw [← honly q run hget, hget, Option.map_some, hp.2] at hfailed
    cases hfailed
  · rw [htarget] at ht
    cases ht
    rw [hstart] at hno
    cases hno
  · exact .inl (honly q run hq).le

theorem relaunches_isolated_sample :
    (Relaunch.retry "run_0001").Isolated .silent (planeAfter (tidied [])).kernel ∧
      ∀ r, ¬ Relation.TransGen
        (planeAfter (tidied [.run (.retryRun "run_0001")])).kernel.Link r r := by
  have hcall := (relaunches_isolated (tidied [])).1 .silent
    (.operation (.run (.retryRun "run_0001"))) _ List.mem_cons_self tidied_clear.1
  have hquiet : ∀ p, ∀ e ∈ tidied [], True → e.2.Clear e.1 p := by
    simp [tidied, tidyOps, Activity.Clear, Activity.relaunches]
  have hbefore : Guarded (fun p e => e.2.exec e.1 p) (fun p e => e.2.Clear e.1 p)
      (ControlPlane.of KernelState.new) (tidied []) := .imp hquiet (Transition.guarded_true _ _ _)
  have hlast : (Activity.operation (.run (.retryRun "run_0001"))).Clear .silent
      (planeAfter (tidied [])) := List.forall_mem_singleton.mpr tidied_clear
  have hsplit : tidied [.run (.retryRun "run_0001")] =
      tidied [] ++ [(World.silent, Activity.operation (.run (.retryRun "run_0001")))] := rfl
  rw [hsplit]
  exact ⟨hcall.mpr tidied_clear.2, ((relaunches_isolated _).2 (hbefore.concat hlast)).2⟩

/-- The agent loses the permission while a run of another task is running: the retry fails and
starts nothing, yet its task is queued and the other run has become a retry. -/
def swept : KernelState :=
  (planeAfter (tidied [.run (.createTask "sweep" .null "founder" []),
    .run (.assignTask "task_0002" "coder"), .run (.startRun "task_0002"),
    .config (.revokePermissionFromAgent "coder" ⟨"task:tidy"⟩)])).kernel

theorem relaunches_leak :
    let after := retryRun .silent swept "run_0001"
    (after.1.toBool = false ∧ after.2.nextRun = swept.nextRun ∧
      swept.board.task "task_0001" = some .failed ∧
      after.2.board.task "task_0001" = some .queued) ∧
    (swept.origin "run_0002" = none ∧ after.2.origin "run_0002" = some "run_0001") ∧
    ¬ (Relaunch.retry "run_0001").Isolated .silent swept := by
  obtain ⟨horigin, hne⟩ : (swept.origin "run_0002" = none ∧
      (retryRun .silent swept "run_0001").2.origin "run_0002" = some "run_0001") ∧
        "run_0002" ≠ swept.board.freshRun := by
    decide +kernel
  refine ⟨by decide +kernel, horigin, fun h => ?_⟩
  have hsame := KernelState.get?_of_dossier (h.others "run_0002" hne)
  have hkept : (retryRun .silent swept "run_0001").2.origin "run_0002" =
      swept.origin "run_0002" := congrArg (fun e => e.bind (·.retriedFrom)) hsame
  cases hkept

end Relux
