import Relux.BoardTrace

/-! What the run lifecycle writes. An execution is a sequence of writes, each in a task, in a
run it may write or beside both. It leaves alone what a start reads of the task, keeps every
run with its task and the runs it is linked to, and plans a retry only from the schedule. -/

namespace Relux

structure TaskBrief where
  title : String
  input : Json
  assignedAgent : Option AgentId
  requiredPermissions : List Permission
  namespaceId : NamespaceId
  parentTask : Option TaskId

def Task.brief (t : Task) : TaskBrief :=
  ⟨t.title, t.input, t.assignedAgent, t.requiredPermissions, t.namespaceId, t.parentTask⟩

def Run.PlannedAt (run : Run) (attempt : Nat) : Prop :=
  run.status = .failed → ∀ st, run.retry = some st →
    ∃ cls now, run.failureClass = some cls ∧ RunRetryState.plan cls attempt now = some st

def Run.kept (run : Run) : RunId × TaskId × Option Stamp × Option RunId :=
  (run.id, run.taskId, run.startedAt, run.retriedFrom)

def Run.LinksTo (run : Run) (q : RunId) : Prop :=
  run.retriedFrom = some q ∨ run.resumedFrom = some q

def Older (q r : RunId) : Prop := ∃ m n, q = runIdOf m ∧ r = runIdOf n ∧ m < n

structure RunDossier where
  record : Option Run
  transcript : List RunEvent
  log : Option RunLog

variable {runId r : RunId} {s' : KernelState}

namespace KernelState

def brief (s : KernelState) (t : TaskId) : Option TaskBrief := (s.tasks.get? t).map Task.brief

def origin (s : KernelState) (r : RunId) : Option RunId := (s.runs.get? r).bind (·.retriedFrom)

def taskOf (s : KernelState) (r : RunId) : Option TaskId := (s.runs.get? r).map (·.taskId)

theorem taskOf_board (s : KernelState) (r : RunId) :
    s.taskOf r = (s.board.run r).map Prod.fst := by
  simp only [taskOf, board, Option.map_map, Function.comp_def]

def Planned (s : KernelState) : Prop :=
  ∀ r run, s.runs.get? r = some run → run.PlannedAt (transientAttemptFor s r)

def Linked (s : KernelState) : Prop :=
  ∀ r run, s.runs.get? r = some run → ∀ q, run.LinksTo q → Older q r

def dossier (s : KernelState) (r : RunId) : RunDossier :=
  ⟨s.runs.get? r, s.runEvents.filter (·.runId == r), s.runLogs.get? r⟩

def ledger (s : KernelState) :
    HashMap TaskId Task × HashMap RunId Run × Nat × List RunEvent × HashMap RunId RunLog :=
  (s.tasks, s.runs, s.nextRun, s.runEvents, s.runLogs)

/-- Each run is stored under its own minted id, with the stamp of the tick that started it;
a later one is of a later tick. -/
def Starts (s : KernelState) (start : Nat → Nat) : Prop :=
  (∀ m n, 0 < m → m < n → n ≤ s.nextRun → start m < start n) ∧
    (∀ n, 0 < n → n ≤ s.nextRun → start n < s.clock) ∧
    ∀ r run, s.runs.get? r = some run → run.id = r ∧
      ∃ n, r = runIdOf n ∧ 0 < n ∧ n ≤ s.nextRun ∧ run.startedAt = some (start n % 86400)

def Timed (s : KernelState) : Prop := ∃ start, s.Starts start

theorem Timed.of_get? {s : KernelState} (h : s.Timed) (hruns : ∀ r, s'.runs.get? r = s.runs.get? r)
    (hnext : s'.nextRun = s.nextRun) (hclock : s.clock ≤ s'.clock) : s'.Timed := by
  obtain ⟨start, hlater, hpast, hstamp⟩ := h
  refine ⟨start, ?_, fun n h0 hn => (hpast n h0 (hnext ▸ hn)).trans_le hclock, ?_⟩
  · rw [hnext]
    exact hlater
  · intro r run hr
    rw [hnext]
    exact hstamp r run (hruns r ▸ hr)

theorem get?_setRun (s : KernelState) (runId : RunId) (f : Run → Run) (r : RunId) :
    (s.setRun runId f).runs.get? r =
      if r = runId then (s.runs.get? runId).map f else s.runs.get? r :=
  HashMap.get?_modify s.runs runId r f

theorem get?_setRun_some {s : KernelState} {f : Run → Run} {run : Run}
    (h : (s.setRun runId f).runs.get? r = some run) :
    (r = runId ∧ ∃ old, s.runs.get? r = some old ∧ run = f old) ∨ s.runs.get? r = some run := by
  rw [get?_setRun] at h
  split at h
  next he =>
    obtain ⟨old, hold, rfl⟩ := Option.map_eq_some_iff.mp h
    exact .inl ⟨he, old, he ▸ hold, rfl⟩
  · exact .inr h

theorem Timed.minted {s : KernelState} (h : s.Timed) : s.board.Minted := by
  obtain ⟨start, -, -, hstamp⟩ := h
  intro n hn
  rw [board, Option.map_eq_none_iff, Option.eq_none_iff_forall_ne_some]
  intro run hrun
  obtain ⟨-, m, hm, -, hle, -⟩ := hstamp _ run hrun
  have he : n = m := mintedId_inj hm
  have hlt : s.nextRun < n := hn
  omega

theorem Timed.setRun {s : KernelState} (h : s.Timed) (runId : RunId) (f : Run → Run)
    (hstart : ∀ r, ((f r).id, (f r).startedAt) = (r.id, r.startedAt)) :
    (s.setRun runId f).Timed := by
  obtain ⟨start, hlater, hpast, hstamp⟩ := h
  refine ⟨start, hlater, hpast, fun r run hr => ?_⟩
  rcases get?_setRun_some hr with ⟨-, old, hold, rfl⟩ | hr
  · obtain ⟨hid, hat⟩ := Prod.ext_iff.mp (hstart old)
    dsimp only at hid hat
    rw [hid, hat]
    exact hstamp r old hold
  · exact hstamp r run hr

theorem Linked.setRun {s : KernelState} (h : s.Linked) (runId : RunId) (f : Run → Run)
    (hlinks : ∀ run q, s.runs.get? runId = some run → (f run).LinksTo q →
      run.LinksTo q ∨ Older q runId) : (s.setRun runId f).Linked := by
  intro r run hr q hq
  rcases get?_setRun_some hr with ⟨rfl, old, hold, rfl⟩ | hr
  · exact (hlinks old q hold hq).elim (h r old hold q) id
  · exact h r run hr q hq

end KernelState
theorem Board.Minted.get?_fresh {s : KernelState} (hm : s.board.Minted) :
    s.runs.get? s.board.freshRun = none := by
  have hnone := hm.fresh
  rwa [KernelState.board, Option.map_eq_none_iff] at hnone

theorem transientAttemptWalk_congr {s : KernelState} (h : s'.origin = s.origin) (fuel attempt : Nat)
    (prev : Option RunId) :
    transientAttemptWalk s' fuel attempt prev = transientAttemptWalk s fuel attempt prev := by
  induction fuel generalizing attempt prev with
  | zero => rfl
  | succ fuel ih =>
    cases prev with
    | none => rfl
    | some r =>
      have horigin : (s'.runs.get? r).bind (·.retriedFrom) =
          (s.runs.get? r).bind (·.retriedFrom) := congrFun h r
      simp only [transientAttemptWalk, horigin, ih]

theorem transientAttemptFor_congr {s : KernelState} (h : s'.origin = s.origin) (r : RunId) :
    transientAttemptFor s' r = transientAttemptFor s r := by
  have horigin : (s'.runs.get? r).bind (·.retriedFrom) =
      (s.runs.get? r).bind (·.retriedFrom) := congrFun h r
  simp only [transientAttemptFor, horigin, transientAttemptWalk_congr h]

theorem transientAttemptFor_tick (s : KernelState) (r : RunId) :
    transientAttemptFor s.tick r = transientAttemptFor s r := by
  have horigin : s.tick.origin = s.origin := rfl
  exact transientAttemptFor_congr horigin r

structure Upholds (s s' : KernelState) : Prop where
  minted : s.board.Minted → s'.board.Minted
  origin : s.board.Minted → s'.origin = s.origin
  taskOf : s.board.Minted → ∀ r t, s.taskOf r = some t → s'.taskOf r = some t
  planned : s.board.Minted → s.Planned → s'.Planned
  timed : s.Timed → s'.Timed
  linked : s.Timed → s.Linked → s'.Linked

structure Works (s s' : KernelState) : Prop extends Upholds s s' where
  brief : s'.brief = s.brief

namespace Upholds

theorem refl (s : KernelState) : Upholds s s :=
  ⟨id, fun _ => rfl, fun _ _ _ => id, fun _ => id, id, fun _ => id⟩

theorem trans {s s'' : KernelState} (h : Upholds s s') (h' : Upholds s' s'') : Upholds s s'' where
  minted := h'.minted ∘ h.minted
  origin hm := (h'.origin (h.minted hm)).trans (h.origin hm)
  taskOf hm r t ht := h'.taskOf (h.minted hm) r t (h.taskOf hm r t ht)
  planned hm hp := h'.planned (h.minted hm) (h.planned hm hp)
  timed := h'.timed ∘ h.timed
  linked ht hl := h'.linked (h.timed ht) (h.linked ht hl)

theorem of_get? {s : KernelState} (hruns : ∀ r, s'.runs.get? r = s.runs.get? r)
    (hnext : s'.nextRun = s.nextRun) (hclock : s.clock ≤ s'.clock) : Upholds s s' := by
  have horigin : s'.origin = s.origin := by
    funext r
    simp only [KernelState.origin, hruns]
  refine ⟨fun hm n hn => ?_, fun _ => horigin, fun _ r t ht => ?_, fun _ hp r run hr => ?_,
    fun ht => ht.of_get? hruns hnext hclock, fun _ hl r run hr => hl r run (hruns r ▸ hr)⟩
  · have hn' : s.board.nextRun < n := by
      simp only [KernelState.board] at hn ⊢
      omega
    have hnone := hm n hn'
    simp only [KernelState.board] at hnone ⊢
    rw [hruns, hnone]
  · simpa only [KernelState.taskOf, hruns] using ht
  · rw [transientAttemptFor_congr horigin]
    exact hp r run (hruns r ▸ hr)

theorem aside {s : KernelState} (hruns : s'.runs = s.runs) (hnext : s'.nextRun = s.nextRun)
    (hclock : s.clock ≤ s'.clock) : Upholds s s' :=
  of_get? (fun r => by rw [hruns]) hnext hclock

theorem setRun (s : KernelState) (runId : RunId) (f : Run → Run)
    (hkept : ∀ r, (f r).kept = r.kept)
    (hplan : ∀ r, r.PlannedAt (transientAttemptFor s runId) →
      (f r).PlannedAt (transientAttemptFor s runId))
    (hlinks : s.Timed → ∀ run q, s.runs.get? runId = some run → (f run).LinksTo q →
      run.LinksTo q ∨ Older q runId) : Upholds s (s.setRun runId f) := by
  simp only [Run.kept, Prod.mk.injEq] at hkept
  have hlineage : (s.setRun runId f).origin = s.origin := by
    funext r
    simp only [KernelState.origin, KernelState.get?_setRun]
    split
    next he => cases hr : s.runs.get? runId <;> simp [he, hr, hkept]
    · rfl
  refine ⟨fun hm n hn => ?_, fun _ => hlineage, fun _ r t ht => ?_, fun _ hp r run hr => ?_,
    fun ht => ht.setRun runId f (fun r => by simp only [hkept]),
    fun ht hl => hl.setRun runId f (hlinks ht)⟩
  · have hnone := hm n hn
    simp only [KernelState.board, Option.map_eq_none_iff] at hnone ⊢
    rw [KernelState.get?_setRun]
    split
    next he => rw [← he, hnone, Option.map_none]
    · exact hnone
  · simp only [KernelState.taskOf, KernelState.get?_setRun]
    split
    next he =>
      subst he
      simpa only [KernelState.taskOf, Option.map_map, Function.comp_def, hkept] using ht
    · exact ht
  · rw [transientAttemptFor_congr hlineage]
    rcases KernelState.get?_setRun_some hr with ⟨rfl, old, hold, rfl⟩ | hr
    · exact hplan old (hp r old hold)
    · exact hp r run hr

theorem insertRun (s : KernelState) (run : Run) (hid : run.id = s.board.freshRun)
    (hstart : run.startedAt = some s.stamp) (hlinks : ∀ q, ¬ run.LinksTo q)
    (hplan : run.retry = none) :
    Upholds s { s.tick with
      nextRun := s.nextRun + 1
      runs := s.runs.insert s.board.freshRun run }.tick := by
  have hget : ∀ r, (s.runs.insert s.board.freshRun run).get? r =
      if r = s.board.freshRun then some run else s.runs.get? r :=
    fun r => HashMap.get?_insert _ _ _ _
  have horigin : run.retriedFrom = none :=
    Option.eq_none_iff_forall_ne_some.mpr fun q hq => hlinks q (.inl hq)
  -- The new run retries nothing, so the lineage is the one without it.
  have hlineage : s.board.Minted → ∀ r,
      ((s.runs.insert s.board.freshRun run).get? r).bind (·.retriedFrom) = s.origin r := by
    intro hm r
    rw [hget]
    split
    next he =>
      subst he
      simp only [Option.bind_some, horigin, KernelState.origin, hm.get?_fresh, Option.bind_none]
    · rfl
  refine ⟨fun hm n hn => ?_, fun hm => funext (hlineage hm), fun hm r t ht => ?_,
    fun hm hp r run' hr => ?_, ?_, fun _ hl r run' hr q hq => ?_⟩
  · change s.nextRun + 1 < n at hn
    have hne : runIdOf n ≠ s.board.freshRun := by
      intro he
      have hn' : n = s.nextRun + 1 := mintedId_inj he
      omega
    have hnone := hm n (by simp only [KernelState.board]; omega)
    generalize runIdOf n = r at hne hnone ⊢
    change ((s.runs.insert s.board.freshRun run).get? r).map _ = none
    rw [hget, if_neg hne]
    exact hnone
  · have hne : r ≠ s.board.freshRun := by
      rintro rfl
      simp [KernelState.taskOf, hm.get?_fresh] at ht
    change ((s.runs.insert s.board.freshRun run).get? r).map _ = some t
    rw [hget, if_neg hne]
    exact ht
  · have hattempt : ∀ s' : KernelState, s'.runs = s.runs.insert s.board.freshRun run →
        transientAttemptFor s' r = transientAttemptFor s r := by
      intro s' hruns
      refine transientAttemptFor_congr (funext fun r => ?_) r
      simpa only [KernelState.origin, hruns] using hlineage hm r
    rw [hattempt _ rfl]
    change (s.runs.insert s.board.freshRun run).get? r = some run' at hr
    rw [hget] at hr
    split at hr
    · cases hr
      intro _ st hst
      rw [hplan] at hst
      cases hst
    · exact hp r run' hr
  · rintro ⟨start, hlater, hpast, hstamp⟩
    refine ⟨Function.update start (s.nextRun + 1) s.clock, fun m n h0 hmn hn => ?_,
      fun n h0 hn => ?_, fun r run' hr => ?_⟩
    · change n ≤ s.nextRun + 1 at hn
      rw [Function.update_of_ne (by omega)]
      rcases Nat.lt_or_ge s.nextRun n with hnew | hold
      · have he : n = s.nextRun + 1 := by omega
        rw [he, Function.update_self]
        exact hpast m h0 (by omega)
      · rw [Function.update_of_ne (by omega)]
        exact hlater m n h0 hmn hold
    · change n ≤ s.nextRun + 1 at hn
      change _ < s.clock + 1 + 1
      rw [Function.update_apply]
      split
      · omega
      next hne =>
        have := hpast n h0 (by omega)
        omega
    · change (s.runs.insert s.board.freshRun run).get? r = some run' at hr
      rw [hget] at hr
      split at hr
      next he =>
        cases hr
        refine ⟨hid.trans he.symm, s.nextRun + 1, he, by omega, le_refl _, ?_⟩
        rw [Function.update_self, hstart, KernelState.stamp]
      next hne =>
        obtain ⟨hkey, n, rfl, h0, hn, hs⟩ := hstamp r run' hr
        refine ⟨hkey, n, rfl, h0, Nat.le_succ_of_le hn, ?_⟩
        rw [Function.update_of_ne (by omega), hs]
  · change (s.runs.insert s.board.freshRun run).get? r = some run' at hr
    rw [hget] at hr
    split at hr
    · cases hr
      exact absurd hq (hlinks q)
    · exact hl r run' hr q hq

end Upholds

namespace Works

theorem refl (s : KernelState) : Works s s := ⟨.refl s, rfl⟩

theorem trans {s s'' : KernelState} (h : Works s s') (h' : Works s' s'') : Works s s'' :=
  ⟨h.toUpholds.trans h'.toUpholds, h'.brief.trans h.brief⟩

theorem aside {s : KernelState} (htasks : s'.tasks = s.tasks) (hruns : s'.runs = s.runs)
    (hnext : s'.nextRun = s.nextRun) (hclock : s.clock ≤ s'.clock) : Works s s' := by
  refine ⟨.aside hruns hnext hclock, ?_⟩
  funext t
  simp only [KernelState.brief, htasks]

theorem setTask (s : KernelState) (taskId : TaskId) (f : Task → Task)
    (hf : ∀ t, (f t).brief = t.brief) : Works s (s.setTask taskId f) := by
  refine ⟨.aside rfl rfl (Nat.le_refl _), ?_⟩
  funext t
  exact HashMap.map_get?_modify hf s.tasks taskId t

end Works

inductive Write (w : World) (may : RunId → Prop) : KernelState → KernelState → Prop where
  | aside {s s' : KernelState} (hledger : s'.ledger = s.ledger) (hclock : s.clock ≤ s'.clock) :
    Write w may s s'
  | task (s : KernelState) (taskId : TaskId) (f : Task → Task)
    (hf : ∀ t, (f t).brief = t.brief) : Write w may s (s.setTask taskId f)
  | run (s : KernelState) {runId : RunId} (hmay : may runId) (f : Run → Run)
    (hkept : ∀ r, ((f r).kept, (f r).resumedFrom) = (r.kept, r.resumedFrom))
    (hplan : ∀ r, r.PlannedAt (transientAttemptFor s runId) →
      (f r).PlannedAt (transientAttemptFor s runId)) : Write w may s (s.setRun runId f)
  | event (s : KernelState) {runId : RunId} (hmay : may runId) (kind source message : String) :
    Write w may s (pushRunEvent w s runId kind source message)
  | log (s : KernelState) {runId : RunId} (hmay : may runId) (log : RunLog) :
    Write w may s { s with runLogs := s.runLogs.insert runId log }
  | start (s : KernelState) (hmay : may s.board.freshRun) (run : Run)
    (hid : run.id = s.board.freshRun) (hstart : run.startedAt = some s.stamp)
    (hlinks : ∀ q, ¬ run.LinksTo q) (hplan : run.retry = none) :
    Write w may s { s.tick with
      nextRun := s.nextRun + 1
      runs := s.runs.insert s.board.freshRun run }.tick
  | resumed (s : KernelState) {runId : RunId} (hmay : may runId) (origin : RunId)
    (session : RunSession) (hold : s.Timed → Older origin runId) :
    Write w may s (s.setRun runId (fun r =>
      { r with resumedFrom := some origin, session := some session }))

def Writes (w : World) (may : RunId → Prop) : KernelState → KernelState → Prop :=
  Relation.ReflTransGen (Write w may)

theorem Write.works {w : World} {may : RunId → Prop} {s : KernelState} (h : Write w may s s') :
    Works s s' := by
  cases h with
  | aside hledger hclock =>
    simp only [KernelState.ledger, Prod.mk.injEq] at hledger
    exact .aside hledger.1 hledger.2.1 hledger.2.2.1 hclock
  | task taskId f hf => exact .setTask s taskId f hf
  | run hmay f hkept hplan =>
    simp only [Prod.mk.injEq] at hkept
    refine ⟨.setRun s _ f (fun r => (hkept r).1) hplan fun _ run q _ hq => ?_, rfl⟩
    have horigin := congrArg (fun k => k.2.2.2) (hkept run).1
    simp only [Run.kept] at horigin
    simp only [Run.LinksTo, horigin, (hkept run).2] at hq
    exact .inl hq
  | @event runId hmay kind source message =>
    have hnoted : Upholds s (s.setRun runId (fun r =>
        { r with lastActivityAt := some (w.realNowSecs (s.clock + 1)) })) :=
      .setRun s runId _ (fun _ => rfl) (fun _ hp => hp) (fun _ _ _ _ hq => .inl hq)
    exact ⟨hnoted.trans (.aside rfl rfl (Nat.le_succ _)), rfl⟩
  | log hmay log => exact .aside rfl rfl rfl (Nat.le_refl _)
  | start hmay run hid hstart hlinks hplan =>
    exact ⟨.insertRun s run hid hstart hlinks hplan, rfl⟩
  | resumed hmay origin session hold =>
    refine ⟨.setRun s _ _ (fun _ => rfl) (fun _ hp => hp) fun ht run q _ hq => ?_, rfl⟩
    rcases hq with hq | hq
    · exact .inl (.inl hq)
    · cases hq
      exact .inr (hold ht)

theorem KernelState.dossier_setRun (s : KernelState) (f : Run → Run) (hr : r ≠ runId) :
    (s.setRun runId f).dossier r = s.dossier r := by
  simp only [dossier, get?_setRun, if_neg hr]
  rfl

theorem dossier_pushRunEvent (w : World) (s : KernelState) (kind source message : String)
    (hr : r ≠ runId) : (pushRunEvent w s runId kind source message).dossier r = s.dossier r := by
  have hother : (runId == r) = false := beq_false_of_ne hr.symm
  have hget : (s.runs.modify runId (fun r =>
      { r with lastActivityAt := some (w.realNowSecs (s.clock + 1)) })).get? r =
      s.runs.get? r := by
    rw [HashMap.get?_modify, if_neg hr]
  simp only [KernelState.dossier, pushRunEvent, hget, List.filter_append, List.filter_cons, hother,
    Bool.false_eq_true, if_false, List.filter_nil, List.append_nil]

theorem Write.dossier {w : World} {may : RunId → Prop} {s : KernelState} (h : Write w may s s')
    (hr : ¬ may r) : s'.dossier r = s.dossier r := by
  have hne : ∀ {q}, may q → r ≠ q := fun hq he => hr (he ▸ hq)
  cases h with
  | aside hledger hclock =>
    simp only [KernelState.ledger, Prod.mk.injEq] at hledger
    simp only [KernelState.dossier, hledger]
  | task taskId f hf => rfl
  | run hmay f hkept hplan => exact s.dossier_setRun f (hne hmay)
  | event hmay kind source message => exact dossier_pushRunEvent w s _ _ _ (hne hmay)
  | log hmay log => simp only [KernelState.dossier, HashMap.get?_insert, if_neg (hne hmay)]
  | start hmay run hid hstart hlinks hplan =>
    simp only [KernelState.dossier, KernelState.tick, HashMap.get?_insert, if_neg (hne hmay)]
  | resumed hmay origin session hold => exact s.dossier_setRun _ (hne hmay)

namespace Writes

variable {w : World} {may : RunId → Prop} {s s' s'' : KernelState}

theorem refl (s : KernelState) : Writes w may s s := Relation.ReflTransGen.refl

theorem one (h : Write w may s s') : Writes w may s s' := Relation.ReflTransGen.single h

theorem trans (h : Writes w may s s') (h' : Writes w may s' s'') : Writes w may s s'' :=
  Relation.ReflTransGen.trans h h'

theorem works (h : Writes w may s s') : Works s s' := by
  induction h with
  | refl => exact .refl s
  | tail _ step ih => exact ih.trans step.works

theorem mono {may' : RunId → Prop} (h : Writes w may s s') (hmay : ∀ r, may r → may' r) :
    Writes w may' s s' := by
  refine Relation.ReflTransGen.mono (fun _ _ step => ?_) _ _ h
  cases step with
  | aside hledger hclock => exact .aside hledger hclock
  | task taskId f hf => exact .task _ taskId f hf
  | run hr f hkept hplan => exact .run _ (hmay _ hr) f hkept hplan
  | event hr kind source message => exact .event _ (hmay _ hr) kind source message
  | log hr log => exact .log _ (hmay _ hr) log
  | start hr run hid hstart hlinks hplan => exact .start _ (hmay _ hr) run hid hstart hlinks hplan
  | resumed hr origin session hold => exact .resumed _ (hmay _ hr) origin session hold

theorem nextRun_le (h : Writes w may s s') : s.nextRun ≤ s'.nextRun := by
  induction h with
  | refl => exact le_refl _
  | tail _ step ih =>
    refine ih.trans ?_
    cases step with
    | aside hledger _ => exact (congrArg (fun l => l.2.2.1) hledger).ge
    | start _ _ _ _ _ _ => exact Nat.le_succ _
    | _ => exact le_refl _

theorem dossier (h : Writes w may s s') (hr : ¬ may r) : s'.dossier r = s.dossier r := by
  induction h with
  | refl => rfl
  | tail _ step ih => exact (step.dossier hr).trans ih

end Writes
structure Acts (w : World) (may : RunId → Prop) (s s' : KernelState) (moves : List BoardMove) :
    Prop extends Trace s s' moves where
  writes : Writes w may s s'

namespace Acts

variable {w : World} {may : RunId → Prop} {s s' s'' : KernelState} {moves more : List BoardMove}

theorem refl (s : KernelState) : Acts w may s s [] := ⟨.refl s, .refl s⟩

theorem trans (h : Acts w may s s' moves) (h' : Acts w may s' s'' more) :
    Acts w may s s'' (moves ++ more) := ⟨h.toTrace.trans h'.toTrace, h.writes.trans h'.writes⟩

theorem andThen (h : Acts w may s s' moves) (h' : Acts w may s' s'' []) :
    Acts w may s s'' moves := ⟨h.toTrace.andThen h'.toTrace, h.writes.trans h'.writes⟩

theorem trace (h : Acts w (fun _ => True) s s' moves) : Trace s s' moves := h.toTrace

theorem works (h : Acts w (fun _ => True) s s' moves) : Works s s' := h.writes.works

end Acts

variable (w : World) (s : KernelState) {may : RunId → Prop}

theorem tick_acts : Acts w may s s.tick [] := ⟨tick_trace s, .one (.aside rfl (Nat.le_succ _))⟩

theorem recordAudit_acts (actorType actorId action : String)
    (targetType targetId : Option String) (result : AuditResult) :
    Acts w may s (recordAudit s actorType actorId action targetType targetId result) [] :=
  ⟨recordAudit_trace s _ _ _ _ _ _, .one (.aside rfl (Nat.le_succ _))⟩

variable (taskId : TaskId)

theorem setTask_acts (status : TaskStatus) (f : Task → Task)
    (hf : ∀ t, (f t).id = t.id ∧ (f t).status = status) (hbrief : ∀ t, (f t).brief = t.brief) :
    Acts w may s (s.setTask taskId f) [.task taskId status] :=
  ⟨setTask_trace s taskId status f hf, .one (.task s taskId f hbrief)⟩

section

variable {runId : RunId} (hmay : may runId)
include hmay

theorem pushRunEvent_acts (kind source message : String) :
    Acts w may s (pushRunEvent w s runId kind source message) [] :=
  ⟨pushRunEvent_trace w s _ _ _ _, .one (.event s hmay kind source message)⟩

variable (f : Run → Run)
  (hkept : ∀ r, ((f r).kept, (f r).resumedFrom) = (r.kept, r.resumedFrom))
  (hplan : ∀ r, r.PlannedAt (transientAttemptFor s runId) →
    (f r).PlannedAt (transientAttemptFor s runId))
include hkept hplan

theorem setRun_acts (status : RunStatus) (hstatus : ∀ r, (f r).status = status) :
    Acts w may s (s.setRun runId f) [.run runId status] := by
  refine ⟨setRun_trace s runId status f fun r => ?_, .one (.run s hmay f hkept hplan)⟩
  have hsame := hkept r
  simp only [Run.kept, Prod.mk.injEq] at hsame
  exact ⟨hsame.1.1, hsame.1.2.1, hstatus r⟩

theorem noteRun_acts (hstatus : ∀ r, (f r).status = r.status) :
    Acts w may s (s.setRun runId f) [] := by
  refine ⟨noteRun_trace s runId f fun r => ?_, .one (.run s hmay f hkept hplan)⟩
  have hsame := hkept r
  simp only [Run.kept, Prod.mk.injEq] at hsame
  exact ⟨hsame.1.1, hsame.1.2.1, hstatus r⟩

theorem endRun_acts (status : RunStatus) (kind message : String) (agentId : AgentId)
    (action : String) (result : AuditResult) (hstatus : ∀ r, (f r).status = status) :
    Acts w may s (runAudit (pushRunEvent w (s.tick.setRun runId f) runId kind "kernel" message)
      agentId action runId result) [.run runId status] := by
  rw [← transientAttemptFor_tick] at hplan
  exact (((tick_acts w s).trans (setRun_acts w s.tick hmay f hkept hplan status
    hstatus)).andThen (pushRunEvent_acts w _ hmay _ _ _)).andThen
      (recordAudit_acts w _ _ _ _ _ _ _)

end

variable {result : Except KernelError RunId}

theorem startRun_acts {s' : KernelState}
    (h : startRun w s taskId = (result, s')) (hmay : ∀ r, result = .ok r → may r) :
    (∃ e, result = .error e) ∧ Acts w may s s' [] ∨
      result = .ok s.board.freshRun ∧ Acts w may s s' [.start taskId] := by
  unfold startRun at h
  split at h
  · cases h
    exact .inl ⟨⟨_, rfl⟩, .refl s⟩
  · split at h
    · cases h
      exact .inl ⟨⟨_, rfl⟩, .refl s⟩
    · split at h
      · cases h
        exact .inl ⟨⟨_, rfl⟩, .refl s⟩
      · split at h
        · cases h
          exact .inl ⟨⟨_, rfl⟩, recordAudit_acts w s _ _ _ _ _ _⟩
        · cases h
          have hfresh : may s.board.freshRun := hmay _ rfl
          refine .inr ⟨rfl, Acts.andThen (Acts.andThen ⟨insertRun_trace s taskId _ _ rfl rfl rfl
            (by exact fun _ => ⟨rfl, rfl⟩), ?_⟩ (pushRunEvent_acts w _ hfresh _ _ _))
            (recordAudit_acts w _ _ _ _ _ _ _)⟩
          refine (Writes.one (.start s hfresh _ rfl rfl ?_ rfl)).trans
            (.one (.task _ taskId _ (by exact fun _ => rfl)))
          rintro q (hq | hq) <;> cases hq

theorem startRun_trace {s' : KernelState} (h : startRun w s taskId = (result, s')) :
    (∃ e, result = .error e) ∧ Trace s s' [] ∨
      result = .ok s.board.freshRun ∧ Trace s s' [.start taskId] := by
  rcases startRun_acts w s taskId h fun _ _ => trivial with ⟨he, hacts⟩ | ⟨hok, hacts⟩
  · exact .inl ⟨he, hacts.trace⟩
  · exact .inr ⟨hok, hacts.trace⟩

theorem closeTask_acts (status : TaskStatus) (action : String) (result : AuditResult) :
    Acts w may s (closeTask s taskId status action result).2 [.task taskId status] := by
  unfold closeTask
  split
  next hnone =>
    have hboard : s.board.task taskId = none := by
      simp only [KernelState.board, hnone, Option.map_none]
    refine ⟨⟨?_, rfl, fun h => ⟨h.task, h.run⟩, id⟩, (tick_acts w s).writes⟩
    exact (Board.setTask_none hboard status).symm
  · dsimp only
    exact ((tick_acts w s).trans (setTask_acts w s.tick taskId status _
      (by exact fun _ => ⟨rfl, rfl⟩) (by exact fun _ => rfl))).andThen
        (recordAudit_acts w _ _ _ _ _ _ _)

theorem completeTask_acts :
    Acts w may s (completeTask s taskId).2 [.task taskId .completed] :=
  closeTask_acts w s taskId .completed _ _

theorem failTask_acts :
    Acts w may s (failTask s taskId).2 [.task taskId .failed] :=
  closeTask_acts w s taskId .failed _ _

theorem requeue_acts : Acts w may s (requeue s taskId) [.task taskId .queued] :=
  (tick_acts w s).trans (setTask_acts w s.tick taskId .queued _ (by exact fun _ => ⟨rfl, rfl⟩)
    (by exact fun _ => rfl))

theorem requeue_trace : Trace s (requeue s taskId) [.task taskId .queued] :=
  (requeue_acts .silent s taskId).trace

theorem parkRunning_acts :
    ∃ moves, Acts w may s (parkRunning s taskId) moves ∧
      (moves = [] ∨ moves = [.task taskId .blocked] ∧ s.board.task taskId = some .running) := by
  unfold parkRunning
  split
  · exact ⟨[], .refl s, .inl rfl⟩
  next task htask =>
    split
    next hrunning =>
      have hboard : s.board.task taskId = some .running := by
        simp only [KernelState.board, htask, Option.map_some, hrunning]
      exact ⟨_, (tick_acts w s).trans (setTask_acts w s.tick taskId .blocked _
        (by exact fun _ => ⟨rfl, rfl⟩) (by exact fun _ => rfl)), .inr ⟨rfl, hboard⟩⟩
    · exact ⟨[], .refl s, .inl rfl⟩

section

variable {runId : RunId} (hmay : may runId)

theorem missingRun_acts (h : s.runs.get? runId = none) (status : RunStatus) :
    Acts w may s s.tick [.run runId status] :=
  ⟨missingRun_trace s h status, (tick_acts w s).writes⟩

include hmay

theorem completeRun_acts (summary : String) :
    Acts w may s (completeRun w s runId summary).2 [.run runId .completed] := by
  unfold completeRun
  split
  next hnone => exact missingRun_acts w s hnone .completed
  · refine endRun_acts w s hmay _ ?_ ?_ .completed _ _ _ _ _ (by exact fun _ => rfl)
    · exact fun _ => rfl
    · exact fun _ _ hfailed => by cases hfailed

theorem failRunClassified_acts (error : String) (cls : RunFailureClass) :
    Acts w may s (failRunClassified w s runId error cls).2 [.run runId .failed] := by
  unfold failRunClassified
  split
  next hnone => exact missingRun_acts w s hnone .failed
  · refine endRun_acts w s hmay _ ?_ ?_ .failed _ _ _ _ _ (by exact fun _ => rfl)
    · exact fun _ => rfl
    · exact fun _ _ _ st hst => ⟨cls, _, rfl, hst⟩

theorem failRun_acts (error : String) :
    Acts w may s (failRun w s runId error).2 [.run runId .failed] :=
  failRunClassified_acts w s hmay error _

theorem cancelRun_acts (reason : String) :
    Acts w may s (cancelRun w s runId reason).2 [.run runId .cancelled] := by
  unfold cancelRun
  split
  next hnone => exact missingRun_acts w s hnone .cancelled
  · refine endRun_acts w s hmay _ ?_ ?_ .cancelled _ _ _ _ _ (by exact fun _ => rfl)
    · exact fun _ => rfl
    · exact fun _ _ hfailed => by cases hfailed

theorem setRunMetrics_acts (durationMs : Nat) (usage : Option Json) :
    Acts w may s (setRunMetrics s runId durationMs usage) [] :=
  noteRun_acts w s hmay _ (by exact fun _ => rfl) (by exact fun _ h => h) (by exact fun _ => rfl)

theorem setRunSession_acts (sessionId : Option String) (kind : AdapterKind) :
    Acts w may s (setRunSession s runId sessionId kind) [] := by
  unfold setRunSession
  split
  · exact .refl s
  · exact noteRun_acts w s hmay _ (by exact fun _ => rfl) (by exact fun _ h => h)
      (by exact fun _ => rfl)

theorem markRunStale_acts (idleSecs : Nat) :
    ∃ moves, Acts w may s (markRunStale w s runId idleSecs) moves ∧
      (moves = [.run runId .failed] ∨ ∃ t, moves = [.run runId .failed, .task t .blocked] ∧
        s.board.task t = some .running) := by
  unfold markRunStale
  split
  next hnone => exact ⟨_, missingRun_acts w s hnone .failed, .inl rfl⟩
  next run hrun =>
    dsimp only
    generalize hlogged : pushRunEvent w _ runId _ _ _ = logged
    have hacts : Acts w may s logged [.run runId .failed] := by
      rw [← hlogged]
      refine ((tick_acts w s).trans (setRun_acts w s.tick hmay _ ?_ ?_ .failed
        (by exact fun _ => rfl))).andThen (pushRunEvent_acts w _ hmay _ _ _)
      · exact fun _ => rfl
      · intro r _ _ st hst
        cases hst
    obtain ⟨moves, hpark, hmoves⟩ := parkRunning_acts w logged run.taskId
    have hall := (hacts.trans hpark).andThen (recordAudit_acts w _ "agent" run.agentId
      "run:stale_recovered" (some "run") (some runId) .failed)
    rcases hmoves with rfl | ⟨rfl, hrunning⟩
    · exact ⟨_, hall, .inl rfl⟩
    · refine ⟨_, hall, .inr ⟨run.taskId, rfl, ?_⟩⟩
      rw [hacts.board] at hrunning
      exact hrunning

variable (agentId : AgentId)

theorem denyToolCall_acts (pluginId : PluginId) (toolName : String)
    (required : Permission) (why : String) :
    Acts w may s (denyToolCall w s runId agentId pluginId toolName required why) [] :=
  (pushRunEvent_acts w s hmay _ _ _).andThen (recordAudit_acts w _ _ _ _ _ _ _)

theorem callToolAdmit_acts (pluginId : PluginId) (toolName : String) :
    Acts w may s (callToolAdmit w s runId agentId pluginId toolName).2 [] := by
  unfold callToolAdmit
  split
  · exact .refl s
  · split
    · exact denyToolCall_acts w s hmay _ _ _ _ _
    · split
      · split
        · exact ⟨recordPersistentGrantUse_trace s _ _,
            .one (.aside rfl (Nat.le_add_right s.clock 2))⟩
        · exact denyToolCall_acts w s hmay _ _ _ _ _
      · exact .refl s

theorem callTool_acts (pluginId : PluginId) (toolName : String)
    (input : Json) : Acts w may s (callTool w s runId agentId pluginId toolName input).2 [] := by
  have hgate := callToolAdmit_acts w s hmay agentId pluginId toolName
  unfold callTool
  split
  next h =>
    rw [h] at hgate
    exact hgate
  next required s₁ h =>
    rw [h] at hgate
    dsimp only
    split
    · exact (hgate.andThen (pushRunEvent_acts w _ hmay _ _ _)).andThen
        (recordAudit_acts w _ _ _ _ _ _ _)
    · exact (hgate.andThen (pushRunEvent_acts w _ hmay _ _ _)).andThen
        (recordAudit_acts w _ _ _ _ _ _ _)

theorem runPlanSteps_acts (total i : Nat) (steps : List TaskToolCall) (markers : List String) :
    Acts w may s (runPlanSteps w runId agentId total s i steps markers).2 [] := by
  induction steps generalizing s i markers with
  | nil => exact .refl s
  | cons step rest ih =>
    have hcall := callTool_acts w s hmay agentId step.plugin step.tool step.args
    simp only [runPlanSteps]
    split
    next h =>
      rw [h] at hcall
      exact hcall
    next h =>
      rw [h] at hcall
      exact hcall.andThen (ih _ _ _)

end

theorem callTool_trace (runId : RunId) (agentId : AgentId) (pluginId : PluginId)
    (toolName : String) (input : Json) :
    Trace s (callTool w s runId agentId pluginId toolName input).2 [] :=
  Acts.trace (callTool_acts w s trivial agentId pluginId toolName input)

end Relux
