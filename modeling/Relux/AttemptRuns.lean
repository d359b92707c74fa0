import Relux.AttemptSteps

/-! What the turns of the timelines keep, in every store that operations reach. -/

namespace Relux.Attempts

open View

variable (redact : String → String) {s : TaskStore} {t : String}

def RetryDecision.isAccepted : RetryDecision → Bool
  | .accepted _ _ => true
  | .exhausted _ _ => false
  | .rejected _ => false

def Op.accepts (s : TaskStore) (t : String) : Op → Bool
  | .requestRetry t' now =>
    t' == t && (s.requestRetry t' now).toOption.any (·.1.isAccepted)
  | _ => false

def Op.cause (s : TaskStore) (t : String) : Op → Cause
  | .create .. => .write none
  | .updateWithTrace t' u _ => .write (if t' = t then u.status else none)
  | .requestRetry t' now => if Op.accepts s t (.requestRetry t' now) then .retry else .write none
  | .recoverInterrupted _ => .scan
  | .closeOrphanAttempts _ => .scan

structure View.New (v : View) : Prop where
  attempts : v.attempts = []
  summaries : v.summaries = 0
  status : v.row.status = "pending"
  attemptCount : v.row.attemptCount = 0
  currentAttemptId : v.row.currentAttemptId = none
  retryCount : v.row.retryCount = 0

variable {v : View}

theorem View.New.sound (hv : v.New) : v.Sound := by
  refine ⟨⟨?_, ?_⟩, ?_, ?_, ?_, ?_⟩
  · rw [hv.currentAttemptId, hv.attempts]
    rfl
  · rw [hv.attempts]
    exact fun a ha => absurd ha List.not_mem_nil
  · rw [hv.attempts, hv.attemptCount]
    rfl
  · rw [hv.status]
    exact fun h => absurd h (by decide)
  · rw [hv.status]
    exact fun h => absurd h (by decide)
  · rw [hv.retryCount]
    show (0 : Int) ≤ v.row.budget
    unfold TaskRow.budget
    split
    · omega
    · split
      · omega
      · omega

theorem View.New.agrees (hv : v.New) : v.Agrees := by
  refine ⟨?_, ?_⟩
  · rw [hv.attempts]
    exact fun _ a ha => absurd ha List.not_mem_nil
  · rw [hv.status]
    exact fun h => absurd h (by decide)

structure Advances (s s' : TaskStore) (op : Op) : Prop where
  sound : s'.Sound
  turns : ∀ t v, s.view? t = some v → ∃ v', s'.view? t = some v' ∧ Turn (op.cause s t) v v'
  new : ∀ t v', s.view? t = none → s'.view? t = some v' → v'.New

theorem turn_refl (v : View) : Turn (.write none) v v := .touch (Kept.refl v.row) rfl

variable {op : Op}

theorem advances_same (hs : s.Sound) (hcause : ∀ t, op.cause s t = .write none) :
    Advances s s op := by
  refine ⟨hs, fun t v hv => ⟨v, hv, ?_⟩, fun t v' hnone hv => ?_⟩
  · rw [hcause t]
    exact turn_refl v
  · rw [hnone] at hv
    cases hv

variable {s' : TaskStore}

theorem Scanned.advances (h : s'.Sound ∧ TaskStore.Scanned s s')
    (hcause : ∀ t, op.cause s t = .scan) : Advances s s' op := by
  refine ⟨h.1, fun t v hv => ?_, fun t v' hnone hv => ?_⟩
  · rw [hcause t]
    exact h.2.turns t v hv
  · rw [h.2.missing t hnone] at hv
    cases hv

theorem advances_confined (hs : s.Sound) {v' : View}
    (hconfined : TaskStore.Confined t s s') (hv : s.view? t = some v) (hv' : s'.view? t = some v')
    (hturn : Turn (op.cause s t) v v') (hothers : ∀ t', t' ≠ t → op.cause s t' = .write none) :
    Advances s s' op := by
  refine ⟨hs.step hconfined hv hv' hturn, fun t' w hw => ?_, fun t' w hnone hw => ?_⟩
  · by_cases hsame : t' = t
    · subst hsame
      obtain rfl : v = w := Option.some.inj (hv.symm.trans hw)
      exact ⟨v', hv', hturn⟩
    · refine ⟨w, (hconfined.others t' hsame).trans hw, ?_⟩
      rw [hothers t' hsame]
      exact turn_refl w
  · by_cases hsame : t' = t
    · rw [hsame, hv] at hnone
      cases hnone
    · rw [hconfined.others t' hsame, hnone] at hw
      cases hw

theorem create_advances (hs : s.Sound) {row : TaskRow} (hfree : s.task? row.taskId = none)
    (hnew : View.New ⟨row, [], 0⟩) (hcause : ∀ t, op.cause s t = .write none) :
    Advances s { s with tasks := s.tasks ++ [row] } op := by
  have hname : row.taskId ∉ s.names := by
    rw [← TaskStore.task?_isSome, hfree]
    simp
  have hnames : ({ s with tasks := s.tasks ++ [row] } : TaskStore).names =
      s.names ++ [row.taskId] := by
    rw [TaskStore.names, List.map_append]
    rfl
  have hrow : ({ s with tasks := s.tasks ++ [row] } : TaskStore).view? row.taskId =
      some ⟨row, [], 0⟩ := by
    have hattempts : s.attemptsOf row.taskId = [] := by
      refine List.eq_nil_iff_forall_not_mem.mpr (fun a ha => ?_)
      obtain ⟨hmem, howner⟩ := TaskStore.mem_attemptsOf.mp ha
      exact hname (howner ▸ hs.owned a hmem)
    have hsummaries : s.terminalSummaries row.taskId = 0 := by
      refine List.countP_eq_zero.mpr (fun e he hcond => ?_)
      obtain ⟨howner, -⟩ := Bool.and_eq_true_iff.mp hcond
      exact hname (eq_of_beq howner ▸ hs.recorded e he)
    have htask : ({ s with tasks := s.tasks ++ [row] } : TaskStore).task? row.taskId =
        some row := by
      rw [TaskStore.task?, List.find?_append]
      have hfree' : s.tasks.find? (fun r => r.taskId == row.taskId) = none := hfree
      rw [hfree']
      simp
    rw [TaskStore.view?, htask]
    show some (View.mk row (s.attemptsOf row.taskId) (s.terminalSummaries row.taskId)) = _
    rw [hattempts, hsummaries]
  have hothers : ∀ t', t' ≠ row.taskId →
      ({ s with tasks := s.tasks ++ [row] } : TaskStore).view? t' = s.view? t' := by
    intro t' hne
    have htask : ({ s with tasks := s.tasks ++ [row] } : TaskStore).task? t' = s.task? t' := by
      have hnot : (row.taskId == t') = false := beq_false_of_ne (Ne.symm hne)
      simp [TaskStore.task?, hnot]
    rw [TaskStore.view?, htask]
    rfl
  have hold : s.view? row.taskId = none := by
    rw [TaskStore.view?, hfree]
    rfl
  refine ⟨⟨⟨?_, hs.ids, ?_, ?_⟩, fun t v hv => ?_⟩, fun t v hv => ?_, fun t v' hnone hv => ?_⟩
  · rw [hnames, List.nodup_append]
    refine ⟨hs.keyed, by simp, fun a ha b hb => ?_⟩
    rw [List.mem_singleton.mp hb]
    exact fun heq => hname (heq ▸ ha)
  · rw [hnames]
    exact fun a ha => List.mem_append_left _ (hs.owned a ha)
  · rw [hnames]
    exact fun e he => List.mem_append_left _ (hs.recorded e he)
  · by_cases hsame : t = row.taskId
    · rw [hsame, hrow] at hv
      rw [← Option.some.inj hv]
      exact hnew.sound
    · rw [hothers t hsame] at hv
      exact hs.views t v hv
  · have hne : t ≠ row.taskId := by
      rintro rfl
      rw [hold] at hv
      cases hv
    rw [hothers t hne, hcause t]
    exact ⟨v, hv, turn_refl v⟩
  · by_cases hsame : t = row.taskId
    · rw [hsame, hrow] at hv
      rw [← Option.some.inj hv]
      exact hnew
    · rw [hothers t hsame, hnone] at hv
      cases hv

theorem exec_advances (hs : s.Sound) (op : Op) : Advances s (exec redact s op) op := by
  cases op with
  | create taskId title flowTemplate paramsJson owner policy maxRetries maxRuntimeSecs surface now =>
    simp only [exec, TaskStore.create]
    by_cases htaken : (s.task? taskId).isSome
    · rw [if_pos htaken]
      exact advances_same hs (fun _ => rfl)
    · rw [if_neg htaken]
      have hfree : s.task? taskId = none := Option.not_isSome_iff_eq_none.mp htaken
      exact create_advances hs hfree ⟨rfl, rfl, rfl, rfl, rfl, rfl⟩ (fun _ => rfl)
  | updateWithTrace t u now =>
    cases hv : s.view? t with
    | none =>
      have hmissing : s.task? t = none := Option.map_eq_none_iff.mp hv
      simp only [exec, TaskStore.updateWithTrace_missing hmissing, Option.getD_none]
      refine ⟨hs, fun t' v hv' => ⟨v, hv', ?_⟩, fun t' v' hnone hv' => ?_⟩
      · have hne : t ≠ t' := by
          rintro rfl
          rw [hv] at hv'
          cases hv'
        simp only [Op.cause, if_neg hne]
        exact turn_refl v
      · rw [hnone] at hv'
        cases hv'
    | some v =>
      obtain ⟨s', v', hok, hconfined, hv', hturn⟩ := TaskStore.updateWithTrace_turn hs.toFramed hv
        (hs.views t v hv) redact u now
      simp only [exec, hok]
      refine advances_confined hs hconfined hv hv' ?_ (fun t' hne => ?_)
      · simp only [Op.cause, if_true]
        exact hturn
      · simp only [Op.cause, if_neg (Ne.symm hne)]
  | requestRetry t now =>
    cases hv : s.view? t with
    | none =>
      have hmissing : s.task? t = none := Option.map_eq_none_iff.mp hv
      have herror : s.requestRetry t now = .error (.notFound t) := by
        simp only [TaskStore.requestRetry, hmissing]
      simp only [exec, herror]
      refine advances_same hs (fun t' => ?_)
      have hno : Op.accepts s t' (.requestRetry t now) = false := by
        rw [Op.accepts, herror]
        exact Bool.and_false _
      simp only [Op.cause, hno]
      rfl
    | some v =>
      obtain ⟨d, s', v', hok, hconfined, hv', hcase⟩ := TaskStore.requestRetry_turn hs.toFramed hv now
      have haccepts : ∀ t', Op.accepts s t' (.requestRetry t now) =
          (t == t' && d.isAccepted) := by
        intro t'
        simp only [Op.accepts, hok]
        rfl
      simp only [exec, hok]
      refine advances_confined hs hconfined hv hv' ?_ (fun t' hne => ?_)
      · rcases hcase with ⟨hrefused, rfl⟩ | ⟨⟨n, b, rfl⟩, hturn⟩
        · have hno : Op.accepts s t (.requestRetry t now) = false := by
            rw [haccepts]
            cases d with
            | accepted n b => exact absurd rfl (hrefused n b)
            | exhausted => exact Bool.and_false _
            | rejected => exact Bool.and_false _
          simp only [Op.cause, hno]
          exact turn_refl v'
        · have hyes : Op.accepts s t (.requestRetry t now) = true := by
            rw [haccepts, beq_self_eq_true]
            rfl
          simp only [Op.cause, hyes, if_true]
          exact hturn
      · have hno : Op.accepts s t' (.requestRetry t now) = false := by
          rw [haccepts, beq_false_of_ne (Ne.symm hne), Bool.false_and]
        simp only [Op.cause, hno]
        rfl
  | recoverInterrupted now =>
    exact Scanned.advances (TaskStore.recoverInterrupted_scanned hs now) (fun _ => rfl)
  | closeOrphanAttempts now =>
    exact Scanned.advances (TaskStore.closeOrphanAttempts_scanned hs now) (fun _ => rfl)

def TaskStore.isTerminal (s : TaskStore) (t : String) : Bool :=
  (s.task? t).any (fun r => terminalStatuses.contains r.status)

def entries (redact : String → String) (t : String) : TaskStore → List Op → Nat
  | _, [] => 0
  | s, op :: ops =>
    (if (exec redact s op).isTerminal t && !s.isTerminal t then 1 else 0) +
      entries redact t (exec redact s op) ops

def acceptances (redact : String → String) (t : String) : TaskStore → List Op → Nat
  | _, [] => 0
  | s, op :: ops =>
    (if op.accepts s t then 1 else 0) + acceptances redact t (exec redact s op) ops

theorem empty_sound : TaskStore.empty.Sound :=
  ⟨⟨List.nodup_nil, rfl, fun _ h => absurd h List.not_mem_nil,
    fun _ h => absurd h List.not_mem_nil⟩, fun t v hv => by
    cases hv⟩

theorem run_sound (ops : List Op) (hs : s.Sound) :
    (Transition.run (exec redact) s ops).Sound := by
  have hstep : ∀ (s : TaskStore) (op : Op), s.Sound → True → (exec redact s op).Sound :=
    fun _ op hs _ => (exec_advances redact hs op).sound
  exact Transition.invariant_run hstep hs (Transition.guarded_true _ s ops)

variable {r : TaskRow}

theorem view?_of_mem (hs : s.Sound) (hr : r ∈ s.tasks) :
    s.view? r.taskId = some ⟨r, s.attemptsOf r.taskId, s.terminalSummaries r.taskId⟩ := by
  rw [TaskStore.view?, hs.task?_of_mem hr]
  rfl

theorem isTerminal_view (hv : s.view? t = some v) :
    s.isTerminal t = true ↔ v.row.status ∈ terminalStatuses := by
  rw [TaskStore.isTerminal, (TaskStore.view?_eq hv).1, Option.any_some, List.contains_iff_mem]

theorem isTerminal_missing (hv : s.view? t = none) : s.isTerminal t = false := by
  have hmissing : s.task? t = none := Option.map_eq_none_iff.mp hv
  rw [TaskStore.isTerminal, hmissing]
  rfl

theorem summaries_missing (hs : s.Sound) (hv : s.view? t = none) : s.terminalSummaries t = 0 := by
  refine List.countP_eq_zero.mpr (fun e he hcond => ?_)
  obtain ⟨howner, -⟩ := Bool.and_eq_true_iff.mp hcond
  have hname : t ∈ s.names := eq_of_beq howner ▸ hs.recorded e he
  rw [← TaskStore.view?_isSome, hv] at hname
  cases hname

variable {a : AttemptRow}

theorem exec_closed (hs : s.Sound) (op : Op) (ha : a ∈ s.attempts) (hclosed : a.Closed) :
    a ∈ (exec redact s op).attempts := by
  have hsome : (s.view? a.taskId).isSome := TaskStore.view?_isSome.mpr (hs.owned a ha)
  obtain ⟨v, hv⟩ := Option.isSome_iff_exists.mp hsome
  obtain ⟨v', hv', hturn⟩ := (exec_advances redact hs op).turns _ v hv
  have hmem : a ∈ v.attempts := by
    rw [← (TaskStore.view?_eq hv).2.1]
    exact TaskStore.mem_attemptsOf.mpr ⟨ha, rfl⟩
  exact (TaskStore.view?_mem hv' (hturn.closed_stays hmem hclosed)).1

theorem run_closed (hs : s.Sound) (ops : List Op) (ha : a ∈ s.attempts) (hclosed : a.Closed) :
    a ∈ (Transition.run (exec redact) s ops).attempts := by
  induction ops generalizing s with
  | nil => exact ha
  | cons op ops ih => exact ih (exec_advances redact hs op).sound (exec_closed redact hs op ha hclosed)

/-- The summary that an update may still add without an entry: the first one, in a status that is
terminal already. -/
def owed (s : TaskStore) (t : String) : Nat :=
  if s.isTerminal t ∧ s.terminalSummaries t = 0 then 1 else 0

theorem exec_summaries (hs : s.Sound) (op : Op) (t : String) :
    (exec redact s op).terminalSummaries t + owed (exec redact s op) t ≤
      s.terminalSummaries t + owed s t +
        (if (exec redact s op).isTerminal t && !s.isTerminal t then 1 else 0) := by
  have hadvances := exec_advances redact hs op
  cases hv : s.view? t with
  | none =>
    have hterminal := isTerminal_missing hv
    cases hv' : (exec redact s op).view? t with
    | none =>
      have hsum := summaries_missing hadvances.sound hv'
      simp [owed, isTerminal_missing hv', hsum]
    | some v' =>
      have hnew := hadvances.new t v' hv hv'
      have hnot : (exec redact s op).isTerminal t = false := by
        rw [Bool.eq_false_iff, ne_eq, isTerminal_view hv', hnew.status]
        decide
      have hsum : (exec redact s op).terminalSummaries t = 0 :=
        (TaskStore.view?_eq hv').2.2.trans hnew.summaries
      simp [owed, hnot, hsum]
  | some v =>
    obtain ⟨v', hv', hturn⟩ := hadvances.turns t v hv
    have hsum := (TaskStore.view?_eq hv).2.2
    have hsum' := (TaskStore.view?_eq hv').2.2
    have hterminal := isTerminal_view hv
    have hterminal' := isTerminal_view hv'
    rcases hturn.summed with hsame | ⟨hmore, hin, hcase⟩
    · rw [owed, owed, hsum, hsum', hsame]
      cases s.isTerminal t with
      | true => cases (exec redact s op).isTerminal t <;> simp
      | false => cases (exec redact s op).isTerminal t <;> simp; split <;> omega
    · rw [owed, owed, hsum, hsum', hmore, hterminal'.mpr hin]
      rcases hcase with hzero | hout
      · cases s.isTerminal t <;> simp [hzero]
      · have hno : s.isTerminal t = false := by
          rw [Bool.eq_false_iff, ne_eq, hterminal]
          exact hout
        rw [hno]
        simp

theorem exec_one_summary (hs : s.Sound) (op : Op) (t : String) :
    (exec redact s op).terminalSummaries t + owed (exec redact s op) t ≤
      s.terminalSummaries t + 1 := by
  have hadvances := exec_advances redact hs op
  have howed : owed (exec redact s op) t ≤ 1 := by
    unfold owed
    split <;> omega
  have hpaid : 0 < (exec redact s op).terminalSummaries t → owed (exec redact s op) t = 0 :=
    fun hpos => if_neg (fun h => by omega)
  cases hv' : (exec redact s op).view? t with
  | none =>
    have hsum := summaries_missing hadvances.sound hv'
    omega
  | some v' =>
    have hsum' := (TaskStore.view?_eq hv').2.2
    cases hv : s.view? t with
    | none =>
      have hnew := (hadvances.new t v' hv hv').summaries
      omega
    | some v =>
      obtain ⟨w, hw, hturn⟩ := hadvances.turns t v hv
      obtain rfl : w = v' := Option.some.inj (hw.symm.trans hv')
      have hsum := (TaskStore.view?_eq hv).2.2
      rcases hturn.summed with hsame | ⟨hmore, -, -⟩
      · omega
      · have hzero := hpaid (by omega)
        omega

theorem run_summaries (hs : s.Sound) (ops : List Op) (t : String) :
    (Transition.run (exec redact) s ops).terminalSummaries t ≤
      s.terminalSummaries t + owed s t + entries redact t s ops := by
  induction ops generalizing s with
  | nil =>
    simp only [Transition.run_nil, entries]
    omega
  | cons op ops ih =>
    have hstep := exec_summaries redact hs op t
    have hrest := ih (exec_advances redact hs op).sound
    simp only [Transition.run_cons, entries]
    omega

def counted (s : TaskStore) (t : String) : Nat := (s.task? t).elim 0 (·.retryCount)

theorem exec_counted (hs : s.Sound) (op : Op) (t : String) :
    counted (exec redact s op) t = counted s t + if op.accepts s t then 1 else 0 := by
  have hadvances := exec_advances redact hs op
  cases hv : s.view? t with
  | none =>
    have hmissing : s.task? t = none := Option.map_eq_none_iff.mp hv
    have hno : op.accepts s t = false := by
      cases op with
      | requestRetry t' now =>
        rw [Op.accepts]
        by_cases hsame : t' = t
        · subst hsame
          have herror : s.requestRetry t' now = .error (.notFound t') := by
            simp only [TaskStore.requestRetry, hmissing]
          rw [herror]
          exact Bool.and_false _
        · rw [beq_false_of_ne hsame, Bool.false_and]
      | create => rfl
      | updateWithTrace => rfl
      | recoverInterrupted => rfl
      | closeOrphanAttempts => rfl
    rw [hno, counted, counted, hmissing]
    cases hv' : (exec redact s op).view? t with
    | none =>
      have hmissing' : (exec redact s op).task? t = none := Option.map_eq_none_iff.mp hv'
      rw [hmissing']
      rfl
    | some v' =>
      have hnew := hadvances.new t v' hv hv'
      rw [(TaskStore.view?_eq hv').1]
      exact hnew.retryCount
  | some v =>
    obtain ⟨v', hv', hturn⟩ := hadvances.turns t v hv
    rw [counted, counted, (TaskStore.view?_eq hv).1, (TaskStore.view?_eq hv').1]
    show v'.row.retryCount = v.row.retryCount + _
    by_cases hyes : op.accepts s t
    · rw [if_pos hyes]
      refine hturn.retryCount.1 ?_
      cases op with
      | requestRetry t' now =>
        have hsame : t' = t := eq_of_beq (Bool.and_eq_true_iff.mp hyes).1
        simp only [Op.cause, hyes, if_true]
      | create | updateWithTrace | recoverInterrupted | closeOrphanAttempts => cases hyes
    · rw [if_neg hyes]
      refine hturn.retryCount.2 ?_
      cases op with
      | requestRetry t' now =>
        simp only [Op.cause, if_neg hyes]
        simp
      | create | updateWithTrace | recoverInterrupted | closeOrphanAttempts => simp [Op.cause]

theorem run_counted (hs : s.Sound) (ops : List Op) (t : String) :
    counted (Transition.run (exec redact) s ops) t = counted s t + acceptances redact t s ops := by
  induction ops generalizing s with
  | nil => rfl
  | cons op ops ih =>
    have hstep := exec_counted redact hs op t
    have hrest := ih (exec_advances redact hs op).sound
    simp only [Transition.run_cons, acceptances]
    omega

def Disciplined (s : TaskStore) : Op → Prop
  | .updateWithTrace t u _ =>
    ∀ v, s.view? t = some v → ∀ status, u.status = some status → v.Admits status
  | _ => True

def Agreed (s : TaskStore) : Prop := ∀ t v, s.view? t = some v → v.Agrees

theorem exec_agreed_iff (hs : s.Sound) (hagreed : Agreed s) (op : Op) :
    Agreed (exec redact s op) ↔ Disciplined s op := by
  have hadvances := exec_advances redact hs op
  constructor
  · intro h
    cases op with
    | updateWithTrace t u now =>
      intro v hv status hstatus
      obtain ⟨v', hv', hturn⟩ := hadvances.turns t v hv
      refine (hturn.agrees_iff (hs.views t v hv) (hagreed t v hv)).mp (h t v' hv') status ?_
      simp only [Op.cause, if_true, hstatus]
    | create => trivial
    | requestRetry => trivial
    | recoverInterrupted => trivial
    | closeOrphanAttempts => trivial
  · intro h t v' hv'
    cases hv : s.view? t with
    | none => exact (hadvances.new t v' hv hv').agrees
    | some v =>
      obtain ⟨w, hw, hturn⟩ := hadvances.turns t v hv
      obtain rfl : w = v' := Option.some.inj (hw.symm.trans hv')
      refine (hturn.agrees_iff (hs.views t v hv) (hagreed t v hv)).mpr (fun status hcause => ?_)
      cases op with
      | updateWithTrace t' u now =>
        have hwritten : (if t' = t then u.status else none) = some status := Cause.write.inj hcause
        by_cases hsame : t' = t
        · rw [if_pos hsame] at hwritten
          exact h v (by rw [hsame]; exact hv) status hwritten
        · rw [if_neg hsame] at hwritten
          cases hwritten
      | create => cases hcause
      | requestRetry t' now =>
        simp only [Op.cause] at hcause
        split at hcause
        · cases hcause
        · cases hcause
      | recoverInterrupted => cases hcause
      | closeOrphanAttempts => cases hcause

structure Timeline (s : TaskStore) (r : TaskRow) : Prop where
  oneOpen : ((s.attemptsOf r.taskId).filter (·.finishedAt.isNone)).length ≤ 1
  openCurrent : ∀ a ∈ s.attemptsOf r.taskId, a.finishedAt = none →
    r.currentAttemptId = some a.attemptId
  ended : r.status ∈ endings → ∀ a ∈ s.attemptsOf r.taskId, a.finishedAt.isSome
  numbers : (s.attemptsOf r.taskId).map (·.attemptNum) = List.range' 1 r.attemptCount

structure Agreement (s : TaskStore) (r : TaskRow) : Prop where
  idle : r.status = "interrupted" ∨ r.status = "retrying" →
    ∀ a ∈ s.attemptsOf r.taskId, a.finishedAt.isSome
  outcome : r.status ∈ terminalStatuses → ∀ a ∈ s.attemptsOf r.taskId,
    r.currentAttemptId = some a.attemptId → a.status = r.status

theorem View.Linked.open_last (hv : v.Linked) (ha : a ∈ v.attempts) (hopen : a.Open) :
    v.attempts.getLast? = some a := by
  have hne : v.attempts ≠ [] := List.ne_nil_of_mem ha
  rw [← List.dropLast_append_getLast hne] at ha
  rcases List.mem_append.mp ha with ha | ha
  · exact absurd (hv.earlier a ha) hopen.not_closed
  · rw [List.mem_singleton.mp ha]
    exact List.getLast?_eq_some_getLast hne

theorem View.Linked.one_open (hv : v.Linked) :
    (v.attempts.filter (·.finishedAt.isNone)).length ≤ 1 := by
  rcases List.eq_nil_or_concat v.attempts with hnil | ⟨front, a, hconcat⟩
  · rw [hnil]
    simp
  · have hfront : front.filter (·.finishedAt.isNone) = [] := by
      refine List.filter_eq_nil_iff.mpr (fun b hb hnone => ?_)
      have hclosed : b.Closed := by
        refine hv.earlier b ?_
        rw [hconcat, List.concat_eq_append, List.dropLast_concat]
        exact hb
      exact AttemptRow.Open.not_closed (Option.isNone_iff_eq_none.mp hnone) hclosed
    rw [hconcat, List.concat_eq_append, List.filter_append, hfront, List.nil_append]
    exact List.length_filter_le _ [a]

theorem timeline_of_sound (hs : s.Sound) (hr : r ∈ s.tasks) : Timeline s r := by
  have hv := view?_of_mem hs hr
  have hsound := hs.views _ _ hv
  refine ⟨hsound.one_open, fun a ha hopen => ?_, hsound.ended, hsound.numbers⟩
  have hlast := hsound.open_last ha hopen
  have hcurrent := hsound.current
  rw [hlast] at hcurrent
  exact hcurrent

theorem agreement_iff (hs : s.Sound) (hr : r ∈ s.tasks) :
    Agreement s r ↔ View.Agrees ⟨r, s.attemptsOf r.taskId, s.terminalSummaries r.taskId⟩ := by
  have hv := view?_of_mem hs hr
  have hcurrent := (hs.views _ _ hv).current
  constructor
  · intro h
    refine ⟨h.idle, fun hterminal a hlast => ?_⟩
    refine h.outcome hterminal a (List.mem_of_getLast? hlast) ?_
    rw [hlast] at hcurrent
    exact hcurrent
  · intro h
    refine ⟨h.idle, fun hterminal a ha hid => ?_⟩
    obtain ⟨b, hlast, hsame⟩ := Option.map_eq_some_iff.mp (hcurrent.symm.trans hid)
    have hb := TaskStore.view?_mem hv (List.mem_of_getLast? hlast)
    have heq : b = a := hs.attempt_eq hb.1 (TaskStore.mem_attemptsOf.mp ha).1 hsame
    rw [← heq]
    exact h.outcome hterminal b hlast

theorem agreed_iff (hs : s.Sound) : Agreed s ↔ ∀ r ∈ s.tasks, Agreement s r := by
  constructor
  · intro h r hr
    exact (agreement_iff hs hr).mpr (h _ _ (view?_of_mem hs hr))
  · intro h t v hv
    obtain ⟨hrow, hattempts, hsum⟩ := TaskStore.view?_eq hv
    have hmem : v.row ∈ s.tasks := List.mem_of_find?_eq_some hrow
    have hid := TaskStore.task?_taskId hrow
    have hagrees := (agreement_iff hs hmem).mp (h v.row hmem)
    rw [hid, hattempts, hsum] at hagrees
    exact hagrees

/-- In every store that operations reach, a task's attempts are numbered through; at most one is
open, it is the current one, and none is under a status whose update closes it; a closed one stays;
terminal summaries number at most the entries into a terminal status, one for each; and the accepted
retries stay in the budget. The status agrees with the attempts all along exactly if each update
writes one that they admit. -/
theorem attempt_timeline (redact : String → String) (ops : List Op) :
    let reached := Transition.run (exec redact) TaskStore.empty
    (∀ r ∈ (reached ops).tasks, Timeline (reached ops) r ∧
        (reached ops).terminalSummaries r.taskId ≤ entries redact r.taskId .empty ops ∧
        acceptances redact r.taskId .empty ops ≤ r.budget) ∧
      (∀ pre, pre <+: ops → ∀ a ∈ (reached pre).attempts, a.finishedAt.isSome →
        (reached ops).attempt? a.attemptId = some a) ∧
      (∀ pre op more t, ops = pre ++ op :: more →
        entries redact t (reached (pre ++ [op])) more = 0 →
        (reached ops).terminalSummaries t ≤ (reached pre).terminalSummaries t + 1) ∧
      ((∀ pre, pre <+: ops → ∀ r ∈ (reached pre).tasks, Agreement (reached pre) r) ↔
        Transition.Guarded (exec redact) Disciplined .empty ops) := by
  intro reached
  have hsound : ∀ ops, (reached ops).Sound := fun ops => run_sound redact ops empty_sound
  refine ⟨fun r hr => ⟨timeline_of_sound (hsound ops) hr, ?_, ?_⟩, fun pre hpre a ha hclosed => ?_,
    fun pre op more t hsplit hnone => ?_, ?_⟩
  · have hcount := run_summaries redact empty_sound ops r.taskId
    have hstart : TaskStore.empty.terminalSummaries r.taskId + owed .empty r.taskId = 0 := rfl
    rw [hstart, Nat.zero_add] at hcount
    exact hcount
  · have hcount := run_counted redact empty_sound ops r.taskId
    have hbudget := ((hsound ops).views _ _ (view?_of_mem (hsound ops) hr)).budget
    have hcounted : counted (reached ops) r.taskId = r.retryCount := by
      rw [counted, (hsound ops).task?_of_mem hr]
      rfl
    have hstart : counted TaskStore.empty r.taskId = 0 := rfl
    rw [hstart, Nat.zero_add] at hcount
    have hsame : acceptances redact r.taskId .empty ops = r.retryCount := hcount.symm.trans hcounted
    rw [hsame]
    exact hbudget
  · obtain ⟨more, rfl⟩ := hpre
    refine (hsound _).attempt?_of_mem ?_
    show a ∈ (Transition.run (exec redact) .empty (pre ++ more)).attempts
    rw [Transition.run_append]
    exact run_closed redact (hsound pre) more ha hclosed
  · have hwhole : reached ops = Transition.run (exec redact) (reached (pre ++ [op])) more := by
      show Transition.run (exec redact) .empty ops = _
      rw [hsplit, List.append_cons, Transition.run_append]
    have hlast : reached (pre ++ [op]) = exec redact (reached pre) op := by
      show Transition.run (exec redact) .empty (pre ++ [op]) = _
      rw [Transition.run_append]
      rfl
    have hmore := run_summaries redact (hsound (pre ++ [op])) more t
    have hone := exec_one_summary redact (hsound pre) op t
    rw [← hlast] at hone
    rw [hwhole]
    omega
  · have hiff : ∀ pre, Agreed (reached pre) ↔ ∀ r ∈ (reached pre).tasks, Agreement (reached pre) r :=
      fun pre => agreed_iff (hsound pre)
    have hstart : Agreed TaskStore.empty := fun t v hv => by
      cases hv
    have hkeep : ∀ (s : TaskStore) (op : Op), s.Sound → (exec redact s op).Sound :=
      fun _ op hs => (exec_advances redact hs op).sound
    have hgood : ∀ (s : TaskStore) (op : Op), s.Sound → Agreed s →
        (Agreed (exec redact s op) ↔ Disciplined s op) :=
      fun _ op hs hagreed => exec_agreed_iff redact hs hagreed op
    rw [← Transition.prefixes_iff_guarded hkeep hgood empty_sound hstart ops]
    exact forall_congr' (fun pre => imp_congr_right (fun _ => (hiff pre).symm))

def setStatus (status : String) (now : Int) : Op :=
  .updateWithTrace "t" ⟨some status, none, none, none, none, none, none, none⟩ now

def strayStatus (statuses : List String) : TaskStore :=
  Transition.run (exec id) .empty
    (.create "t" "title" "flow" "\x7b\x7d" "owner" .bounded 1 none none 0 ::
      statuses.map (setStatus · 1))

theorem status_strays :
    (∃ r ∈ (strayStatus ["running", "interrupted"]).tasks, r.status = "interrupted" ∧
      ∃ a ∈ (strayStatus ["running", "interrupted"]).attemptsOf r.taskId, a.finishedAt = none) ∧
    (∃ r ∈ (strayStatus ["running", "completed", "failed"]).tasks, r.status = "failed" ∧
      ∃ a ∈ (strayStatus ["running", "completed", "failed"]).attemptsOf r.taskId,
        r.currentAttemptId = some a.attemptId ∧ a.status = "completed") := by
  decide +kernel

end Relux.Attempts
