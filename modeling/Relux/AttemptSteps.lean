import Mathlib.Data.List.Perm.Subperm
import Relux.AttemptTimeline

/-! Every operation of the task store lets each task take a turn of its timeline. -/

namespace Relux.Attempts

open View

namespace TaskStore

variable {s : TaskStore} {t t' : String}

def names (s : TaskStore) : List String := s.tasks.map (·.taskId)

def attemptsOf (s : TaskStore) (t : String) : List AttemptRow := s.attempts.filter (·.taskId == t)

def view? (s : TaskStore) (t : String) : Option View :=
  (s.task? t).map (fun r => ⟨r, s.attemptsOf t, s.terminalSummaries t⟩)

structure Framed (s : TaskStore) : Prop where
  keyed : s.names.Nodup
  ids : s.attempts.map (·.attemptId) = List.range' 1 s.attempts.length
  owned : ∀ a ∈ s.attempts, a.taskId ∈ s.names
  recorded : ∀ e ∈ s.events, e.taskId ∈ s.names

structure Sound (s : TaskStore) : Prop extends Framed s where
  views : ∀ t v, s.view? t = some v → v.Sound

variable {r : TaskRow}

theorem task?_taskId (h : s.task? t = some r) : r.taskId = t := by
  have hfound := List.find?_some h
  exact eq_of_beq hfound

theorem task?_isSome : (s.task? t).isSome ↔ t ∈ s.names := by
  rw [task?, List.find?_isSome, names, List.mem_map]
  constructor
  · rintro ⟨r, hr, heq⟩
    exact ⟨r, hr, eq_of_beq heq⟩
  · rintro ⟨r, hr, rfl⟩
    exact ⟨r, hr, beq_self_eq_true _⟩

theorem view?_isSome : (s.view? t).isSome ↔ t ∈ s.names := by
  rw [view?, Option.isSome_map]
  exact task?_isSome

theorem Framed.task?_of_mem (hs : s.Framed) (hr : r ∈ s.tasks) : s.task? r.taskId = some r := by
  obtain ⟨r', hr'⟩ := Option.isSome_iff_exists.mp (task?_isSome.mpr (List.mem_map_of_mem hr))
  have hmem : r' ∈ s.tasks := List.mem_of_find?_eq_some hr'
  have hsame : r' = r := List.inj_on_of_nodup_map hs.keyed hmem hr (task?_taskId hr')
  rw [hr', hsame]

theorem Framed.ids_nodup (hs : s.Framed) : (s.attempts.map (·.attemptId)).Nodup := by
  rw [hs.ids]
  exact List.nodup_range'

variable {a : AttemptRow}

theorem Framed.attempt_eq (hs : s.Framed) {b : AttemptRow} (ha : a ∈ s.attempts)
    (hb : b ∈ s.attempts) (h : a.attemptId = b.attemptId) : a = b :=
  List.inj_on_of_nodup_map hs.ids_nodup ha hb h

theorem Framed.attempt?_of_mem (hs : s.Framed) (ha : a ∈ s.attempts) :
    s.attempt? a.attemptId = some a := by
  have hsome : (s.attempt? a.attemptId).isSome := by
    rw [attempt?, List.find?_isSome]
    exact ⟨a, ha, beq_self_eq_true _⟩
  obtain ⟨b, hb⟩ := Option.isSome_iff_exists.mp hsome
  have hfound := List.find?_some hb
  have hid : b.attemptId = a.attemptId := eq_of_beq hfound
  rw [hb, hs.attempt_eq (List.mem_of_find?_eq_some hb) ha hid]

theorem mem_attemptsOf : a ∈ s.attemptsOf t ↔ a ∈ s.attempts ∧ a.taskId = t := by
  rw [attemptsOf, List.mem_filter, beq_iff_eq]

variable {v : View}

theorem view?_eq (h : s.view? t = some v) :
    s.task? t = some v.row ∧ s.attemptsOf t = v.attempts ∧ s.terminalSummaries t = v.summaries := by
  obtain ⟨r, hr, rfl⟩ := Option.map_eq_some_iff.mp h
  exact ⟨hr, rfl, rfl⟩

theorem view?_mem (h : s.view? t = some v) (ha : a ∈ v.attempts) :
    a ∈ s.attempts ∧ a.taskId = t := by
  rw [← (view?_eq h).2.1] at ha
  exact mem_attemptsOf.mp ha

theorem task?_modifyTask (f : TaskRow → TaskRow) (hf : ∀ r, (f r).taskId = r.taskId) :
    (s.modifyTask t f).task? t' = (s.task? t').map (fun r => if t' = t then f r else r) := by
  have hsame : ∀ r : TaskRow, (if r.taskId = t then f r else r).taskId = r.taskId := by
    intro r
    split
    · exact hf r
    · rfl
  rw [task?, modifyTask, List.find?_map]
  have hpred : ((fun r : TaskRow => r.taskId == t') ∘ fun r => if r.taskId = t then f r else r) =
      fun r => r.taskId == t' := funext (fun r => by simp [hsame])
  rw [hpred]
  cases hr : s.tasks.find? (fun r => r.taskId == t') with
  | none => simp [task?, hr]
  | some r =>
    have hid : r.taskId = t' := task?_taskId hr
    simp [task?, hr, hid]

theorem names_modifyTask (f : TaskRow → TaskRow) (hf : ∀ r, (f r).taskId = r.taskId) :
    (s.modifyTask t f).names = s.names := by
  rw [names, modifyTask, List.map_map]
  refine List.map_congr_left (fun r _ => ?_)
  show (if r.taskId = t then f r else r).taskId = r.taskId
  split
  · exact hf r
  · rfl

theorem view?_modifyTask (f : TaskRow → TaskRow) (hf : ∀ r, (f r).taskId = r.taskId) :
    (s.modifyTask t f).view? t' =
      (s.view? t').map (fun v => if t' = t then { v with row := f v.row } else v) := by
  rw [view?, task?_modifyTask f hf, view?, Option.map_map, Option.map_map]
  refine Option.map_congr (fun r _ => ?_)
  show View.mk _ _ _ = if t' = t then _ else _
  split
  · rfl
  · rfl

theorem Framed.modifyTask (hs : s.Framed) (f : TaskRow → TaskRow)
    (hf : ∀ r, (f r).taskId = r.taskId) : (s.modifyTask t f).Framed := by
  have hnames := names_modifyTask (s := s) (t := t) f hf
  exact ⟨by rw [hnames]; exact hs.keyed, hs.ids, by rw [hnames]; exact hs.owned,
    by rw [hnames]; exact hs.recorded⟩

variable {traceId json : Option String} {attemptId : Option Nat} {payload eventType taskId : String}
  {ts : Int}

theorem view?_insertTypedEvent :
    (s.insertTypedEvent taskId ts eventType payload attemptId traceId json).view? t =
      (s.view? t).map (fun v => { v with
        summaries := v.summaries +
          if taskId = t ∧ eventType = "task.terminal_summary" then 1 else 0 }) := by
  have hcount : (s.insertTypedEvent taskId ts eventType payload attemptId traceId
      json).terminalSummaries t = s.terminalSummaries t +
        if taskId = t ∧ eventType = "task.terminal_summary" then 1 else 0 := by
    simp only [terminalSummaries, insertTypedEvent, List.countP_append, List.countP_singleton,
      Bool.and_eq_true, beq_iff_eq]
  rw [view?, view?, Option.map_map, hcount]
  rfl

theorem view?_event (h : taskId ≠ t ∨ eventType ≠ "task.terminal_summary") :
    (s.insertTypedEvent taskId ts eventType payload attemptId traceId json).view? t =
      s.view? t := by
  have hno : ¬(taskId = t ∧ eventType = "task.terminal_summary") := by
    rintro ⟨h1, h2⟩
    exact h.elim (· h1) (· h2)
  rw [view?_insertTypedEvent]
  simp only [if_neg hno, Nat.add_zero]
  exact Option.map_id'

theorem Framed.insertTypedEvent (hs : s.Framed) (ht : taskId ∈ s.names) :
    (s.insertTypedEvent taskId ts eventType payload attemptId traceId json).Framed := by
  refine ⟨hs.keyed, hs.ids, hs.owned, fun e he => ?_⟩
  rcases List.mem_append.mp he with he | he
  · exact hs.recorded e he
  · rw [List.mem_singleton.mp he]
    exact ht

variable {aid : Nat}

theorem attemptsOf_modifyAttempt (f : AttemptRow → AttemptRow) (hf : ∀ a, (f a).taskId = a.taskId) :
    (s.modifyAttempt aid f).attemptsOf t =
      (s.attemptsOf t).map (fun a => if a.attemptId = aid then f a else a) := by
  have hsame : ∀ a : AttemptRow, (if a.attemptId = aid then f a else a).taskId = a.taskId := by
    intro a
    split
    · exact hf a
    · rfl
  rw [attemptsOf, modifyAttempt, List.filter_map]
  have hpred : ((fun a : AttemptRow => a.taskId == t) ∘
      fun a => if a.attemptId = aid then f a else a) = fun a => a.taskId == t :=
    funext (fun a => by simp [hsame])
  rw [hpred]
  rfl

theorem view?_modifyAttempt (f : AttemptRow → AttemptRow) (hf : ∀ a, (f a).taskId = a.taskId) :
    (s.modifyAttempt aid f).view? t = (s.view? t).map (fun v => { v with
      attempts := v.attempts.map (fun a => if a.attemptId = aid then f a else a) }) := by
  rw [view?, view?, Option.map_map, attemptsOf_modifyAttempt f hf]
  rfl

theorem Framed.view?_modifyAttempt_other (hs : s.Framed) (ha : a ∈ s.attempts) (hne : a.taskId ≠ t)
    (f : AttemptRow → AttemptRow) (hf : ∀ a, (f a).taskId = a.taskId) :
    (s.modifyAttempt a.attemptId f).view? t = s.view? t := by
  have hsame : (s.modifyAttempt a.attemptId f).attemptsOf t = s.attemptsOf t := by
    rw [attemptsOf_modifyAttempt f hf]
    refine (List.map_congr_left (fun b hb => ?_)).trans (List.map_id _)
    obtain ⟨hmem, howner⟩ := mem_attemptsOf.mp hb
    have hid : b.attemptId ≠ a.attemptId := fun hid =>
      hne ((hs.attempt_eq hmem ha hid) ▸ howner)
    exact if_neg hid
  rw [view?, hsame]
  rfl

theorem Framed.modifyAttempt (hs : s.Framed) (f : AttemptRow → AttemptRow)
    (hf : ∀ a, (f a).taskId = a.taskId) (hid : ∀ a, (f a).attemptId = a.attemptId) :
    (s.modifyAttempt aid f).Framed := by
  refine ⟨hs.keyed, ?_, fun a ha => ?_, hs.recorded⟩
  · have hsame : (s.modifyAttempt aid f).attempts.map (·.attemptId) =
        s.attempts.map (·.attemptId) := by
      rw [TaskStore.modifyAttempt, List.map_map]
      refine List.map_congr_left (fun a _ => ?_)
      show (if a.attemptId = aid then f a else a).attemptId = a.attemptId
      split
      · exact hid a
      · rfl
    rw [hsame, hs.ids, TaskStore.modifyAttempt, List.length_map]
  · obtain ⟨b, hb, rfl⟩ := List.mem_map.mp ha
    have howner := hs.owned b hb
    split
    · rw [hf b]
      exact howner
    · exact howner

structure Confined (t : String) (s s' : TaskStore) : Prop where
  framed : s'.Framed
  others : ∀ t', t' ≠ t → s'.view? t' = s.view? t'

theorem Confined.trans {s₁ s₂ : TaskStore} (h₁ : Confined t s s₁) (h₂ : Confined t s₁ s₂) :
    Confined t s s₂ :=
  ⟨h₂.framed, fun t' hne => (h₂.others t' hne).trans (h₁.others t' hne)⟩

theorem Framed.confined (hs : s.Framed) (t : String) : Confined t s s := ⟨hs, fun _ _ => rfl⟩

theorem view?_name (hv : s.view? t = some v) : t ∈ s.names := by
  rw [← view?_isSome, hv]
  rfl

theorem confined_modifyTask (hs : s.Framed) (f : TaskRow → TaskRow)
    (hf : ∀ r, (f r).taskId = r.taskId) : Confined t s (s.modifyTask t f) := by
  refine ⟨hs.modifyTask f hf, fun t' hne => ?_⟩
  rw [view?_modifyTask f hf]
  simp only [if_neg hne]
  exact Option.map_id'

theorem view?_modifyTask_same (hv : s.view? t = some v) (f : TaskRow → TaskRow)
    (hf : ∀ r, (f r).taskId = r.taskId) :
    (s.modifyTask t f).view? t = some { v with row := f v.row } := by
  rw [view?_modifyTask f hf, hv, Option.map_some, if_pos rfl]

theorem confined_event (hs : s.Framed) (ht : t ∈ s.names) :
    Confined t s (s.insertTypedEvent t ts eventType payload attemptId traceId json) :=
  ⟨hs.insertTypedEvent ht, fun _ hne => view?_event (.inl (Ne.symm hne))⟩

theorem view?_summary (hv : s.view? t = some v) :
    (s.insertTypedEvent t ts "task.terminal_summary" payload attemptId traceId json).view? t =
      some { v with summaries := v.summaries + 1 } := by
  rw [view?_insertTypedEvent, hv, Option.map_some, if_pos ⟨rfl, rfl⟩]

section
variable {v : View} {f : AttemptRow → AttemptRow} {status : String}

theorem closes_of_last (hs : s.Framed) (hv : s.view? t = some v) (hlinked : v.Linked)
    (hlast : v.attempts.getLast? = some a)
    (hid : ∀ b, (f b).attemptId = b.attemptId) (hnum : ∀ b, (f b).attemptNum = b.attemptNum)
    (hclose : a.Open → (f a).Closed ∧ (f a).status = status) (hfix : a.Closed → f a = a) :
    Closes (fun b => if b.attemptId = a.attemptId then f b else b) v.attempts status := by
  have hmem : a ∈ s.attempts := (view?_mem hv (List.mem_of_getLast? hlast)).1
  have hcase : ∀ b ∈ v.attempts, b = a ∨ (b.attemptId ≠ a.attemptId ∧ b.Closed) := by
    intro b hb
    by_cases hsame : b.attemptId = a.attemptId
    · exact .inl (hs.attempt_eq (view?_mem hv hb).1 hmem hsame)
    · refine .inr ⟨hsame, hlinked.earlier b ?_⟩
      obtain ⟨front, hfront⟩ := List.getLast?_eq_some_iff.mp hlast
      rw [hfront] at hb ⊢
      rw [List.dropLast_concat]
      rcases List.mem_append.mp hb with hb | hb
      · exact hb
      · exact absurd (congrArg AttemptRow.attemptId (List.mem_singleton.mp hb)) hsame
  constructor
  · intro b hb hclosed
    rcases hcase b hb with rfl | ⟨hne, -⟩
    · rw [if_pos rfl]
      exact hfix hclosed
    · exact if_neg hne
  · intro b hb hopen
    rcases hcase b hb with rfl | ⟨-, hclosed⟩
    · rw [if_pos rfl]
      exact (hclose hopen).1
    · exact absurd hclosed hopen.not_closed
  · intro b hb hopen
    rcases hcase b hb with rfl | ⟨-, hclosed⟩
    · rw [if_pos rfl]
      exact (hclose hopen).2
    · exact absurd hclosed hopen.not_closed
  · intro b _
    split
    · exact hid b
    · rfl
  · intro b _
    split
    · exact hnum b
    · rfl

theorem closes_id {as : List AttemptRow} (hclosed : ∀ a ∈ as, a.Closed) :
    Closes id as status where
  fixed := fun _ _ _ => rfl
  closed := fun a ha hopen => absurd (hclosed a ha) hopen.not_closed
  status := fun a ha hopen => absurd (hclosed a ha) hopen.not_closed
  attemptId := fun _ _ => rfl
  attemptNum := fun _ _ => rfl

theorem confined_modifyAttempt (hs : s.Framed) (hv : s.view? t = some v) (ha : a ∈ v.attempts)
    (hf : ∀ b, (f b).taskId = b.taskId) (hid : ∀ b, (f b).attemptId = b.attemptId) :
    Confined t s (s.modifyAttempt a.attemptId f) := by
  obtain ⟨hmem, howner⟩ := view?_mem hv ha
  refine ⟨hs.modifyAttempt f hf hid, fun t' hne => ?_⟩
  exact hs.view?_modifyAttempt_other hmem (by rw [howner]; exact Ne.symm hne) f hf

theorem attempt?_current (hs : s.Framed) (hv : s.view? t = some v) (hlinked : v.Linked) :
    v.row.currentAttemptId.bind s.attempt? = v.attempts.getLast? := by
  rw [hlinked.current]
  cases hlast : v.attempts.getLast? with
  | none => rfl
  | some a => exact hs.attempt?_of_mem (view?_mem hv (List.mem_of_getLast? hlast)).1

theorem openAttempt?_eq (hs : s.Framed) (hv : s.view? t = some v) (hlinked : v.Linked) :
    s.openAttempt? t = v.attempts.getLast?.filter (·.finishedAt.isNone) := by
  rw [← attempt?_current hs hv hlinked]
  cases haid : v.row.currentAttemptId with
  | none | some aid => simp only [openAttempt?, (view?_eq hv).1, haid]; rfl

theorem closeOpenAttemptIfAny_views (hs : s.Framed) (hv : s.view? t = some v)
    (hlinked : v.Linked) (status : String) (u : Update) (now : Int) :
    Confined t s (s.closeOpenAttemptIfAny t status u now) ∧ ∃ h, Closes h v.attempts status ∧
      (s.closeOpenAttemptIfAny t status u now).view? t =
        some { v with attempts := v.attempts.map h } := by
  have hopen? := openAttempt?_eq hs hv hlinked
  cases hcase : v.attempts.getLast?.filter (·.finishedAt.isNone) with
  | none =>
    rw [hcase] at hopen?
    have hclosed : ∀ a ∈ v.attempts, a.Closed := by
      refine hlinked.closed_of_last (fun a hlast => ?_)
      rw [hlast, Option.filter_eq_none_iff] at hcase
      have hnot := hcase a rfl
      rcases a.open_or_closed with hopen | hclosed
      · have hnone : a.finishedAt = none := hopen
        rw [hnone] at hnot
        exact absurd rfl hnot
      · exact hclosed
    have hsame : s.closeOpenAttemptIfAny t status u now = s := by
      rw [closeOpenAttemptIfAny, hopen?]
    rw [hsame]
    refine ⟨hs.confined t, id, closes_id hclosed, ?_⟩
    rw [List.map_id]
    exact hv
  | some a =>
    rw [hcase] at hopen?
    obtain ⟨hlast, hnone⟩ := Option.filter_eq_some_iff.mp hcase
    have ha : a ∈ v.attempts := List.mem_of_getLast? hlast
    have hopen : a.Open := Option.isNone_iff_eq_none.mp hnone
    have hcloses := closes_of_last (f := (·.closedAs status u now)) hs hv hlinked hlast
      (fun _ => rfl) (fun _ => rfl) (fun _ => ⟨rfl, rfl⟩)
      (fun hclosed => absurd hclosed hopen.not_closed)
    have hconfined := confined_modifyAttempt (f := (·.closedAs status u now)) hs hv ha
      (fun _ => rfl) (fun _ => rfl)
    simp only [closeOpenAttemptIfAny, hopen?]
    have hname : t ∈ s.names := view?_name hv
    refine ⟨hconfined.trans (confined_event hconfined.framed hname), _, hcloses, ?_⟩
    rw [view?_event (.inr (by decide)),
      view?_modifyAttempt (·.closedAs status u now) (fun _ => rfl), hv]
    rfl

theorem emitTerminalSummary_views (hs : s.Framed) (hv : s.view? t = some v) (status : String)
    (now : Int) :
    Confined t s (s.emitTerminalSummary t status now) ∧
      (s.emitTerminalSummary t status now).view? t =
        some { v with summaries := max v.summaries 1 } := by
  obtain ⟨hrow, -, hsum⟩ := view?_eq hv
  by_cases hpos : 0 < s.terminalSummaries t
  · rw [emitTerminalSummary, if_pos hpos]
    rw [hsum] at hpos
    rw [Nat.max_eq_left hpos]
    exact ⟨hs.confined t, hv⟩
  · simp only [emitTerminalSummary, if_neg hpos, hrow]
    rw [view?_summary hv]
    have hzero : v.summaries = 0 := by omega
    rw [hzero]
    exact ⟨confined_event hs (view?_name hv), rfl⟩

theorem confined_appendAttempt (hs : s.Framed) (hid : a.attemptId = s.attempts.length + 1)
    (hname : a.taskId ∈ s.names) : Confined a.taskId s (s.appendAttempt a) := by
  refine ⟨⟨hs.keyed, ?_, fun b hb => ?_, hs.recorded⟩, fun t' hne => ?_⟩
  · rw [appendAttempt, List.map_append, hs.ids, List.length_append]
    show _ ++ [a.attemptId] = List.range' 1 (s.attempts.length + 1)
    rw [hid, List.range'_concat]
    simp [Nat.add_comm]
  · rcases List.mem_append.mp hb with hb | hb
    · exact hs.owned b hb
    · rw [List.mem_singleton.mp hb]
      exact hname
  · have hnot : (a.taskId == t') = false := beq_false_of_ne (Ne.symm hne)
    simp [view?, task?, attemptsOf, terminalSummaries, appendAttempt, List.filter_append, hnot]

theorem view?_appendAttempt (hv : s.view? t = some v) (howner : a.taskId = t) :
    (s.appendAttempt a).view? t = some { v with attempts := v.attempts ++ [a] } := by
  obtain ⟨hrow, has, hsum⟩ := view?_eq hv
  have hattempts : (s.appendAttempt a).attemptsOf t = v.attempts ++ [a] := by
    rw [← has]
    simp [attemptsOf, appendAttempt, List.filter_append, howner]
  rw [view?, hattempts]
  show (s.task? t).map _ = _
  rw [hrow, ← hsum]
  rfl

theorem openAttempt_views (hs : s.Framed) (hv : s.view? t = some v) (traceId : Option String)
    (now : Int) :
    Confined t s (s.openAttempt v.row traceId now) ∧ ∃ a, a.Open ∧
      a.attemptNum = v.row.attemptCount + 1 ∧
      (s.openAttempt v.row traceId now).view? t =
        some { v with
          row := v.row.started (v.row.attemptCount + 1) a.attemptId
          attempts := v.attempts ++ [a] } := by
  have htask : v.row.taskId = t := task?_taskId (view?_eq hv).1
  have hname : t ∈ s.names := view?_name hv
  have hinsert : Confined t s (s.insertAttempt v.row traceId now) ∧ ∃ a, a.Open ∧
      a.attemptNum = v.row.attemptCount + 1 ∧
      (s.insertAttempt v.row traceId now).view? t =
        some { v with
          row := v.row.started (v.row.attemptCount + 1) a.attemptId
          attempts := v.attempts ++ [a] } := by
    simp only [insertAttempt, htask]
    generalize hnew : AttemptRow.running (s.attempts.length + 1) t (v.row.attemptCount + 1) now
      traceId = a
    have howner : a.taskId = t := by rw [← hnew]; rfl
    have hid : a.attemptId = s.attempts.length + 1 := by rw [← hnew]; rfl
    have happend := confined_appendAttempt hs hid (by rw [howner]; exact hname)
    rw [howner] at happend
    have hstart := confined_modifyTask (t := t) happend.framed
      (·.started (v.row.attemptCount + 1) (s.attempts.length + 1)) (fun _ => rfl)
    have hview := view?_appendAttempt hv howner
    refine ⟨(happend.trans hstart).trans (confined_event hstart.framed ?_), a, ?_, ?_, ?_⟩
    · rw [names_modifyTask (·.started (v.row.attemptCount + 1) (s.attempts.length + 1))
        (fun _ => rfl)]
      exact hname
    · rw [← hnew]
      rfl
    · rw [← hnew]
      rfl
    · rw [view?_event (.inr (by decide)), view?_modifyTask_same hview
        (·.started (v.row.attemptCount + 1) (s.attempts.length + 1)) (fun _ => rfl), hid]
  unfold openAttempt
  split
  · exact hinsert
  · obtain ⟨hconfined, a, hopen, hnum, hview⟩ := hinsert
    have hframed := hconfined.framed
    exact ⟨⟨⟨hframed.keyed, hframed.ids, hframed.owned, hframed.recorded⟩, hconfined.others⟩,
      a, hopen, hnum, hview⟩

theorem openAttemptIfNeeded_views (hs : s.Framed) (hv : s.view? t = some v) (hlinked : v.Linked)
    (traceId : Option String) (now : Int) :
    (∃ a, v.attempts.getLast? = some a ∧ a.Open ∧
        s.openAttemptIfNeeded t traceId now = .ok s) ∨
      ((∀ a ∈ v.attempts, a.Closed) ∧
        s.openAttemptIfNeeded t traceId now = .ok (s.openAttempt v.row traceId now)) := by
  have hcurrent := attempt?_current hs hv hlinked
  have hrow := (view?_eq hv).1
  have hid := hlinked.current
  cases hlast : v.attempts.getLast? with
  | none =>
    rw [hlast] at hid
    have hnone : v.attempts = [] := List.getLast?_eq_none_iff.mp hlast
    refine .inr ⟨fun a ha => absurd ha (by rw [hnone]; exact List.not_mem_nil), ?_⟩
    have hid' : v.row.currentAttemptId = none := hid
    simp only [openAttemptIfNeeded, hrow, hid']
  | some a =>
    rw [hlast] at hid hcurrent
    have hid' : v.row.currentAttemptId = some a.attemptId := hid
    rw [hid', Option.bind_some] at hcurrent
    rcases a.open_or_closed with hopen | hclosed
    · refine .inl ⟨a, rfl, hopen, ?_⟩
      have hnone : a.finishedAt.isNone := Option.isNone_iff_eq_none.mpr hopen
      simp only [openAttemptIfNeeded, hrow, hid', hcurrent, hnone, if_true]
    · refine .inr ⟨hlinked.closed_of_last (fun b hb => ?_), ?_⟩
      · rw [hlast] at hb
        rw [← Option.some.inj hb]
        exact hclosed
      · have hsome : ¬(a.finishedAt.isNone = true) := by
          rw [Option.isNone_iff_eq_none]
          exact fun hnone => AttemptRow.Open.not_closed hnone hclosed
        simp only [openAttemptIfNeeded, hrow, hid', hcurrent, if_neg hsome]

theorem markThrash_views (hs : s.Framed) (hv : s.view? t = some v) (hr : r.taskId = t)
    (cls : String) (now : Int) :
    Confined t s (s.markThrash r cls now) ∧ ∃ row, Kept v.row row ∧
      row.status = v.row.status ∧
      (s.markThrash r cls now).view? t = some { v with row := row } := by
  have hname : t ∈ s.names := view?_name hv
  by_cases hquiet : r.sameClassCount cls < antiThrashThreshold ∨ r.investigationMarkedAt.isSome
  · simp only [markThrash, if_pos hquiet]
    exact ⟨hs.confined t, v.row, Kept.refl _, rfl, hv⟩
  · have hmark := confined_modifyTask (t := t) hs (·.marked (r.autoReason cls) now) (fun _ => rfl)
    have hnamed : t ∈ (s.modifyTask t (·.marked (r.autoReason cls) now)).names := by
      rw [names_modifyTask (·.marked (r.autoReason cls) now) (fun _ => rfl)]
      exact hname
    simp only [markThrash, if_neg hquiet, hr]
    refine ⟨(hmark.trans (confined_event hmark.framed hnamed)).trans
      (confined_event (hmark.framed.insertTypedEvent hnamed) hnamed),
      v.row.marked (r.autoReason cls) now, ⟨rfl, rfl, rfl, rfl, rfl⟩, rfl, ?_⟩
    rw [view?_event (.inr (by decide)), view?_event (.inr (by decide)),
      view?_modifyTask_same hv (·.marked (r.autoReason cls) now) (fun _ => rfl)]

theorem marked_views (hs : s.Framed) (hv : s.view? t = some v) (redact : String → String)
    (u : Update) (now : Int) :
    Confined t s (u.failureClass.elim (s.modifyTask t (·.updated redact u now))
        (fun cls => (s.modifyTask t (·.updated redact u now)).markThrash v.row cls now)) ∧
      ∃ row, Kept v.row row ∧ row.status = u.status.getD v.row.status ∧
        (u.failureClass.elim (s.modifyTask t (·.updated redact u now))
          (fun cls => (s.modifyTask t (·.updated redact u now)).markThrash v.row cls
            now)).view? t = some { v with row := row } := by
  have hconfined := confined_modifyTask (t := t) hs (·.updated redact u now) (fun _ => rfl)
  have hview := view?_modifyTask_same hv (·.updated redact u now) (fun _ => rfl)
  have hkept : Kept v.row (v.row.updated redact u now) := ⟨rfl, rfl, rfl, rfl, rfl⟩
  cases u.failureClass with
  | none => exact ⟨hconfined, _, hkept, rfl, hview⟩
  | some cls =>
    obtain ⟨hmark, row, hkept', hstatus, hview'⟩ := markThrash_views hconfined.framed hview
      (r := v.row) (task?_taskId (view?_eq hv).1) cls now
    exact ⟨hconfined.trans hmark, row, hkept.trans hkept', hstatus, hview'⟩

theorem updateWithTrace_turn (hs : s.Framed) (hv : s.view? t = some v) (hsound : v.Sound)
    (redact : String → String) (u : Update) (now : Int) :
    ∃ s' v', s.updateWithTrace redact t u now = .ok s' ∧ Confined t s s' ∧
      s'.view? t = some v' ∧ Turn (.write u.status) v v' := by
  have hrow := (view?_eq hv).1
  obtain ⟨hconfined, row, hkept, hstatus, hview⟩ := marked_views hs hv redact u now
  simp only [updateWithTrace, hrow]
  have hlinked : Linked { v with row := row } := hkept.linked hsound.toLinked
  cases hwritten : u.status with
  | none =>
    rw [hwritten] at hstatus
    exact ⟨_, _, rfl, hconfined, hview, .touch hkept hstatus⟩
  | some status =>
    rw [hwritten] at hstatus
    have hstatus' : row.status = status := hstatus
    dsimp only
    by_cases hrunning : status = "running"
    · subst hrunning
      rcases openAttemptIfNeeded_views hconfined.framed hview hlinked u.traceId now with
        ⟨a, hlast, hopen, hsame⟩ | ⟨hclosed, hnew⟩
      · rw [hsame]
        exact ⟨_, _, rfl, hconfined, hview, .rerun hkept hstatus' hlast hopen⟩
      · obtain ⟨hopened, a, hopen, hnum, hview'⟩ := openAttempt_views hconfined.framed hview
          u.traceId now
        rw [hnew]
        refine ⟨_, _, rfl, hconfined.trans hopened, hview', ?_⟩
        have hnum' : a.attemptNum = v.row.attemptCount + 1 := by
          rw [hnum]
          show row.attemptCount + 1 = _
          rw [hkept.attemptCount]
        refine .start hstatus' ?_ rfl hkept.retryCount hkept.budget hclosed hnum' hopen
        show row.attemptCount + 1 = _
        rw [hkept.attemptCount]
    · rw [if_neg hrunning]
      by_cases hending : status = "completed" ∨ status = "failed" ∨ status = "cancelled"
      · rw [if_pos hending]
        obtain ⟨hclose, h, hcloses, hview'⟩ := closeOpenAttemptIfAny_views hconfined.framed hview
          hlinked status u now
        obtain ⟨hemit, hview''⟩ := emitTerminalSummary_views hclose.framed hview' status now
        refine ⟨_, _, rfl, (hconfined.trans hclose).trans hemit, hview'', ?_⟩
        have hmem : status ∈ endings := by
          simp only [endings, List.mem_cons, List.not_mem_nil, or_false]
          exact hending
        exact .finish hkept hstatus' hmem hcloses
      · rw [if_neg hending]
        refine ⟨_, _, rfl, hconfined, hview, .write hkept hstatus' hrunning ?_⟩
        simp only [endings, List.mem_cons, List.not_mem_nil, or_false]
        exact hending

theorem updateWithTrace_missing (h : s.task? t = none) (redact : String → String) (u : Update)
    (now : Int) : (s.updateWithTrace redact t u now).toOption = none := by
  simp only [updateWithTrace, h]
  rfl

theorem requestRetry_turn (hs : s.Framed) (hv : s.view? t = some v) (now : Int) :
    ∃ d s' v', s.requestRetry t now = .ok (d, s') ∧ Confined t s s' ∧ s'.view? t = some v' ∧
      (((∀ n b, d ≠ .accepted n b) ∧ v' = v) ∨ ((∃ n b, d = .accepted n b) ∧ Turn .retry v v')) := by
  have hrow := (view?_eq hv).1
  have hname : t ∈ s.names := view?_name hv
  simp only [requestRetry, hrow]
  by_cases hpaused : v.row.status = "paused" ∨ v.row.status = "frozen"
  · rw [if_pos hpaused]
    refine ⟨_, _, v, rfl, confined_event hs hname, ?_, .inl ⟨by simp, rfl⟩⟩
    rw [view?_event (.inr (by decide))]
    exact hv
  · rw [if_neg hpaused]
    by_cases hbad : v.row.status ≠ "failed" ∧ v.row.status ≠ "interrupted"
    · rw [if_pos hbad]
      exact ⟨_, _, v, rfl, hs.confined t, hv, .inl ⟨by simp, rfl⟩⟩
    · rw [if_neg hbad]
      by_cases hnone : v.row.retryPolicy = "none"
      · rw [if_pos hnone]
        exact ⟨_, _, v, rfl, hs.confined t, hv, .inl ⟨by simp, rfl⟩⟩
      · rw [if_neg hnone]
        by_cases hspent : v.row.budget ≤ v.row.retryCount
        · rw [if_pos hspent]
          refine ⟨_, _, v, rfl, confined_event hs hname, ?_, .inl ⟨by simp, rfl⟩⟩
          rw [view?_event (.inr (by decide))]
          exact hv
        · rw [if_neg hspent]
          have hmod := confined_modifyTask (t := t) hs
            (·.retrying (v.row.retryCount + 1) now) (fun _ => rfl)
          refine ⟨_, _, { v with row := v.row.retrying (v.row.retryCount + 1) now }, rfl,
            hmod.trans (confined_event hmod.framed ?_), ?_, .inr ⟨⟨_, _, rfl⟩, ?_⟩⟩
          · rw [names_modifyTask (·.retrying (v.row.retryCount + 1) now) (fun _ => rfl)]
            exact hname
          · rw [view?_event (.inr (by decide)), view?_modifyTask_same hv
              (·.retrying (v.row.retryCount + 1) now) (fun _ => rfl)]
          · have hwas : v.row.status = "failed" ∨ v.row.status = "interrupted" := by
              by_cases hfailed : v.row.status = "failed"
              · exact .inl hfailed
              · exact .inr (Classical.not_not.mp (fun h => hbad ⟨hfailed, h⟩))
            exact .retry hwas (by omega) rfl rfl rfl rfl rfl

variable {s' : TaskStore} {v' : View}

theorem Sound.step (hs : s.Sound) (hconfined : Confined t s s')
    (hv : s.view? t = some v) (hv' : s'.view? t = some v') {c : Cause} (hturn : Turn c v v') :
    s'.Sound := by
  refine ⟨hconfined.framed, fun t' w hw => ?_⟩
  by_cases hsame : t' = t
  · subst hsame
    rw [hv'] at hw
    rw [← Option.some.inj hw]
    exact hturn.sound (hs.views t' v hv)
  · rw [hconfined.others t' hsame] at hw
    exact hs.views t' w hw

structure Scanned (s s' : TaskStore) : Prop where
  turns : ∀ t v, s.view? t = some v → ∃ v', s'.view? t = some v' ∧ Turn .scan v v'
  missing : ∀ t, s.view? t = none → s'.view? t = none

theorem Scanned.refl (s : TaskStore) : Scanned s s := ⟨fun _ v hv => ⟨v, hv, .idle⟩, fun _ h => h⟩

theorem Scanned.trans {s₁ s₂ : TaskStore} (h₁ : Scanned s s₁) (h₂ : Scanned s₁ s₂) :
    Scanned s s₂ := by
  refine ⟨fun t v hv => ?_, fun t hnone => h₂.missing t (h₁.missing t hnone)⟩
  obtain ⟨v₁, hv₁, hturn₁⟩ := h₁.turns t v hv
  obtain ⟨v₂, hv₂, hturn₂⟩ := h₂.turns t v₁ hv₁
  exact ⟨v₂, hv₂, hturn₁.scan_trans hturn₂⟩

theorem Confined.scanned (hconfined : Confined t s s')
    (hv : s.view? t = some v) (hv' : s'.view? t = some v') (hturn : Turn .scan v v') :
    Scanned s s' := by
  constructor
  · intro t' w hw
    by_cases hsame : t' = t
    · subst hsame
      rw [hv] at hw
      rw [← Option.some.inj hw]
      exact ⟨v', hv', hturn⟩
    · exact ⟨w, (hconfined.others t' hsame).trans hw, .idle⟩
  · intro t' hnone
    by_cases hsame : t' = t
    · rw [hsame, hv] at hnone
      exact absurd hnone (by simp)
    · exact (hconfined.others t' hsame).trans hnone

theorem foldl_scanned {α : Type} {f : TaskStore → α → TaskStore} (ready : TaskStore → α → Prop)
    (hstep : ∀ s x, Sound s → ready s x → Sound (f s x) ∧ Scanned s (f s x))
    (hready : ∀ s s' x, ready s x → Scanned s s' → ready s' x) (xs : List α) (hs : s.Sound)
    (hxs : ∀ x ∈ xs, ready s x) : (xs.foldl f s).Sound ∧ Scanned s (xs.foldl f s) := by
  induction xs generalizing s with
  | nil => exact ⟨hs, Scanned.refl s⟩
  | cons x xs ih =>
    obtain ⟨hs', hscanned⟩ := hstep s x hs (hxs x List.mem_cons_self)
    obtain ⟨hs'', hscanned'⟩ := ih hs' (fun y hy =>
      hready s (f s x) y (hxs y (List.mem_cons_of_mem x hy)) hscanned)
    exact ⟨hs'', hscanned.trans hscanned'⟩

def Current (s : TaskStore) (c : Overdue) : Prop :=
  ∃ v, s.view? c.taskId = some v ∧
    (v.row.status = "running" → c.currentAttempt = v.row.currentAttemptId)

theorem any_running_iff (hs : s.Framed) (hv : s.view? t = some v) :
    s.tasks.any (fun r => r.taskId == t && r.status == "running") = true ↔
      v.row.status = "running" := by
  have hrow := (view?_eq hv).1
  rw [List.any_eq_true]
  constructor
  · rintro ⟨r, hr, hcond⟩
    obtain ⟨hid, hstatus⟩ := Bool.and_eq_true_iff.mp hcond
    have hfound := hs.task?_of_mem hr
    rw [eq_of_beq hid, hrow] at hfound
    rw [Option.some.inj hfound]
    exact eq_of_beq hstatus
  · intro hstatus
    have hmem : v.row ∈ s.tasks := List.mem_of_find?_eq_some hrow
    exact ⟨v.row, hmem, by rw [task?_taskId hrow, hstatus]; simp⟩

theorem interrupted_taskId {cause : String} {now : Int} (r : TaskRow) :
    (r.interrupted cause now).taskId = r.taskId := by
  unfold TaskRow.interrupted
  split
  · rfl
  · rfl

variable {c : Overdue}

theorem markInterrupted_views (hs : s.Framed) (hv : s.view? c.taskId = some v)
    (hrunning : v.row.status = "running") (now : Int) :
    Confined c.taskId s (s.markInterrupted c now) ∧ ∃ row, Kept v.row row ∧
      row.status = "interrupted" ∧
      (s.markInterrupted c now).view? c.taskId = some { v with row := row } := by
  have hmod := confined_modifyTask (t := c.taskId) hs (·.interrupted (c.cause now) now)
    interrupted_taskId
  have hname : c.taskId ∈ (s.modifyTask c.taskId (·.interrupted (c.cause now) now)).names := by
    rw [names_modifyTask (·.interrupted (c.cause now) now) interrupted_taskId]
    exact view?_name hv
  have hrow : v.row.interrupted (c.cause now) now = { v.row with
      status := "interrupted"
      updatedAt := now
      lastFailureReason := some (c.cause now)
      lastFailureClass := some "timeout" } := if_pos hrunning
  have hkept : Kept v.row (v.row.interrupted (c.cause now) now) := by
    rw [hrow]
    exact ⟨rfl, rfl, rfl, rfl, rfl⟩
  refine ⟨hmod.trans (confined_event hmod.framed hname), _, hkept, by rw [hrow], ?_⟩
  rw [markInterrupted, view?_event (.inr (by decide)),
    view?_modifyTask_same hv (·.interrupted (c.cause now) now) interrupted_taskId]

section
variable {now : Int} {cause : String} {a : AttemptRow}

theorem timedOut_closed (h : a.Closed) : a.timedOut cause now = a := by
  have hnot : ¬(a.finishedAt.isNone = true) := by
    rw [Option.isNone_iff_eq_none]
    exact fun hnone => AttemptRow.Open.not_closed hnone h
  exact if_neg hnot

theorem timedOut_keys (a : AttemptRow) :
    (a.timedOut cause now).taskId = a.taskId ∧ (a.timedOut cause now).attemptId = a.attemptId ∧
      (a.timedOut cause now).attemptNum = a.attemptNum := by
  unfold AttemptRow.timedOut
  split
  · exact ⟨rfl, rfl, rfl⟩
  · exact ⟨rfl, rfl, rfl⟩

theorem timedOut_open (h : a.Open) :
    (a.timedOut cause now).Closed ∧ (a.timedOut cause now).status = "interrupted" := by
  have hnone : a.finishedAt.isNone = true := Option.isNone_iff_eq_none.mpr h
  rw [AttemptRow.timedOut, if_pos hnone]
  exact ⟨rfl, rfl⟩

theorem orphaned_closed (h : a.Closed) : a.orphaned now = a := by
  have hnot : ¬(a.finishedAt.isNone = true) := by
    rw [Option.isNone_iff_eq_none]
    exact fun hnone => AttemptRow.Open.not_closed hnone h
  exact if_neg hnot

theorem orphaned_keys (a : AttemptRow) :
    (a.orphaned now).taskId = a.taskId ∧ (a.orphaned now).attemptId = a.attemptId ∧
      (a.orphaned now).attemptNum = a.attemptNum := by
  unfold AttemptRow.orphaned
  split
  · exact ⟨rfl, rfl, rfl⟩
  · exact ⟨rfl, rfl, rfl⟩

theorem orphaned_open (h : a.Open) :
    (a.orphaned now).Closed ∧ (a.orphaned now).status = "interrupted" := by
  have hnone : a.finishedAt.isNone = true := Option.isNone_iff_eq_none.mpr h
  rw [AttemptRow.orphaned, if_pos hnone]
  exact ⟨rfl, rfl⟩

end

theorem closeInterrupted_views (hs : s.Framed) (hv : s.view? c.taskId = some v) (hlinked : v.Linked)
    (hcurrent : c.currentAttempt = v.row.currentAttemptId) (now : Int) :
    Confined c.taskId s (s.closeInterrupted c now) ∧ ∃ h, Closes h v.attempts "interrupted" ∧
      (s.closeInterrupted c now).view? c.taskId = some { v with attempts := v.attempts.map h } := by
  have hid := hcurrent.trans hlinked.current
  cases hlast : v.attempts.getLast? with
  | none =>
    rw [hlast] at hid
    have hnone : v.attempts = [] := List.getLast?_eq_none_iff.mp hlast
    have hsame : s.closeInterrupted c now = s := by
      have hid' : c.currentAttempt = none := hid
      rw [closeInterrupted, hid']
    rw [hsame]
    refine ⟨hs.confined _, id, closes_id (fun a ha => ?_), ?_⟩
    · rw [hnone] at ha
      exact absurd ha List.not_mem_nil
    · rw [List.map_id]
      exact hv
  | some a =>
    rw [hlast] at hid
    have hid' : c.currentAttempt = some a.attemptId := hid
    have ha : a ∈ v.attempts := List.mem_of_getLast? hlast
    have hcloses := closes_of_last (f := (·.timedOut (c.cause now) now)) hs hv hlinked hlast
      (fun b => (timedOut_keys b).2.1) (fun b => (timedOut_keys b).2.2) timedOut_open
      timedOut_closed
    have hconfined := confined_modifyAttempt (f := (·.timedOut (c.cause now) now)) hs hv ha
      (fun b => (timedOut_keys b).1) (fun b => (timedOut_keys b).2.1)
    have hname : c.taskId ∈ s.names := view?_name hv
    simp only [closeInterrupted, hid']
    refine ⟨hconfined.trans (confined_event hconfined.framed hname), _, hcloses, ?_⟩
    rw [view?_event (.inr (by decide)), view?_modifyAttempt (·.timedOut (c.cause now) now)
      (fun b => (timedOut_keys b).1), hv]
    rfl

theorem interruptOverdue_scanned (hs : s.Sound) (now : Int) (hc : Current s c) :
    (s.interruptOverdue now c).Sound ∧ Scanned s (s.interruptOverdue now c) := by
  obtain ⟨v, hv, hcurrent⟩ := hc
  have hiff := any_running_iff hs.toFramed hv
  by_cases hrunning : v.row.status = "running"
  · have hsound := hs.views c.taskId v hv
    obtain ⟨hmark, row, hkept, hstatus, hview⟩ := markInterrupted_views hs.toFramed hv hrunning now
    have hlinked := hkept.linked hsound.toLinked
    obtain ⟨hclose, h, hcloses, hview'⟩ := closeInterrupted_views hmark.framed hview hlinked
      ((hcurrent hrunning).trans hkept.currentAttemptId.symm) now
    have hall : Confined c.taskId s (((s.markInterrupted c now).closeInterrupted c
        now).summarizeInterrupted c now) :=
      (hmark.trans hclose).trans (confined_event hclose.framed (view?_name hview'))
    have hviewed : (((s.markInterrupted c now).closeInterrupted c now).summarizeInterrupted c
        now).view? c.taskId = some ⟨row, v.attempts.map h, v.summaries + 1⟩ :=
      view?_summary hview'
    have hturn := Turn.interrupt hkept hrunning hstatus hcloses
    rw [interruptOverdue, if_pos (hiff.mpr hrunning)]
    exact ⟨hs.step hall hv hviewed hturn, hall.scanned hv hviewed hturn⟩
  · have hany : ¬(s.tasks.any (fun r => r.taskId == c.taskId && r.status == "running") = true) :=
      fun h => hrunning (hiff.mp h)
    rw [interruptOverdue, if_neg hany]
    exact ⟨hs, Scanned.refl s⟩

def Stray (s : TaskStore) (orphan : AttemptRow × String) : Prop :=
  ∃ v, s.view? orphan.1.taskId = some v ∧ v.row.status ∈ terminalStatuses ∧
    ∃ b ∈ v.attempts, b.attemptId = orphan.1.attemptId

theorem closeOrphan_scanned (hs : s.Sound) (now : Int) {orphan : AttemptRow × String}
    (ho : Stray s orphan) :
    (s.closeOrphan now orphan).Sound ∧ Scanned s (s.closeOrphan now orphan) := by
  obtain ⟨v, hv, hterminal, b, hb, hid⟩ := ho
  have hlinked := (hs.views _ v hv).toLinked
  have hname : orphan.1.taskId ∈ s.names := view?_name hv
  have hconfined := confined_modifyAttempt (f := (·.orphaned now)) hs.toFramed hv hb
    (fun a => (orphaned_keys a).1) (fun a => (orphaned_keys a).2.1)
  rw [hid] at hconfined
  have hall : Confined orphan.1.taskId s (s.closeOrphan now orphan) :=
    hconfined.trans (confined_event hconfined.framed hname)
  have hview : (s.closeOrphan now orphan).view? orphan.1.taskId = some { v with
      attempts := v.attempts.map
        (fun a => if a.attemptId = orphan.1.attemptId then a.orphaned now else a) } := by
    rw [closeOrphan, view?_event (.inr (by decide)),
      view?_modifyAttempt (·.orphaned now) (fun a => (orphaned_keys a).1), hv]
    rfl
  have hcloses : Closes (fun a => if a.attemptId = orphan.1.attemptId then a.orphaned now else a)
      v.attempts "interrupted" ∨ v.attempts.map
        (fun a => if a.attemptId = orphan.1.attemptId then a.orphaned now else a) = v.attempts := by
    rcases b.open_or_closed with hopen | hclosed
    · have hlast : v.attempts.getLast? = some b := by
        have hne : v.attempts ≠ [] := List.ne_nil_of_mem hb
        rw [← List.dropLast_append_getLast hne] at hb
        rcases List.mem_append.mp hb with hb | hb
        · exact absurd (hlinked.earlier b hb) hopen.not_closed
        · rw [List.mem_singleton.mp hb]
          exact List.getLast?_eq_some_getLast hne
      rw [← hid]
      exact .inl (closes_of_last (f := (·.orphaned now)) hs.toFramed hv hlinked hlast
        (fun a => (orphaned_keys a).2.1) (fun a => (orphaned_keys a).2.2) orphaned_open
        orphaned_closed)
    · refine .inr ((List.map_congr_left (fun a ha => ?_)).trans (List.map_id _))
      split
      · rename_i hsame
        have heq : a = b := hs.attempt_eq (view?_mem hv ha).1 (view?_mem hv hb).1
          (hsame.trans hid.symm)
        rw [heq]
        exact orphaned_closed hclosed
      · rfl
  have hturn : Turn .scan v { v with
      attempts := v.attempts.map
        (fun a => if a.attemptId = orphan.1.attemptId then a.orphaned now else a) } := by
    rcases hcloses with hcloses | hsame
    · exact .orphan hterminal hcloses
    · rw [hsame]
      exact .idle
  exact ⟨hs.step hall hv hview hturn, hall.scanned hv hview hturn⟩

theorem closeOrphanAttempts_scanned (hs : s.Sound) (now : Int) :
    (s.closeOrphanAttempts now).2.Sound ∧ Scanned s (s.closeOrphanAttempts now).2 := by
  refine foldl_scanned Stray (fun s o hs ho => closeOrphan_scanned hs now ho)
    (fun s s' o ho hscanned => ?_) s.orphans hs (fun o ho => ?_)
  · obtain ⟨v, hv, hterminal, b, hb, hid⟩ := ho
    obtain ⟨v', hv', hturn⟩ := hscanned.turns _ v hv
    obtain ⟨b', hb', hid'⟩ := hturn.scan_mem hb
    exact ⟨v', hv', hturn.scan_terminal hterminal, b', hb', hid'.trans hid⟩
  · obtain ⟨a, ha, hsome⟩ := List.mem_filterMap.mp ho
    split at hsome
    · exact absurd hsome (by simp)
    · obtain ⟨r, hr, hpair⟩ := Option.map_eq_some_iff.mp hsome
      obtain ⟨hrow, hterminal⟩ := Option.filter_eq_some_iff.mp hr
      rw [← hpair]
      refine ⟨⟨r, s.attemptsOf a.taskId, s.terminalSummaries a.taskId⟩, ?_, ?_, a, ?_, rfl⟩
      · rw [view?, hrow]
        rfl
      · exact List.contains_iff_mem.mp hterminal
      · exact mem_attemptsOf.mpr ⟨ha, rfl⟩

theorem overdue_current (hs : s.Framed) (hr : r ∈ s.tasks) {now : Int}
    (h : s.overdue now r = some c) : Current s c := by
  unfold overdue at h
  split at h
  · obtain ⟨max, -, h⟩ := Option.bind_eq_some_iff.mp h
    obtain ⟨started, -, h⟩ := Option.bind_eq_some_iff.mp h
    split at h
    · rw [← Option.some.inj h]
      refine ⟨⟨r, s.attemptsOf r.taskId, s.terminalSummaries r.taskId⟩, ?_, fun _ => rfl⟩
      rw [view?, hs.task?_of_mem hr]
      rfl
    · exact absurd h (by simp)
  · exact absurd h (by simp)

theorem recoverInterrupted_scanned (hs : s.Sound) (now : Int) :
    (s.recoverInterrupted now).2.Sound ∧ Scanned s (s.recoverInterrupted now).2 := by
  have hloop := foldl_scanned Current
    (fun s c hs hc => interruptOverdue_scanned hs now hc) (fun s s' c hc hscanned => by
      obtain ⟨v, hv, hcurrent⟩ := hc
      obtain ⟨v', hv', hturn⟩ := hscanned.turns _ v hv
      refine ⟨v', hv', fun hrunning => ?_⟩
      obtain rfl := hturn.scan_running hrunning
      exact hcurrent hrunning) (s.tasks.filterMap (s.overdue now)) hs (fun c hc => by
      obtain ⟨r, hr, hsome⟩ := List.mem_filterMap.mp hc
      exact overdue_current hs.toFramed hr hsome)
  have hclosed := closeOrphanAttempts_scanned hloop.1 now
  exact ⟨hclosed.1, hloop.2.trans hclosed.2⟩

end

end TaskStore

end Relux.Attempts
