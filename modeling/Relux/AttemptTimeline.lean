import Mathlib.Data.List.Nodup
import Relux.TaskAttempts
import Relux.Transition

/-! What one operation does to the timeline of one task: a timeline takes turns, and what
every turn keeps holds of every task after any operations. -/

namespace Relux.Attempts

def endings : List String := ["completed", "failed", "cancelled"]

def AttemptRow.Open (a : AttemptRow) : Prop := a.finishedAt = none

def AttemptRow.Closed (a : AttemptRow) : Prop := a.finishedAt.isSome

theorem AttemptRow.open_or_closed (a : AttemptRow) : a.Open ∨ a.Closed := by
  cases h : a.finishedAt with
  | none => exact .inl h
  | some now => exact .inr (by simp [Closed, h])

variable {a : AttemptRow}

theorem AttemptRow.Open.not_closed (h : a.Open) : ¬a.Closed := by
  have hnone : a.finishedAt = none := h
  simp [Closed, hnone]

structure View where
  row : TaskRow
  attempts : List AttemptRow
  summaries : Nat

namespace View

variable {v v' : View}

structure Kept (r r' : TaskRow) : Prop where
  taskId : r'.taskId = r.taskId
  attemptCount : r'.attemptCount = r.attemptCount
  currentAttemptId : r'.currentAttemptId = r.currentAttemptId
  retryCount : r'.retryCount = r.retryCount
  budget : r'.budget = r.budget

structure Closes (h : AttemptRow → AttemptRow) (as : List AttemptRow) (status : String) :
    Prop where
  fixed : ∀ a ∈ as, a.Closed → h a = a
  closed : ∀ a ∈ as, a.Open → (h a).Closed
  status : ∀ a ∈ as, a.Open → (h a).status = status
  attemptId : ∀ a ∈ as, (h a).attemptId = a.attemptId
  attemptNum : ∀ a ∈ as, (h a).attemptNum = a.attemptNum

/-- What a turn is due to: an update and the status that it writes, an accepted retry, or one of
the two scans. -/
inductive Cause
  | write (status : Option String)
  | retry
  | scan

inductive Turn : Cause → View → View → Prop
  | touch {v : View} {row : TaskRow} (hkept : Kept v.row row)
      (hstatus : row.status = v.row.status) : Turn (.write none) v { v with row := row }
  | write {v : View} {row : TaskRow} {status : String} (hkept : Kept v.row row)
      (hstatus : row.status = status) (hrunning : status ≠ "running")
      (hending : status ∉ endings) : Turn (.write (some status)) v { v with row := row }
  | rerun {v : View} {row : TaskRow} {a : AttemptRow} (hkept : Kept v.row row)
      (hstatus : row.status = "running") (hlast : v.attempts.getLast? = some a)
      (hopen : a.Open) : Turn (.write (some "running")) v { v with row := row }
  | start {v : View} {row : TaskRow} {a : AttemptRow} (hstatus : row.status = "running")
      (hcount : row.attemptCount = v.row.attemptCount + 1)
      (hcurrent : row.currentAttemptId = some a.attemptId)
      (hretry : row.retryCount = v.row.retryCount) (hbudget : row.budget = v.row.budget)
      (hclosed : ∀ b ∈ v.attempts, b.Closed) (hnum : a.attemptNum = v.row.attemptCount + 1)
      (hopen : a.Open) :
      Turn (.write (some "running")) v { v with row := row, attempts := v.attempts ++ [a] }
  | finish {v : View} {row : TaskRow} {status : String} {h : AttemptRow → AttemptRow}
      (hkept : Kept v.row row) (hstatus : row.status = status) (hending : status ∈ endings)
      (hcloses : Closes h v.attempts status) :
      Turn (.write (some status)) v
        { row := row, attempts := v.attempts.map h, summaries := max v.summaries 1 }
  | retry {v : View} {row : TaskRow}
      (hbad : v.row.status = "failed" ∨ v.row.status = "interrupted")
      (hbudget : v.row.retryCount < v.row.budget) (hstatus : row.status = "retrying")
      (hretry : row.retryCount = v.row.retryCount + 1)
      (hcount : row.attemptCount = v.row.attemptCount)
      (hcurrent : row.currentAttemptId = v.row.currentAttemptId)
      (hsame : row.budget = v.row.budget) : Turn .retry v { v with row := row }
  | idle {v : View} : Turn .scan v v
  | interrupt {v : View} {row : TaskRow} {h : AttemptRow → AttemptRow} (hkept : Kept v.row row)
      (hrunning : v.row.status = "running") (hstatus : row.status = "interrupted")
      (hcloses : Closes h v.attempts "interrupted") :
      Turn .scan v { row := row, attempts := v.attempts.map h, summaries := v.summaries + 1 }
  | orphan {v : View} {h : AttemptRow → AttemptRow} (hterminal : v.row.status ∈ terminalStatuses)
      (hcloses : Closes h v.attempts "interrupted") :
      Turn .scan v { v with attempts := v.attempts.map h }

structure Linked (v : View) : Prop where
  current : v.row.currentAttemptId = v.attempts.getLast?.map (·.attemptId)
  earlier : ∀ a ∈ v.attempts.dropLast, a.Closed

structure Sound (v : View) : Prop extends Linked v where
  numbers : v.attempts.map (·.attemptNum) = List.range' 1 v.row.attemptCount
  running : v.row.status = "running" → ∃ a, v.attempts.getLast? = some a ∧ a.Open
  ended : v.row.status ∈ endings → ∀ a ∈ v.attempts, a.Closed
  budget : v.row.retryCount ≤ v.row.budget

structure Agrees (v : View) : Prop where
  idle : v.row.status = "interrupted" ∨ v.row.status = "retrying" → ∀ a ∈ v.attempts, a.Closed
  outcome : v.row.status ∈ terminalStatuses →
    ∀ a, v.attempts.getLast? = some a → a.status = v.row.status

/-- The timeline lets an update write the status: there is no open attempt to leave behind, and
the attempt that is closed already ended in it. -/
structure Admits (v : View) (status : String) : Prop where
  idle : status = "interrupted" ∨ status = "retrying" → ∀ a ∈ v.attempts, a.Closed
  outcome : status ∈ terminalStatuses →
    ∀ a, v.attempts.getLast? = some a → a.Closed → a.status = status

theorem Kept.refl (r : TaskRow) : Kept r r := ⟨rfl, rfl, rfl, rfl, rfl⟩

theorem Kept.trans {r r' r'' : TaskRow} (h₁ : Kept r r') (h₂ : Kept r' r'') : Kept r r'' :=
  ⟨h₂.taskId.trans h₁.taskId, h₂.attemptCount.trans h₁.attemptCount,
    h₂.currentAttemptId.trans h₁.currentAttemptId, h₂.retryCount.trans h₁.retryCount,
    h₂.budget.trans h₁.budget⟩

variable {row : TaskRow}

theorem Kept.linked (hkept : Kept v.row row) (hv : v.Linked) : Linked { v with row := row } :=
  ⟨hkept.currentAttemptId.trans hv.current, hv.earlier⟩

theorem Linked.closed_of_last (hv : v.Linked)
    (hlast : ∀ a, v.attempts.getLast? = some a → a.Closed) : ∀ a ∈ v.attempts, a.Closed := by
  intro a ha
  have hne : v.attempts ≠ [] := List.ne_nil_of_mem ha
  rw [← List.dropLast_append_getLast hne] at ha
  rcases List.mem_append.mp ha with ha | ha
  · exact hv.earlier a ha
  · have hlast' := hlast _ (List.getLast?_eq_some_getLast hne)
    rw [List.mem_singleton.mp ha]
    exact hlast'

section
variable {h : AttemptRow → AttemptRow} {as : List AttemptRow} {status : String}

theorem Closes.all_closed (hcloses : Closes h as status) : ∀ a ∈ as.map h, a.Closed := by
  intro a ha
  obtain ⟨b, hb, rfl⟩ := List.mem_map.mp ha
  rcases b.open_or_closed with hopen | hclosed
  · exact hcloses.closed b hb hopen
  · rw [hcloses.fixed b hb hclosed]
    exact hclosed

theorem Closes.map_attemptNum (hcloses : Closes h as status) :
    (as.map h).map (·.attemptNum) = as.map (·.attemptNum) := by
  rw [List.map_map]
  exact List.map_congr_left (fun a ha => hcloses.attemptNum a ha)

theorem Closes.last_id (hcloses : Closes h as status) :
    (as.map h).getLast?.map (·.attemptId) = as.getLast?.map (·.attemptId) := by
  rw [List.getLast?_map]
  cases hlast : as.getLast? with
  | none => rfl
  | some a => simp [hcloses.attemptId a (List.mem_of_getLast? hlast)]

theorem Closes.linked (hcloses : Closes h as status) {n : Nat}
    (hcurrent : row.currentAttemptId = as.getLast?.map (·.attemptId)) :
    Linked ⟨row, as.map h, n⟩ where
  current := by rw [hcurrent, hcloses.last_id]
  earlier := fun a ha => hcloses.all_closed a (List.dropLast_subset _ ha)

theorem Closes.map_eq (hcloses : Closes h as status) (hclosed : ∀ a ∈ as, a.Closed) :
    as.map h = as := by
  have hsame : as.map h = as.map id :=
    List.map_congr_left (fun a ha => hcloses.fixed a ha (hclosed a ha))
  rw [hsame, List.map_id]

theorem Closes.last_status (hcloses : Closes h as status) (hlast : (as.map h).getLast? = some a) :
    ∃ b, as.getLast? = some b ∧ (b.Open → a.status = status) ∧ (b.Closed → a = b) := by
  rw [List.getLast?_map] at hlast
  obtain ⟨b, hb, rfl⟩ := Option.map_eq_some_iff.mp hlast
  have hmem : b ∈ as := List.mem_of_getLast? hb
  exact ⟨b, hb, hcloses.status b hmem, hcloses.fixed b hmem⟩

end

variable {c : Cause}

theorem Turn.sound (hturn : Turn c v v') (hv : v.Sound) : v'.Sound := by
  cases hturn with
  | touch hkept hstatus =>
    refine ⟨⟨hkept.currentAttemptId.trans hv.current, hv.earlier⟩, ?_, ?_, ?_, ?_⟩
    · rw [hkept.attemptCount]
      exact hv.numbers
    · rw [hstatus]
      exact hv.running
    · rw [hstatus]
      exact hv.ended
    · rw [hkept.retryCount, hkept.budget]
      exact hv.budget
  | write hkept hstatus hrunning hending =>
    refine ⟨⟨hkept.currentAttemptId.trans hv.current, hv.earlier⟩, ?_, ?_, ?_, ?_⟩
    · rw [hkept.attemptCount]
      exact hv.numbers
    · intro hrun
      exact absurd (hstatus.symm.trans hrun) hrunning
    · intro hend
      rw [hstatus] at hend
      exact absurd hend hending
    · rw [hkept.retryCount, hkept.budget]
      exact hv.budget
  | rerun hkept hstatus hlast hopen =>
    refine ⟨⟨hkept.currentAttemptId.trans hv.current, hv.earlier⟩, ?_, ?_, ?_, ?_⟩
    · rw [hkept.attemptCount]
      exact hv.numbers
    · exact fun _ => ⟨_, hlast, hopen⟩
    · intro hend
      rw [hstatus] at hend
      exact absurd hend (by decide)
    · rw [hkept.retryCount, hkept.budget]
      exact hv.budget
  | start hstatus hcount hcurrent hretry hbudget hclosed hnum hopen =>
    refine ⟨⟨?_, ?_⟩, ?_, ?_, ?_, ?_⟩
    · rw [hcurrent]
      simp
    · rw [List.dropLast_concat]
      exact hclosed
    · rw [hcount, List.range'_concat, List.map_append, hv.numbers]
      simp [hnum, Nat.add_comm]
    · exact fun _ => ⟨_, List.getLast?_concat, hopen⟩
    · intro hend
      rw [hstatus] at hend
      exact absurd hend (by decide)
    · rw [hretry, hbudget]
      exact hv.budget
  | finish hkept hstatus hending hcloses =>
    refine ⟨hcloses.linked (hkept.currentAttemptId.trans hv.current), ?_, ?_, ?_, ?_⟩
    · rw [hcloses.map_attemptNum, hkept.attemptCount]
      exact hv.numbers
    · intro hrun
      rw [← hstatus, hrun] at hending
      exact absurd hending (by decide)
    · exact fun _ => hcloses.all_closed
    · rw [hkept.retryCount, hkept.budget]
      exact hv.budget
  | retry hbad hbudget hstatus hretry hcount hcurrent hsame =>
    refine ⟨⟨hcurrent.trans hv.current, hv.earlier⟩, ?_, ?_, ?_, ?_⟩
    · rw [hcount]
      exact hv.numbers
    · intro hrun
      rw [hstatus] at hrun
      exact absurd hrun (by decide)
    · intro hend
      rw [hstatus] at hend
      exact absurd hend (by decide)
    · rw [hretry, hsame]
      omega
  | idle => exact hv
  | interrupt hkept hrunning hstatus hcloses =>
    refine ⟨hcloses.linked (hkept.currentAttemptId.trans hv.current), ?_, ?_, ?_, ?_⟩
    · rw [hcloses.map_attemptNum, hkept.attemptCount]
      exact hv.numbers
    · intro hrun
      rw [hstatus] at hrun
      exact absurd hrun (by decide)
    · exact fun _ => hcloses.all_closed
    · rw [hkept.retryCount, hkept.budget]
      exact hv.budget
  | orphan hterminal hcloses =>
    refine ⟨hcloses.linked hv.current, ?_, ?_, ?_, hv.budget⟩
    · rw [hcloses.map_attemptNum]
      exact hv.numbers
    · intro hrun
      rw [hrun] at hterminal
      exact absurd hterminal (by decide)
    · exact fun _ => hcloses.all_closed

theorem Turn.closed_stays (hturn : Turn c v v') (ha : a ∈ v.attempts) (hclosed : a.Closed) :
    a ∈ v'.attempts := by
  have hmap : ∀ {h status}, Closes h v.attempts status → a ∈ v.attempts.map h :=
    fun hcloses => List.mem_map.mpr ⟨a, ha, hcloses.fixed a ha hclosed⟩
  cases hturn with
  | touch => exact ha
  | write => exact ha
  | rerun => exact ha
  | start => exact List.mem_append_left _ ha
  | finish _ _ _ hcloses => exact hmap hcloses
  | retry => exact ha
  | idle => exact ha
  | interrupt _ _ _ hcloses => exact hmap hcloses
  | orphan _ hcloses => exact hmap hcloses

variable {status : String}

theorem agrees_write_iff (hstatus : row.status = status)
    (hfit : ∀ a, v.attempts.getLast? = some a → a.Open → status ∉ terminalStatuses ∨
      status = "interrupted") : Agrees { v with row := row } ↔ v.Admits status := by
  constructor
  · intro h
    refine ⟨fun hidle => h.idle (by rw [hstatus]; exact hidle), fun hterminal a hlast _ => ?_⟩
    rw [h.outcome (by rw [hstatus]; exact hterminal) a hlast, hstatus]
  · intro h
    have hidle : row.status = "interrupted" ∨ row.status = "retrying" →
        ∀ a ∈ v.attempts, a.Closed := by
      rw [hstatus]
      exact h.idle
    refine ⟨hidle, fun hterminal a hlast => ?_⟩
    rw [hstatus] at hterminal ⊢
    refine h.outcome hterminal a hlast ?_
    rcases a.open_or_closed with hopen | hclosed
    · rcases hfit a hlast hopen with hnot | hinterrupted
      · exact absurd hterminal hnot
      · exact h.idle (.inl hinterrupted) a (List.mem_of_getLast? hlast)
    · exact hclosed

theorem agrees_running {as : List AttemptRow} {n : Nat} (hstatus : row.status = "running") :
    Agrees ⟨row, as, n⟩ where
  idle := fun h => by
    have h' : row.status = "interrupted" ∨ row.status = "retrying" := h
    rw [hstatus] at h'
    exact absurd h' (by decide)
  outcome := fun h => by
    have h' : row.status ∈ terminalStatuses := h
    rw [hstatus] at h'
    exact absurd h' (by decide)

theorem admits_running : v.Admits "running" :=
  ⟨fun h => absurd h (by decide), fun h => absurd h (by decide)⟩

theorem mem_terminal (h : status ∈ terminalStatuses) :
    status ∈ endings ∨ status = "interrupted" := by
  simp only [terminalStatuses, List.mem_cons, List.not_mem_nil, or_false] at h
  rcases h with rfl | rfl | rfl | rfl
  · exact .inl (by decide)
  · exact .inl (by decide)
  · exact .inl (by decide)
  · exact .inr rfl

theorem terminal_of_ending (h : status ∈ endings) : status ∈ terminalStatuses := by
  simp only [endings, List.mem_cons, List.not_mem_nil, or_false] at h
  rcases h with rfl | rfl | rfl <;> decide

theorem not_idle_of_ending (h : status ∈ endings) :
    ¬(status = "interrupted" ∨ status = "retrying") := by
  rintro (rfl | rfl)
  · exact absurd h (by decide)
  · exact absurd h (by decide)

theorem agrees_finish_iff {h : AttemptRow → AttemptRow} {n : Nat} (hstatus : row.status = status)
    (hending : status ∈ endings) (hcloses : Closes h v.attempts status) :
    Agrees ⟨row, v.attempts.map h, n⟩ ↔ v.Admits status := by
  have hterminal : status ∈ terminalStatuses := terminal_of_ending hending
  constructor
  · intro hagrees
    refine ⟨fun hidle => absurd hidle (not_idle_of_ending hending), fun _ a hlast hclosed => ?_⟩
    have hmapped : (v.attempts.map h).getLast? = some (h a) := by
      rw [List.getLast?_map, hlast]
      rfl
    have hsame := hagrees.outcome (by rw [hstatus]; exact hterminal) _ hmapped
    rw [hcloses.fixed a (List.mem_of_getLast? hlast) hclosed] at hsame
    exact hsame.trans hstatus
  · intro hadmits
    refine ⟨fun _ => hcloses.all_closed, fun _ a hlast => ?_⟩
    obtain ⟨b, hb, hwasOpen, hwasClosed⟩ := hcloses.last_status hlast
    rcases b.open_or_closed with hopen | hclosed
    · exact (hwasOpen hopen).trans hstatus.symm
    · rw [hwasClosed hclosed]
      exact (hadmits.outcome hterminal b hb hclosed).trans hstatus.symm

theorem Turn.agrees_iff (hturn : Turn c v v') (hv : v.Sound) (hagrees : v.Agrees) :
    v'.Agrees ↔ ∀ status, c = .write (some status) → v.Admits status := by
  cases hturn with
  | touch hkept hstatus =>
    refine iff_of_true ⟨?_, ?_⟩ (fun _ h => absurd h (by simp))
    · rw [hstatus]
      exact hagrees.idle
    · rw [hstatus]
      exact hagrees.outcome
  | write hkept hstatus hrunning hending =>
    rename_i status
    have hiff := agrees_write_iff (v := v) hstatus (fun a _ _ => by
      by_cases hterminal : status ∈ terminalStatuses
      · exact .inr ((mem_terminal hterminal).resolve_left hending)
      · exact .inl hterminal)
    rw [hiff]
    exact ⟨fun h _ heq => Option.some.inj (Cause.write.inj heq) ▸ h, fun h => h _ rfl⟩
  | rerun hkept hstatus hlast hopen =>
    exact iff_of_true (agrees_running hstatus)
      (fun _ heq => Option.some.inj (Cause.write.inj heq) ▸ admits_running)
  | start hstatus =>
    exact iff_of_true (agrees_running hstatus)
      (fun _ heq => Option.some.inj (Cause.write.inj heq) ▸ admits_running)
  | finish hkept hstatus hending hcloses =>
    rw [agrees_finish_iff hstatus hending hcloses]
    exact ⟨fun h _ heq => Option.some.inj (Cause.write.inj heq) ▸ h, fun h => h _ rfl⟩
  | retry hbad hbudget hstatus =>
    refine iff_of_true ⟨fun _ => ?_, fun hterminal => ?_⟩ (fun _ h => absurd h (by simp))
    · rcases hbad with hfailed | hinterrupted
      · exact hv.ended (by rw [hfailed]; decide)
      · exact hagrees.idle (.inl hinterrupted)
    · rw [hstatus] at hterminal
      exact absurd hterminal (by decide)
  | idle => exact iff_of_true hagrees (fun _ h => absurd h (by simp))
  | interrupt hkept hrunning hstatus hcloses =>
    refine iff_of_true ⟨fun _ => hcloses.all_closed, fun _ a hlast => ?_⟩
      (fun _ h => absurd h (by simp))
    obtain ⟨b, hb, hwasOpen, -⟩ := hcloses.last_status hlast
    obtain ⟨c, hc, hopen⟩ := hv.running hrunning
    obtain rfl : c = b := Option.some.inj (hc.symm.trans hb)
    exact (hwasOpen hopen).trans hstatus.symm
  | orphan hterminal hcloses =>
    have hclosed : ∀ a ∈ v.attempts, a.Closed := by
      rcases mem_terminal hterminal with hending | hinterrupted
      · exact hv.ended hending
      · exact hagrees.idle (.inl hinterrupted)
    rw [hcloses.map_eq hclosed]
    exact iff_of_true hagrees (fun _ h => absurd h (by simp))

def Summed (v v' : View) : Prop :=
  v'.summaries = v.summaries ∨
    (v'.summaries = v.summaries + 1 ∧ v'.row.status ∈ terminalStatuses ∧
      (v.summaries = 0 ∨ v.row.status ∉ terminalStatuses))

theorem Turn.summed (hturn : Turn c v v') : Summed v v' := by
  cases hturn with
  | touch | write | rerun | start => exact .inl rfl
  | finish hkept hstatus hending hcloses =>
    rcases Nat.eq_zero_or_pos v.summaries with hzero | hpos
    · refine .inr ⟨?_, ?_, .inl hzero⟩
      · simp [hzero]
      · rw [hstatus]
        exact terminal_of_ending hending
    · exact .inl (Nat.max_eq_left hpos)
  | retry => exact .inl rfl
  | idle => exact .inl rfl
  | interrupt hkept hrunning hstatus hcloses =>
    refine .inr ⟨rfl, ?_, .inr ?_⟩
    · rw [hstatus]
      decide
    · rw [hrunning]
      decide
  | orphan => exact .inl rfl

theorem Turn.retryCount (hturn : Turn c v v') :
    (c = .retry → v'.row.retryCount = v.row.retryCount + 1) ∧
      (c ≠ .retry → v'.row.retryCount = v.row.retryCount) := by
  cases hturn with
  | touch hkept | write hkept | rerun hkept =>
    exact ⟨fun h => absurd h (by simp), fun _ => hkept.retryCount⟩
  | start _ _ _ hretry => exact ⟨fun h => absurd h (by simp), fun _ => hretry⟩
  | finish hkept => exact ⟨fun h => absurd h (by simp), fun _ => hkept.retryCount⟩
  | retry _ _ _ hretry => exact ⟨fun _ => hretry, fun h => absurd rfl h⟩
  | idle => exact ⟨fun h => absurd h (by simp), fun _ => rfl⟩
  | interrupt hkept => exact ⟨fun h => absurd h (by simp), fun _ => hkept.retryCount⟩
  | orphan => exact ⟨fun h => absurd h (by simp), fun _ => rfl⟩

theorem Turn.scan_trans {w : View} (h₁ : Turn .scan v v') (h₂ : Turn .scan v' w) :
    Turn .scan v w := by
  have hdone : (∀ a ∈ v'.attempts, a.Closed) → v'.row.status ∈ terminalStatuses → w = v' := by
    intro hclosed hterminal
    cases h₂ with
    | idle => rfl
    | interrupt _ hrunning =>
      rw [hrunning] at hterminal
      exact absurd hterminal (by decide)
    | orphan _ hcloses => rw [hcloses.map_eq hclosed]
  cases h₁ with
  | idle => exact h₂
  | interrupt hkept hrunning hstatus hcloses =>
    rw [hdone hcloses.all_closed (by rw [hstatus]; decide)]
    exact .interrupt hkept hrunning hstatus hcloses
  | orphan hterminal hcloses =>
    rw [hdone hcloses.all_closed hterminal]
    exact .orphan hterminal hcloses

theorem Turn.scan_running (hturn : Turn .scan v v') (h : v'.row.status = "running") : v' = v := by
  cases hturn with
  | idle => rfl
  | interrupt _ _ hstatus =>
    rw [hstatus] at h
    exact absurd h (by decide)
  | orphan hterminal =>
    have hterminal' : "running" ∈ terminalStatuses := h ▸ hterminal
    exact absurd hterminal' (by decide)

theorem Turn.scan_terminal (hturn : Turn .scan v v') (h : v.row.status ∈ terminalStatuses) :
    v'.row.status ∈ terminalStatuses := by
  cases hturn with
  | idle => exact h
  | interrupt _ _ hstatus =>
    rw [hstatus]
    decide
  | orphan => exact h

theorem Turn.scan_mem (hturn : Turn .scan v v') (ha : a ∈ v.attempts) :
    ∃ b ∈ v'.attempts, b.attemptId = a.attemptId := by
  have hmap : ∀ {h status}, Closes h v.attempts status →
      ∃ b ∈ v.attempts.map h, b.attemptId = a.attemptId :=
    fun hcloses => ⟨_, List.mem_map_of_mem ha, hcloses.attemptId a ha⟩
  cases hturn with
  | idle => exact ⟨a, ha, rfl⟩
  | interrupt _ _ _ hcloses => exact hmap hcloses
  | orphan _ hcloses => exact hmap hcloses

end View

end Relux.Attempts
