import Mathlib.Logic.Function.Basic
import Relux.Dispatch

/-! The board: which status each task shows, which run belongs to which task, and the
moves that change either. Everything else the control plane does leaves it alone. -/

namespace Relux

structure Board where
  task : TaskId → Option TaskStatus
  run : RunId → Option (TaskId × RunStatus)
  nextTask : Nat
  nextRun : Nat

inductive BoardMove where
  | create
  | task (t : TaskId) (status : TaskStatus)
  | start (t : TaskId)
  | run (r : RunId) (status : RunStatus)

namespace Board

def setTask (b : Board) (t : TaskId) (status : TaskStatus) : Board :=
  { b with task := Function.update b.task t ((b.task t).map (fun _ => status)) }

def setRun (b : Board) (r : RunId) (status : RunStatus) : Board :=
  { b with run := Function.update b.run r ((b.run r).map (fun e => (e.1, status))) }

def freshTask (b : Board) : TaskId := taskIdOf (b.nextTask + 1)
def freshRun (b : Board) : RunId := runIdOf (b.nextRun + 1)

def move (b : Board) : BoardMove → Board
  | .create => { b with
      task := Function.update b.task b.freshTask (some .created)
      nextTask := b.nextTask + 1 }
  | .task t status => b.setTask t status
  | .start t => { b.setTask t .running with
      run := Function.update b.run b.freshRun (some (t, .running))
      nextRun := b.nextRun + 1 }
  | .run r status => b.setRun r status

def play (b : Board) (moves : List BoardMove) : Board := moves.foldl move b

@[simp] theorem play_nil (b : Board) : b.play [] = b := rfl

@[simp] theorem play_cons (b : Board) (m : BoardMove) (moves : List BoardMove) :
    b.play (m :: moves) = (b.move m).play moves := rfl

theorem play_append (b : Board) (moves more : List BoardMove) :
    b.play (moves ++ more) = (b.play moves).play more :=
  List.foldl_append

theorem setTask_task (b : Board) (t t' : TaskId) (status : TaskStatus) :
    (b.setTask t status).task t' =
      if t' = t then (b.task t).map (fun _ => status) else b.task t' := by
  simp only [setTask, Function.update_apply]

theorem setRun_run (b : Board) (r r' : RunId) (status : RunStatus) :
    (b.setRun r status).run r' =
      if r' = r then (b.run r).map (fun e => (e.1, status)) else b.run r' := by
  simp only [setRun, Function.update_apply]

theorem start_run (b : Board) (t : TaskId) (r : RunId) :
    (b.move (.start t)).run r = if r = b.freshRun then some (t, .running) else b.run r := by
  simp only [move, Function.update_apply]

theorem start_task (b : Board) (t t' : TaskId) :
    (b.move (.start t)).task t' =
      if t' = t then (b.task t).map (fun _ => .running) else b.task t' :=
  setTask_task b t t' .running

theorem create_task (b : Board) (t : TaskId) :
    (b.move .create).task t = if t = b.freshTask then some .created else b.task t := by
  simp only [move, Function.update_apply]

def Quiet (b : Board) (t : TaskId) : Prop := ∀ r, b.run r ≠ some (t, .running)

def SingleActive (b : Board) : Prop :=
  ∀ t r r', b.run r = some (t, .running) → b.run r' = some (t, .running) → r = r'

def endsTask : TaskStatus → Bool
  | .completed => true
  | .failed => true
  | .cancelled => true
  | _ => false

def TerminalQuiet (b : Board) : Prop :=
  ∀ t status, b.task t = some status → endsTask status = true → b.Quiet t

structure Orderly (b : Board) : Prop where
  single : b.SingleActive
  quiet : b.TerminalQuiet

def Allowed (b : Board) : BoardMove → Prop
  | .create => True
  | .task t status => endsTask status = true → b.Quiet t
  | .start t => b.Quiet t
  | .run _ status => status ≠ .running

variable {b : Board} {t : TaskId}

theorem Quiet.setTask {t' : TaskId} {status : TaskStatus} (h : b.Quiet t) :
    (b.setTask t' status).Quiet t := h

variable {status : RunStatus} {r : RunId}

theorem Quiet.setRun (hs : status ≠ .running) (h : b.Quiet t) : (b.setRun r status).Quiet t := by
  intro r' hr'
  rw [setRun_run] at hr'
  split at hr'
  · rw [Option.map_eq_some_iff] at hr'
    obtain ⟨e, -, he⟩ := hr'
    cases he
    exact hs rfl
  · exact h r' hr'

theorem Quiet.start {b : Board} {t t' : TaskId} (h : b.Quiet t) (hne : t ≠ t') :
    (b.move (.start t')).Quiet t := by
  intro r hr
  rw [start_run] at hr
  split at hr
  · cases hr
    exact hne rfl
  · exact h r hr

theorem quiet_after_setRun (hs : status ≠ .running)
    (honly : ∀ r', b.run r' = some (t, .running) → r' = r) : (b.setRun r status).Quiet t := by
  intro r' hr'
  rw [setRun_run] at hr'
  split at hr'
  · rw [Option.map_eq_some_iff] at hr'
    obtain ⟨e, -, he⟩ := hr'
    cases he
    exact hs rfl
  next hne => exact hne (honly r' hr')

theorem Orderly.move {m : BoardMove} (h : b.Orderly) (ha : b.Allowed m) : (b.move m).Orderly := by
  cases m with
  | create =>
    refine ⟨h.single, fun t status ht he => ?_⟩
    rw [create_task] at ht
    split at ht
    · cases ht
      cases he
    · exact h.quiet t status ht he
  | task t status =>
    refine ⟨h.single, fun t' status' ht he => ?_⟩
    change (b.setTask t status).task t' = some status' at ht
    rw [setTask_task] at ht
    split at ht
    next heq =>
      rw [Option.map_eq_some_iff] at ht
      obtain ⟨old, -, hst⟩ := ht
      subst hst heq
      exact (ha he).setTask
    · exact (h.quiet t' status' ht he).setTask
  | start t =>
    constructor
    · intro t' r r' hr hr'
      rw [start_run] at hr hr'
      split at hr
      next he =>
        cases hr
        split at hr'
        next he' => rw [he, he']
        · exact absurd hr' (ha r')
      · split at hr'
        · cases hr'
          exact absurd hr (ha r)
        · exact h.single t' r r' hr hr'
    · intro t' status ht he
      rw [start_task] at ht
      split at ht
      · rw [Option.map_eq_some_iff] at ht
        obtain ⟨old, -, hst⟩ := ht
        subst hst
        cases he
      next hne => exact (h.quiet t' status ht he).start hne
  | run r status =>
    constructor
    · intro t r₁ r₂ h₁ h₂
      have hrun : ∀ r', (b.setRun r status).run r' = some (t, .running) →
          b.run r' = some (t, .running) := by
        intro r' hr'
        rw [setRun_run] at hr'
        split at hr'
        · rw [Option.map_eq_some_iff] at hr'
          obtain ⟨e, -, hst⟩ := hr'
          cases hst
          exact absurd rfl ha
        · exact hr'
      exact h.single t r₁ r₂ (hrun r₁ h₁) (hrun r₂ h₂)
    · intro t status' ht he
      exact (h.quiet t status' ht he).setRun ha

def Along (P : Board → BoardMove → Prop) : Board → List BoardMove → Prop
  | _, [] => True
  | b, m :: moves => P b m ∧ Along P (b.move m) moves

theorem Along.append {P : Board → BoardMove → Prop} {b : Board} {moves more : List BoardMove}
    (h : b.Along P moves) (h' : (b.play moves).Along P more) : b.Along P (moves ++ more) := by
  induction moves generalizing b with
  | nil => exact h'
  | cons m moves ih => exact ⟨h.1, ih h.2 h'⟩

variable {moves : List BoardMove}

theorem Orderly.play (h : b.Orderly) (ha : b.Along Allowed moves) : (b.play moves).Orderly := by
  induction moves generalizing b with
  | nil => exact h
  | cons m moves ih => exact ih (h.move ha.1) ha.2

inductive Ending (r : RunId) (t : TaskId) (status : RunStatus) : List BoardMove → Prop
  | run : Ending r t status [.run r status]
  | both {ended : TaskStatus} (h : ended = .completed ∨ ended = .failed ∨ ended = .blocked) :
      Ending r t status [.run r status, .task t ended]

inductive Executes (b : Board) (t : TaskId) : List BoardMove → Prop
  | nothing : Executes b t []
  | ended {r : RunId} {status : RunStatus} {moves : List BoardMove}
      (hrun : b.run r = some (t, .running)) (hs : status ≠ .running)
      (h : Ending r t status moves) : Executes b t moves

inductive Attempts (b : Board) (t : TaskId) : List BoardMove → Prop
  | refused : Attempts b t []
  | started {status : TaskStatus} {moves : List BoardMove} (ht : b.task t = some status)
      (hf : startsFresh status = true) (h : Executes (b.move (.start t)) t moves) :
      Attempts b t (.start t :: moves)
  | held {status : TaskStatus} {moves : List BoardMove} (ht : b.task t = some status)
      (hf : startsFresh status = false) (h : Executes b t moves) : Attempts b t moves

inductive Restarts (b : Board) (t : TaskId) : List BoardMove → Prop
  | refused : Restarts b t []
  | requeued : Restarts b t [.task t .queued]
  | started {moves : List BoardMove}
      (h : Executes ((b.move (.task t .queued)).move (.start t)) t moves) :
      Restarts b t (.task t .queued :: .start t :: moves)

theorem Ending.allowed (h : Ending r t status moves) (hs : status ≠ .running)
    (honly : ∀ r', b.run r' = some (t, .running) → r' = r) : b.Along Allowed moves := by
  cases h with
  | run => exact ⟨hs, trivial⟩
  | both _ => exact ⟨hs, fun _ => quiet_after_setRun hs honly, trivial⟩

theorem Executes.allowed (h : b.Executes t moves) (hb : b.SingleActive) :
    b.Along Allowed moves := by
  cases h with
  | nothing => trivial
  | ended hrun hs h => exact h.allowed hs (fun r' hr' => hb t r' _ hr' hrun)

theorem Attempts.allowed (h : b.Attempts t moves) (hb : b.Orderly)
    (hq : ∀ status, b.task t = some status → startsFresh status = true → b.Quiet t) :
    b.Along Allowed moves := by
  cases h with
  | refused => trivial
  | started ht hf h =>
    have hstart : b.Allowed (.start t) := hq _ ht hf
    exact ⟨hstart, h.allowed (hb.move hstart).single⟩
  | held _ _ h => exact h.allowed hb.single

theorem Restarts.allowed (h : b.Restarts t moves) (hb : b.Orderly) (hq : b.Quiet t) :
    b.Along Allowed moves := by
  have hqueue : b.Allowed (.task t .queued) := fun _ => hq
  cases h with
  | refused => trivial
  | requeued => exact ⟨hqueue, trivial⟩
  | started h =>
    have hstart : (b.move (.task t .queued)).Allowed (.start t) := hq.setTask
    exact ⟨hqueue, hstart, h.allowed ((hb.move hqueue).move hstart).single⟩

def Minted (b : Board) : Prop := ∀ n, b.nextRun < n → b.run (runIdOf n) = none

theorem Minted.fresh (h : b.Minted) : b.run b.freshRun = none := h _ (Nat.lt_succ_self _)

theorem Minted.move (h : b.Minted) (m : BoardMove) : (b.move m).Minted := by
  intro n hn
  cases m with
  | create => exact h n hn
  | task t status => exact h n hn
  | start t =>
    change b.nextRun + 1 < n at hn
    have hne : runIdOf n ≠ b.freshRun := by
      intro he
      have heq : n = b.nextRun + 1 := mintedId_inj he
      omega
    rw [start_run, if_neg hne, h n (by omega)]
  | run r status =>
    change (b.setRun r status).run (runIdOf n) = none
    rw [setRun_run]
    split
    next he => rw [← he, h n hn, Option.map_none]
    · exact h n hn

theorem Minted.play (h : b.Minted) (moves : List BoardMove) : (b.play moves).Minted := by
  induction moves generalizing b with
  | nil => exact h
  | cons m moves ih => exact ih (h.move m)

end Board

end Relux
