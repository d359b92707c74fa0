import Relux.BudgetCeiling
import Relux.ThreadLock

/-! The alerts of the enforcer, and what holds of every run of it. -/

namespace Relux.Budget

def lastEdge (edges : List (CacheKey × Edge)) (key : CacheKey) : Option Edge :=
  (edges.find? (fun e => decide (e.1 = key))).map Prod.snd

/-- Latest first: a key fires unless its last alert is still firing, and it recovers only
from the alert that fired last. -/
def Alternate : List (CacheKey × Edge) → Prop
  | [] => True
  | (key, edge) :: earlier =>
    (edge = .fired → lastEdge earlier key ≠ some .fired) ∧
      (edge = .recovered → lastEdge earlier key = some .fired) ∧ Alternate earlier

theorem lastEdge_cons (edges : List (CacheKey × Edge)) (key key' : CacheKey) (edge : Edge) :
    lastEdge ((key', edge) :: edges) key =
      if key' = key then some edge else lastEdge edges key := by
  by_cases h : key' = key
  · simp [lastEdge, h]
  · simp [lastEdge, List.find?_cons_of_neg, h]

structure AlertsKept (s : Shared) : Prop where
  alternate : Alternate s.edges
  active : ∀ key, s.active.get? key ≠ none ↔ lastEdge s.edges key = some .fired

theorem AlertsKept.outside {s s' : Shared} (h : AlertsKept s) (hout : Outside s s') :
    AlertsKept s' := by
  cases hout with
  | record | tick | store => exact ⟨h.alternate, h.active⟩

section
variable {s : Shared} {key : CacheKey}

theorem AlertsKept.raise (h : AlertsKept s) (hnone : s.active.get? key = none)
    (alert : ActiveAlert) :
    AlertsKept { s with
      active := s.active.insert key alert, edges := (key, .fired) :: s.edges } where
  alternate := by
    refine ⟨fun _ hlast => ?_, fun heq => (by cases heq), h.alternate⟩
    exact (h.active key).mpr hlast hnone
  active := by
    intro key'
    have hbefore := h.active key'
    rw [HashMap.get?_insert, lastEdge_cons]
    by_cases heq : key' = key
    · rw [if_pos heq, if_pos heq.symm]
      simp
    · rw [if_neg heq, if_neg (Ne.symm heq)]
      exact hbefore

theorem AlertsKept.lower (h : AlertsKept s) {edge : Edge} (hedge : edge ≠ .fired)
    (hlast : edge = .recovered → s.active.get? key ≠ none) :
    AlertsKept { s with active := s.active.remove key, edges := (key, edge) :: s.edges } where
  alternate := by
    refine ⟨fun heq => absurd heq hedge, fun heq => ?_, h.alternate⟩
    exact (h.active key).mp (hlast heq)
  active := by
    intro key'
    have hbefore := h.active key'
    rw [HashMap.get?_remove, lastEdge_cons]
    by_cases heq : key' = key
    · rw [if_pos heq, if_pos heq.symm]
      simp [hedge]
    · rw [if_neg heq, if_neg (Ne.symm heq)]
      exact hbefore

end

theorem AlertsKept.exec {s s' : Shared} {op : Op} {r : op.Res} (h : AlertsKept s)
    (hexec : Executes s op r s') : AlertsKept s' := by
  unfold Executes at hexec
  cases op with
  | clock | lookup | readCost | deliver | unlockRefresh | insert | dropAgent | dropEntry =>
    cases hexec
    exact ⟨h.alternate, h.active⟩
  | lockRefresh =>
    simp only [Budget.exec] at hexec
    split at hexec
    · cases hexec
    · cases hexec
      exact ⟨h.alternate, h.active⟩
  | dropAlert key =>
    cases hexec
    exact h.lower (by decide) (fun heq => by cases heq)
  | raise key breach message =>
    simp only [Budget.exec] at hexec
    split at hexec
    · cases hexec
      exact h
    · next hnone =>
      cases hexec
      exact h.raise hnone _
  | lower key =>
    simp only [Budget.exec] at hexec
    split at hexec
    · cases hexec
      exact h
    · next prior hprior =>
      cases hexec
      refine h.lower (by decide) (fun _ => ?_)
      rw [hprior]
      exact Option.some_ne_none prior

def Op.acquires : Op → Bool
  | .lockRefresh => true
  | _ => false

def Op.releases : Op → Bool
  | .unlockRefresh => true
  | _ => false

section
variable {Usd : Type} (e : Enforcer Usd) (scope : Option String) (window : Window)

end

instance (s : Shared) (op : Op) : Decidable (Sound s op) :=
  match op with
  | .readCost scope sinceMs => inferInstanceAs (Decidable (s.costSince? scope sinceMs ≠ none))
  | .insert scope _ entry =>
    inferInstanceAs (Decidable (toldSince s.rows scope entry.windowStartMs ≤ entry.costMicros))
  | .clock => .isTrue trivial
  | .lookup _ => .isTrue trivial
  | .lockRefresh => .isTrue trivial
  | .unlockRefresh => .isTrue trivial
  | .dropAgent _ => .isTrue trivial
  | .dropEntry _ => .isTrue trivial
  | .raise _ _ _ => .isTrue trivial
  | .lower _ => .isTrue trivial
  | .dropAlert _ => .isTrue trivial
  | .deliver _ => .isTrue trivial

def recorded : Shared := { (BudgetPool.start 0).shared with rows := [⟨"ada", 0, 5, false⟩] }

def spent : Shared :=
  { recorded with
    rows := recorded.rows.map (Spend.invalidate "ada")
    cache := (((recorded.cache.remove (scopeKey (some "ada"), .daily)).remove
      (scopeKey (some "ada"), .hourly)).remove (scopeKey none, .daily)).remove
      (scopeKey none, .hourly) }

end Relux.Budget
