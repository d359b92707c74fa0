import Mathlib.Logic.Function.Basic
import Mathlib.Logic.Relation
import Mathlib.Data.Set.Basic

/-! Parent pointers. What stands above an element, walks up to a given height that stop at
a repetition, and what a pointer that is set does to both. -/

namespace Relux

namespace Forest

variable {α : Type}

/-- What stands `n` pointers above an element. -/
def upN (next : α → Option α) : Nat → α → Option α
  | 0, a => some a
  | n + 1, a => (next a).bind (upN next n)

def Above (next : α → Option α) : α → α → Prop := Relation.TransGen (fun a b => next a = some b)

def Acyclic (next : α → Option α) : Prop := ∀ a, ¬ Above next a a

/-- Nothing stands more than `cap` pointers above anything. -/
def Bounded (cap : Nat) (next : α → Option α) : Prop := ∀ a, upN next (cap + 1) a = none

variable {next : α → Option α} {a b : α} {n : Nat}

theorem upN_succ (h : next a = some b) : upN next (n + 1) a = upN next n b := by
  rw [upN, h, Option.bind_some]

theorem upN_add (m n : Nat) (a : α) :
    upN next (m + n) a = (upN next m a).bind (upN next n) := by
  induction m generalizing a with
  | zero => simp [upN]
  | succ m ih =>
    rw [Nat.succ_add, upN, upN]
    cases next a with
    | none => rfl
    | some b => simpa using ih b

variable {c : α} {m : Nat}

theorem upN_trans (h : upN next m a = some b) (h' : upN next n b = some c) :
    upN next (m + n) a = some c := by
  rw [upN_add, h, Option.bind_some, h']

theorem upN_none_mono (hmn : m ≤ n) (h : upN next m a = none) : upN next n a = none := by
  obtain ⟨k, rfl⟩ := Nat.exists_eq_add_of_le hmn
  rw [upN_add, h, Option.bind_none]

theorem above_iff : Above next a b ↔ ∃ n, upN next (n + 1) a = some b := by
  constructor
  · intro h
    induction h with
    | single h => exact ⟨0, upN_succ h⟩
    | tail _ hstep ih =>
      obtain ⟨n, hn⟩ := ih
      exact ⟨n + 1, upN_trans hn (upN_succ hstep)⟩
  · rintro ⟨n, hn⟩
    induction n generalizing a with
    | zero =>
      cases ha : next a with
      | none => simp [upN, ha] at hn
      | some c =>
        rw [upN_succ ha, upN] at hn
        cases hn
        exact .single ha
    | succ n ih =>
      cases ha : next a with
      | none => simp [upN, ha] at hn
      | some c =>
        rw [upN_succ ha] at hn
        exact .head ha (ih hn)

theorem acyclic_iff : Acyclic next ↔ ∀ a n, upN next (n + 1) a ≠ some a := by
  simp only [Acyclic, above_iff, not_exists, ne_eq]

theorem Acyclic.height_unique (h : Acyclic next) (hm : upN next m a = some b)
    (hn : upN next n a = some b) : m = n := by
  have key : ∀ {m n : Nat}, upN next m a = some b → upN next n a = some b → ¬ m < n := by
    intro m n hm hn hlt
    obtain ⟨k, rfl⟩ := Nat.exists_eq_add_of_lt hlt
    rw [Nat.add_assoc, upN_add, hm, Option.bind_some] at hn
    exact acyclic_iff.mp h b k hn
  have hle := key hm hn
  have hge := key hn hm
  omega

variable [DecidableEq α]

def climb (next : α → Option α) : Nat → List α → α → List α
  | 0, _, _ => []
  | n + 1, seen, current =>
    match next current with
    | none => []
    | some p => if p ∈ seen then [] else p :: climb next n (p :: seen) p

variable {seen : List α}

theorem mem_climb (h : b ∈ climb next n seen a) :
    ∃ k < n, upN next (k + 1) a = some b := by
  induction n generalizing seen a with
  | zero => simp [climb] at h
  | succ n ih =>
    cases ha : next a with
    | none => simp [climb, ha] at h
    | some p =>
      simp only [climb, ha] at h
      by_cases hp : p ∈ seen
      · simp [hp] at h
      · rw [if_neg hp, List.mem_cons] at h
        rcases h with rfl | h
        · exact ⟨0, by omega, upN_succ ha⟩
        · obtain ⟨k, hk, hup⟩ := ih h
          exact ⟨k + 1, by omega, (upN_succ ha).trans hup⟩

variable {k : Nat}

theorem Acyclic.climb_complete (h : Acyclic next)
    (hseen : ∀ x ∈ seen, ∃ m, upN next m x = some a) (hk : k < n)
    (hup : upN next (k + 1) a = some b) : b ∈ climb next n seen a := by
  induction n generalizing seen a k with
  | zero => omega
  | succ n ih =>
    cases ha : next a with
    | none => simp [upN, ha] at hup
    | some p =>
      have hnew : p ∉ seen := by
        intro hp
        obtain ⟨m, hm⟩ := hseen p hp
        have hcycle : upN next (m + 1) p = some p := upN_trans hm (upN_succ ha)
        exact acyclic_iff.mp h p m hcycle
      simp only [climb, ha, if_neg hnew, List.mem_cons]
      rw [upN_succ ha] at hup
      cases k with
      | zero =>
        cases hup
        exact .inl rfl
      | succ k =>
        refine .inr (ih (fun x hx => ?_) (by omega) hup)
        rcases List.mem_cons.mp hx with rfl | hx
        · exact ⟨0, rfl⟩
        · obtain ⟨m, hm⟩ := hseen x hx
          exact ⟨m + 1, upN_trans hm (upN_succ ha)⟩

theorem Acyclic.mem_climb_iff (h : Acyclic next) :
    b ∈ climb next n [a] a ↔ ∃ k < n, upN next (k + 1) a = some b := by
  constructor
  · exact mem_climb
  · rintro ⟨k, hk, hup⟩
    refine h.climb_complete (fun x hx => ?_) hk hup
    rw [List.mem_singleton.mp hx]
    exact ⟨0, rfl⟩

variable {cap : Nat}

theorem Acyclic.climb_eq_above_iff (h : Acyclic next) :
    (∀ a b, b ∈ climb next cap [a] a ↔ Above next a b) ↔ Bounded cap next := by
  constructor
  · intro hall a
    by_contra hne
    obtain ⟨b, hb⟩ := Option.ne_none_iff_exists'.mp hne
    obtain ⟨k, hk, hup⟩ := h.mem_climb_iff.mp ((hall a b).mpr (above_iff.mpr ⟨cap, hb⟩))
    have := h.height_unique hup hb
    omega
  · intro hb a b
    rw [h.mem_climb_iff, above_iff]
    constructor
    · rintro ⟨k, -, hup⟩
      exact ⟨k, hup⟩
    · rintro ⟨k, hup⟩
      refine ⟨k, ?_, hup⟩
      by_contra hk
      have hnone := upN_none_mono (show cap + 1 ≤ k + 1 by omega) (hb a)
      rw [hnone] at hup
      cases hup

variable {p : α}

theorem upN_update (hp : ∀ n, upN next n p ≠ some c)
    (h : upN (Function.update next c (some p)) k a = some b) :
    upN next k a = some b ∨
      ∃ m n, k = m + 1 + n ∧ upN next m a = some c ∧ upN next n p = some b := by
  induction k generalizing a with
  | zero => exact .inl h
  | succ k ih =>
    by_cases ha : a = c
    · subst ha
      rw [upN_succ (Function.update_self a (some p) next)] at h
      rcases ih h with hold | ⟨m, n, -, hm, -⟩
      · exact .inr ⟨0, k, by omega, rfl, hold⟩
      · exact absurd hm (hp m)
    · cases hnext : next a with
      | none => simp [upN, Function.update_of_ne ha, hnext] at h
      | some a' =>
        have hnew : Function.update next c (some p) a = some a' := by
          rw [Function.update_of_ne ha, hnext]
        rw [upN_succ hnew] at h
        rcases ih h with hold | ⟨m, n, rfl, hm, hn⟩
        · exact .inl ((upN_succ hnext).trans hold)
        · exact .inr ⟨m + 1, n, by omega, (upN_succ hnext).trans hm, hn⟩

variable {v : Option α}

theorem upN_update_of_avoids (h : upN next k a = some b)
    (havoid : ∀ m < k, upN next m a ≠ some c) : upN (Function.update next c v) k a = some b := by
  induction k generalizing a with
  | zero => exact h
  | succ k ih =>
    cases hnext : next a with
    | none => simp [upN, hnext] at h
    | some a' =>
      have ha : a ≠ c := by
        rintro rfl
        exact havoid 0 (by omega) rfl
      have hnew : Function.update next c v a = some a' := by
        rw [Function.update_of_ne ha, hnext]
      rw [upN_succ hnew]
      refine ih ((upN_succ hnext).symm.trans h) (fun m hm hc => ?_)
      exact havoid (m + 1) (by omega) ((upN_succ hnext).trans hc)

theorem Acyclic.upN_update_below (h : Acyclic next) (hup : upN next k a = some c) :
    upN (Function.update next c v) k a = some c := by
  refine upN_update_of_avoids hup (fun m hm hc => ?_)
  have := h.height_unique hup hc
  omega

theorem Acyclic.update (h : Acyclic next) (hp : ∀ n, upN next n p ≠ some c) :
    Acyclic (Function.update next c (some p)) := by
  rw [acyclic_iff]
  intro a k hk
  rcases upN_update hp hk with hold | ⟨m, n, -, hm, hn⟩
  · exact acyclic_iff.mp h a k hold
  · exact hp (n + m) (upN_trans hn hm)

theorem upN_clear (h : upN (Function.update next c none) k a = some b) : upN next k a = some b := by
  induction k generalizing a with
  | zero => exact h
  | succ k ih =>
    by_cases ha : a = c
    · subst ha
      simp [upN] at h
    · cases hnext : next a with
      | none => simp [upN, Function.update_of_ne ha, hnext] at h
      | some a' =>
        have hnew : Function.update next c none a = some a' := by
          rw [Function.update_of_ne ha, hnext]
        rw [upN_succ hnew] at h
        exact (upN_succ hnext).trans (ih h)

theorem Acyclic.clear (h : Acyclic next) (c : α) : Acyclic (Function.update next c none) := by
  rw [acyclic_iff]
  intro a k hk
  exact acyclic_iff.mp h a k (upN_clear hk)

theorem Bounded.clear (h : Bounded cap next) (c : α) :
    Bounded cap (Function.update next c none) := by
  intro a
  by_contra hne
  obtain ⟨b, hb⟩ := Option.ne_none_iff_exists'.mp hne
  have hold := upN_clear hb
  rw [h a] at hold
  cases hold

theorem Bounded.update_iff (h : Bounded cap next) (hacyclic : Acyclic next)
    (hp : ∀ n, upN next n p ≠ some c) :
    Bounded cap (Function.update next c (some p)) ↔
      ∀ a m, upN next m a = some c → upN next (cap - m) p = none := by
  constructor
  · intro hb a m hm
    by_contra hne
    obtain ⟨b, hn⟩ := Option.ne_none_iff_exists'.mp hne
    have hcap : m ≤ cap := by
      by_contra hlt
      have hnone := upN_none_mono (show cap + 1 ≤ m by omega) (h a)
      rw [hnone] at hm
      cases hm
    have hbelow := hacyclic.upN_update_below (v := some p) hm
    have hon : upN (Function.update next c (some p)) (cap - m) p = some b :=
      upN_update_of_avoids hn (fun k _ => hp k)
    have hlong := upN_trans hbelow ((upN_succ (Function.update_self c (some p) next)).trans hon)
    rw [show m + (cap - m + 1) = cap + 1 by omega, hb a] at hlong
    cases hlong
  · intro hshort a
    by_contra hne
    obtain ⟨b, hb⟩ := Option.ne_none_iff_exists'.mp hne
    rcases upN_update hp hb with hold | ⟨m, n, hk, hm, hn⟩
    · rw [h a] at hold
      cases hold
    · have hnone := hshort a m hm
      rw [show cap - m = n by omega, hn] at hnone
      cases hnone

theorem Acyclic.loop (h : Acyclic next) (hn : upN next n p = some c) :
    ¬ Acyclic (Function.update next c (some p)) := by
  intro hnew
  have hup := h.upN_update_below (v := some p) hn
  exact acyclic_iff.mp hnew c n
    ((upN_succ (Function.update_self c (some p) next)).trans hup)

end Forest

end Relux
