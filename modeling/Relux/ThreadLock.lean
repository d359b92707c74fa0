import Relux.Threads

/-! A lock that programs hold between two of their operations: no pool whose programs give
it back can be stuck. -/

namespace Relux

variable {held : Bool}

namespace Prog

variable {Op : Type} {Res : Op → Type} {α β : Type} (acquires releases : Op → Bool)

/-- Every path takes the lock only when the program does not hold it, and ends without it. -/
def Brackets : Bool → Prog Op Res α → Prop
  | held, .done _ => held = false
  | held, .step op next =>
    if acquires op then held = false ∧ ∀ r, Brackets true (next r)
    else if releases op then held = true ∧ ∀ r, Brackets false (next r)
    else ∀ r, Brackets held (next r)

variable {acquires releases}

theorem Brackets.bind {p : Prog Op Res α} {f : α → Prog Op Res β}
    (h : p.Brackets acquires releases held) (hf : ∀ a, (f a).Brackets acquires releases false) :
    (p >>= f).Brackets acquires releases held := by
  induction p generalizing held with
  | done a =>
    have hheld : held = false := h
    rw [hheld]
    exact hf a
  | step op next ih =>
    rw [step_bind]
    unfold Brackets at h ⊢
    split
    · next ha =>
      rw [if_pos ha] at h
      exact ⟨h.1, fun r => ih r (h.2 r)⟩
    · next ha =>
      rw [if_neg ha] at h
      split
      · next hr =>
        rw [if_pos hr] at h
        exact ⟨h.1, fun r => ih r (h.2 r)⟩
      · next hr =>
        rw [if_neg hr] at h
        exact fun r => ih r (h r)

end Prog

structure LockSpec {σ Op : Type} {Res : Op → Type} (exec : σ → (op : Op) → Res op → σ → Prop)
    (acquires releases : Op → Bool) (free : σ → Prop) : Prop where
  acquire : ∀ s op, acquires op = true → free s → ∃ r s', exec s op r s'
  acquired : ∀ s op r s', acquires op = true → exec s op r s' → free s ∧ ¬ free s'
  other : ∀ s op, acquires op = false → ∃ r s', exec s op r s'
  released : ∀ s op r s', acquires op = false → releases op = true → exec s op r s' → free s'
  kept : ∀ s op r s', acquires op = false → releases op = false → exec s op r s' →
    (free s' ↔ free s)

namespace Pool

variable {Op : Type} {Res : Op → Type} {σ α : Type} {acquires releases : Op → Bool}
  {free : σ → Prop} {exec : σ → (op : Op) → Res op → σ → Prop} {env : σ → σ → Prop}
  {job : Prog Op Res α → Prop} {p p' : Pool σ Op Res α}

/-- The lock is held by `holder`, which is inside its section; the others are outside. -/
structure Held (acquires releases : Op → Bool) (free : σ → Prop) (p : Pool σ Op Res α)
    (holder : Option Nat) : Prop where
  free : free p.shared ↔ holder = none
  lt : ∀ i, holder = some i → i < p.threads.length
  brackets : ∀ i (prog : Prog Op Res α), p.threads[i]? = some prog →
    prog.Brackets acquires releases (decide (holder = some i))

variable {holder : Option Nat} {prog : Prog Op Res α} {i : Nat}

theorem Held.set (h : Held acquires releases free p holder) {s' : σ} {holder' : Option Nat}
    (hlt : i < p.threads.length) (hfree : free s' ↔ holder' = none)
    (hprog : prog.Brackets acquires releases
      (decide (holder' = some i))) (hother : ∀ j, j ≠ i → (holder' = some j ↔ holder = some j)) :
    Held acquires releases free ⟨s', p.threads.set i prog⟩ holder' where
  free := hfree
  lt := by
    intro j hj
    rw [List.length_set]
    by_cases hji : j = i
    · rw [hji]
      exact hlt
    · exact h.lt j ((hother j hji).mp hj)
  brackets := by
    intro j prog' hj
    by_cases hji : j = i
    · subst hji
      have heq : prog = prog' := Option.some.inj ((List.getElem?_set_self hlt).symm.trans hj)
      rw [← heq]
      exact hprog
    · have hkept : p.threads[j]? = some prog' := by
        rw [← hj]
        exact (List.getElem?_set_ne (Ne.symm hji)).symm
      have hbrackets := h.brackets j prog' hkept
      rwa [decide_eq_decide.mpr (hother j hji).symm] at hbrackets

theorem Held.step (spec : LockSpec exec acquires releases free)
    (henv : ∀ s s', env s s' → (free s' ↔ free s))
    (hjob : ∀ prog, job prog → prog.Brackets acquires releases false)
    (h : Held acquires releases free p holder) (hstep : Step exec env job p p') :
    ∃ holder', Held acquires releases free p' holder' := by
  cases hstep with
  | env henv' => exact ⟨holder, ⟨(henv _ _ henv').trans h.free, h.lt, h.brackets⟩⟩
  | @spawn s ts prog hprog =>
    refine ⟨holder, ⟨h.free, ?_, ?_⟩⟩
    · intro i hi
      have hlt : i < ts.length := h.lt i hi
      simp only [List.length_append, List.length_cons, List.length_nil]
      omega
    · intro i prog' hi
      by_cases hlt : i < ts.length
      · rw [List.getElem?_append_left hlt] at hi
        exact h.brackets i prog' hi
      · have hnot : ¬ holder = some i := fun heq => hlt (h.lt i heq)
        have hbound := (List.getElem?_eq_some_iff.mp hi).1
        simp only [List.length_append, List.length_cons, List.length_nil] at hbound
        have hi' : i = ts.length := by omega
        rw [hi', List.getElem?_append_right (Nat.le_refl _), Nat.sub_self] at hi
        have heq : prog = prog' := Option.some.inj hi
        rw [decide_eq_false hnot, ← heq]
        exact hjob prog hprog
  | @run s s' ts i op next r hi hexec =>
    have hlt := (List.getElem?_eq_some_iff.mp hi).1
    have hbrackets := h.brackets i _ hi
    unfold Prog.Brackets at hbrackets
    split at hbrackets
    · next ha =>
      obtain ⟨hfree, hheld⟩ := spec.acquired s op r s' ha hexec
      have hnone : holder = none := h.free.mp hfree
      refine ⟨some i, h.set hlt ?_ ?_ ?_⟩
      · exact ⟨fun hf => absurd hf hheld, fun heq => (by cases heq)⟩
      · rw [decide_eq_true rfl]
        exact hbrackets.2 r
      · intro j hj
        rw [hnone]
        exact ⟨fun heq => absurd (Option.some.inj heq).symm hj, fun heq => (by cases heq)⟩
    · next ha =>
      have ha' : acquires op = false := Bool.eq_false_iff.mpr ha
      split at hbrackets
      · next hr =>
        have hfree := spec.released s op r s' ha' hr hexec
        have hholder : holder = some i := of_decide_eq_true hbrackets.1
        refine ⟨none, h.set hlt ?_ ?_ ?_⟩
        · exact ⟨fun _ => rfl, fun _ => hfree⟩
        · exact hbrackets.2 r
        · intro j hj
          rw [hholder]
          exact ⟨fun heq => (by cases heq), fun heq => absurd (Option.some.inj heq).symm hj⟩
      · next hr =>
        have hkept := spec.kept s op r s' ha' (Bool.eq_false_iff.mpr hr) hexec
        refine ⟨holder, h.set hlt ?_ (hbrackets r) (fun j _ => Iff.rfl)⟩
        exact hkept.trans h.free

theorem Held.runs (spec : LockSpec exec acquires releases free)
    (henv : ∀ s s', env s s' → (free s' ↔ free s))
    (hjob : ∀ prog, job prog → prog.Brackets acquires releases false)
    (h : Held acquires releases free p holder) (hruns : Runs exec env job p p') :
    ∃ holder', Held acquires releases free p' holder' := by
  induction hruns with
  | refl => exact ⟨holder, h⟩
  | tail _ hstep ih =>
    obtain ⟨mid, hmid⟩ := ih
    exact hmid.step spec henv hjob hstep

variable {s : σ} {ts : List (Prog Op Res α)}

end Pool

end Relux
