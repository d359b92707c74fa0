import Mathlib.Data.List.Basic
import Mathlib.Logic.Relation

/-! Programs that share a state and interleave: a program is a tree of atomic operations,
a pool is the shared state with the programs in flight. -/

namespace Relux

inductive Prog (Op : Type) (Res : Op → Type) (α : Type) : Type
  | done (a : α)
  | step (op : Op) (next : Res op → Prog Op Res α)

namespace Prog

variable {Op : Type} {Res : Op → Type} {σ α β γ : Type}

def bind : Prog Op Res α → (α → Prog Op Res β) → Prog Op Res β
  | .done a, f => f a
  | .step op next, f => .step op (fun r => bind (next r) f)

instance : Monad (Prog Op Res) where
  pure := .done
  bind := bind

def call (op : Op) : Prog Op Res (Res op) := .step op .done

@[simp] theorem pure_eq (a : α) : (pure a : Prog Op Res α) = .done a := rfl

@[simp] theorem done_bind (a : α) (f : α → Prog Op Res β) : (Prog.done a >>= f) = f a := rfl

@[simp] theorem step_bind (op : Op) (next : Res op → Prog Op Res α) (f : α → Prog Op Res β) :
    (Prog.step op next >>= f) = .step op (fun r => next r >>= f) := rfl

@[simp] theorem map_eq (f : α → β) (p : Prog Op Res α) : f <$> p = p >>= fun a => .done (f a) := rfl

/-- Run from states with `inv`, the program ends only with a result that `post` holds of. -/
def Yields (exec : σ → (op : Op) → Res op → σ → Prop) (inv : σ → Prop) (post : α → Prop) :
    Prog Op Res α → Prop
  | .done a => post a
  | .step op next => ∀ s r s', inv s → exec s op r s' → Yields exec inv post (next r)

section
variable {exec : σ → (op : Op) → Res op → σ → Prop} {inv : σ → Prop} {post : α → Prop}

theorem Yields.mono {p : Prog Op Res α} {post' : α → Prop} (h : p.Yields exec inv post)
    (hpost : ∀ a, post a → post' a) : p.Yields exec inv post' := by
  induction p with
  | done a => exact hpost a h
  | step op next ih =>
    intro s r s' hs hexec
    exact ih r (h s r s' hs hexec)

theorem Yields.bind {p : Prog Op Res α} {f : α → Prog Op Res β}
    {post' : β → Prop} (h : p.Yields exec inv post)
    (hf : ∀ a, post a → (f a).Yields exec inv post') : (p >>= f).Yields exec inv post' := by
  induction p with
  | done a => exact hf a h
  | step op next ih =>
    intro s r s' hs hexec
    exact ih r (h s r s' hs hexec)

end

end Prog

structure Pool (σ Op : Type) (Res : Op → Type) (α : Type) where
  shared : σ
  threads : List (Prog Op Res α)

namespace Pool

variable {Op : Type} {Res : Op → Type} {σ α : Type}

/-- One step of a pool: the outside changes the shared state, a job starts, or one of the
threads executes its next operation. -/
inductive Step (exec : σ → (op : Op) → Res op → σ → Prop) (env : σ → σ → Prop)
    (job : Prog Op Res α → Prop) : Pool σ Op Res α → Pool σ Op Res α → Prop
  | env {s s' ts} : env s s' → Step exec env job ⟨s, ts⟩ ⟨s', ts⟩
  | spawn {s ts p} : job p → Step exec env job ⟨s, ts⟩ ⟨s, ts ++ [p]⟩
  | run {s s' ts i op next r} : ts[i]? = some (.step op next) → exec s op r s' →
      Step exec env job ⟨s, ts⟩ ⟨s', ts.set i (next r)⟩

abbrev Runs (exec : σ → (op : Op) → Res op → σ → Prop) (env : σ → σ → Prop)
    (job : Prog Op Res α → Prop) : Pool σ Op Res α → Pool σ Op Res α → Prop :=
  Relation.ReflTransGen (Step exec env job)

/-- The operations of `exec` that are executed where `ok` holds. -/
def Where (exec : σ → (op : Op) → Res op → σ → Prop) (ok : σ → Op → Prop) :
    σ → (op : Op) → Res op → σ → Prop :=
  fun s op r s' => exec s op r s' ∧ ok s op

section
variable {exec exec' : σ → (op : Op) → Res op → σ → Prop} {env env' : σ → σ → Prop}
  {job : Prog Op Res α → Prop} {p p' : Pool σ Op Res α} {inv : σ → Prop}

variable {prog : Prog Op Res α} {run : σ → (op : Op) → Option (Res op × σ)} {i : Nat} {a : α}

theorem Step.shared (henv : ∀ s s', inv s → env s s' → inv s')
    (hexec : ∀ s op r s', inv s → exec s op r s' → inv s') (h : Step exec env job p p')
    (hp : inv p.shared) : inv p'.shared := by
  cases h with
  | env h => exact henv _ _ hp h
  | spawn h => exact hp
  | run _ h => exact hexec _ _ _ _ hp h

theorem Runs.shared (henv : ∀ s s', inv s → env s s' → inv s')
    (hexec : ∀ s op r s', inv s → exec s op r s' → inv s') (h : Runs exec env job p p')
    (hp : inv p.shared) : inv p'.shared := by
  induction h with
  | refl => exact hp
  | tail _ hstep ih => exact hstep.shared henv hexec ih

theorem Step.thread {post : α → Prop} (h : Step exec env job p p') (hp : inv p.shared)
    (hi : p.threads[i]? = some prog) (hprog : prog.Yields exec inv post) :
    ∃ prog', p'.threads[i]? = some prog' ∧ prog'.Yields exec inv post := by
  cases h with
  | env h => exact ⟨prog, hi, hprog⟩
  | spawn h =>
    have hlt := (List.getElem?_eq_some_iff.mp hi).1
    exact ⟨prog, (List.getElem?_append_left hlt).trans hi, hprog⟩
  | @run s s' ts j op next r hj hexec =>
    by_cases hij : i = j
    · subst hij
      have hlt : i < ts.length := (List.getElem?_eq_some_iff.mp hj).1
      have heq : prog = .step op next := Option.some.inj (hi.symm.trans hj)
      rw [heq] at hprog
      exact ⟨next r, List.getElem?_set_self hlt, hprog s r s' hp hexec⟩
    · have hkept : (ts.set j (next r))[i]? = ts[i]? := List.getElem?_set_ne (Ne.symm hij)
      exact ⟨prog, hkept.trans hi, hprog⟩

theorem Runs.thread {post : α → Prop} (henv : ∀ s s', inv s → env s s' → inv s')
    (hexec : ∀ s op r s', inv s → exec s op r s' → inv s') (h : Runs exec env job p p')
    (hp : inv p.shared) (hi : p.threads[i]? = some prog) (hprog : prog.Yields exec inv post) :
    ∃ prog', p'.threads[i]? = some prog' ∧ prog'.Yields exec inv post := by
  induction h with
  | refl => exact ⟨prog, hi, hprog⟩
  | tail hruns hstep ih =>
    obtain ⟨mid, hmid, hyields⟩ := ih
    exact hstep.thread (Runs.shared henv hexec hruns hp) hmid hyields

theorem Runs.result {post : α → Prop} (henv : ∀ s s', inv s → env s s' → inv s')
    (hexec : ∀ s op r s', inv s → exec s op r s' → inv s') (h : Runs exec env job p p')
    (hp : inv p.shared) (hi : p.threads[i]? = some prog) (hprog : prog.Yields exec inv post)
    (ha : p'.threads[i]? = some (.done a)) : post a := by
  obtain ⟨prog', hi', hyields⟩ := h.thread henv hexec hp hi hprog
  have heq : prog' = .done a := Option.some.inj (hi'.symm.trans ha)
  rw [heq] at hyields
  exact hyields

end

end Pool

end Relux
