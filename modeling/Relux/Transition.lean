import Mathlib.Data.List.Infix

/-! Runs of a deterministic system, whose labels carry everything the environment
chooses: invariants, relations every step keeps, and both under a guard that each step
has to meet. -/

namespace Relux

namespace Transition

variable {σ ι : Type}

def run (exec : σ → ι → σ) (s : σ) (ops : List ι) : σ := ops.foldl exec s

def Guarded (exec : σ → ι → σ) (guard : σ → ι → Prop) : σ → List ι → Prop
  | _, [] => True
  | s, op :: ops => guard s op ∧ Guarded exec guard (exec s op) ops

@[simp] theorem run_nil (exec : σ → ι → σ) (s : σ) : run exec s [] = s := rfl

@[simp] theorem run_cons (exec : σ → ι → σ) (s : σ) (op : ι) (ops : List ι) :
    run exec s (op :: ops) = run exec (exec s op) ops := rfl

theorem run_append (exec : σ → ι → σ) (s : σ) (ops more : List ι) :
    run exec s (ops ++ more) = run exec (run exec s ops) more :=
  List.foldl_append

theorem Guarded.append {exec : σ → ι → σ} {guard : σ → ι → Prop} {s : σ} {ops more : List ι}
    (h : Guarded exec guard s (ops ++ more)) :
    Guarded exec guard s ops ∧ Guarded exec guard (run exec s ops) more := by
  induction ops generalizing s with
  | nil => exact ⟨trivial, h⟩
  | cons op ops ih =>
    obtain ⟨h1, h2⟩ := ih h.2
    exact ⟨⟨h.1, h1⟩, h2⟩

variable {guard : σ → ι → Prop} {exec : σ → ι → σ} {ops : List ι} {s : σ}

theorem Guarded.of_prefix {pre : List ι} (h : Guarded exec guard s ops) (hp : pre <+: ops) :
    Guarded exec guard s pre := by
  obtain ⟨more, rfl⟩ := hp
  exact h.append.1

theorem Guarded.concat {op : ι} (h : Guarded exec guard s ops) (hop : guard (run exec s ops) op) :
    Guarded exec guard s (ops ++ [op]) := by
  induction ops generalizing s with
  | nil => exact ⟨hop, trivial⟩
  | cons _ ops ih => exact ⟨h.1, ih h.2 hop⟩

variable {guard' : σ → ι → Prop}

theorem Guarded.imp (hg : ∀ s, ∀ op ∈ ops, guard s op → guard' s op)
    (h : Guarded exec guard s ops) : Guarded exec guard' s ops := by
  induction ops generalizing s with
  | nil => trivial
  | cons op ops ih =>
    exact ⟨hg s op List.mem_cons_self h.1,
      ih (fun s op' hop' => hg s op' (List.mem_cons_of_mem op hop')) h.2⟩

variable {inv : σ → Prop}

theorem Guarded.strengthen (hstep : ∀ s op, inv s → guard s op → inv (exec s op))
    (hg : ∀ s op, inv s → guard s op → guard' s op) (hs : inv s) (h : Guarded exec guard s ops) :
    Guarded exec guard' s ops := by
  induction ops generalizing s with
  | nil => trivial
  | cons op ops ih => exact ⟨hg s op hs h.1, ih (hstep s op hs h.1) h.2⟩

theorem guarded_true (exec : σ → ι → σ) (s : σ) (ops : List ι) :
    Guarded exec (fun _ _ => True) s ops := by
  induction ops generalizing s with
  | nil => trivial
  | cons op ops ih => exact ⟨trivial, ih _⟩

theorem invariant_run (hstep : ∀ s op, inv s → guard s op → inv (exec s op)) (hs : inv s)
    (hg : Guarded exec guard s ops) : inv (run exec s ops) := by
  induction ops generalizing s with
  | nil => exact hs
  | cons op ops ih => exact ih (hstep s op hs hg.1) hg.2

theorem relation_run {rel : σ → σ → Prop} (hrefl : ∀ s, rel s s)
    (htrans : ∀ s t u, rel s t → rel t u → rel s u)
    (hinv : ∀ s op, inv s → guard s op → inv (exec s op))
    (hstep : ∀ s op, inv s → guard s op → rel s (exec s op)) (hs : inv s)
    (hg : Guarded exec guard s ops) : rel s (run exec s ops) := by
  induction ops generalizing s with
  | nil => exact hrefl s
  | cons op ops ih =>
    exact htrans _ _ _ (hstep s op hs hg.1) (ih (hinv s op hs hg.1) hg.2)

variable {good : σ → Prop}

theorem prefixes_iff_guarded (hinv : ∀ s op, inv s → inv (exec s op))
    (hgood : ∀ s op, inv s → good s → (good (exec s op) ↔ guard s op)) (hs : inv s) (hs' : good s)
    (ops : List ι) : (∀ pre, pre <+: ops → good (run exec s pre)) ↔ Guarded exec guard s ops := by
  induction ops generalizing s with
  | nil =>
    constructor
    · exact fun _ => trivial
    · intro _ pre hpre
      rw [List.prefix_nil.mp hpre]
      exact hs'
  | cons op ops ih =>
    constructor
    · intro h
      have hnext : good (exec s op) := h [op] ⟨ops, rfl⟩
      refine ⟨(hgood s op hs hs').mp hnext, (ih (hinv s op hs) hnext).mp (fun pre hpre => ?_)⟩
      exact h (op :: pre) (List.cons_prefix_cons.mpr ⟨rfl, hpre⟩)
    · intro h pre hpre
      have hnext : good (exec s op) := (hgood s op hs hs').mpr h.1
      cases pre with
      | nil => exact hs'
      | cons op' pre =>
        obtain ⟨rfl, hrest⟩ := List.cons_prefix_cons.mp hpre
        exact (ih (hinv s op' hs) hnext).mpr h.2 pre hrest

theorem prefixes_iff_guarded_of_quiet {quiet : σ → ι → Prop}
    (hinv : ∀ s op, inv s → quiet s op → guard s op → inv (exec s op)) (hgood : ∀ s, inv s → good s)
    (hguard : ∀ s op, inv s → quiet s op → good (exec s op) → guard s op) (hs : inv s)
    (hquiet : Guarded exec quiet s ops) :
    (∀ pre, pre <+: ops → good (run exec s pre)) ↔ Guarded exec guard s ops := by
  induction ops generalizing s with
  | nil =>
    refine iff_of_true (fun pre hpre => ?_) trivial
    rw [List.prefix_nil.mp hpre]
    exact hgood s hs
  | cons op ops ih =>
    constructor
    · intro h
      have hmet : guard s op := hguard s op hs hquiet.1 (h [op] ⟨ops, rfl⟩)
      refine ⟨hmet, (ih (hinv s op hs hquiet.1 hmet) hquiet.2).mp (fun pre hpre => ?_)⟩
      exact h (op :: pre) (List.cons_prefix_cons.mpr ⟨rfl, hpre⟩)
    · intro h pre hpre
      cases pre with
      | nil => exact hgood s hs
      | cons op' pre =>
        obtain ⟨rfl, hrest⟩ := List.cons_prefix_cons.mp hpre
        exact (ih (hinv s op' hs hquiet.1 h.1) hquiet.2).mpr h.2 pre hrest

section Outcomes

variable {ρ : Type} {exec : σ → ι → σ} {answer : σ → ι → ρ} {r : σ → σ → Prop}

/-- The operations may give these answers and end in this state, where each of them meets
any state related to the one before it. -/
def Yields (exec : σ → ι → σ) (answer : σ → ι → ρ) (r : σ → σ → Prop) :
    σ → List ι → List ρ → σ → Prop
  | s, [], answers, s' => answers = [] ∧ r s s'
  | s, op :: ops, answers, s' => ∃ t rest, r s t ∧ answers = answer t op :: rest ∧
      Yields exec answer r (exec t op) ops rest s'

theorem Yields.congr (hr : Equivalence r) {t : σ} (h : r s t) (ops : List ι) (answers : List ρ)
    (s' : σ) : Yields exec answer r s ops answers s' ↔ Yields exec answer r t ops answers s' := by
  have hone : ∀ s t, r s t → Yields exec answer r s ops answers s' →
      Yields exec answer r t ops answers s' := by
    intro s t hst hs
    cases ops with
    | nil => exact ⟨hs.1, hr.trans (hr.symm hst) hs.2⟩
    | cons op ops =>
      obtain ⟨u, rest, hu, hanswers, hrest⟩ := hs
      exact ⟨u, rest, hr.trans (hr.symm hst) hu, hanswers, hrest⟩
  exact ⟨hone s t h, hone t s (hr.symm h)⟩

end Outcomes

variable {ε : Type} {f : σ → ι → Except ε σ} {t : σ} {more : List ι}

theorem foldlM_append_ok : (ops ++ more).foldlM f s = .ok t ↔
    ∃ mid, ops.foldlM f s = .ok mid ∧ more.foldlM f mid = .ok t := by
  rw [List.foldlM_append]
  cases ops.foldlM f s <;> simp [bind, Except.bind]

theorem foldlM_concat_ok {op : ι} : (ops ++ [op]).foldlM f s = .ok t ↔
    ∃ mid, ops.foldlM f s = .ok mid ∧ f mid op = .ok t := by
  rw [foldlM_append_ok]
  simp only [List.foldlM_cons, List.foldlM_nil, bind_pure]

end Transition

end Relux
