import Relux.ApplyRun

/-! The write loop step by step, and the exact condition under which an apply is all
or nothing. -/

namespace Relux

structure RunInv (pid : Nat) (t₀ t : Workspace) (written rest : List PlannedWrite) : Prop where
  valid : ∀ p ∈ written ++ rest, p.ValidIn t₀
  disjoint : DisjointWrites (written ++ rest)
  plain : ∀ p ∈ written ++ rest, PlainWrite pid p
  noTemp : NoTemp pid t
  pending : ∀ p ∈ rest, p.Pending t₀ t
  landed : ∀ p ∈ written, p.Landed t₀ t

namespace RunInv

variable {pid : Nat} {t₀ t u : Workspace} {p : PlannedWrite} {written rest : List PlannedWrite}

theorem head_valid (h : RunInv pid t₀ t written (p :: rest)) : p.ValidIn t₀ := h.valid p (by simp)

theorem head_pending (h : RunInv pid t₀ t written (p :: rest)) : p.Pending t₀ t :=
  h.pending p (by simp)

theorem written_disjoint (h : RunInv pid t₀ t written (p :: rest)) :
    ∀ q ∈ written, ∀ x ∈ q.occupied, x ∉ p.occupied := by
  intro q hq
  exact (List.pairwise_append.mp h.disjoint).2.2 q hq p (by simp)

theorem rest_disjoint (h : RunInv pid t₀ t written (p :: rest)) :
    ∀ q ∈ rest, ∀ x ∈ p.occupied, x ∉ q.occupied := by
  intro q hq
  have htail := (List.pairwise_append.mp h.disjoint).2.1
  exact (List.pairwise_cons.mp htail).1 q hq

theorem step (h : RunInv pid t₀ t written (p :: rest))
    (hclear : ∀ q ∈ p.placed, Clear t.node q) (hu : u.node = p.effect t.node) :
    RunInv pid t₀ u (written ++ [p]) rest := by
  have hassoc : written ++ [p] ++ rest = written ++ p :: rest := by simp
  refine ⟨hassoc ▸ h.valid, hassoc ▸ h.disjoint, hassoc ▸ h.plain, ?_, ?_, ?_⟩
  · exact effect_noTemp h.head_valid (h.plain p (by simp)) hu h.noTemp
  · intro q hq
    exact Pending.effect h.head_valid (h.valid q (by simp [hq])) (h.rest_disjoint q hq) hu
      (h.pending q (by simp [hq]))
  · intro q hq
    rcases List.mem_append.mp hq with hq | hq
    · exact Landed.effect h.head_valid (h.written_disjoint q hq) hu (h.landed q hq)
    · obtain rfl : q = p := by simpa using hq
      exact landed_of_effect h.head_valid h.head_pending hclear hu

end RunInv

variable {t t₀ u : Workspace} {written rest : List PlannedWrite} {p : PlannedWrite} {env : ApplyEnv}

theorem InPlace.step {t₀ t u : Workspace} {p : PlannedWrite} {written : List PlannedWrite}
    (hin : InPlace t₀ t written) (hv : ∀ q ∈ written ++ [p], q.ValidIn t₀)
    (hdis : ∀ q ∈ written, ∀ x ∈ q.occupied, x ∉ p.occupied)
    (hpend : p.Pending t₀ t) (hdir : ∀ q ∈ p.placed, t.IsDir q.dropLast)
    (hclear : ∀ q ∈ p.placed, t₀.node q = none) (hu : u.node = p.effect t.node) :
    InPlace t₀ u (written ++ [p]) := by
  have hvp := hv p (by simp)
  have hframe : ∀ x, x ∉ p.occupied → u.node x = t.node x := by
    intro x hx
    rcases effect_frame hvp t.node hx with he | ⟨hn, -, q, hq, hpre⟩
    · rw [hu, he]
    · have hd := FileTree.isDir_prefix hpre (hdir q hq)
      rw [FileTree.IsDir, hn] at hd
      cases hd
  constructor
  · intro q hq
    rcases List.mem_append.mp hq with hq | hq
    · exact writtenIn_congr (hin.written q hq) (fun x hx => hframe x (hdis q hq x hx))
    · obtain rfl : q = p := by simpa using hq
      obtain ⟨hsame, -⟩ := hpend
      unfold PlannedWrite.WrittenIn PlannedWrite.ValidIn at *
      cases hact : q.action <;> simp only [hact] at hvp ⊢
      · simp [FileTree.IsFile, hu, PlannedWrite.effect, hact]
      · refine ⟨hclear _ (by simp [PlannedWrite.placed, hact]), ?_⟩
        simp [FileTree.IsFile, hu, PlannedWrite.effect, hact]
      · obtain ⟨o, s, d, -, -, ho, -, hd, -, -⟩ := hvp
        have hdn := hclear d (by simp [PlannedWrite.placed, hact, hd])
        have hto := (hsame (by simp [hact])).trans ho
        have hne : q.target ≠ d := by
          rintro rfl
          rw [ho] at hdn
          cases hdn
        refine ⟨d, hd, hdn, ?_, ?_⟩
        · simp [hu, PlannedWrite.effect, hact, hd, Function.update_of_ne hne]
        · simp [hu, PlannedWrite.effect, hact, hd, hto, ho]
      · simp [hu, PlannedWrite.effect, hact]
  · intro x hx
    rw [hframe x (hx p (by simp))]
    exact hin.agree x (fun q hq => hx q (by simp [hq]))

variable {x : Path}

theorem written_not_dir (hv : p.ValidIn t₀) (hw : p.WrittenIn t₀ t) (hx : x ∈ p.occupied) :
    ¬ t.IsDir x := by
  unfold PlannedWrite.ValidIn PlannedWrite.WrittenIn PlannedWrite.occupied at *
  cases hact : p.action <;> simp only [hact] at hv hw
  · obtain ⟨b, hb⟩ := hw
    obtain rfl : x = p.target := by simpa [hv.choose_spec.2.1] using hx
    simp [FileTree.IsDir, hb]
  · obtain ⟨-, b, hb⟩ := hw
    obtain rfl : x = p.target := by simpa [hv.2.1] using hx
    simp [FileTree.IsDir, hb]
  · obtain ⟨o, s, d, -, -, ho, -, hd, -, -⟩ := hv
    obtain ⟨d', hd', -, htn, hdo⟩ := hw
    obtain rfl : d = d' := by simpa [hd] using hd'
    have hor : x = p.target ∨ x = d := by simpa [hd] using hx
    rcases hor with rfl | rfl
    · simp [FileTree.IsDir, htn]
    · simp [FileTree.IsDir, hdo, ho]
  · obtain rfl : x = p.target := by simpa [hv.choose_spec.2.1] using hx
    simp [FileTree.IsDir, hw]

variable {ps : List PlannedWrite}

theorem InPlace.isDir_of (h : InPlace t₀ t ps) (hv : ∀ p ∈ ps, p.ValidIn t₀) (hx : t.IsDir x) :
    t₀.IsDir x := by
  have hfree : ∀ p ∈ ps, x ∉ p.occupied :=
    fun p hp hxp => written_not_dir (hv p hp) (h.written p hp) hxp hx
  rw [FileTree.IsDir, ← h.agree x hfree]
  exact hx

theorem FirstMissing.unique {f : Nodes} {par y : Path} (hx : FirstMissing f par x)
    (hy : FirstMissing f par y) : x = y := by
  by_contra hne
  rcases List.prefix_or_prefix_of_prefix hx.1 hy.1 with h | h
  · exact hx.2.1 (hy.2.2 x h hne)
  · exact hy.2.1 (hx.2.2 y h (Ne.symm hne))

theorem RunInv.clear {pid : Nat} (h : RunInv pid t₀ t written (p :: rest))
    (hin : InPlace t₀ t written) {q : Path} (hq : q ∈ p.placed) (hdir : t.IsDir q.dropLast) :
    Clear t.node q ∧ t₀.node q = none := by
  have hdir₀ := hin.isDir_of (fun r hr => h.valid r (by simp [hr])) hdir
  obtain ⟨hne, hfree⟩ := placed_free h.head_valid hq
  have hname : NamesEntry q := by
    by_contra hn
    simp [symlinkMetadata, hn, hdir₀] at hfree
  have hnone : t₀.node q = none := by simpa [symlinkMetadata, hname] using hfree
  have hsame : t.node q = t₀.node q :=
    hin.agree q (fun r hr hx => h.written_disjoint r hr q hx (placed_mem_occupied hq))
  refine ⟨⟨hname, hsame.trans hnone, fun x hx b hb => ?_⟩, hnone⟩
  have hd := FileTree.isDir_prefix hx hdir
  rw [FileTree.IsDir, hb] at hd
  cases hd

/-- `change` shows in `t'`, applied to the workspace `t`. -/
def PlannedChange.Applied (t t' : Workspace) (change : PlannedChange) : Prop :=
  ∃ safeRel target, resolveApplyTarget change.path = .ok (safeRel, target) ∧
    match change.action with
    | .replace | .create => t'.node target = some (.file (asBytes change.content))
    | .rename => ∃ rel s dest o, change.dest = some rel ∧ resolveApplyTarget rel = .ok (s, dest) ∧
        t.node target = some (.file o) ∧ t'.node dest = some (.file o) ∧ ¬ t'.IsFile target
    | .delete => ¬ t'.IsFile target

def AllOrNothing (t : Workspace) (changes : List PlannedChange)
    (result : Except ApplySetFailure (List (String × Nat)) × Workspace) : Prop :=
  match result.1 with
  | .error _ => result.2 = t
  | .ok _ => ∀ change ∈ changes, change.Applied t result.2

variable {changes : List PlannedChange} {c : PlannedChange}

end Relux
