import Relux.ApplyStep

/-! The rollback loop. It restores a prefix of writes that made no directory, and it
keeps every directory and every temp file a failed create left behind. -/

namespace Relux

def PlannedWrite.occupied (p : PlannedWrite) : List Path := p.target :: p.destTarget.toList

def PlannedWrite.ValidIn (p : PlannedWrite) (t : Workspace) : Prop :=
  match p.action with
  | .replace => ∃ o, p.rollback = .restoreOriginal o ∧ p.destTarget = none ∧
      NamesEntry p.target ∧ t.node p.target = some (.file o)
  | .create => p.rollback = .deleteCreated ∧ p.destTarget = none ∧ p.target ≠ [] ∧
      symlinkMetadata t p.target = none
  | .rename => ∃ o s d, p.rollback = .restoreRename ∧ NamesEntry p.target ∧
      t.node p.target = some (.file o) ∧ p.destSafeRel = some s ∧ p.destTarget = some d ∧
      d ≠ [] ∧ symlinkMetadata t d = none
  | .delete => ∃ o, p.rollback = .restoreDeleted o ∧ p.destTarget = none ∧
      NamesEntry p.target ∧ t.node p.target = some (.file o)

/-- `p` has been written to `t`, and where it put an entry `t₀` had none. -/
def PlannedWrite.WrittenIn (p : PlannedWrite) (t₀ t : Workspace) : Prop :=
  match p.action with
  | .replace => t.IsFile p.target
  | .create => t₀.node p.target = none ∧ t.IsFile p.target
  | .rename => ∃ d, p.destTarget = some d ∧ t₀.node d = none ∧ t.node p.target = none ∧
      t.node d = t₀.node p.target
  | .delete => t.node p.target = none

def DisjointWrites (ps : List PlannedWrite) : Prop :=
  ps.Pairwise (fun p q => ∀ x ∈ p.occupied, x ∉ q.occupied)

/-- `t` is `t₀` after the writes `ps`, none of which made a directory. -/
structure InPlace (t₀ t : Workspace) (ps : List PlannedWrite) : Prop where
  written : ∀ p ∈ ps, p.WrittenIn t₀ t
  agree : ∀ x, (∀ p ∈ ps, x ∉ p.occupied) → t.node x = t₀.node x

def PlainWrite (pid : Nat) (p : PlannedWrite) : Prop := ∀ x ∈ p.occupied, PlainPath pid x

variable {p : PlannedWrite} {pid : Nat}

theorem PlainWrite.target (h : PlainWrite pid p) :
    PlainPath pid p.target := h _ (by simp [PlannedWrite.occupied])

variable {t t₀ : Workspace} {x : Path}

variable {ps : List PlannedWrite}

theorem InPlace.noTemp (h : InPlace t₀ t ps) (hplain : ∀ p ∈ ps, PlainWrite pid p)
    (ht : NoTemp pid t₀) : NoTemp pid t := by
  intro x n hn htemp
  rw [h.agree x (fun p hp hx => hplain p hp x hx n hn htemp)]
  exact ht x n hn htemp

variable {env : ApplyEnv} {target : Path}

theorem writtenIn_congr {u : Workspace} (h : p.WrittenIn t₀ t)
    (heq : ∀ x ∈ p.occupied, u.node x = t.node x) : p.WrittenIn t₀ u := by
  have htarget := heq p.target (by simp [PlannedWrite.occupied])
  unfold PlannedWrite.WrittenIn at *
  cases hact : p.action with
  | replace =>
    simp only [hact, FileTree.IsFile] at h ⊢
    rwa [htarget]
  | create =>
    simp only [hact, FileTree.IsFile] at h ⊢
    rwa [htarget]
  | rename =>
    simp only [hact] at h ⊢
    obtain ⟨d, hd, hn, ht, htd⟩ := h
    have hdest := heq d (by simp [PlannedWrite.occupied, hd])
    exact ⟨d, hd, hn, htarget.trans ht, hdest.trans htd⟩
  | delete =>
    simp only [hact] at h ⊢
    exact htarget.trans h

end Relux
