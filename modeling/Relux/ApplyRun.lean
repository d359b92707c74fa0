import Relux.ApplyRollback

/-! Phase 1: what a validated change set says about the workspace, and that no two
of its changes touch one path. -/

namespace Relux

def PlannedWrite.Describes (p : PlannedWrite) (change : PlannedChange) : Prop :=
  p.action = change.action ∧ p.content = change.content ∧
    resolveApplyTarget change.path = .ok (p.safeRel, p.target) ∧
    ∀ d ∈ p.destTarget, ∃ rel s, change.dest = some rel ∧ resolveApplyTarget rel = .ok (s, d)

def PlannedWrite.keys (p : PlannedWrite) : List Path := p.occupied.map pathKey

variable {target : Path} {safeRel : String} {rel : String}

variable {seen seen' : Seen}

variable {t : Workspace} {b : Bytes}

variable {env : ApplyEnv}

variable {change : PlannedChange}

structure Planned (t : Workspace) (seen seen' : Seen) (change : PlannedChange)
    (p : PlannedWrite) : Prop where
  describes : p.Describes change
  valid : p.ValidIn t
  fresh : ∀ k ∈ p.keys, k ∉ seen.target
  seen_iff : ∀ k, k ∈ seen'.target ↔ k ∈ p.keys ∨ k ∈ seen.target

variable {p : PlannedWrite}

structure Validated (t : Workspace) (seen : Seen) (changes : List PlannedChange)
    (ps : List PlannedWrite) : Prop where
  describes : List.Forall₂ (fun c p => p.Describes c) changes ps
  valid : ∀ p ∈ ps, p.ValidIn t
  disjoint : DisjointWrites ps
  fresh : ∀ p ∈ ps, ∀ k ∈ p.keys, k ∉ seen.target

/-- `p` shows in `t`: the weak form of being written, which later changes keep. -/
def PlannedWrite.Landed (p : PlannedWrite) (t₀ t : Workspace) : Prop :=
  match p.action with
  | .replace | .create => t.node p.target = some (.file (asBytes p.content))
  | .rename => ∃ d o, p.destTarget = some d ∧ t₀.node p.target = some (.file o) ∧
      t.node d = some (.file o) ∧ ¬ t.IsFile p.target
  | .delete => ¬ t.IsFile p.target

/-- `p` has not been written yet and nothing touched its paths. -/
def PlannedWrite.Pending (p : PlannedWrite) (t₀ t : Workspace) : Prop :=
  (p.action ≠ .create → t.node p.target = t₀.node p.target) ∧
    ∀ q ∈ p.placed, NamesEntry q → ¬ t.IsFile q

variable {t₀ : Workspace}

theorem placed_mem_occupied {q : Path} (hq : q ∈ p.placed) : q ∈ p.occupied := by
  unfold PlannedWrite.placed PlannedWrite.occupied at *
  cases hact : p.action <;> simp only [hact] at hq
  · simp at hq
  · obtain rfl : p.target = q := by simpa using hq
    simp
  · simp [show p.destTarget = some q from hq]
  · simp at hq

theorem placed_free (hv : p.ValidIn t₀) {q : Path} (hq : q ∈ p.placed) :
    q ≠ [] ∧ symlinkMetadata t₀ q = none := by
  unfold PlannedWrite.ValidIn PlannedWrite.placed at *
  cases hact : p.action <;> simp only [hact] at hv hq
  · simp at hq
  · obtain rfl : p.target = q := by simpa using hq
    exact hv.2.2
  · obtain ⟨o, s, d, -, -, -, -, hd, hne, hfree⟩ := hv
    obtain rfl : d = q := by simpa [hd] using hq
    exact ⟨hne, hfree⟩
  · simp at hq

theorem effect_frame (hv : p.ValidIn t₀) (f : Nodes) {x : Path} (hx : x ∉ p.occupied) :
    p.effect f x = f x ∨
      (f x = none ∧ p.effect f x = some .dir ∧ ∃ q ∈ p.placed, x <+: q.dropLast) := by
  have hxt : x ≠ p.target := by
    rintro rfl
    exact hx (by simp [PlannedWrite.occupied])
  have hgrow : ∀ par, growDirs f par x = f x ∨
      (f x = none ∧ growDirs f par x = some .dir ∧ x <+: par) := by
    intro par
    by_cases h : x <+: par ∧ f x = none
    · exact .inr ⟨h.2, by simp [growDirs, h], h.1⟩
    · left
      simp only [growDirs, if_neg h]
  cases hact : p.action with
  | replace => simp [PlannedWrite.effect, hact, Function.update_of_ne hxt]
  | create =>
    simp only [PlannedWrite.effect, hact, Function.update_of_ne hxt]
    rcases hgrow p.target.dropLast with h | ⟨hn, hg, hpre⟩
    · exact .inl h
    · exact .inr ⟨hn, hg, p.target, by simp [PlannedWrite.placed, hact], hpre⟩
  | rename =>
    simp only [PlannedWrite.ValidIn, hact] at hv
    obtain ⟨o, s, d, -, -, -, -, hd, -, -⟩ := hv
    have hxd : x ≠ d := by
      rintro rfl
      exact hx (by simp [PlannedWrite.occupied, hd])
    simp only [PlannedWrite.effect, hact, hd, Function.update_of_ne hxt, Function.update_of_ne hxd]
    rcases hgrow d.dropLast with h | ⟨hn, hg, hpre⟩
    · exact .inl h
    · exact .inr ⟨hn, hg, d, by simp [PlannedWrite.placed, hact, hd], hpre⟩
  | delete => simp [PlannedWrite.effect, hact, Function.update_of_ne hxt]

variable {u : Workspace}

theorem effect_isFile_iff (hv : p.ValidIn t₀) (hu : u.node = p.effect t.node) {x : Path}
    (hx : x ∉ p.occupied) : u.node x = some (.file b) ↔ t.node x = some (.file b) := by
  rcases effect_frame hv t.node hx with h | ⟨hn, hd, -⟩
  · rw [hu, h]
  · rw [hu, hd, hn]
    simp

theorem effect_noTemp {pid : Nat} (hv : p.ValidIn t₀) (hplain : PlainWrite pid p)
    (hu : u.node = p.effect t.node) (ht : NoTemp pid t) : NoTemp pid u := by
  intro x n hn htemp
  have hx : x ∉ p.occupied := fun hx => hplain x hx n hn htemp
  rcases effect_frame hv t.node hx with h | ⟨-, -, q, hq, hpre⟩
  · rw [hu, h]
    exact ht x n hn htemp
  · have hqn : n ∈ q := (hpre.trans (List.dropLast_prefix q)).subset hn
    exact absurd htemp (hplain q (placed_mem_occupied hq) n hqn)

variable {q : PlannedWrite}

theorem Pending.effect (hv : p.ValidIn t₀) (hvq : q.ValidIn t₀)
    (hdis : ∀ x ∈ p.occupied, x ∉ q.occupied) (hu : u.node = p.effect t.node) (h : q.Pending t₀ t) :
    q.Pending t₀ u := by
  obtain ⟨hsame, hfree⟩ := h
  refine ⟨fun hact => ?_, fun r hr hname => ?_⟩
  · have hx : q.target ∉ p.occupied :=
      fun hx => hdis _ hx (by simp [PlannedWrite.occupied])
    have hfile : ∃ o, t₀.node q.target = some (.file o) := by
      unfold PlannedWrite.ValidIn at hvq
      cases hqa : q.action <;> simp only [hqa] at hvq
      · obtain ⟨o, -, -, -, ho⟩ := hvq; exact ⟨o, ho⟩
      · exact absurd hqa hact
      · obtain ⟨o, s, d, -, -, ho, -⟩ := hvq; exact ⟨o, ho⟩
      · obtain ⟨o, -, -, -, ho⟩ := hvq; exact ⟨o, ho⟩
    obtain ⟨o, ho⟩ := hfile
    rw [ho]
    exact (effect_isFile_iff hv hu hx).mpr ((hsame hact).trans ho)
  · rintro ⟨b, hb⟩
    have hx : r ∉ p.occupied := fun hx => hdis _ hx (placed_mem_occupied hr)
    exact hfree r hr hname ⟨b, (effect_isFile_iff hv hu hx).mp hb⟩

theorem Landed.effect (hv : p.ValidIn t₀)
    (hdis : ∀ x ∈ q.occupied, x ∉ p.occupied) (hu : u.node = p.effect t.node) (h : q.Landed t₀ t) :
    q.Landed t₀ u := by
  have ht : q.target ∉ p.occupied := hdis _ (by simp [PlannedWrite.occupied])
  have hnot : ¬ t.IsFile q.target → ¬ u.IsFile q.target := by
    rintro hn ⟨b, hb⟩
    exact hn ⟨b, (effect_isFile_iff hv hu ht).mp hb⟩
  unfold PlannedWrite.Landed at *
  cases hact : q.action <;> simp only [hact] at h ⊢
  · exact (effect_isFile_iff hv hu ht).mpr h
  · exact (effect_isFile_iff hv hu ht).mpr h
  · obtain ⟨d, o, hd, ho, hdo, hn⟩ := h
    have hx : d ∉ p.occupied := hdis d (by simp [PlannedWrite.occupied, hd])
    exact ⟨d, o, hd, ho, (effect_isFile_iff hv hu hx).mpr hdo, hnot hn⟩
  · exact hnot h

theorem landed_of_effect (hv : p.ValidIn t₀) (hp : p.Pending t₀ t)
    (hclear : ∀ q ∈ p.placed, Clear t.node q) (hu : u.node = p.effect t.node) : p.Landed t₀ u := by
  obtain ⟨hsame, -⟩ := hp
  unfold PlannedWrite.Landed PlannedWrite.ValidIn at *
  cases hact : p.action <;> simp only [hact] at hv ⊢
  · simp [hu, PlannedWrite.effect, hact]
  · simp [hu, PlannedWrite.effect, hact]
  · obtain ⟨o, s, d, -, -, ho, -, hd, -, -⟩ := hv
    have hto := (hsame (by simp [hact])).trans ho
    have hne : p.target ≠ d := by
      rintro rfl
      have hc := (hclear p.target (by simp [PlannedWrite.placed, hact, hd])).2.1
      rw [hto] at hc
      cases hc
    refine ⟨d, o, hd, ho, by simp [hu, PlannedWrite.effect, hact, hd, hto], ?_⟩
    simp [FileTree.IsFile, hu, PlannedWrite.effect, hact, hd, Function.update_of_ne hne]
  · simp [FileTree.IsFile, hu, PlannedWrite.effect, hact]

end Relux
