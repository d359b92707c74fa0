import Mathlib.Data.List.Basic

/-! Members that are minted on probation: a mint is made in two moves, and what comes after is
written by anybody who is let. Which writers count as a greenlight is left open. -/

namespace Relux.Probation

inductive Standing
  | pending
  | active
  | idle
  deriving DecidableEq, Repr

/-- The standing of each member, who was minted, whose mint has its second move due, which
writes made whom active and who was rejected. -/
structure Ledger (ι β : Type) where
  standing : ι → Option Standing
  minted : List ι
  due : List ι
  activations : List (ι × β)
  rejections : List ι

inductive Move (ι β : Type)
  | quiet
  | mint (i : ι)
  | settle (i : ι)
  | write (i : ι) (st : Standing) (b : β)
  | activate (i : ι) (b : β)
  | reject (i : ι)

variable {ι β : Type} {i : ι}

namespace Ledger

def Enabled (l : Ledger ι β) : Move ι β → Prop
  | .quiet => True
  | .mint i => l.standing i = none
  | .settle i => i ∈ l.due
  | .write i st _ => l.standing i ≠ none ∧ st ≠ .pending
  | .activate i _ => l.standing i = some .pending
  | .reject i => l.standing i = some .pending

section
variable (counts : ι → β → Prop) (l : Ledger ι β)

def Greenlit (i : ι) : Prop := ∃ b, (i, b) ∈ l.activations ∧ counts i b

/-- Whoever makes a member active whose mint is through counts, or one that counts did before;
and it is none that was rejected. -/
def Governed : Move ι β → Prop
  | .write i st b => st = .active → i ∈ l.minted → i ∉ l.due →
      i ∉ l.rejections ∧ (counts i b ∨ l.Greenlit counts i)
  | .activate i b => i ∈ l.minted → counts i b ∨ l.Greenlit counts i
  | _ => True

structure Kept : Prop where
  minted : ∀ i ∈ l.minted, l.standing i ≠ none
  named : ∀ i ∈ l.rejections, l.standing i ≠ none
  due : ∀ i ∈ l.due, i ∈ l.minted ∧ l.standing i ≠ some .pending ∧ i ∉ l.rejections
  active : ∀ i ∈ l.minted, i ∉ l.due → l.standing i = some .active → l.Greenlit counts i
  rejected : ∀ i ∈ l.minted, i ∈ l.rejections → l.standing i = some .idle

end

section
variable {counts counts' : ι → β → Prop} {l : Ledger ι β}

theorem Greenlit.mono (hcounts : ∀ i b, counts i b → counts' i b) (h : l.Greenlit counts i) :
    l.Greenlit counts' i := by
  obtain ⟨b, hb, hc⟩ := h
  exact ⟨b, hb, hcounts i b hc⟩

theorem Kept.mono (hcounts : ∀ i b, counts i b → counts' i b) (h : l.Kept counts) :
    l.Kept counts' where
  minted := h.minted
  named := h.named
  due := h.due
  active := by
    intro i hi hdue hactive
    exact (h.active i hi hdue hactive).mono hcounts
  rejected := h.rejected

variable {l' : Ledger ι β}

theorem Greenlit.cons {i : ι} {a : ι × β}
    (hl : l'.activations = a :: l.activations) (h : l.Greenlit counts i) :
    l'.Greenlit counts i := by
  obtain ⟨b, hb, hc⟩ := h
  refine ⟨b, ?_, hc⟩
  rw [hl]
  exact List.mem_cons_of_mem a hb

theorem Greenlit.of_activation {b : β}
    (hl : l'.activations = (i, b) :: l.activations) (h : counts i b ∨ l.Greenlit counts i) :
    l'.Greenlit counts i := by
  rcases h with hb | h
  · refine ⟨b, ?_, hb⟩
    rw [hl]
    exact List.mem_cons_self
  · exact h.cons hl

end

end Ledger

section
variable [DecidableEq ι]

def put (i : ι) (st : Standing) (standing : ι → Option Standing) : ι → Option Standing :=
  fun j => if j = i then some st else standing j

theorem put_self (i : ι) (st : Standing) (f : ι → Option Standing) : put i st f i = some st :=
  if_pos rfl

theorem put_ne {j : ι} (h : j ≠ i) (st : Standing) (f : ι → Option Standing) : put i st f j = f j :=
  if_neg h

theorem put_known {j : ι} {st : Standing} {f : ι → Option Standing} (h : f j ≠ none) :
    put i st f j ≠ none := by
  by_cases hj : j = i
  · simp [hj, put_self]
  · rw [put_ne hj]
    exact h

end

namespace Ledger

section
variable [DecidableEq ι]

def move (l : Ledger ι β) : Move ι β → Ledger ι β
  | .quiet => l
  | .mint i => { l with
      standing := put i .active l.standing
      minted := i :: l.minted
      due := i :: l.due }
  | .settle i => { l with
      standing := put i .pending l.standing
      due := l.due.filter (fun j => j ≠ i) }
  | .write i st b => { l with
      standing := put i st l.standing
      activations := if st = .active then (i, b) :: l.activations else l.activations }
  | .activate i b => { l with
      standing := put i .active l.standing
      activations := (i, b) :: l.activations }
  | .reject i => { l with
      standing := put i .idle l.standing
      rejections := i :: l.rejections }

variable {counts : ι → β → Prop} {l : Ledger ι β}

theorem Kept.mint (h : l.Kept counts) (hnew : l.standing i = none) :
    (l.move (.mint i)).Kept counts where
  minted := by
    intro j hj
    rcases List.mem_cons.mp hj with rfl | hold
    · simp [move, put_self]
    · exact put_known (h.minted j hold)
  named := by
    intro j hj
    exact put_known (h.named j hj)
  due := by
    intro j hj
    rcases List.mem_cons.mp hj with rfl | hold
    · refine ⟨List.mem_cons_self, by simp [move, put_self], ?_⟩
      intro hrej
      exact h.named j hrej hnew
    · obtain ⟨hm, hp, hr⟩ := h.due j hold
      have hne : j ≠ i := by
        rintro rfl
        exact h.minted j hm hnew
      refine ⟨List.mem_cons_of_mem i hm, ?_, hr⟩
      simp only [move, put_ne hne]
      exact hp
  active := by
    intro j hj hdue hactive
    have hne : j ≠ i := by
      rintro rfl
      exact hdue List.mem_cons_self
    have hm : j ∈ l.minted := by
      rcases List.mem_cons.mp hj with heq | hm
      · exact absurd heq hne
      · exact hm
    have hold : j ∉ l.due := fun hd => hdue (List.mem_cons_of_mem i hd)
    simp only [move, put_ne hne] at hactive
    exact h.active j hm hold hactive
  rejected := by
    intro j hj hrej
    have hne : j ≠ i := by
      rintro rfl
      exact h.named j hrej hnew
    have hm : j ∈ l.minted := by
      rcases List.mem_cons.mp hj with heq | hm
      · exact absurd heq hne
      · exact hm
    simp only [move, put_ne hne]
    exact h.rejected j hm hrej

theorem Kept.settle (h : l.Kept counts) {i : ι} (hi : i ∈ l.due) :
    (l.move (.settle i)).Kept counts where
  minted := by
    intro j hj
    exact put_known (h.minted j hj)
  named := by
    intro j hj
    exact put_known (h.named j hj)
  due := by
    intro j hj
    obtain ⟨hd, hne⟩ := List.mem_filter.mp hj
    have hne' : j ≠ i := by simpa using hne
    obtain ⟨hm, hp, hr⟩ := h.due j hd
    refine ⟨hm, ?_, hr⟩
    simp only [move, put_ne hne']
    exact hp
  active := by
    intro j hj hdue hactive
    by_cases hji : j = i
    · simp [move, hji, put_self] at hactive
    · simp only [move, put_ne hji] at hactive
      refine h.active j hj (fun hd => hdue ?_) hactive
      exact List.mem_filter.mpr ⟨hd, by simpa using hji⟩
  rejected := by
    intro j hj hrej
    have hne : j ≠ i := by
      rintro rfl
      exact (h.due j hi).2.2 hrej
    simp only [move, put_ne hne]
    exact h.rejected j hj hrej

theorem Kept.write (h : l.Kept counts) {st : Standing} {b : β} (hen : l.Enabled (.write i st b))
    (hg : l.Governed counts (.write i st b)) : (l.move (.write i st b)).Kept counts where
  minted := by
    intro j hj
    exact put_known (h.minted j hj)
  named := by
    intro j hj
    exact put_known (h.named j hj)
  due := by
    intro j hj
    obtain ⟨hm, hp, hr⟩ := h.due j hj
    refine ⟨hm, ?_, hr⟩
    by_cases hji : j = i
    · simp only [move, hji, put_self]
      intro heq
      exact hen.2 (Option.some.inj heq)
    · simp only [move, put_ne hji]
      exact hp
  active := by
    intro j hj hdue hactive
    by_cases hji : j = i
    · subst hji
      simp only [move, put_self] at hactive
      have hst : st = .active := Option.some.inj hactive
      have hwho := (hg hst hj hdue).2
      exact Greenlit.of_activation (by simp only [move, if_pos hst]) hwho
    · simp only [move, put_ne hji] at hactive
      have hold := h.active j hj hdue hactive
      by_cases hst : st = .active
      · exact hold.cons (a := (i, b)) (by simp only [move, if_pos hst])
      · obtain ⟨c, hc, hcount⟩ := hold
        refine ⟨c, ?_, hcount⟩
        simp only [move, if_neg hst]
        exact hc
  rejected := by
    intro j hj hrej
    by_cases hji : j = i
    · subst hji
      simp only [move, put_self]
      cases st with
      | pending => exact absurd rfl hen.2
      | active =>
        have hdue : j ∉ l.due := fun hd => (h.due j hd).2.2 hrej
        exact absurd hrej (hg rfl hj hdue).1
      | idle => rfl
    · simp only [move, put_ne hji]
      exact h.rejected j hj hrej

theorem Kept.activate (h : l.Kept counts) {b : β} (hen : l.Enabled (.activate i b))
    (hg : l.Governed counts (.activate i b)) : (l.move (.activate i b)).Kept counts where
  minted := by
    intro j hj
    exact put_known (h.minted j hj)
  named := by
    intro j hj
    exact put_known (h.named j hj)
  due := by
    intro j hj
    obtain ⟨hm, hp, hr⟩ := h.due j hj
    have hne : j ≠ i := by
      rintro rfl
      exact hp hen
    refine ⟨hm, ?_, hr⟩
    simp only [move, put_ne hne]
    exact hp
  active := by
    intro j hj hdue hactive
    by_cases hji : j = i
    · subst hji
      exact Greenlit.of_activation rfl (hg hj)
    · simp only [move, put_ne hji] at hactive
      exact (h.active j hj hdue hactive).cons (a := (i, b)) rfl
  rejected := by
    intro j hj hrej
    have hidle := h.rejected j hj hrej
    have hne : j ≠ i := by
      rintro rfl
      have hpending : l.standing j = some .pending := hen
      rw [hpending] at hidle
      cases hidle
    simp only [move, put_ne hne]
    exact hidle

theorem Kept.reject (h : l.Kept counts) (hen : l.standing i = some .pending) :
    (l.move (.reject i : Move ι β)).Kept counts where
  minted := by
    intro j hj
    exact put_known (h.minted j hj)
  named := by
    intro j hj
    rcases List.mem_cons.mp hj with rfl | hold
    · simp [move, put_self]
    · exact put_known (h.named j hold)
  due := by
    intro j hj
    obtain ⟨hm, hp, hr⟩ := h.due j hj
    have hne : j ≠ i := by
      rintro rfl
      exact hp hen
    refine ⟨hm, ?_, ?_⟩
    · simp only [move, put_ne hne]
      exact hp
    · intro hrej
      rcases List.mem_cons.mp hrej with heq | hold
      · exact hne heq
      · exact hr hold
  active := by
    intro j hj hdue hactive
    by_cases hji : j = i
    · simp [move, hji, put_self] at hactive
    · simp only [move, put_ne hji] at hactive
      exact h.active j hj hdue hactive
  rejected := by
    intro j hj hrej
    by_cases hji : j = i
    · simp only [move, hji, put_self]
    · rcases List.mem_cons.mp hrej with heq | hold
      · exact absurd heq hji
      · simp only [move, put_ne hji]
        exact h.rejected j hj hold

theorem Kept.move (h : l.Kept counts) {m : Move ι β} (hen : l.Enabled m)
    (hg : l.Governed counts m) : (l.move m).Kept counts := by
  cases m with
  | quiet => exact h
  | mint i => exact h.mint hen
  | settle i => exact h.settle hen
  | write i st b => exact h.write hen hg
  | activate i b => exact h.activate hen hg
  | reject i => exact h.reject hen

end

end Ledger

end Relux.Probation
