import Mathlib.Data.Finset.Card
import Mathlib.Logic.Relation

/-! Following a relation whose sources are finitely many: as far as there are elements, or
without end. -/

namespace Relux

variable {α : Type} {R : α → α → Prop}

inductive Descends (R : α → α → Prop) : Nat → α → Prop
  | here (a : α) : Descends R 0 a
  | step {n : Nat} {a b : α} (hab : R a b) (h : Descends R n b) : Descends R (n + 1) a

def Endless (R : α → α → Prop) (a : α) : Prop :=
  ∃ b, Relation.ReflTransGen R a b ∧ Relation.TransGen R b b

variable {a : α}

theorem Endless.head {b : α} (hab : R a b) (h : Endless R b) : Endless R a := by
  obtain ⟨c, hbc, hcycle⟩ := h
  exact ⟨c, hbc.head hab, hcycle⟩

theorem Endless.next (h : Endless R a) : ∃ b, R a b ∧ Endless R b := by
  obtain ⟨c, hac, hcycle⟩ := h
  rcases Relation.ReflTransGen.cases_head hac with hac | ⟨b, hab, hbc⟩
  · subst hac
    obtain ⟨b, hab, hba⟩ := Relation.TransGen.head'_iff.mp hcycle
    exact ⟨b, hab, a, hba, hcycle⟩
  · exact ⟨b, hab, c, hbc, hcycle⟩

variable {s : Finset α}

end Relux
