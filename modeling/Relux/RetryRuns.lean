import Relux.RetrySteps

/-! How many retries the lane opens below a failed run: within the run's own budget as long as
it opens none below one that it opened itself, and no run is diagnosed once more. -/

namespace Relux.BriefRuns

open Crowd (Runs Step Label Meets)

def Settled : Crowd RetryDesk Lane → Prop := Meets RetryDesk.Sound Lane.Holds Lane.Apart

variable {s : RetryDesk} {leaseSecs : Int} {s' : RetryDesk}

theorem Settled.bounded {c : Crowd RetryDesk Lane} (h : Settled c) : c.shared.Bounded := by
  have hs := h.shared
  refine ⟨fun root row hrow l hl hmem => ?_, hs.single, fun runId hlost => ?_⟩
  · have hone : l.length ≤ 1 := hs.solitary.length_le_one hl hmem
    rcases l with _ | ⟨x, l⟩
    · exact Int.le_max_left 0 _
    · obtain ⟨-, n, hchain⟩ := hmem x List.mem_cons_self
      obtain ⟨b, hb⟩ : ∃ b, c.shared.Retried root b := by
        cases hchain with
        | cons hedge _ => exact ⟨_, hedge⟩
      obtain ⟨row', hrow', hbudget⟩ := hs.worth root b hb
      obtain rfl := Option.some.inj (hrow.symm.trans hrow')
      omega
  · obtain ⟨-, habsent, hunnamed⟩ := hs.lost runId hlost
    refine ⟨fun row hrow => ?_, hunnamed⟩
    rw [habsent] at hrow
    cases hrow

def opens (task : Nat) (id : String) : List (Crowd.Play Lane Pick Int) :=
  [.run task (.rig "codex"), .run task .go, .run task .go, .run task .go,
    .run task (.draws id id), .run task (.workspace none none none none), .run task .go,
    .run task .go, .run task .go]

def retries (task : Nat) (id : String) : List (Crowd.Play Lane Pick Int) :=
  [.spawn (.ticking 1 none), .run task .go, .run task .go, .run task .go, .run task .go,
    .run task .go, .run task .go] ++ opens task id ++
  [.run task (.desk (.ends (.failed true "timeout"))), .run task (.desk .go),
    .run task (.desk .go), .run task (.desk .go), .run task (.desk .go), .run task .go,
    .run task .go]

end Relux.BriefRuns
