import Mathlib.Data.Finset.Card
import Mathlib.Logic.Function.Basic
import Mathlib.Logic.Relation
import Relux.Orchestrate

/-! An agenda of items that need each other. A waiting item settles once everything it needs
is done, and is blocked once something it needs is down; nothing else ever moves. -/

namespace Relux

namespace Agenda

inductive Mark where
  | waiting
  | done
  | failed
  | blocked
  deriving DecidableEq

def Mark.Down (mark : Mark) : Prop := mark = .failed ∨ mark = .blocked

variable {ι : Type*} [DecidableEq ι] (needs : ι → ι → Prop)

def Ready (m : ι → Mark) (i : ι) : Prop := m i = .waiting ∧ ∀ j, needs i j → m j = .done

def Stuck (m : ι → Mark) (i : ι) : Prop := m i = .waiting ∧ ∃ j, needs i j ∧ (m j).Down

inductive Move (m : ι → Mark) : (ι → Mark) → Prop
  | settle {i : ι} {mark : Mark} (hready : Ready needs m i) (hmark : mark ≠ .waiting) :
      Move m (Function.update m i mark)
  | block {i : ι} (hstuck : Stuck needs m i) : Move m (Function.update m i .blocked)

abbrev Moves := Relation.ReflTransGen (Move needs)

def Closed (m : ι → Mark) : Prop := ∀ i, m i = .done → ∀ j, needs i j → m j = .done

/-- From the first marking to the second, the item is cut off: something it needs, directly
or through items that were not done, ends up down. -/
inductive Cut (m m' : ι → Mark) : ι → Prop
  | direct {i j : ι} (hneeds : needs i j) (hdown : (m' j).Down) : Cut m m' i
  | through {i j : ι} (hneeds : needs i j) (hj : m j ≠ .done) (hcut : Cut m m' j) : Cut m m' i

variable {needs} {m m' : ι → Mark} {i j : ι}

theorem Mark.Down.ne_done {mark : Mark} (h : mark.Down) : mark ≠ .done := by
  rcases h with rfl | rfl <;> exact nofun

theorem Move.settled (h : Move needs m m') (hi : m i ≠ .waiting) : m' i = m i := by
  cases h with
  | @settle k _ hready _ =>
    have hne : i ≠ k := fun he => hi (he ▸ hready.1)
    exact Function.update_of_ne hne _ _
  | @block k hstuck =>
    have hne : i ≠ k := fun he => hi (he ▸ hstuck.1)
    exact Function.update_of_ne hne _ _

theorem Moves.settled (h : Moves needs m m') (hi : m i ≠ .waiting) : m' i = m i := by
  induction h with
  | refl => rfl
  | tail _ hmove ih => rw [hmove.settled (ih ▸ hi), ih]

theorem Moves.waiting (h : Moves needs m m') (hi : m' i = .waiting) : m i = .waiting := by
  by_contra hne
  exact hne (h.settled hne ▸ hi)

theorem Ready.after (hready : Ready needs m i) (h : Moves needs m m') (hi : m' i = .waiting) :
    Ready needs m' i := by
  refine ⟨hi, fun j hj => ?_⟩
  have hdone := hready.2 j hj
  rw [h.settled (by rw [hdone]; exact nofun), hdone]

theorem Moves.origin (h : Moves needs m m') (hi : m i = .waiting) :
    m' i = .waiting ∨ m' i = .blocked ∨ ∀ j, needs i j → m' j = .done := by
  induction h with
  | refl => exact .inl hi
  | @tail m₁ m₂ _ hmove ih =>
    have hdone : ∀ j, m₁ j = .done → m₂ j = .done := fun j hj => by
      rw [hmove.settled (by rw [hj]; exact nofun), hj]
    rcases ih with hwaiting | hblocked | hneeds
    · cases hmove with
      | @settle k mark hready hmark =>
        by_cases hik : i = k
        · subst hik
          exact .inr (.inr (fun j hj => hdone j (hready.2 j hj)))
        · exact .inl (by rw [Function.update_of_ne hik, hwaiting])
      | @block k hstuck =>
        by_cases hik : i = k
        · subst hik
          exact .inr (.inl (Function.update_self _ _ _))
        · exact .inl (by rw [Function.update_of_ne hik, hwaiting])
    · exact .inr (.inl (by rw [hmove.settled (by rw [hblocked]; exact nofun), hblocked]))
    · exact .inr (.inr (fun j hj => hdone j (hneeds j hj)))

theorem Moves.block_all {l : List ι} (hstuck : ∀ i ∈ l, Stuck needs m i)
    (hm' : ∀ i, m' i = if i ∈ l then .blocked else m i) : Moves needs m m' := by
  induction l generalizing m' with
  | nil =>
    have he : m' = m := funext (fun i => by rw [hm', if_neg List.not_mem_nil])
    rw [he]
  | cons a l ih =>
    have hrest := ih (fun i hi => hstuck i (List.mem_cons_of_mem a hi)) (fun i => rfl)
    by_cases ha : a ∈ l
    · have he : m' = fun i => if i ∈ l then .blocked else m i := by
        funext i
        rw [hm']
        by_cases hi : i ∈ l
        · rw [if_pos (List.mem_cons_of_mem a hi), if_pos hi]
        · have hcons : i ∉ a :: l := by
            rintro (_ | ⟨_, hmem⟩)
            · exact hi ha
            · exact hi hmem
          rw [if_neg hcons, if_neg hi]
      rw [he]
      exact hrest
    · obtain ⟨hwaiting, j, hneeds, hdown⟩ := hstuck a List.mem_cons_self
      -- What holds the item up is settled, so the other blocks leave it alone.
      have hj : (if j ∈ l then Mark.blocked else m j).Down := by
        split
        · exact .inr rfl
        · exact hdown
      have hmove : Move needs (fun i => if i ∈ l then .blocked else m i) m' := by
        have he : m' = Function.update (fun i => if i ∈ l then .blocked else m i) a .blocked := by
          funext i
          rw [hm', Function.update_apply]
          by_cases hia : i = a
          · rw [if_pos hia, if_pos (hia ▸ List.mem_cons_self)]
          · rw [if_neg hia]
            simp only [List.mem_cons, hia, false_or]
        rw [he]
        exact .block ⟨(if_neg ha).trans hwaiting, j, hneeds, hj⟩
      exact hrest.tail hmove

theorem Moves.blocked_of_cut (h : Moves needs m m') (hstuck : ∀ i, ¬ Stuck needs m' i)
    (hcut : Cut needs m m' i) (hi : m i = .waiting) : m' i = .blocked := by
  have hdirect : ∀ i j, m i = .waiting → needs i j → (m' j).Down → m' i = .blocked := by
    intro i j hi hneeds hdown
    rcases h.origin hi with hwaiting | hblocked | hdone
    · exact absurd ⟨hwaiting, j, hneeds, hdown⟩ (hstuck i)
    · exact hblocked
    · exact absurd (hdone j hneeds) hdown.ne_done
  induction hcut with
  | direct hneeds hdown => exact hdirect _ _ hi hneeds hdown
  | @through i j hneeds hj hcut ih =>
    refine hdirect i j hi hneeds ?_
    cases hmark : m j with
    | waiting => exact .inr (ih hmark)
    | done => exact absurd hmark hj
    | failed => exact .inl (by rw [h.settled (by rw [hmark]; exact nofun), hmark])
    | blocked => exact .inr (by rw [h.settled (by rw [hmark]; exact nofun), hmark])

omit [DecidableEq ι] in
theorem Closed.chain (hc : Closed needs m) (hi : m i = .done)
    (hchain : Relation.TransGen needs i j) : m j = .done := by
  induction hchain with
  | single hneeds => exact hc i hi _ hneeds
  | tail _ hneeds ih => exact hc _ ih _ hneeds

theorem Moves.cut_of_chain (h : Moves needs m m') (hc : Closed needs m)
    (hchain : Relation.TransGen needs i j) (hdown : (m' j).Down) : Cut needs m m' i := by
  induction hchain using Relation.TransGen.head_induction_on with
  | single hneeds => exact .direct hneeds hdown
  | @head i k hneeds hrest ih =>
    refine .through hneeds (fun hk => ?_) ih
    have hdone := hc.chain hk hrest
    have hkept := h.settled (i := j) (by rw [hdone]; exact nofun)
    exact hdown.ne_done (hkept.trans hdone)

omit [DecidableEq ι] in
theorem none_waiting (hwf : WellFounded (fun j i => needs i j))
    (hready : ∀ i, ¬ Ready needs m i) (hstuck : ∀ i, ¬ Stuck needs m i) (i : ι) :
    m i ≠ .waiting := by
  induction i using hwf.induction with
  | _ i ih =>
    intro hi
    refine hready i ⟨hi, fun j hj => ?_⟩
    have hdown : ¬ (m j).Down := fun hdown => hstuck i ⟨hi, j, hj, hdown⟩
    cases hmark : m j with
    | waiting => exact absurd hmark (ih j hj)
    | done => rfl
    | failed => exact absurd (.inl hmark) hdown
    | blocked => exact absurd (.inr hmark) hdown

def waitingIn (items : Finset ι) (m : ι → Mark) : Nat :=
  (items.filter (fun i => m i = .waiting)).card

theorem Moves.waitingIn_lt (h : Moves needs m m') {items : Finset ι} (hmem : i ∈ items)
    (hi : m i = .waiting) (hi' : m' i ≠ .waiting) : waitingIn items m' < waitingIn items m := by
  refine Finset.card_lt_card (Finset.ssubset_iff_subset_ne.mpr
    ⟨Finset.monotone_filter_right items (fun _ _ hi => h.waiting hi), fun he => hi' ?_⟩)
  have hbefore : i ∈ items.filter (fun i => m i = .waiting) := Finset.mem_filter.mpr ⟨hmem, hi⟩
  rw [← he] at hbefore
  exact (Finset.mem_filter.mp hbefore).2

end Agenda

end Relux

/-! The steps of an orchestration, as an agenda. Recording an outcome settles a ready step,
and the blocks that cascade down the dependencies leave no step stuck. -/

namespace Relux

open Agenda (Mark Ready Stuck Move Moves waitingIn)

def StepOutcome.mark : StepOutcome → Mark
  | .pending => .waiting
  | .completed => .done
  | .failed => .failed
  | .blocked => .blocked

@[simp] theorem mark_eq_waiting (o : StepOutcome) : o.mark = .waiting ↔ o = .pending := by
  cases o <;> decide

@[simp] theorem mark_eq_done (o : StepOutcome) : o.mark = .done ↔ o = .completed := by
  cases o <;> decide

theorem mark_down (o : StepOutcome) : o.mark.Down ↔ isDown o = true := by
  cases o <;> simp only [StepOutcome.mark, Mark.Down, isDown, reduceCtorEq, or_self, or_true,
    true_or, Bool.false_eq_true]

def markAt (steps : List OrchestrationStep) (i : Nat) : Mark :=
  match steps[i]? with
  | none => .done
  | some step => step.outcome.mark

def DependsOn (steps : List OrchestrationStep) (i j : Nat) : Prop :=
  ∃ step, steps[i]? = some step ∧ j ∈ step.dependsOn

def OrchestrationStep.brief (step : OrchestrationStep) : TaskId × AgentId × String × List Nat :=
  (step.taskId, step.agentId, step.title, step.dependsOn)

section Steps

variable {steps steps' : List OrchestrationStep} {step : OrchestrationStep} {i : Nat}

theorem markAt_of_get (h : steps[i]? = some step) : markAt steps i = step.outcome.mark := by
  unfold markAt
  rw [h]

theorem dependsOn_of_get (h : steps[i]? = some step) (j : Nat) :
    DependsOn steps i j ↔ j ∈ step.dependsOn := by
  constructor
  · rintro ⟨step', hget, hj⟩
    rw [h] at hget
    cases hget
    exact hj
  · exact fun hj => ⟨step, h, hj⟩

theorem get_of_waiting (h : markAt steps i = .waiting) :
    ∃ step, steps[i]? = some step ∧ step.outcome = .pending := by
  unfold markAt at h
  split at h
  · cases h
  next step hget => exact ⟨step, hget, (mark_eq_waiting _).mp h⟩

theorem isReady_iff (h : steps[i]? = some step) :
    isReady steps step = true ↔ Ready (DependsOn steps) (markAt steps) i := by
  simp only [isReady, Bool.and_eq_true, beq_iff_eq, List.all_eq_true, Ready,
    markAt_of_get h, mark_eq_waiting, dependsOn_of_get h]
  refine and_congr Iff.rfl (forall₂_congr (fun j _ => ?_))
  unfold stepOutcome? markAt
  cases steps[j]? with
  | none => simp only [Option.map_none]
  | some step => simp only [Option.map_some, beq_iff_eq, mark_eq_done]

theorem downDependency_isSome :
    (downDependency steps step).isSome = true ↔ ∃ j ∈ step.dependsOn, (markAt steps j).Down := by
  unfold downDependency
  rw [List.find?_isSome]
  refine exists_congr (fun j => and_congr Iff.rfl ?_)
  unfold stepOutcome? markAt
  cases steps[j]? with
  | none => simp only [Option.map_none, Bool.false_eq_true, Mark.Down, reduceCtorEq, or_self]
  | some step => exact (mark_down _).symm

theorem isBlockable_iff (h : steps[i]? = some step) :
    isBlockable steps step = true ↔ Stuck (DependsOn steps) (markAt steps) i := by
  simp only [isBlockable, Bool.and_eq_true, beq_iff_eq, downDependency_isSome, Stuck,
    markAt_of_get h, mark_eq_waiting, dependsOn_of_get h]

theorem stuck_lt (h : Stuck (DependsOn steps) (markAt steps) i) : i < steps.length := by
  obtain ⟨step, hget, -⟩ := get_of_waiting h.1
  exact (List.getElem?_eq_some_iff.mp hget).1

theorem markAt_modify (h : steps[i]? = some step) (f : OrchestrationStep → OrchestrationStep) :
    markAt (steps.modify i f) = Function.update (markAt steps) i (f step).outcome.mark := by
  funext j
  rw [Function.update_apply]
  unfold markAt
  rw [List.getElem?_modify]
  by_cases hj : j = i
  · subst hj
    simp only [h, if_pos, Option.map_eq_map, Option.map_some]
  · simp only [Ne.symm hj, if_false, hj, Option.map_eq_map, Option.map_id']

theorem markAt_note (i : Nat) (f : OrchestrationStep → OrchestrationStep)
    (houtcome : ∀ step, (f step).outcome = step.outcome) :
    markAt (steps.modify i f) = markAt steps := by
  funext j
  unfold markAt
  rw [List.getElem?_modify]
  cases steps[j]? with
  | none => rfl
  | some step =>
    simp only [Option.map_eq_map, Option.map_some]
    split
    · rw [houtcome]
    · rfl

theorem dependsOn_of_briefs
    (h : steps'.map OrchestrationStep.brief = steps.map OrchestrationStep.brief) :
    DependsOn steps' = DependsOn steps := by
  have hget : ∀ i, (steps'[i]?).map OrchestrationStep.brief =
      (steps[i]?).map OrchestrationStep.brief := fun i => by
    rw [← List.getElem?_map, ← List.getElem?_map, h]
  funext i j
  refine propext ⟨?_, ?_⟩
  · rintro ⟨step', hstep', hj⟩
    have hi := hget i
    rw [hstep', Option.map_some, eq_comm, Option.map_eq_some_iff] at hi
    obtain ⟨step, hstep, hbrief⟩ := hi
    have hdeps : step.dependsOn = step'.dependsOn := congrArg (fun e => e.2.2.2) hbrief
    exact ⟨step, hstep, hdeps ▸ hj⟩
  · rintro ⟨step, hstep, hj⟩
    have hi := hget i
    rw [hstep, Option.map_some, Option.map_eq_some_iff] at hi
    obtain ⟨step', hstep', hbrief⟩ := hi
    have hdeps : step'.dependsOn = step.dependsOn := congrArg (fun e => e.2.2.2) hbrief
    exact ⟨step', hstep', hdeps ▸ hj⟩

theorem modify_briefs (i : Nat) (f : OrchestrationStep → OrchestrationStep)
    (hf : ∀ step, (f step).brief = step.brief) :
    (steps.modify i f).map OrchestrationStep.brief = steps.map OrchestrationStep.brief := by
  refine List.ext_getElem? (fun j => ?_)
  rw [List.getElem?_map, List.getElem?_map, List.getElem?_modify]
  cases steps[j]? with
  | none => rfl
  | some step =>
    simp only [Option.map_eq_map, Option.map_some]
    split
    · rw [hf]
    · rfl

end Steps

structure Advances (steps steps' : List OrchestrationStep) : Prop where
  briefs : steps'.map OrchestrationStep.brief = steps.map OrchestrationStep.brief
  moves : Moves (DependsOn steps) (markAt steps) (markAt steps')

namespace Advances

variable {steps steps' steps'' : List OrchestrationStep} {step : OrchestrationStep} {i : Nat}

theorem refl (steps : List OrchestrationStep) : Advances steps steps := ⟨rfl, .refl⟩

theorem dependsOn (h : Advances steps steps') : DependsOn steps' = DependsOn steps :=
  dependsOn_of_briefs h.briefs

theorem length (h : Advances steps steps') : steps'.length = steps.length := by
  simpa only [List.length_map] using congrArg List.length h.briefs

theorem trans (h : Advances steps steps') (h' : Advances steps' steps'') :
    Advances steps steps'' :=
  ⟨h'.briefs.trans h.briefs, h.moves.trans (h.dependsOn ▸ h'.moves)⟩

theorem settle (hget : steps[i]? = some step)
    (hready : Ready (DependsOn steps) (markAt steps) i)
    (f : OrchestrationStep → OrchestrationStep) (hf : ∀ step, (f step).brief = step.brief)
    (hsettled : (f step).outcome ≠ .pending) : Advances steps (steps.modify i f) where
  briefs := modify_briefs i f hf
  moves := by
    rw [markAt_modify hget]
    exact .single (.settle hready (fun hmark => hsettled ((mark_eq_waiting _).mp hmark)))

theorem note (i : Nat) (f : OrchestrationStep → OrchestrationStep)
    (hf : ∀ step, (f step).brief = step.brief)
    (houtcome : ∀ step, (f step).outcome = step.outcome) :
    Advances steps (steps.modify i f) where
  briefs := modify_briefs i f hf
  moves := by rw [markAt_note i f houtcome]

end Advances

section Cascade

variable {steps : List OrchestrationStep}

theorem get_blockPass (i : Nat) : (blockPass steps)[i]? = (steps[i]?).map (fun step =>
    if step.outcome = .pending then
      match downDependency steps step with
      | none => step
      | some j => { step with outcome := .blocked, note := some (blockReason steps j) }
    else step) :=
  List.getElem?_map

theorem markAt_blockPass (i : Nat) [Decidable (Stuck (DependsOn steps) (markAt steps) i)] :
    markAt (blockPass steps) i =
      if Stuck (DependsOn steps) (markAt steps) i then .blocked else markAt steps i := by
  cases hget : steps[i]? with
  | none =>
    have hmark : markAt steps i = .done := by
      unfold markAt
      rw [hget]
    have hstuck : ¬ Stuck (DependsOn steps) (markAt steps) i := fun h => by
      rw [h.1] at hmark
      cases hmark
    rw [if_neg hstuck, hmark]
    unfold markAt
    rw [get_blockPass, hget, Option.map_none]
  | some step =>
    rw [markAt_of_get (by rw [get_blockPass, hget, Option.map_some]), markAt_of_get hget]
    have hiff := isBlockable_iff hget
    simp only [isBlockable, Bool.and_eq_true, beq_iff_eq] at hiff
    by_cases hpending : step.outcome = .pending
    · rw [if_pos hpending]
      cases hdown : downDependency steps step with
      | none =>
        have hstuck : ¬ Stuck (DependsOn steps) (markAt steps) i := fun h => by
          have hsome := (hiff.mpr h).2
          rw [hdown] at hsome
          cases hsome
        rw [if_neg hstuck]
      | some j =>
        rw [if_pos (hiff.mp ⟨hpending, by rw [hdown, Option.isSome_some]⟩)]
        rfl
    · rw [if_neg hpending, if_neg (fun h => hpending (hiff.mpr h).1)]

theorem blockPass_briefs :
    (blockPass steps).map OrchestrationStep.brief = steps.map OrchestrationStep.brief := by
  refine List.ext_getElem? (fun i => ?_)
  rw [List.getElem?_map, List.getElem?_map, get_blockPass]
  cases steps[i]? with
  | none => rfl
  | some step =>
    simp only [Option.map_some]
    split
    · split <;> rfl
    · rfl

open Classical in
theorem blockPass_advances (steps : List OrchestrationStep) :
    Advances steps (blockPass steps) where
  briefs := blockPass_briefs
  moves := by
    refine Moves.block_all
      (l := (List.range steps.length).filter (fun i => Stuck (DependsOn steps) (markAt steps) i))
      (fun i hi => ?_) (fun i => ?_)
    · exact of_decide_eq_true (List.mem_filter.mp hi).2
    · have hmem : i ∈ (List.range steps.length).filter
          (fun i => Stuck (DependsOn steps) (markAt steps) i) ↔
          Stuck (DependsOn steps) (markAt steps) i := by
        rw [List.mem_filter, List.mem_range, decide_eq_true_iff]
        exact ⟨fun h => h.2, fun h => ⟨stuck_lt h, h⟩⟩
      rw [markAt_blockPass]
      simp only [hmem]

theorem blockPasses_advances (fuel : Nat) (steps : List OrchestrationStep) :
    Advances steps (blockPasses fuel steps) := by
  induction fuel generalizing steps with
  | zero => exact .refl steps
  | succ fuel ih =>
    simp only [blockPasses]
    split
    · exact (blockPass_advances steps).trans (ih _)
    · exact .refl steps

open Classical in
theorem blockPasses_done {fuel : Nat} {steps : List OrchestrationStep}
    (hfuel : waitingIn (Finset.range steps.length) (markAt steps) ≤ fuel) (i : Nat) :
    ¬ Stuck (DependsOn (blockPasses fuel steps)) (markAt (blockPasses fuel steps)) i := by
  induction fuel generalizing steps with
  | zero =>
    intro hstuck
    have hmem : i ∈ (Finset.range steps.length).filter (fun i => markAt steps i = .waiting) :=
      Finset.mem_filter.mpr ⟨Finset.mem_range.mpr (stuck_lt hstuck), hstuck.1⟩
    have hpos := Finset.card_pos.mpr ⟨i, hmem⟩
    unfold waitingIn at hfuel
    omega
  | succ fuel ih =>
    simp only [blockPasses]
    split
    next hany =>
      obtain ⟨step, hmem, hblockable⟩ := List.any_eq_true.mp hany
      obtain ⟨k, hk⟩ := List.mem_iff_getElem?.mp hmem
      have hstuck := (isBlockable_iff hk).mp hblockable
      have hblocked : markAt (blockPass steps) k ≠ .waiting := by
        rw [markAt_blockPass, if_pos hstuck]
        exact nofun
      have hpass := blockPass_advances steps
      have hlt := hpass.moves.waitingIn_lt (Finset.mem_range.mpr (stuck_lt hstuck)) hstuck.1
        hblocked
      exact ih (by rw [hpass.length]; omega)
    next hany =>
      intro hstuck
      obtain ⟨step, hget, -⟩ := get_of_waiting hstuck.1
      have hblockable := (isBlockable_iff hget).mpr hstuck
      exact hany (List.any_eq_true.mpr ⟨step, List.mem_iff_getElem?.mpr ⟨i, hget⟩, hblockable⟩)

theorem waitingIn_le_length (steps : List OrchestrationStep) (n : Nat) :
    waitingIn (Finset.range n) (markAt steps) ≤ n :=
  (Finset.card_filter_le _ _).trans (Finset.card_range n).le

end Cascade

namespace KernelState

def stepsOf (s : KernelState) (id : OrchestrationId) : List OrchestrationStep :=
  match s.orchestrations.get? id with
  | none => []
  | some o => o.steps

variable {s' s : KernelState}

theorem stepsOf_of_orchestrations (h : s'.orchestrations = s.orchestrations)
    (id : OrchestrationId) : s'.stepsOf id = s.stepsOf id := by
  unfold stepsOf
  rw [h]

variable {id : OrchestrationId} {f : Orchestration → Orchestration}

theorem stepsOf_modify {g : List OrchestrationStep → List OrchestrationStep}
    (h : s'.orchestrations = s.orchestrations.modify id f) (hf : ∀ o, (f o).steps = g o.steps)
    (hnil : g [] = []) : s'.stepsOf id = g (s.stepsOf id) := by
  unfold stepsOf
  rw [h, HashMap.get?_modify, if_pos rfl]
  cases s.orchestrations.get? id with
  | none => exact hnil.symm
  | some o => exact hf o

def planned (s : KernelState) (id : OrchestrationId) : Bool := (s.orchestrations.get? id).isSome

theorem planned_modify
    (h : s'.orchestrations = s.orchestrations.modify id f) : s'.planned id = s.planned id := by
  unfold planned
  rw [h, HashMap.get?_modify, if_pos rfl, Option.isSome_map]

theorem planned_of_orchestrations (h : s'.orchestrations = s.orchestrations)
    (id : OrchestrationId) : s'.planned id = s.planned id := by
  unfold planned
  rw [h]

theorem stepsOf_setStep (s : KernelState) (id : OrchestrationId) (idx : Nat)
    (f : OrchestrationStep → OrchestrationStep) :
    (s.setStep id idx f).stepsOf id = (s.stepsOf id).modify idx f :=
  stepsOf_modify (g := fun steps => steps.modify idx f) rfl (fun _ => rfl)
    (by cases idx <;> rfl)

end KernelState

theorem propagate_stepsOf (s : KernelState) (id : OrchestrationId) :
    (propagateDependencyBlocks s id).2.stepsOf id =
      blockPasses (s.stepsOf id).length (s.stepsOf id) := by
  unfold propagateDependencyBlocks
  cases ho : s.orchestrations.get? id with
  | none =>
    have hsteps : s.stepsOf id = [] := by
      unfold KernelState.stepsOf
      rw [ho]
    rw [hsteps]
    rfl
  | some o =>
    have hsteps : s.stepsOf id = o.steps := by
      unfold KernelState.stepsOf
      rw [ho]
    unfold KernelState.stepsOf
    rw [HashMap.get?_modify, if_pos rfl, ho, Option.map_some]

theorem propagate_planned (s : KernelState) (id : OrchestrationId) :
    (propagateDependencyBlocks s id).2.planned id = s.planned id := by
  unfold propagateDependencyBlocks
  split
  · rfl
  · exact KernelState.planned_modify rfl

theorem propagate_advances (s : KernelState) (id : OrchestrationId) :
    Advances (s.stepsOf id) ((propagateDependencyBlocks s id).2.stepsOf id) := by
  rw [propagate_stepsOf]
  exact blockPasses_advances _ _

theorem propagate_done (s : KernelState) (id : OrchestrationId) (i : Nat) :
    ¬ Stuck (DependsOn ((propagateDependencyBlocks s id).2.stepsOf id))
      (markAt ((propagateDependencyBlocks s id).2.stepsOf id)) i := by
  rw [propagate_stepsOf]
  exact blockPasses_done (waitingIn_le_length _ _) i

end Relux
