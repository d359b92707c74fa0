import Relux.DispatchTrace
import Relux.StepAgenda

/-! One round of a batch. Each ready brief it takes is attempted once, and is settled when
the round is over: inside it, or when its process is done. -/

namespace Relux

open Agenda (Mark Ready Stuck Moves)

def OrchestrationBatchResult.tallied (r : OrchestrationBatchResult) : Nat :=
  r.completed + r.failed + r.blocked

structure BatchStep (id : OrchestrationId) (s s' : KernelState)
    (r r' : OrchestrationBatchResult) (attempted recorded : Nat) : Prop where
  steps : Advances (s.stepsOf id) (s'.stepsOf id)
  planned : s'.planned id = s.planned id
  keyed : s'.Keyed
  ran : r'.ran = r.ran + attempted
  tallied : r'.tallied = r.tallied + recorded

variable {id : OrchestrationId} {s s' : KernelState} {r' r : OrchestrationBatchResult}

theorem BatchStep.trans {s'' : KernelState} {r'' : OrchestrationBatchResult} {a a' b b' : Nat}
    (h : BatchStep id s s' r r' a b) (h' : BatchStep id s' s'' r' r'' a' b') :
    BatchStep id s s'' r r'' (a + a') (b + b') where
  steps := h.steps.trans h'.steps
  planned := h'.planned.trans h.planned
  keyed := h'.keyed
  ran := by rw [h'.ran, h.ran, Nat.add_assoc]
  tallied := by rw [h'.tallied, h.tallied, Nat.add_assoc]

def KernelState.markOf (s : KernelState) (id : OrchestrationId) : Nat → Mark :=
  markAt (s.stepsOf id)

def KernelState.ReadyBrief (s : KernelState) (id : OrchestrationId) (i : Nat) : Prop :=
  Ready (DependsOn (s.stepsOf id)) (s.markOf id) i

variable {i : Nat}

theorem KernelState.ReadyBrief.after (hready : s.ReadyBrief id i)
    (h : Advances (s.stepsOf id) (s'.stepsOf id)) (hi : s'.markOf id i = .waiting) :
    s'.ReadyBrief id i := by
  unfold KernelState.ReadyBrief
  rw [h.dependsOn]
  exact Ready.after hready h.moves hi

theorem briefOutcome_ne_pending (exec : Except KernelError RunId) :
    briefOutcome exec ≠ .pending := by
  cases exec with
  | ok r => exact nofun
  | error e =>
    simp only [briefOutcome]
    split <;> exact nofun

theorem tally_spec (r : OrchestrationBatchResult) (taskId : TaskId)
    (exec : Except KernelError RunId) :
    (tally r taskId exec).ran = r.ran ∧ (tally r taskId exec).tallied = r.tallied + 1 := by
  cases exec with
  | ok _ =>
    refine ⟨rfl, ?_⟩
    simp only [tally, OrchestrationBatchResult.tallied]
    omega
  | error e =>
    simp only [tally]
    split
    · exact ⟨rfl, rfl⟩
    · refine ⟨rfl, ?_⟩
      simp only [OrchestrationBatchResult.tallied]
      omega

structure Recorded (id : OrchestrationId) (i : Nat) (s s' : KernelState)
    (r r' : OrchestrationBatchResult) (attempted : Nat) : Prop where
  step : BatchStep id s s' r r' attempted 1
  settled : s'.markOf id i ≠ .waiting
  frame : ∀ k, k ≠ i → s'.markOf id k = s.markOf id k

variable {a : Attempt}

theorem recordBriefOutcome_recorded (hk : s.Keyed) (hready : s.ReadyBrief id a.index)
    (exec : Except KernelError RunId) (finishedAt : Stamp) (r : OrchestrationBatchResult) :
    Recorded id a.index s (recordBriefOutcome s id a exec finishedAt r).1 r
      (recordBriefOutcome s id a exec finishedAt r).2 0 := by
  obtain ⟨step, hget, -⟩ := get_of_waiting hready.1
  obtain ⟨f, hsteps, hbrief, houtcome⟩ : ∃ f : OrchestrationStep → OrchestrationStep,
      (recordBriefOutcome s id a exec finishedAt r).1.stepsOf id = (s.stepsOf id).modify a.index f ∧
      (∀ step, (f step).brief = step.brief) ∧
      ∀ step, (f step).outcome = briefOutcome exec :=
    ⟨_, s.stepsOf_setStep id a.index _, fun _ => rfl, fun _ => rfl⟩
  have hmark : (recordBriefOutcome s id a exec finishedAt r).1.markOf id =
      Function.update (s.markOf id) a.index (briefOutcome exec).mark := by
    unfold KernelState.markOf
    rw [hsteps, markAt_modify hget, houtcome]
  refine ⟨⟨?_, KernelState.planned_modify rfl, ⟨hk.task, hk.run⟩, (tally_spec r a.taskId exec).1,
    (tally_spec r a.taskId exec).2⟩, ?_, fun k hne => ?_⟩
  · rw [hsteps]
    exact .settle hget hready f hbrief (houtcome step ▸ briefOutcome_ne_pending exec)
  · rw [hmark, Function.update_self]
    exact fun h => briefOutcome_ne_pending exec ((mark_eq_waiting _).mp h)
  · rw [hmark, Function.update_of_ne hne]

variable {s₁ : KernelState}

theorem Recorded.after {attempted : Nat} {r₁ : OrchestrationBatchResult}
    (horch : s₁.orchestrations = s.orchestrations) (hran : r₁.ran = r.ran + attempted)
    (htallied : r₁.tallied = r.tallied) (h : Recorded id i s₁ s' r₁ r' 0) :
    Recorded id i s s' r r' attempted := by
  have hsteps := KernelState.stepsOf_of_orchestrations horch id
  have hplanned := KernelState.planned_of_orchestrations horch id
  refine ⟨⟨hsteps ▸ h.step.steps, h.step.planned.trans hplanned, h.step.keyed, ?_, ?_⟩, h.settled, fun k hne => ?_⟩
  · rw [h.step.ran, hran, Nat.add_zero]
  · rw [h.step.tallied, htallied]
  · rw [h.frame k hne]
    unfold KernelState.markOf
    rw [hsteps]

/-- What taking one brief does: its outcome is recorded, or it is prepared for its process
and waits. -/
inductive Took (id : OrchestrationId) (i : Nat) (s s' : KernelState) (prep prep' : RoundPrep)
    (r r' : OrchestrationBatchResult) : Prop
  | inline (h : Recorded id i s s' r r' 1)
      (hprep : prep' = { prep with ranInline := prep.ranInline + 1 })
  | prepared (brief : PreparedBrief) (hbrief : brief.attempt.index = i)
      (h : BatchStep id s s' r r' 1 0) (hframe : s'.markOf id = s.markOf id)
      (hprep : prep' = { prep with prepared := prep.prepared ++ [brief] })

theorem recordInline_took (hready : s.ReadyBrief id a.index) (hk : s₁.Keyed)
    (horch : s₁.orchestrations = s.orchestrations) (exec : Except KernelError RunId)
    (prep : RoundPrep) (r r₁ : OrchestrationBatchResult) (hran : r₁.ran = r.ran + 1)
    (htallied : r₁.tallied = r.tallied) :
    Took id a.index s (recordInline s₁ id a exec prep r₁).1 prep
      (recordInline s₁ id a exec prep r₁).2.1 r (recordInline s₁ id a exec prep r₁).2.2 := by
  have hsteps : s₁.tick.stepsOf id = s.stepsOf id := KernelState.stepsOf_of_orchestrations horch id
  have hready₁ : s₁.tick.ReadyBrief id a.index := by
    unfold KernelState.ReadyBrief KernelState.markOf
    rw [hsteps]
    exact hready
  have hrecorded := recordBriefOutcome_recorded (s := s₁.tick) ⟨hk.task, hk.run⟩ hready₁ exec
    s₁.stamp r₁
  have horch₁ : s₁.tick.orchestrations = s.orchestrations := horch
  exact .inline (hrecorded.after horch₁ hran htallied) rfl

theorem attemptBrief_took (w : World) (hready : s.ReadyBrief id a.index) (hk : s₁.Keyed)
    (horch : s₁.orchestrations = s.orchestrations) (adapter : Option PluginId) (prep : RoundPrep)
    (r r₁ : OrchestrationBatchResult) (hran : r₁.ran = r.ran + 1)
    (htallied : r₁.tallied = r.tallied) :
    Took id a.index s (attemptBrief w s₁ id a adapter prep r₁).1 prep
      (attemptBrief w s₁ id a adapter prep r₁).2.1 r
      (attemptBrief w s₁ id a adapter prep r₁).2.2 := by
  cases adapter with
  | none =>
    obtain ⟨_, htrace, -⟩ := executeAssignedRun_trace w s₁ hk a.taskId
    exact recordInline_took hready (htrace.keyed hk) (htrace.orchestrations.trans horch) _ prep
      r r₁ hran htallied
  | some adapterId =>
    simp only [attemptBrief]
    split
    · obtain ⟨_, htrace, -⟩ := executeLocalRun_trace w s₁ hk a.taskId
      exact recordInline_took hready (htrace.keyed hk) (htrace.orchestrations.trans horch) _
        prep r r₁ hran htallied
    · split
      next s₂ hprepare =>
        have htrace : ∃ moves, Trace s₁ s₂ moves := by
          rcases prepareCliRun_trace w s₁ hk hprepare with ⟨h, -⟩ | ⟨-, -, _, -, h⟩
          · exact ⟨_, h⟩
          · exact ⟨_, h⟩
        obtain ⟨_, htrace⟩ := htrace
        exact recordInline_took hready (htrace.keyed hk) (htrace.orchestrations.trans horch) _
          prep r r₁ hran htallied
      next plan s₂ hprepare =>
        rcases prepareCliRun_trace w s₁ hk hprepare with ⟨htrace, -⟩ | ⟨⟨e, he⟩, -⟩
        · have hsteps : (s₂.setStep id a.index (fun step =>
              { step with
                runId := some plan.runId
                startedAt := some a.startedAt
                round := some a.roundNo })).stepsOf id =
              (s.stepsOf id).modify a.index (fun step =>
                { step with
                  runId := some plan.runId
                  startedAt := some a.startedAt
                  round := some a.roundNo }) := by
            rw [KernelState.stepsOf_setStep,
              KernelState.stepsOf_of_orchestrations (htrace.orchestrations.trans horch)]
          have hadvances : Advances (s.stepsOf id) _ := .note a.index (fun step =>
            { step with
              runId := some plan.runId
              startedAt := some a.startedAt
              round := some a.roundNo }) (fun _ => rfl) (fun _ => rfl)
          have hkept := htrace.keyed hk
          have hplanned := KernelState.planned_of_orchestrations
            (htrace.orchestrations.trans horch) id
          refine .prepared ⟨a, plan⟩ rfl ⟨hsteps ▸ hadvances,
            (KernelState.planned_modify rfl).trans hplanned, ⟨hkept.task, hkept.run⟩, hran,
            htallied⟩ ?_ rfl
          unfold KernelState.markOf
          rw [hsteps]
          exact markAt_note _ _ (fun _ => rfl)
        · cases he

theorem prepareBrief_took (w : World) (roundNo : Nat) {brief : Nat × TaskId × AgentId}
    (hk : s.Keyed) (hready : s.ReadyBrief id brief.1) (prep : RoundPrep)
    (r : OrchestrationBatchResult) :
    Took id brief.1 s (prepareBrief w s id roundNo brief prep r).1 prep
      (prepareBrief w s id roundNo brief prep r).2.1 r
      (prepareBrief w s id roundNo brief prep r).2.2 := by
  have htick : s.tick.Keyed := ⟨hk.task, hk.run⟩
  have hattempt := fun (s₁ : KernelState) (hk₁ : s₁.Keyed)
      (horch : s₁.orchestrations = s.orchestrations) =>
    attemptBrief_took w (a := ⟨brief.1, roundNo, brief.2.2, brief.2.1, s.stamp⟩) hready hk₁
      horch ((s.agents.get? brief.2.2).map (·.adapterPlugin)) prep r
      { r with ran := r.ran + 1 } rfl rfl
  unfold prepareBrief
  dsimp only
  split
  next t _ =>
    split
    · split
      next s₁ hstart =>
        rcases startRun_trace w s.tick brief.2.1 hstart with ⟨-, htrace⟩ | ⟨hok, -⟩
        · exact recordInline_took (a := ⟨brief.1, roundNo, brief.2.2, brief.2.1, s.stamp⟩)
            hready (htrace.keyed htick) htrace.orchestrations _ prep r
            { r with ran := r.ran + 1 } rfl rfl
        · cases hok
      next s₁ hstart =>
        rcases startRun_trace w s.tick brief.2.1 hstart with ⟨⟨e, he⟩, -⟩ | ⟨-, htrace⟩
        · cases he
        · exact hattempt s₁ (htrace.keyed htick) htrace.orchestrations
    · exact hattempt s.tick htick rfl
  · exact hattempt s.tick htick rfl

theorem Took.step {id : OrchestrationId} {i : Nat} {s s' : KernelState}
    {prep prep' : RoundPrep} {r r' : OrchestrationBatchResult}
    (h : Took id i s s' prep prep' r r') :
    s'.Keyed ∧ Advances (s.stepsOf id) (s'.stepsOf id) := by
  cases h with
  | inline h _ => exact ⟨h.step.keyed, h.step.steps⟩
  | prepared _ _ h _ _ => exact ⟨h.keyed, h.steps⟩

theorem Took.frame {prep prep' : RoundPrep} (h : Took id i s s' prep prep' r r') {k : Nat}
    (hne : k ≠ i) : s'.markOf id k = s.markOf id k := by
  cases h with
  | inline h _ => exact h.frame k hne
  | prepared _ _ _ hframe _ => rw [hframe]

theorem Took.ready {prep prep' : RoundPrep} (h : Took id i s s' prep prep' r r') {k : Nat}
    (hne : k ≠ i) (hready : s.ReadyBrief id k) : s'.ReadyBrief id k :=
  hready.after h.step.2 ((h.frame hne).trans hready.1)

/-- Taking the briefs of these indices records so many outcomes and leaves the others
waiting for their processes. -/
structure Prepares (id : OrchestrationId) (indices : List Nat) (s s' : KernelState)
    (prep prep' : RoundPrep) (r r' : OrchestrationBatchResult) (recorded : Nat)
    (waiting : List PreparedBrief) : Prop where
  step : BatchStep id s s' r r' indices.length recorded
  count : recorded + waiting.length = indices.length
  prepared : prep'.prepared = prep.prepared ++ waiting
  ranInline : prep'.ranInline = prep.ranInline + recorded
  chosen : (waiting.map (·.attempt.index)).Sublist indices
  waits : ∀ i ∈ indices, s'.markOf id i = .waiting ↔ i ∈ waiting.map (·.attempt.index)
  frame : ∀ k ∉ indices, s'.markOf id k = s.markOf id k

theorem prepareBriefs_prepares (w : World) (id : OrchestrationId) (roundNo : Nat)
    {briefs : List (Nat × TaskId × AgentId)} (hk : s.Keyed) (hnodup : (briefs.map Prod.fst).Nodup)
    (hready : ∀ b ∈ briefs, s.ReadyBrief id b.1) (prep : RoundPrep) (r : OrchestrationBatchResult) :
    ∃ recorded waiting, Prepares id (briefs.map Prod.fst) s
      (prepareBriefs w id roundNo s prep r briefs).1 prep
      (prepareBriefs w id roundNo s prep r briefs).2.1 r
      (prepareBriefs w id roundNo s prep r briefs).2.2 recorded waiting := by
  induction briefs generalizing s prep r with
  | nil =>
    refine ⟨0, [], ⟨.refl _, rfl, hk, rfl, rfl⟩, rfl, (List.append_nil _).symm, rfl, .slnil, ?_, ?_⟩
    · exact fun i hi => absurd hi List.not_mem_nil
    · exact fun k _ => rfl
  | cons b briefs ih =>
    rw [List.map_cons, List.nodup_cons] at hnodup
    have htook := prepareBrief_took w roundNo hk (hready b List.mem_cons_self) prep r
    have hrest : ∀ b' ∈ briefs,
        (prepareBrief w s id roundNo b prep r).1.ReadyBrief id b'.1 := fun b' hb' => by
      refine htook.ready (fun he => ?_) (hready b' (List.mem_cons_of_mem b hb'))
      exact hnodup.1 (he ▸ List.mem_map_of_mem hb')
    obtain ⟨recorded, waiting, hp⟩ := ih htook.step.1 hnodup.2 hrest
      (prepareBrief w s id roundNo b prep r).2.1 (prepareBrief w s id roundNo b prep r).2.2
    have hkept := hp.frame b.1 hnodup.1
    have hframe : ∀ k ∉ b.1 :: briefs.map Prod.fst,
        (prepareBriefs w id roundNo s prep r (b :: briefs)).1.markOf id k = s.markOf id k := by
      intro k hk
      rw [List.mem_cons, not_or] at hk
      exact (hp.frame k hk.2).trans (htook.frame hk.1)
    simp only [List.map_cons]
    cases htook with
    | inline h hprep =>
      refine ⟨recorded + 1, waiting, ?_, ?_, ?_, ?_, hp.chosen.cons _, ?_, hframe⟩
      · have hstep := h.step.trans hp.step
        rwa [Nat.add_comm 1 recorded, Nat.add_comm 1] at hstep
      · rw [List.length_cons, ← hp.count]
        omega
      · exact hp.prepared.trans (by rw [hprep])
      · refine hp.ranInline.trans ?_
        rw [hprep]
        dsimp only
        omega
      · intro i hi
        rcases List.mem_cons.mp hi with rfl | hi
        · refine ⟨fun hwaiting => absurd (hkept.symm.trans hwaiting) h.settled, fun hmem => ?_⟩
          exact absurd (hp.chosen.subset hmem) hnodup.1
        · exact hp.waits i hi
    | prepared brief hbrief h hsame hprep =>
      refine ⟨recorded, brief :: waiting, ?_, ?_, ?_, ?_, ?_, ?_, hframe⟩
      · have hstep := h.trans hp.step
        rwa [Nat.zero_add, Nat.add_comm 1] at hstep
      · rw [List.length_cons, List.length_cons, ← hp.count]
        omega
      · refine hp.prepared.trans ?_
        rw [hprep, List.append_assoc]
        rfl
      · exact hp.ranInline.trans (by rw [hprep])
      · rw [List.map_cons, hbrief]
        exact hp.chosen.cons_cons _
      · intro i hi
        rw [List.map_cons, hbrief, List.mem_cons]
        rcases List.mem_cons.mp hi with rfl | hi
        · have hwaiting := (hready b List.mem_cons_self).1
          rw [← hsame] at hwaiting
          exact ⟨fun _ => .inl rfl, fun _ => hkept.trans hwaiting⟩
        · have hne : i ≠ b.1 := fun he => hnodup.1 (he ▸ hi)
          rw [or_iff_right hne]
          exact hp.waits i hi

theorem finalizePreparedBrief_recorded (w : World) {brief : PreparedBrief} (hk : s.Keyed)
    (hready : s.ReadyBrief id brief.attempt.index) (outcome : Except String AdapterRunOutcome)
    (r : OrchestrationBatchResult) :
    Recorded id brief.attempt.index s (finalizePreparedBrief w s id brief outcome r).1 r
      (finalizePreparedBrief w s id brief outcome r).2 0 := by
  obtain ⟨_, htrace, -⟩ := finalizeCliRun_trace w s brief.plan outcome
  have horch : (finalizeCliRun w s brief.plan outcome).2.tick.orchestrations =
      s.orchestrations := htrace.orchestrations
  have hsteps := KernelState.stepsOf_of_orchestrations horch id
  have hready' : (finalizeCliRun w s brief.plan outcome).2.tick.ReadyBrief id
      brief.attempt.index := by
    unfold KernelState.ReadyBrief KernelState.markOf
    rw [hsteps]
    exact hready
  have hkept := htrace.keyed hk
  have hrecorded := recordBriefOutcome_recorded (s := (finalizeCliRun w s brief.plan
    outcome).2.tick) ⟨hkept.task, hkept.run⟩ hready' (finalizeCliRun w s brief.plan outcome).1
    (finalizeCliRun w s brief.plan outcome).2.stamp r
  exact hrecorded.after horch rfl rfl

theorem finalizePrepared_settles (w : World) (id : OrchestrationId) {briefs : List PreparedBrief}
    (hk : s.Keyed) (hnodup : (briefs.map (·.attempt.index)).Nodup)
    (hready : ∀ b ∈ briefs, s.ReadyBrief id b.attempt.index) (r : OrchestrationBatchResult) :
    BatchStep id s (finalizePrepared w id s r briefs).1 r (finalizePrepared w id s r briefs).2 0
        briefs.length ∧
      (∀ b ∈ briefs, (finalizePrepared w id s r briefs).1.markOf id b.attempt.index ≠ .waiting) ∧
      ∀ k ∉ briefs.map (·.attempt.index),
        (finalizePrepared w id s r briefs).1.markOf id k = s.markOf id k := by
  induction briefs generalizing s r with
  | nil =>
    refine ⟨⟨.refl _, rfl, hk, rfl, rfl⟩, ?_, fun _ _ => rfl⟩
    exact fun b hb => absurd hb List.not_mem_nil
  | cons b briefs ih =>
    rw [List.map_cons, List.nodup_cons] at hnodup
    have hone := finalizePreparedBrief_recorded w hk (hready b List.mem_cons_self)
      (w.runAdapterCommand b.plan) r
    have hrest : ∀ b' ∈ briefs, (finalizePreparedBrief w s id b (w.runAdapterCommand b.plan)
        r).1.ReadyBrief id b'.attempt.index := fun b' hb' => by
      have hready' := hready b' (List.mem_cons_of_mem b hb')
      have hne : b'.attempt.index ≠ b.attempt.index := fun he =>
        hnodup.1 (he ▸ List.mem_map_of_mem hb')
      exact hready'.after hone.step.steps ((hone.frame _ hne).trans hready'.1)
    obtain ⟨hstep, hsettled, hframe⟩ := ih hone.step.keyed hnodup.2 hrest
      (finalizePreparedBrief w s id b (w.runAdapterCommand b.plan) r).2
    refine ⟨?_, fun b' hb' => ?_, fun k hk => ?_⟩
    · have h := hone.step.trans hstep
      rwa [Nat.add_comm 1] at h
    · rcases List.mem_cons.mp hb' with rfl | hb'
      · have hkept := hframe _ hnodup.1
        exact fun hwaiting => hone.settled (hkept.symm.trans hwaiting)
      · exact hsettled b' hb'
    · rw [List.map_cons, List.mem_cons, not_or] at hk
      exact (hframe k hk.2).trans (hone.frame k hk.1)

end Relux
