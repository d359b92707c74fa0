import Relux.BriefRounds

/-! A call of run_orchestration, from its first round to the record it leaves. A log keeps
the briefs each round attempts, with the state each was taken in. -/

namespace Relux

open Agenda (Mark Ready Stuck Moves waitingIn)

theorem readySteps_eq (s : KernelState) (id : OrchestrationId) :
    readySteps s id = (((s.stepsOf id).zipIdx).filter
      (fun e => isReady (s.stepsOf id) e.1)).map (fun e => (e.2, e.1.taskId, e.1.agentId)) := by
  unfold readySteps KernelState.stepsOf
  cases s.orchestrations.get? id <;> rfl

variable {s : KernelState} {id : OrchestrationId} {i : Nat}

theorem mem_readySteps : (∃ b ∈ readySteps s id, b.1 = i) ↔ s.ReadyBrief id i := by
  rw [readySteps_eq]
  constructor
  · rintro ⟨b, hb, rfl⟩
    obtain ⟨⟨step, i⟩, he, rfl⟩ := List.mem_map.mp hb
    obtain ⟨hmem, hready⟩ := List.mem_filter.mp he
    exact (isReady_iff (List.mem_zipIdx_iff_getElem?.mp hmem)).mp hready
  · intro hready
    obtain ⟨step, hget, -⟩ := get_of_waiting hready.1
    have hmem : (step, i) ∈ (s.stepsOf id).zipIdx := List.mem_zipIdx_iff_getElem?.mpr hget
    exact ⟨_, List.mem_map_of_mem (List.mem_filter.mpr ⟨hmem, (isReady_iff hget).mpr hready⟩), rfl⟩

theorem readySteps_nodup (s : KernelState) (id : OrchestrationId) :
    ((readySteps s id).map Prod.fst).Nodup := by
  rw [readySteps_eq, List.map_map]
  refine List.Nodup.sublist (List.Sublist.map Prod.snd List.filter_sublist) ?_
  rw [List.zipIdx_map_snd]
  exact List.nodup_range'

def roundBriefs (s : KernelState) (id : OrchestrationId) (max concurrency : Nat)
    (r : OrchestrationBatchResult) : List (Nat × TaskId × AgentId) :=
  (readySteps s id).take (min (clampConcurrency concurrency) (clampMax max - r.ran))

theorem roundBriefs_nodup (s : KernelState) (id : OrchestrationId) (max concurrency : Nat)
    (r : OrchestrationBatchResult) : ((roundBriefs s id max concurrency r).map Prod.fst).Nodup :=
  (readySteps_nodup s id).sublist (List.Sublist.map Prod.fst (List.take_sublist _ _))

variable {r : OrchestrationBatchResult} {concurrency : Nat}

theorem roundBriefs_ready {max : Nat} {b : Nat × TaskId × AgentId}
    (hb : b ∈ roundBriefs s id max concurrency r) : s.ReadyBrief id b.1 :=
  mem_readySteps.mp ⟨b, List.mem_of_mem_take hb, rfl⟩

theorem roundBriefs_length (s : KernelState) (id : OrchestrationId) (max concurrency : Nat)
    (r : OrchestrationBatchResult) :
    (roundBriefs s id max concurrency r).length ≤
      min (clampConcurrency concurrency) (clampMax max - r.ran) :=
  List.length_take_le _ _

theorem clampConcurrency_pos (concurrency : Nat) : 1 ≤ clampConcurrency concurrency :=
  Nat.le_max_left _ _

theorem roundBriefs_nil {max : Nat} (hleft : r.ran < clampMax max)
    (h : roundBriefs s id max concurrency r = []) (i : Nat) : ¬ s.ReadyBrief id i := by
  intro hready
  obtain ⟨b, hb, -⟩ := mem_readySteps.mpr hready
  have hpos := clampConcurrency_pos concurrency
  rcases List.take_eq_nil_iff.mp h with hzero | hnil
  · omega
  · rw [hnil] at hb
    exact List.not_mem_nil hb

theorem prepareOrchestrationRound_eq (w : World) (s : KernelState) (id : OrchestrationId)
    (max concurrency roundNo : Nat) (hleft : r.ran < clampMax max) :
    prepareOrchestrationRound w s id max concurrency roundNo r =
      prepareBriefs w id roundNo (propagateDependencyBlocks s id).2 ⟨0, []⟩
        { r with dependencyBlocked := r.dependencyBlocked + (propagateDependencyBlocks s id).1 }
        (roundBriefs (propagateDependencyBlocks s id).2 id max concurrency r) := by
  unfold prepareOrchestrationRound
  rw [if_neg (by omega)]
  rfl

theorem propagate_keyed (hk : s.Keyed) (id : OrchestrationId) :
    (propagateDependencyBlocks s id).2.Keyed := by
  unfold propagateDependencyBlocks
  split
  · exact hk
  · exact ⟨hk.task, hk.run⟩

theorem round_settles (w : World) (id : OrchestrationId) (max concurrency roundNo : Nat)
    (hk : s.Keyed) (hleft : r.ran < clampMax max) :
    let prep := prepareOrchestrationRound w s id max concurrency roundNo r
    let finished := finalizePrepared w id prep.1 prep.2.2 prep.2.1.prepared
    let briefs := roundBriefs (propagateDependencyBlocks s id).2 id max concurrency r
    (prep.2.1.ran = true ↔ briefs ≠ []) ∧
      BatchStep id s finished.1 r finished.2 briefs.length briefs.length ∧
      ∀ b ∈ briefs, finished.1.markOf id b.1 ≠ .waiting := by
  intro prep finished briefs
  have hprop := propagate_advances s id
  have hnodup := roundBriefs_nodup (propagateDependencyBlocks s id).2 id max concurrency r
  have hready : ∀ b ∈ briefs, (propagateDependencyBlocks s id).2.ReadyBrief id b.1 :=
    fun b hb => roundBriefs_ready hb
  obtain ⟨recorded, waiting, hp⟩ := prepareBriefs_prepares w id roundNo (propagate_keyed hk id)
    hnodup hready ⟨0, []⟩
    { r with dependencyBlocked := r.dependencyBlocked + (propagateDependencyBlocks s id).1 }
  rw [← prepareOrchestrationRound_eq w s id max concurrency roundNo hleft] at hp
  have hprepared : prep.2.1.prepared = waiting := hp.prepared
  have hinline : prep.2.1.ranInline = recorded := hp.ranInline.trans (Nat.zero_add _)
  have hcount : recorded + waiting.length = briefs.length := by
    rw [hp.count, List.length_map]
  have hwaits : ∀ b ∈ prep.2.1.prepared, prep.1.ReadyBrief id b.attempt.index := by
    intro b hb
    have hmem : b.attempt.index ∈ waiting.map (·.attempt.index) :=
      List.mem_map_of_mem (hprepared ▸ hb)
    have hchosen := hp.chosen.subset hmem
    obtain ⟨b', hb', he⟩ := List.mem_map.mp hchosen
    rw [← he] at hmem hchosen ⊢
    exact (hready b' hb').after hp.step.steps ((hp.waits _ hchosen).mpr hmem)
  have hsettles := finalizePrepared_settles w id hp.step.keyed
    (hprepared ▸ hp.chosen.nodup hnodup) hwaits prep.2.2
  obtain ⟨hstep, hsettled, hframe⟩ := hsettles
  have hlength : prep.2.1.prepared.length = waiting.length := by rw [hprepared]
  refine ⟨?_, ?_, fun b hb => ?_⟩
  · rw [RoundPrep.ran, hinline, hprepared, Bool.or_eq_true, decide_eq_true_iff,
      Bool.not_eq_true', List.isEmpty_eq_false_iff, ← List.length_pos_iff, ← List.length_pos_iff]
    omega
  · have hboth := hp.step.trans hstep
    rw [List.length_map, hlength, hcount, Nat.add_zero] at hboth
    exact ⟨hprop.trans hboth.steps, hboth.planned.trans (propagate_planned s id), hboth.keyed,
       hboth.ran, hboth.tallied⟩
  · have hmem : b.1 ∈ briefs.map Prod.fst := List.mem_map_of_mem hb
    by_cases hwaiting : b.1 ∈ waiting.map (·.attempt.index)
    · obtain ⟨b', hb', he⟩ := List.mem_map.mp hwaiting
      rw [← he]
      exact hsettled b' (hprepared ▸ hb')
    · rw [hframe b.1 (hprepared ▸ hwaiting)]
      exact fun h => hwaiting ((hp.waits b.1 hmem).mp h)

def roundLog (w : World) (id : OrchestrationId) (roundNo : Nat) :
    KernelState → RoundPrep → OrchestrationBatchResult → List (Nat × TaskId × AgentId) →
      List (KernelState × Nat)
  | _, _, _, [] => []
  | s, prep, result, brief :: rest =>
    let next := prepareBrief w s id roundNo brief prep result
    (s, brief.1) :: roundLog w id roundNo next.1 next.2.1 next.2.2 rest

def batchLog (w : World) (id : OrchestrationId) (max concurrency : Nat) :
    Nat → KernelState → Nat → OrchestrationBatchResult → List (List (KernelState × Nat))
  | 0, _, _, _ => []
  | fuel + 1, s, roundNo, result =>
    match prepareOrchestrationRound w s id max concurrency (roundNo + 1) result with
    | (s', prep, result') =>
      if ¬ prep.ran then []
      else
        let propagated := propagateDependencyBlocks s id
        let finished := finalizePrepared w id s' result' prep.prepared
        roundLog w id (roundNo + 1) propagated.2 ⟨0, []⟩
            { result with dependencyBlocked := result.dependencyBlocked + propagated.1 }
            (roundBriefs propagated.2 id max concurrency result) ::
          batchLog w id max concurrency fuel finished.1 (roundNo + 1) finished.2

theorem roundLog_spec (w : World) (id : OrchestrationId) (roundNo : Nat)
    {briefs : List (Nat × TaskId × AgentId)} (hk : s.Keyed) (hnodup : (briefs.map Prod.fst).Nodup)
    (hready : ∀ b ∈ briefs, s.ReadyBrief id b.1) (prep : RoundPrep) (r : OrchestrationBatchResult) :
    (roundLog w id roundNo s prep r briefs).map Prod.snd = briefs.map Prod.fst ∧
      ∀ a ∈ roundLog w id roundNo s prep r briefs,
        Advances (s.stepsOf id) (a.1.stepsOf id) ∧ a.1.ReadyBrief id a.2 := by
  induction briefs generalizing s prep r with
  | nil => exact ⟨rfl, fun a ha => absurd ha List.not_mem_nil⟩
  | cons b briefs ih =>
    rw [List.map_cons, List.nodup_cons] at hnodup
    have htook := prepareBrief_took w roundNo hk (hready b List.mem_cons_self) prep r
    obtain ⟨hkeyed, hadvances⟩ := htook.step
    have hrest : ∀ b' ∈ briefs,
        (prepareBrief w s id roundNo b prep r).1.ReadyBrief id b'.1 := fun b' hb' => by
      refine htook.ready (fun he => ?_) (hready b' (List.mem_cons_of_mem b hb'))
      exact hnodup.1 (he ▸ List.mem_map_of_mem hb')
    obtain ⟨hmap, hlog⟩ := ih hkeyed hnodup.2 hrest
      (prepareBrief w s id roundNo b prep r).2.1 (prepareBrief w s id roundNo b prep r).2.2
    refine ⟨?_, fun a ha => ?_⟩
    · simp only [roundLog, List.map_cons, hmap]
    · rcases List.mem_cons.mp ha with rfl | ha
      · exact ⟨.refl _, hready b List.mem_cons_self⟩
      · exact ⟨hadvances.trans (hlog a ha).1, (hlog a ha).2⟩

structure RoundsKept (id : OrchestrationId) (max concurrency : Nat) (s s' : KernelState)
    (roundNo : Nat) (r r' : OrchestrationBatchResult) (log : List (List (KernelState × Nat))) :
    Prop where
  step : BatchStep id s s' r r' log.flatten.length log.flatten.length
  ready : ∀ a ∈ log.flatten, Advances (s.stepsOf id) (a.1.stepsOf id) ∧ a.1.ReadyBrief id a.2
  once : (log.flatten.map Prod.snd).Nodup
  fresh : ∀ a ∈ log.flatten, s.markOf id a.2 = .waiting
  perRound : ∀ round ∈ log, round.length ≤ clampConcurrency concurrency
  perCall : r'.ran ≤ clampMax max
  rounds : r'.rounds = roundNo + log.length
  finished : r'.ran < clampMax max → ∀ i, s'.markOf id i = .waiting →
    ¬ s'.ReadyBrief id i ∧ ¬ Stuck (DependsOn (s'.stepsOf id)) (s'.markOf id) i

theorem RoundsKept.cons {id : OrchestrationId} {max roundNo : Nat}
    {s s₁ s' : KernelState} {r r₁ r' : OrchestrationBatchResult}
    {round : List (KernelState × Nat)} {log : List (List (KernelState × Nat))}
    (hstep : BatchStep id s s₁ r r₁ round.length round.length)
    (hready : ∀ a ∈ round, Advances (s.stepsOf id) (a.1.stepsOf id) ∧ a.1.ReadyBrief id a.2)
    (hnodup : (round.map Prod.snd).Nodup)
    (hfresh : ∀ a ∈ round, s.markOf id a.2 = .waiting)
    (hsettled : ∀ a ∈ round, s₁.markOf id a.2 ≠ .waiting)
    (hlength : round.length ≤ clampConcurrency concurrency)
    (h : RoundsKept id max concurrency s₁ s' (roundNo + 1) r₁ r' log) :
    RoundsKept id max concurrency s s' roundNo r r' (round :: log) where
  step := by
    rw [List.flatten_cons, List.length_append]
    exact hstep.trans h.step
  ready := by
    intro a ha
    rw [List.flatten_cons, List.mem_append] at ha
    rcases ha with ha | ha
    · exact hready a ha
    · exact ⟨hstep.steps.trans (h.ready a ha).1, (h.ready a ha).2⟩
  once := by
    rw [List.flatten_cons, List.map_append, List.nodup_append]
    refine ⟨hnodup, h.once, fun i hi k hk he => ?_⟩
    obtain ⟨a, ha, rfl⟩ := List.mem_map.mp hi
    obtain ⟨a', ha', rfl⟩ := List.mem_map.mp hk
    -- A later round only takes briefs that are still waiting.
    exact hsettled a ha (he ▸ h.fresh a' ha')
  fresh := by
    intro a ha
    rw [List.flatten_cons, List.mem_append] at ha
    rcases ha with ha | ha
    · exact hfresh a ha
    · exact hstep.steps.moves.waiting (h.fresh a ha)
  perRound := by
    intro l hl
    rcases List.mem_cons.mp hl with rfl | hl
    · exact hlength
    · exact h.perRound l hl
  perCall := h.perCall
  rounds := by
    rw [h.rounds, List.length_cons]
    omega
  finished := h.finished

theorem runRounds_kept (w : World) (id : OrchestrationId) (max concurrency : Nat) {fuel : Nat}
    (hk : s.Keyed) (hfuel : waitingIn (Finset.range (s.stepsOf id).length) (s.markOf id) < fuel)
    (roundNo : Nat) (hran : r.ran ≤ clampMax max) :
    ∃ s' r', runRounds w id max concurrency fuel s roundNo r = some (s', r') ∧
      RoundsKept id max concurrency s s' roundNo r r'
        (batchLog w id max concurrency fuel s roundNo r) := by
  induction fuel generalizing s roundNo r with
  | zero => exact absurd hfuel (Nat.not_lt_zero _)
  | succ fuel ih =>
    by_cases hleft : r.ran < clampMax max
    · obtain ⟨hnonempty, hstep, hsettled⟩ :=
        round_settles w id max concurrency (roundNo + 1) hk hleft
      have heq := prepareOrchestrationRound_eq w s id max concurrency (roundNo + 1) hleft
      simp only [runRounds, batchLog]
      by_cases hprep : (prepareOrchestrationRound w s id max concurrency (roundNo + 1)
          r).2.1.ran = true
      · -- The round settles a step that was pending, so fewer are left.
        rw [if_neg (not_not.mpr hprep), if_neg (not_not.mpr hprep)]
        obtain ⟨b, hb⟩ := List.exists_mem_of_ne_nil _ (hnonempty.mp hprep)
        have hprop := propagate_advances s id
        have hfresh : ∀ b ∈ roundBriefs (propagateDependencyBlocks s id).2 id max concurrency r,
            s.markOf id b.1 = .waiting :=
          fun b hb => hprop.moves.waiting (roundBriefs_ready hb).1
        have hindex : b.1 < (s.stepsOf id).length := by
          obtain ⟨step, hget, -⟩ := get_of_waiting (hfresh b hb)
          exact (List.getElem?_eq_some_iff.mp hget).1
        have hless := hstep.steps.moves.waitingIn_lt (Finset.mem_range.mpr hindex)
          (hfresh b hb) (hsettled b hb)
        have hsize := roundBriefs_length (propagateDependencyBlocks s id).2 id max concurrency r
        obtain ⟨s', r', hrun, hkept⟩ := ih hstep.keyed
          (by
            rw [hstep.steps.length]
            exact Nat.lt_of_lt_of_le hless (Nat.lt_succ_iff.mp hfuel))
          (roundNo + 1) (by rw [hstep.ran]; omega)
        obtain ⟨hmap, hlog⟩ := roundLog_spec w id (roundNo + 1) (propagate_keyed hk id)
          (roundBriefs_nodup _ id max concurrency r) (fun b hb => roundBriefs_ready hb) ⟨0, []⟩
          { r with dependencyBlocked := r.dependencyBlocked + (propagateDependencyBlocks s id).1 }
        have hbrief : ∀ a ∈ roundLog w id (roundNo + 1) (propagateDependencyBlocks s id).2
            ⟨0, []⟩ { r with dependencyBlocked := r.dependencyBlocked +
              (propagateDependencyBlocks s id).1 }
            (roundBriefs (propagateDependencyBlocks s id).2 id max concurrency r),
            ∃ b ∈ roundBriefs (propagateDependencyBlocks s id).2 id max concurrency r,
              b.1 = a.2 := by
          intro a ha
          have hmem := List.mem_map_of_mem (f := Prod.snd) ha
          rw [hmap] at hmem
          exact List.mem_map.mp hmem
        have hlength := congrArg List.length hmap
        rw [List.length_map, List.length_map] at hlength
        refine ⟨s', r', hrun, .cons (by rw [hlength]; exact hstep)
          (fun a ha => ⟨hprop.trans (hlog a ha).1, (hlog a ha).2⟩)
          (hmap ▸ roundBriefs_nodup _ id max concurrency r) (fun a ha => ?_) (fun a ha => ?_)
          (by rw [hlength]; omega) hkept⟩
        · obtain ⟨b, hb, he⟩ := hbrief a ha
          exact he ▸ hfresh b hb
        · obtain ⟨b, hb, he⟩ := hbrief a ha
          exact he ▸ hsettled b hb
      · have hnil : roundBriefs (propagateDependencyBlocks s id).2 id max concurrency r = [] := by
          by_contra hne
          exact hprep (hnonempty.mpr hne)
        rw [hnil] at heq
        rw [heq]
        refine ⟨_, _, rfl, ⟨⟨propagate_advances s id, propagate_planned s id,
          propagate_keyed hk id, rfl, rfl⟩,
          fun a ha => absurd ha List.not_mem_nil, List.nodup_nil,
          fun a ha => absurd ha List.not_mem_nil, fun a ha => absurd ha List.not_mem_nil, hran,
          rfl, fun _ i hi => ⟨roundBriefs_nil hleft hnil i, propagate_done s id i⟩⟩⟩
    · have hspent : prepareOrchestrationRound w s id max concurrency (roundNo + 1) r =
          (s, ⟨0, []⟩, r) := by
        unfold prepareOrchestrationRound
        rw [if_pos (by omega)]
      simp only [runRounds, batchLog, hspent]
      refine ⟨s, { r with rounds := roundNo }, rfl, ⟨⟨.refl _, rfl, hk, rfl, rfl⟩,
        fun a ha => absurd ha List.not_mem_nil, List.nodup_nil,
        fun a ha => absurd ha List.not_mem_nil, fun a ha => absurd ha List.not_mem_nil, hran,
        rfl, fun h => absurd h hleft⟩⟩

def KernelState.outcomeOf (s : KernelState) (id : OrchestrationId) (i : Nat) :
    Option StepOutcome := stepOutcome? (s.stepsOf id) i

variable {o : StepOutcome}

theorem outcomeOf_eq :
    s.outcomeOf id i = some o ↔ ∃ step, (s.stepsOf id)[i]? = some step ∧ step.outcome = o :=
  Option.map_eq_some_iff

theorem outcomeOf_mark (h : s.outcomeOf id i = some o) : s.markOf id i = o.mark := by
  obtain ⟨step, hget, rfl⟩ := outcomeOf_eq.mp h
  exact markAt_of_get hget

theorem outcomeOf_of_mark (hi : i < (s.stepsOf id).length) (h : s.markOf id i = o.mark) :
    s.outcomeOf id i = some o := by
  have hget := List.getElem?_eq_getElem hi
  have hmark : ((s.stepsOf id)[i]).outcome.mark = o.mark := (markAt_of_get hget).symm.trans h
  have ho : ((s.stepsOf id)[i]).outcome = o := by
    generalize ((s.stepsOf id)[i]).outcome = o' at hmark
    cases o' <;> cases o <;> first | rfl | cases hmark
  exact outcomeOf_eq.mpr ⟨_, hget, ho⟩

theorem outcomeOf_lt (h : s.outcomeOf id i = some o) : i < (s.stepsOf id).length := by
  obtain ⟨step, hget, -⟩ := outcomeOf_eq.mp h
  exact (List.getElem?_eq_some_iff.mp hget).1

def DependsEarlier (steps : List OrchestrationStep) : Prop := ∀ i j, DependsOn steps i j → j < i

def KernelState.Attemptable (s : KernelState) (id : OrchestrationId) (i : Nat) : Prop :=
  s.outcomeOf id i = some .pending ∧
    ∀ j, DependsOn (s.stepsOf id) i j → s.outcomeOf id j = some .completed

/-- A dependency ends up failed or blocked, or one that was not completed is cut off itself. -/
def CutOff (s s' : KernelState) (id : OrchestrationId) : Nat → Prop :=
  Agenda.Cut (DependsOn (s.stepsOf id)) (s.markOf id) (s'.markOf id)

/-- Every pending step from which some chain of dependencies leads to a failed or blocked
one ends up blocked. -/
def BlocksDownstream (s s' : KernelState) (id : OrchestrationId) : Prop :=
  ∀ i j, s.outcomeOf id i = some .pending →
    Relation.TransGen (DependsOn (s.stepsOf id)) i j →
    s'.outcomeOf id j = some .failed ∨ s'.outcomeOf id j = some .blocked →
    s'.outcomeOf id i = some .blocked

def KernelState.Consistent (s : KernelState) (id : OrchestrationId) : Prop :=
  ∀ i j, s.outcomeOf id i = some .completed → DependsOn (s.stepsOf id) i j →
    s.outcomeOf id j = some .completed

structure BatchKept (id : OrchestrationId) (max concurrency : Nat) (s s' : KernelState)
    (result : OrchestrationBatchResult) (log : List (List (KernelState × Nat))) : Prop where
  keyed : s'.Keyed
  briefs : (s'.stepsOf id).map OrchestrationStep.brief = (s.stepsOf id).map OrchestrationStep.brief
  attempted : ∀ a ∈ log.flatten, a.1.Attemptable id a.2
  once : (log.flatten.map Prod.snd).Nodup
  perRound : ∀ round ∈ log, round.length ≤ clampConcurrency concurrency
  perCall : log.flatten.length ≤ clampMax max
  rounds : result.rounds = log.length
  ran : result.ran = log.flatten.length
  counted : result.ran = result.completed + result.failed + result.blocked
  blocked : ∀ i, s.outcomeOf id i = some .pending → CutOff s s' id i →
    s'.outcomeOf id i = some .blocked
  downstream : s.Consistent id → BlocksDownstream s s' id
  exhausted : result.ran < clampMax max → ∀ i, s'.outcomeOf id i ≠ some .pending

def callLog (w : World) (fuel : Nat) (s : KernelState) (id : OrchestrationId)
    (max concurrency : Nat) : List (List (KernelState × Nat)) :=
  match newOrchestrationBatchResult s id concurrency with
  | .error _ => []
  | .ok result => batchLog w id max concurrency fuel s 0 result

theorem finalizeOrchestrationBatch_spec (hk : s.Keyed) (hplanned : s.planned id = true)
    (r : OrchestrationBatchResult) :
    ∃ r' s', finalizeOrchestrationBatch s id r = (.ok r', s') ∧ s'.Keyed ∧
      s'.stepsOf id = (propagateDependencyBlocks s id).2.stepsOf id ∧
      r'.ran = r.ran ∧ r'.tallied = r.tallied ∧ r'.rounds = r.rounds := by
  have hsome := (propagate_planned s id).trans hplanned
  obtain ⟨o, ho⟩ := Option.isSome_iff_exists.mp hsome
  have hkeyed := propagate_keyed hk id
  simp only [finalizeOrchestrationBatch, ho]
  refine ⟨_, _, rfl, ⟨hkeyed.task, hkeyed.run⟩, ?_, rfl, rfl, rfl⟩
  exact KernelState.stepsOf_modify (g := fun steps => steps) rfl (fun _ => rfl) rfl

theorem attemptable_of_ready (hearlier : DependsEarlier (s.stepsOf id)) (h : s.ReadyBrief id i) :
    s.Attemptable id i := by
  obtain ⟨step, hget, hpending⟩ := get_of_waiting h.1
  have hi := (List.getElem?_eq_some_iff.mp hget).1
  refine ⟨outcomeOf_eq.mpr ⟨step, hget, hpending⟩, fun j hj => ?_⟩
  have hlt := hearlier i j hj
  exact outcomeOf_of_mark (by omega) (h.2 j hj)

theorem closed_of_consistent (h : s.Consistent id) :
    Agenda.Closed (DependsOn (s.stepsOf id)) (s.markOf id) := by
  intro i hi j hj
  have ⟨step, hget, _⟩ := hj
  have hlt := (List.getElem?_eq_some_iff.mp hget).1
  exact outcomeOf_mark (h i j (outcomeOf_of_mark hlt hi) hj)

theorem dependsEarlier_wf {steps : List OrchestrationStep} (h : DependsEarlier steps) :
    WellFounded (fun j i => DependsOn steps i j) :=
  Subrelation.wf (fun hj => h _ _ hj) Nat.lt_wfRel.wf

theorem runOrchestration_rounds (w : World) (max concurrency : Nat) {fuel : Nat} (hk : s.Keyed)
    (hplanned : s.planned id = true) (hfuel : (s.stepsOf id).length < fuel) :
    ∃ result s' s₁ r₀ r₁, runOrchestration w fuel s id max concurrency =
        some (.ok result, s') ∧
      RoundsKept id max concurrency s s₁ 0 r₀ r₁ (callLog w fuel s id max concurrency) ∧
      (r₀.ran = 0 ∧ r₀.tallied = 0) ∧ s'.Keyed ∧
      s'.stepsOf id = (propagateDependencyBlocks s₁ id).2.stepsOf id ∧
      result.ran = r₁.ran ∧ result.tallied = r₁.tallied ∧ result.rounds = r₁.rounds := by
  obtain ⟨o, ho⟩ := Option.isSome_iff_exists.mp hplanned
  have hnew : ∃ r₀, newOrchestrationBatchResult s id concurrency = .ok r₀ ∧ r₀.ran = 0 ∧
      r₀.tallied = 0 := by
    simp only [newOrchestrationBatchResult, ho]
    exact ⟨_, rfl, rfl, rfl⟩
  obtain ⟨r₀, hr₀, hran₀, htallied₀⟩ := hnew
  have hwaiting := waitingIn_le_length (s.stepsOf id) (s.stepsOf id).length
  obtain ⟨s₁, r₁, hrun, hkept⟩ := runRounds_kept w id max concurrency hk
    (Nat.lt_of_le_of_lt hwaiting hfuel) 0 (by rw [hran₀]; exact Nat.zero_le _)
  obtain ⟨result, s', hfinal, hclosed⟩ :=
    finalizeOrchestrationBatch_spec hkept.step.keyed (hkept.step.planned.trans hplanned) r₁
  have hlog : callLog w fuel s id max concurrency =
      batchLog w id max concurrency fuel s 0 r₀ := by
    unfold callLog
    rw [hr₀]
  refine ⟨result, s', s₁, r₀, r₁, ?_, hlog ▸ hkept, ⟨hran₀, htallied₀⟩, hclosed⟩
  simp only [runOrchestration, hr₀, hrun, Option.map_some, hfinal]

/-- A call comes to an end. It attempts a brief only when it is pending with all its dependencies
completed, each at most once, and within its bounds in a round and in all. Its counts agree, every
pending step cut off by a failed or blocked one is blocked, and with budget left nothing is pending.
-/
theorem orchestration_batch_kept (w : World) (s : KernelState) (id : OrchestrationId)
    (max concurrency fuel : Nat) (hk : s.Keyed) (hplanned : s.planned id = true)
    (hearlier : DependsEarlier (s.stepsOf id)) (hfuel : (s.stepsOf id).length < fuel) :
    ∃ result s', runOrchestration w fuel s id max concurrency = some (.ok result, s') ∧
      BatchKept id max concurrency s s' result (callLog w fuel s id max concurrency) := by
  obtain ⟨result, s', s₁, r₀, r₁, hrun, hkept, ⟨hran₀, htallied₀⟩, hkeyed, hsteps, hran,
    htallied, hrounds⟩ := runOrchestration_rounds w max concurrency hk hplanned hfuel
  have hprop := propagate_advances s₁ id
  rw [← hsteps] at hprop
  have hall := hkept.step.steps.trans hprop
  have hstuck : ∀ i, ¬ Stuck (DependsOn (s.stepsOf id)) (s'.markOf id) i := by
    intro i
    have hdone := propagate_done s₁ id i
    rw [← hsteps, hall.dependsOn] at hdone
    exact hdone
  have hran₁ := hkept.step.ran
  have htallied₁ := hkept.step.tallied
  have hblocked : ∀ i, s.outcomeOf id i = some .pending → CutOff s s' id i →
      s'.outcomeOf id i = some .blocked := by
    intro i hi hcut
    have hmark := hall.moves.blocked_of_cut hstuck hcut (outcomeOf_mark hi)
    exact outcomeOf_of_mark (by rw [hall.length]; exact outcomeOf_lt hi) hmark
  refine ⟨result, s', hrun, hkeyed, hall.briefs, fun a ha => ?_, hkept.once, hkept.perRound, ?_,
    ?_, ?_, ?_, hblocked, fun hconsistent i j hi hchain hdown => ?_, fun hleft i hi => ?_⟩
  · obtain ⟨hadvances, hready⟩ := hkept.ready a ha
    have hearlier' : DependsEarlier (a.1.stepsOf id) := fun i j hj =>
      hearlier i j (hadvances.dependsOn ▸ hj)
    exact attemptable_of_ready hearlier' hready
  · have hcall := hkept.perCall
    omega
  · rw [hrounds, hkept.rounds, Nat.zero_add]
  · omega
  · change result.ran = result.tallied
    omega
  · have hmark : (s'.markOf id j).Down := by
      rcases hdown with h | h
      · exact .inl (outcomeOf_mark h)
      · exact .inr (outcomeOf_mark h)
    exact hblocked i hi (hall.moves.cut_of_chain (closed_of_consistent hconsistent) hchain
      hmark)
  · -- The last round found nothing ready and nothing stuck, so nothing was waiting.
    have hfinished := hkept.finished (hran ▸ hleft)
    have hearlier₁ : DependsEarlier (s₁.stepsOf id) := fun i j hj =>
      hearlier i j (hkept.step.steps.dependsOn ▸ hj)
    have hnone := Agenda.none_waiting (dependsEarlier_wf hearlier₁)
      (fun i hi => (hfinished i hi.1).1 hi) (fun i hi => (hfinished i hi.1).2 hi) i
    exact hnone (hprop.moves.waiting (outcomeOf_mark hi))

def strayStep (taskId : TaskId) (outcome : StepOutcome) (dependsOn : List Nat) :
    OrchestrationStep :=
  ⟨taskId, "nobody", "", outcome, dependsOn, none, none, none, none, none⟩

def withSteps (steps : List OrchestrationStep) : KernelState :=
  { KernelState.new with
    orchestrations := HashMap.empty.insert "orch_0001"
      ⟨"orch_0001", "", "prime", .planned, steps, [], 0, 0, none⟩ }

theorem withSteps_keyed (steps : List OrchestrationStep) : (withSteps steps).Keyed where
  task := fun _ _ h => by cases h
  run := fun _ _ h => by cases h

theorem orchestration_batch_kept_sample :
    let s := withSteps [strayStep "task_0001" .pending [], strayStep "task_0002" .pending [0]]
    ∃ result s', runOrchestration .silent 3 s "orch_0001" 25 2 = some (.ok result, s') ∧
      BatchKept "orch_0001" 25 2 s s' result (callLog .silent 3 s "orch_0001" 25 2) := by
  refine orchestration_batch_kept .silent _ "orch_0001" 25 2 3 (withSteps_keyed _) rfl ?_
    (by decide)
  rintro i j ⟨step, hget, hj⟩
  match i with
  | 0 =>
    cases hget
    cases hj
  | 1 =>
    cases hget
    rw [List.mem_singleton.mp hj]
    exact Nat.zero_lt_one
  | n + 2 => cases hget

/-- The middle step is completed although its dependency failed, so the last one is ready:
it is attempted, and not blocked. -/
theorem orchestration_batch_not_kept :
    let s := withSteps [strayStep "task_0001" .failed [], strayStep "task_0002" .completed [0],
      strayStep "task_0003" .pending [1]]
    DependsEarlier (s.stepsOf "orch_0001") ∧
      ∃ result s', runOrchestration .silent 4 s "orch_0001" 25 2 = some (.ok result, s') ∧
        ¬ BlocksDownstream s s' "orch_0001" := by
  intro s
  refine ⟨?_, ?_⟩
  · rintro i j ⟨step, hget, hj⟩
    match i with
    | 0 =>
      cases hget
      cases hj
    | 1 =>
      cases hget
      rw [List.mem_singleton.mp hj]
      exact Nat.zero_lt_one
    | 2 =>
      cases hget
      rw [List.mem_singleton.mp hj]
      exact Nat.one_lt_two
    | n + 3 => cases hget
  · refine ⟨_, _, rfl, fun h => ?_⟩
    have hlast : DependsOn (s.stepsOf "orch_0001") 2 1 := ⟨_, rfl, List.mem_singleton_self 1⟩
    have hmiddle : DependsOn (s.stepsOf "orch_0001") 1 0 := ⟨_, rfl, List.mem_singleton_self 0⟩
    have hblocked := h 2 0 rfl (.head hlast (.single hmiddle)) (.inl rfl)
    cases hblocked

end Relux
