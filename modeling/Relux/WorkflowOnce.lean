import Relux.WorkflowRuns

/-! Each step is dispatched at most once in a run whose fan-outs do not start two siblings
on one step. -/

namespace Relux

namespace Workflow

variable {isAlphanumeric : Char → Bool} {w : Workflow} {env : Environment}

def Distinct (fanOut : List String × Finset String) : Prop :=
  (fanOut.1.filter (fun name => name ∉ fanOut.2)).Nodup

structure Once (w : Workflow) (input : String) (s : ExecutionState) : Prop where
  visited : ∀ name ∈ s.dispatched, name ∈ s.visited
  nodup : s.dispatched.Nodup
  perm : (s.trace.map ExecutionStep.agent).Perm s.dispatched
  bound : ∀ k v, s.bindings.get? k = some v → k = "workflow.input" ∧ v = input ∨
    ∃ step ∈ s.trace, ∃ spec, w.agents.get? step.agent = some spec ∧
      k = outputKey spec.output ∧ v = step.output

theorem once_initial (w : Workflow) (input : String) : Once w input (initialState input) := by
  refine ⟨by simp [initialState], List.nodup_nil, List.Perm.refl _, ?_⟩
  intro k v hv
  by_cases hk : k = "workflow.input"
  · have hvalue : input = v := by simpa [initialState, hk] using hv
    exact Or.inl ⟨hk, hvalue.symm⟩
  · simp [initialState, hk] at hv

theorem Once.step {input name : String} {s s' : ExecutionState} {result : StepRunResult}
    (h : Once w input s) (ht : StepTaken isAlphanumeric w env name s result s') :
    Once w input s' := by
  cases ht with
  | skipped hvisited => exact h
  | cancelled hfresh hcancel => exact ⟨h.visited, h.nodup, h.perm, h.bound⟩
  | unknown hfresh hagent =>
    exact ⟨fun d hd => Finset.mem_insert_of_mem (h.visited d hd), h.nodup, h.perm, h.bound⟩
  | unresolved hfresh hagent hinput =>
    exact ⟨fun d hd => Finset.mem_insert_of_mem (h.visited d hd), h.nodup, h.perm, h.bound⟩
  | @ran step spec hfresh hagent hstep hinput =>
    have hnew : name ∉ s.dispatched := fun hname => hfresh (h.visited name hname)
    refine ⟨?_, ?_, ?_, ?_⟩
    · intro d hd
      rcases List.mem_append.mp hd with hd | hd
      · exact Finset.mem_insert_of_mem (h.visited d hd)
      · rw [List.mem_singleton.mp hd]
        exact Finset.mem_insert_self _ _
    · rw [List.nodup_append_comm]
      exact List.nodup_cons.mpr ⟨hnew, h.nodup⟩
    · show ((s.trace ++ [step]).map ExecutionStep.agent).Perm _
      rw [List.map_append, List.map_singleton, hstep]
      exact h.perm.append_right _
    · intro k v hv
      rw [BTreeMap.get?_insert] at hv
      by_cases hk : k = outputKey spec.output
      · have hvalue : step.output = v := by simpa [hk] using hv
        refine Or.inr ⟨step, by simp, spec, ?_, hk, hvalue.symm⟩
        rw [hstep]
        exact hagent
      · rw [if_neg hk] at hv
        rcases h.bound k v hv with hinput | ⟨step', hstep', hbound⟩
        · exact Or.inl hinput
        · exact Or.inr ⟨step', List.mem_append_left _ hstep', hbound⟩

variable {s m : ExecutionState} {input : String} {sibling : Sibling}

theorem Once.merge (hs : Once w input s) (hm : Once w input m)
    (htrace : ∀ step ∈ s.trace, step ∈ m.trace) (ht : SiblingOf isAlphanumeric w env s sibling)
    (hfresh : sibling.target ∉ s.visited → sibling.target ∉ m.dispatched) :
    Once w input (mergeSibling s m sibling) := by
  obtain ⟨clock, ht⟩ := ht
  obtain ⟨target, result, after⟩ := sibling
  simp only at ht hfresh
  have hkept : ∀ k v, (m.bindings.get? k).or (s.bindings.get? k) = some v →
      k = "workflow.input" ∧ v = input ∨
        ∃ step ∈ m.trace, ∃ spec, w.agents.get? step.agent = some spec ∧
          k = outputKey spec.output ∧ v = step.output := by
    intro k v hv
    cases hget : m.bindings.get? k with
    | some v' =>
      rw [hget] at hv
      have hsame : v' = v := by simpa using hv
      rw [← hsame]
      exact hm.bound k v' hget
    | none =>
      rw [hget, Option.none_or] at hv
      rcases hs.bound k v hv with hinput | ⟨step, hstep, hbound⟩
      · exact Or.inl hinput
      · exact Or.inr ⟨step, htrace step hstep, hbound⟩
  have hadd : ∀ (visited : Finset String) (started : List StepStart) (clock : Nat),
      Once w input (mergeSibling s m ⟨target, result, { s with
        trace := [], clock := clock, visited := visited, started := started }⟩) := by
    intro visited started clock
    refine ⟨?_, ?_, ?_, ?_⟩
    · intro d hd
      exact Finset.mem_union_left _ (hm.visited d (by simpa [mergeSibling] using hd))
    · simpa [mergeSibling] using hm.nodup
    · simpa [mergeSibling] using hm.perm
    · intro k v hv
      simp only [mergeSibling, BTreeMap.get?_foldl_orInsert] at hv
      simpa [mergeSibling] using hkept k v hv
  cases ht with
  | skipped hvisited | cancelled hfresh hcancel | unknown hfresh hagent
  | unresolved hfresh hagent hinput =>
    exact hadd _ _ _
  | @ran step spec hnot hagent hstep hinput =>
    have hnew : target ∉ m.dispatched := hfresh hnot
    refine ⟨?_, ?_, ?_, ?_⟩
    · intro d hd
      simp only [mergeSibling, List.drop_left, List.mem_append, List.mem_singleton] at hd
      rcases hd with hd | hd
      · exact Finset.mem_union_left _ (hm.visited d hd)
      · rw [hd]
        exact Finset.mem_union_right _ (Finset.mem_insert_self _ _)
    · simp only [mergeSibling, List.drop_left]
      rw [List.nodup_append_comm]
      exact List.nodup_cons.mpr ⟨hnew, hm.nodup⟩
    · simp only [mergeSibling, List.drop_left, List.nil_append, List.map_append,
        List.map_singleton]
      have hagent' : step.agent = target := hstep
      rw [hagent']
      exact hm.perm.append_right _
    · intro k v hv
      simp only [mergeSibling, BTreeMap.get?_foldl_orInsert, BTreeMap.get?_insert] at hv
      simp only [mergeSibling, List.nil_append]
      by_cases hk : k = outputKey spec.output
      · cases hget : m.bindings.get? k with
        | some v' =>
          rw [hget] at hv
          have hsame : v' = v := by simpa using hv
          rcases hm.bound k v' hget with hinput | ⟨step', hstep', hbound⟩
          · rw [← hsame]
            exact Or.inl hinput
          · rw [← hsame]
            exact Or.inr ⟨step', List.mem_append_left _ hstep', hbound⟩
        | none =>
          rw [hget, if_pos hk, Option.none_or] at hv
          have hvalue : step.output = v := Option.some.inj hv
          refine Or.inr ⟨step, by simp, spec, ?_, hk, hvalue.symm⟩
          rw [show step.agent = target from hstep]
          exact hagent
      · rw [if_neg hk] at hv
        rcases hkept k v hv with hinput | ⟨step', hstep', hbound⟩
        · exact Or.inl hinput
        · exact Or.inr ⟨step', List.mem_append_left _ hstep', hbound⟩

structure Merging (w : Workflow) (input : String) (s m : ExecutionState)
    (targets : List String) : Prop where
  once : Once w input m
  trace : ∀ step ∈ s.trace, step ∈ m.trace
  dispatched : ∀ name ∈ m.dispatched, name ∈ s.dispatched ∨ name ∈ targets
  history : s.dispatched <+: m.dispatched

theorem mergeSibling_dispatched (ht : SiblingOf isAlphanumeric w env s sibling) :
    ∀ name ∈ (mergeSibling s m sibling).dispatched,
      name ∈ m.dispatched ∨ name = sibling.target := by
  obtain ⟨clock, ht⟩ := ht
  obtain ⟨target, result, after⟩ := sibling
  simp only at ht
  intro name hname
  cases ht with
  | skipped hvisited | cancelled hfresh hcancel | unknown hfresh hagent
  | unresolved hfresh hagent hinput =>
    exact Or.inl (by simpa [mergeSibling] using hname)
  | ran hfresh hagent hstep hinput => simpa [mergeSibling] using hname

theorem foldl_mergeSibling {siblings : List Sibling} {before : List String} (hs : Once w input s)
    (hm : Merging w input s m before)
    (hsiblings : ∀ sibling ∈ siblings, SiblingOf isAlphanumeric w env s sibling)
    (hdistinct : ((before ++ siblings.map Sibling.target).filter
      (fun name => name ∉ s.visited)).Nodup) :
    Merging w input s (siblings.foldl (mergeSibling s) m)
      (before ++ siblings.map Sibling.target) := by
  induction siblings generalizing m before with
  | nil => simpa using hm
  | cons sibling siblings ih =>
    have ht := hsiblings sibling List.mem_cons_self
    have hfresh : sibling.target ∉ s.visited → sibling.target ∉ m.dispatched := by
      intro hnot hmem
      rcases hm.dispatched _ hmem with hold | hbefore
      · exact hnot (hs.visited _ hold)
      · rw [List.filter_append, List.nodup_append] at hdistinct
        have hleft : sibling.target ∈ before.filter (fun name => name ∉ s.visited) :=
          List.mem_filter.mpr ⟨hbefore, by simpa using hnot⟩
        have hright : sibling.target ∈ ((sibling :: siblings).map Sibling.target).filter
            (fun name => name ∉ s.visited) :=
          List.mem_filter.mpr ⟨by simp, by simpa using hnot⟩
        exact hdistinct.2.2 _ hleft _ hright rfl
    have hnext : Merging w input s (mergeSibling s m sibling) (before ++ [sibling.target]) := by
      refine ⟨hs.merge hm.once hm.trace ht hfresh, ?_, ?_, ?_⟩
      · intro step hstep
        exact List.mem_append_left _ (hm.trace step hstep)
      · intro name hname
        rcases mergeSibling_dispatched ht name hname with hname | hname
        · rcases hm.dispatched name hname with hname | hname
          · exact Or.inl hname
          · exact Or.inr (List.mem_append_left _ hname)
        · exact Or.inr (by simp [hname])
      · exact hm.history.trans (List.prefix_append _ _)
    have htail := ih hnext (fun sibling' h => hsiblings sibling' (List.mem_cons_of_mem _ h))
      (by simpa using hdistinct)
    simpa using htail

theorem Once.fanOut {targets : List String} (h : Once w input s)
    (hdistinct : Distinct (targets, s.visited)) :
    Once w input (mergeSiblings env (runSiblings isAlphanumeric w env targets s) s) := by
  have htargets := @runSiblings_targets isAlphanumeric w env targets s
  have hstart : Merging w input s s [] :=
    ⟨h, fun _ hstep => hstep, fun _ hname => Or.inl hname, List.prefix_refl _⟩
  have hsiblings : ∀ sibling ∈ runSiblings isAlphanumeric w env targets s,
      SiblingOf isAlphanumeric w env s sibling := fun _ hs => runSiblings_taken hs
  have hmerged := foldl_mergeSibling h hstart hsiblings
    (by simpa [htargets, Distinct] using hdistinct)
  let m := (runSiblings isAlphanumeric w env targets s).foldl (mergeSibling s) s
  have hm : Once w input m := hmerged.once
  have hperm : (s.dispatched ++ env.interleave s.clock (m.dispatched.drop s.dispatched.length)).Perm
      m.dispatched := by
    obtain ⟨news, hnews⟩ := hmerged.history
    have hdrop : m.dispatched.drop s.dispatched.length = news := by
      rw [show m.dispatched = s.dispatched ++ news from hnews.symm, List.drop_left]
    rw [hdrop, show m.dispatched = s.dispatched ++ news from hnews.symm]
    exact (env.interleave_perm s.clock news).append_left _
  refine ⟨?_, ?_, ?_, hm.bound⟩
  · intro d hd
    exact hm.visited d (hperm.mem_iff.mp hd)
  · exact hperm.nodup_iff.mpr hm.nodup
  · exact hm.perm.trans hperm.symm

/-- What is kept along a run: fan-outs are only added, and if all of them are distinct each
step is dispatched once. -/
def OnceAfter (w : Workflow) (input : String) (s s' : ExecutionState) : Prop :=
  s.fanOuts <+: s'.fanOuts ∧
    ((∀ fanOut ∈ s'.fanOuts, Distinct fanOut) → Once w input s → Once w input s')

theorem runWorkflow_once
    (h : ∀ fanOut ∈ (runWorkflow isAlphanumeric w env input).2.fanOuts, Distinct fanOut) :
    Once w input (runWorkflow isAlphanumeric w env input).2 := by
  have hstep : ∀ name s, OnceAfter w input s (runStepOnly isAlphanumeric w env name s).2 := by
    intro name s
    have htaken := @runStepOnly_taken isAlphanumeric w env name s
    refine ⟨?_, fun _ hs => hs.step htaken⟩
    rw [htaken.fanOuts]
  have hfan : ∀ targets s, OnceAfter w input s
      (mergeSiblings env (runSiblings isAlphanumeric w env targets s) s) := by
    intro targets s
    refine ⟨List.prefix_append _ _, ?_⟩
    intro hdistinct hs
    apply hs.fanOut
    apply hdistinct
    have htargets := @runSiblings_targets isAlphanumeric w env targets s
    simp [mergeSiblings, htargets]
  have htrans : ∀ s₁ s₂ s₃, OnceAfter w input s₁ s₂ → OnceAfter w input s₂ s₃ →
      OnceAfter w input s₁ s₃ := by
    intro s₁ s₂ s₃ h₁ h₂
    refine ⟨h₁.1.trans h₂.1, ?_⟩
    intro hdistinct hs
    exact h₂.2 hdistinct (h₁.2 (fun f hf => hdistinct f (h₂.1.subset hf)) hs)
  have hrun := runWorkflow_keeps (fun s => ⟨List.prefix_refl _, fun _ hs => hs⟩) htrans hstep hfan
    input
  exact hrun.2 h (once_initial w input)

theorem outputKey_ne_input (output : String) : outputKey output ≠ "workflow.input" := by
  intro h
  have hsuffix : ".output".toList <:+ "workflow.input".toList := by
    rw [← h, outputKey, String.toList_append]
    exact List.suffix_append _ _
  exact absurd hsuffix (by decide)

theorem outputKey_inj {a b : String} (h : outputKey a = outputKey b) : a = b := by
  apply String.toList_inj.mp
  apply List.append_cancel_right
  rw [← String.toList_append, ← String.toList_append]
  exact congrArg String.toList h

def entriesOf (s : ExecutionState) (name : String) : List ExecutionStep :=
  s.trace.filter (fun step => step.agent = name)

theorem Once.entriesOf_length (h : Once w input s) (name : String) :
    (entriesOf s name).length = s.dispatched.count name := by
  rw [← h.perm.count_eq, entriesOf, ← List.countP_eq_length_filter, List.count, List.countP_map]
  congr 1

/-- Each step is dispatched at most once, the trace has an entry for each dispatch, and an
output that is bound is the one recorded for its step. -/
theorem dispatched_once {knownPeers : Option (List String)}
    (hvalid : w.validate isAlphanumeric knownPeers = .ok ()) (input : String)
    (h : ∀ fanOut ∈ (runWorkflow isAlphanumeric w env input).2.fanOuts, Distinct fanOut) :
    let s := (runWorkflow isAlphanumeric w env input).2
    (∀ name, s.dispatched.count name ≤ 1) ∧
      (∀ name, (entriesOf s name).length = s.dispatched.count name) ∧
      ∀ name spec v, w.agents.get? name = some spec →
        s.bindings.get? (outputKey spec.output) = some v →
          ∃ step, entriesOf s name = [step] ∧ step.output = v := by
  have hvalidated := validate_ok hvalid
  have honce := runWorkflow_once h
  refine ⟨List.nodup_iff_count_le_one.mp honce.nodup, honce.entriesOf_length, ?_⟩
  intro name spec v hagent hv
  rcases honce.bound _ v hv with ⟨hkey, _⟩ | ⟨step, hstep, spec', hagent', hkey, hvalue⟩
  · exact absurd hkey (outputKey_ne_input spec.output)
  · have hname : step.agent = name :=
      hvalidated.unique hagent' hagent (outputKey_inj hkey).symm
    have hmem : step ∈ entriesOf (runWorkflow isAlphanumeric w env input).2 name :=
      List.mem_filter.mpr ⟨hstep, by simpa using hname⟩
    have hlength : (entriesOf (runWorkflow isAlphanumeric w env input).2 name).length ≤ 1 := by
      rw [honce.entriesOf_length]
      exact List.nodup_iff_count_le_one.mp honce.nodup name
    obtain ⟨step', hsingle⟩ := List.length_eq_one_iff.mp
      (Nat.le_antisymm hlength (List.length_pos_of_mem hmem))
    rw [hsingle, List.mem_singleton] at hmem
    exact ⟨step', hsingle, by rw [← hmem, hvalue]⟩

theorem fork_dispatched_once :
    let s := (runWorkflow Char.isAlphanum
      (fork [⟨"a", "b", .parallel⟩, ⟨"a", "c", .parallel⟩]) obliging "").2
    (∀ name, s.dispatched.count name ≤ 1) ∧
      (∀ name, (entriesOf s name).length = s.dispatched.count name) ∧
      ∀ name spec v,
        (fork [⟨"a", "b", .parallel⟩, ⟨"a", "c", .parallel⟩]).agents.get? name = some spec →
          s.bindings.get? (outputKey spec.output) = some v →
            ∃ step, entriesOf s name = [step] ∧ step.output = v := by
  have hvalid : (fork [⟨"a", "b", .parallel⟩, ⟨"a", "c", .parallel⟩]).validate
      Char.isAlphanum none = .ok () := by decide +kernel
  refine dispatched_once hvalid "" ?_
  unfold Distinct
  decide +kernel

/-- Two parallel edges to one step start it twice, on two copies of the visited steps. -/
theorem repeated_edge_dispatches_twice :
    (fork [⟨"a", "b", .parallel⟩, ⟨"a", "b", .parallel⟩]).validate Char.isAlphanum none =
        .ok () ∧
      (runWorkflow Char.isAlphanum (fork [⟨"a", "b", .parallel⟩, ⟨"a", "b", .parallel⟩])
        obliging "").2.dispatched.count "b" = 2 := by
  decide +kernel

end Workflow

end Relux
