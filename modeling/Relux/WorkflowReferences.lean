import Relux.WorkflowRuns

/-! The references of a step: those to `workflow.input` and to outputs of steps that were
dispatched before resolve, and validation leaves only outputs of steps upstream. -/

namespace Relux

namespace Workflow

variable {isAlphanumeric : Char → Bool} {w : Workflow} {env : Environment}

def Bound (w : Workflow) (bindings : BTreeMap String String) (ran : List String) : Prop :=
  (∃ v, bindings.get? "workflow.input" = some v) ∧
    ∀ name ∈ ran, ∀ spec, w.agents.get? name = some spec →
      ∃ v, bindings.get? (outputKey spec.output) = some v

variable {b : BTreeMap String String} {ran : List String}

theorem Bound.mono {b' : BTreeMap String String} (h : Bound w b ran)
    (hb : ∀ k v, b.get? k = some v → ∃ v', b'.get? k = some v') : Bound w b' ran := by
  obtain ⟨⟨v, hv⟩, hran⟩ := h
  refine ⟨hb _ v hv, ?_⟩
  intro name hname spec hspec
  obtain ⟨v, hv⟩ := hran name hname spec hspec
  exact hb _ v hv

theorem Bound.append {more : List String} (h : Bound w b ran)
    (h' : Bound w b more) : Bound w b (ran ++ more) := by
  refine ⟨h.1, ?_⟩
  intro name hname
  rcases List.mem_append.mp hname with hname | hname
  · exact h.2 name hname
  · exact h'.2 name hname

theorem Bound.subset {fewer : List String}
    (h : Bound w b ran) (hsub : fewer ⊆ ran) : Bound w b fewer :=
  ⟨h.1, fun name hname => h.2 name (hsub hname)⟩

structure Supplied (w : Workflow) (s : ExecutionState) : Prop where
  now : Bound w s.bindings s.dispatched
  starts : ∀ start ∈ s.started, Bound w start.bindings start.ran

variable {s : ExecutionState}

theorem Supplied.started (h : Supplied w s) (name : String) :
    ∀ start ∈ s.started ++ [⟨name, s.bindings, s.dispatched⟩],
      Bound w start.bindings start.ran := by
  intro start hstart
  rcases List.mem_append.mp hstart with hstart | hstart
  · exact h.starts start hstart
  · rw [List.mem_singleton.mp hstart]
    exact h.now

theorem Supplied.step {name : String} {s s' : ExecutionState} {result : StepRunResult}
    (h : Supplied w s) (ht : StepTaken isAlphanumeric w env name s result s') :
    Supplied w s' := by
  cases ht with
  | skipped hvisited => exact h
  | cancelled hfresh hcancel => exact ⟨h.now, h.starts⟩
  | unknown hfresh hagent => exact ⟨h.now, h.starts⟩
  | unresolved hfresh hagent hinput => exact ⟨h.now, h.started name⟩
  | @ran step spec hfresh hagent hstep hinput =>
    refine ⟨?_, h.started name⟩
    have hkept : ∀ k v, s.bindings.get? k = some v →
        ∃ v', (s.bindings.insert (outputKey spec.output) step.output).get? k = some v' := by
      intro k v hv
      by_cases hk : k = outputKey spec.output
      · exact ⟨step.output, by simp [hk]⟩
      · exact ⟨v, by simp [hk, hv]⟩
    have hold := h.now.mono hkept
    apply hold.append
    refine ⟨hold.1, ?_⟩
    intro name' hname spec' hspec
    rw [List.mem_singleton.mp hname, hagent] at hspec
    cases hspec
    exact ⟨step.output, by simp⟩

variable {m : ExecutionState}

theorem Supplied.merge {sibling : Sibling} (hm : Supplied w m)
    (hs : Supplied w s) (ht : SiblingOf isAlphanumeric w env s sibling) :
    Supplied w (mergeSibling s m sibling) := by
  obtain ⟨clock, ht⟩ := ht
  have hcopy : Supplied w { s with trace := [], clock := clock } := ⟨hs.now, hs.starts⟩
  have hafter : Supplied w sibling.after := hcopy.step ht
  have hleft : ∀ k v, m.bindings.get? k = some v →
      ∃ v', (mergeSibling s m sibling).bindings.get? k = some v' := by
    intro k v hv
    exact ⟨v, by simp [mergeSibling, BTreeMap.get?_foldl_orInsert, hv]⟩
  have hright : ∀ k v, sibling.after.bindings.get? k = some v →
      ∃ v', (mergeSibling s m sibling).bindings.get? k = some v' := by
    intro k v hv
    cases hget : m.bindings.get? k with
    | some v' => exact hleft k v' hget
    | none => exact ⟨v, by simp [mergeSibling, BTreeMap.get?_foldl_orInsert, hget, hv]⟩
  refine ⟨?_, ?_⟩
  · exact (hm.now.mono hleft).append
      ((hafter.now.mono hright).subset (List.drop_subset _ _))
  · intro start hstart
    rcases List.mem_append.mp hstart with hstart | hstart
    · exact hm.starts start hstart
    · exact hafter.starts start (List.drop_subset _ _ hstart)

theorem foldl_supplied {siblings : List Sibling} (hm : Supplied w m)
    (hs : Supplied w s) (hsub : s.dispatched ⊆ m.dispatched)
    (h : ∀ sibling ∈ siblings, SiblingOf isAlphanumeric w env s sibling) :
    Supplied w (siblings.foldl (mergeSibling s) m) ∧
      s.dispatched ⊆ (siblings.foldl (mergeSibling s) m).dispatched := by
  induction siblings generalizing m with
  | nil => exact ⟨hm, hsub⟩
  | cons sibling siblings ih =>
    have hnext := hm.merge hs (h sibling List.mem_cons_self)
    apply ih hnext
    · exact List.Subset.trans hsub (List.subset_append_left _ _)
    · exact fun sibling' h' => h sibling' (List.mem_cons_of_mem _ h')

theorem Supplied.fanOut (h : Supplied w s) (targets : List String) :
    Supplied w (mergeSiblings env (runSiblings isAlphanumeric w env targets s) s) := by
  have hsiblings : ∀ sibling ∈ runSiblings isAlphanumeric w env targets s,
      SiblingOf isAlphanumeric w env s sibling := fun _ hs => runSiblings_taken hs
  obtain ⟨hmerged, hsub⟩ := foldl_supplied h h (List.Subset.refl _) hsiblings
  refine ⟨?_, hmerged.starts⟩
  apply hmerged.now.subset
  intro name hname
  rcases List.mem_append.mp hname with hname | hname
  · exact hsub hname
  · exact List.drop_subset _ _ ((env.interleave_perm _ _).mem_iff.mp hname)

end Workflow

end Relux
