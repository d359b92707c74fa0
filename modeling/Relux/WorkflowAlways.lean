import Relux.WorkflowRuns

/-! Why a run stops, and what a run that does not stop has followed: all edges that match the
outcome of each step it dispatched. -/

namespace Relux

namespace Workflow

variable {isAlphanumeric : Char → Bool} {w : Workflow} {env : Environment}

structure Grows (s s' : ExecutionState) : Prop where
  visited : s.visited ⊆ s'.visited
  dispatched : s.dispatched ⊆ s'.dispatched
  trace : s.trace ⊆ s'.trace
  started : s.started ⊆ s'.started

theorem Grows.refl (s : ExecutionState) : Grows s s :=
  ⟨Finset.Subset.refl _, List.Subset.refl _, List.Subset.refl _, List.Subset.refl _⟩

theorem Grows.trans {s₁ s₂ s₃ : ExecutionState} (h : Grows s₁ s₂) (h' : Grows s₂ s₃) :
    Grows s₁ s₃ :=
  ⟨Finset.Subset.trans h.visited h'.visited, List.Subset.trans h.dispatched h'.dispatched,
    List.Subset.trans h.trace h'.trace, List.Subset.trans h.started h'.started⟩

variable {s s' : ExecutionState} {name : String} {result : StepRunResult}

theorem StepTaken.grows (h : StepTaken isAlphanumeric w env name s result s') : Grows s s' := by
  cases h with
  | skipped hvisited => exact Grows.refl s
  | cancelled hfresh hcancel =>
    exact ⟨Finset.Subset.refl _, List.Subset.refl _, List.Subset.refl _, List.Subset.refl _⟩
  | unknown hfresh hagent =>
    exact ⟨Finset.subset_insert _ _, List.Subset.refl _, List.Subset.refl _, List.Subset.refl _⟩
  | unresolved hfresh hagent hinput =>
    exact ⟨Finset.subset_insert _ _, List.Subset.refl _, List.Subset.refl _,
      List.subset_append_left _ _⟩
  | ran hfresh hagent hstep hinput =>
    exact ⟨Finset.subset_insert _ _, List.subset_append_left _ _, List.subset_append_left _ _,
      List.subset_append_left _ _⟩

theorem foldl_mergeSibling_trace (s m : ExecutionState) (siblings : List Sibling) :
    (siblings.foldl (mergeSibling s) m).trace =
      m.trace ++ siblings.flatMap (fun sibling => sibling.after.trace) := by
  induction siblings generalizing m with
  | nil => simp
  | cons sibling siblings ih => simp [ih, mergeSibling]

theorem foldl_mergeSibling_started (s m : ExecutionState) (siblings : List Sibling) :
    (siblings.foldl (mergeSibling s) m).started =
      m.started ++ siblings.flatMap
        (fun sibling => sibling.after.started.drop s.started.length) := by
  induction siblings generalizing m with
  | nil => simp
  | cons sibling siblings ih => simp [ih, mergeSibling]

theorem foldl_mergeSibling_dispatched (s m : ExecutionState) (siblings : List Sibling) :
    (siblings.foldl (mergeSibling s) m).dispatched =
      m.dispatched ++ siblings.flatMap
        (fun sibling => sibling.after.dispatched.drop s.dispatched.length) := by
  induction siblings generalizing m with
  | nil => simp
  | cons sibling siblings ih => simp [ih, mergeSibling]

theorem mem_foldl_mergeSibling_visited (s m : ExecutionState) (siblings : List Sibling)
    (name : String) :
    name ∈ (siblings.foldl (mergeSibling s) m).visited ↔
      name ∈ m.visited ∨ ∃ sibling ∈ siblings, name ∈ sibling.after.visited := by
  induction siblings generalizing m with
  | nil => simp
  | cons sibling siblings ih =>
    rw [List.foldl_cons, ih]
    simp [mergeSibling, or_assoc]

theorem mem_mergeSiblings_dispatched (s : ExecutionState) (siblings : List Sibling)
    (name : String) :
    name ∈ (mergeSiblings env siblings s).dispatched ↔ name ∈ s.dispatched ∨
      ∃ sibling ∈ siblings, name ∈ sibling.after.dispatched.drop s.dispatched.length := by
  have hdrop : (siblings.foldl (mergeSibling s) s).dispatched.drop s.dispatched.length =
      siblings.flatMap (fun sibling => sibling.after.dispatched.drop s.dispatched.length) := by
    rw [foldl_mergeSibling_dispatched, List.drop_left]
  simp only [mergeSiblings, hdrop, List.mem_append, (env.interleave_perm _ _).mem_iff,
    List.mem_flatMap]

theorem mergeSiblings_grows (s : ExecutionState) (siblings : List Sibling) :
    Grows s (mergeSiblings env siblings s) := by
  refine ⟨?_, ?_, ?_, ?_⟩
  · intro name hname
    exact (mem_foldl_mergeSibling_visited s s siblings name).mpr (Or.inl hname)
  · exact List.subset_append_left _ _
  · simp only [mergeSiblings, foldl_mergeSibling_trace]
    exact List.subset_append_left _ _
  · simp only [mergeSiblings, foldl_mergeSibling_started]
    exact List.subset_append_left _ _

/-- The flag, a step whose input did not resolve, or one that failed with no edge that
matches. -/
def Stuck (isAlphanumeric : Char → Bool) (w : Workflow) (env : Environment)
    (s : ExecutionState) : Prop :=
  (∃ n reason, env.cancelled n = some reason) ∨
    (∃ start ∈ s.started, ∃ spec missing, w.agents.get? start.agent = some spec ∧
      interpolate isAlphanumeric spec.input start.bindings = .error missing) ∨
    ∃ step ∈ s.trace, step.outcome.isFailed = true ∧ w.matching step.agent step.outcome = []

theorem Stuck.grows (h : Stuck isAlphanumeric w env s) (hg : Grows s s') :
    Stuck isAlphanumeric w env s' := by
  rcases h with hcancel | ⟨start, hstart, hstuck⟩ | ⟨step, hstep, hstuck⟩
  · exact Or.inl hcancel
  · exact Or.inr (Or.inl ⟨start, hg.started hstart, hstuck⟩)
  · exact Or.inr (Or.inr ⟨step, hg.trace hstep, hstuck⟩)

def Settled (s : ExecutionState) : Prop := ∀ name ∈ s.visited, name ∈ s.dispatched

def ClosedAt (w : Workflow) (s : ExecutionState) (step : ExecutionStep) : Prop :=
  ∀ e ∈ w.matching step.agent step.outcome, e.target ∈ s.dispatched

structure Closes (w : Workflow) (s s' : ExecutionState) : Prop where
  settled : Settled s'
  closed : ∀ step ∈ s'.trace, step ∈ s.trace ∨ ClosedAt w s' step

theorem Closes.trans {s₁ s₂ s₃ : ExecutionState} (h : Closes w s₁ s₂) (hg : Grows s₂ s₃)
    (h' : Closes w s₂ s₃) : Closes w s₁ s₃ := by
  refine ⟨h'.settled, ?_⟩
  intro step hstep
  rcases h'.closed step hstep with hstep | hclosed
  · rcases h.closed step hstep with hstep | hclosed
    · exact Or.inl hstep
    · exact Or.inr (fun e he => hg.dispatched (hclosed e he))
  · exact Or.inr hclosed

/-- A part of a run comes to its end, with `Q` then, or it stops for a reason. -/
inductive Explained (isAlphanumeric : Char → Bool) (w : Workflow) (env : Environment)
    (Q : ExecutionState → Prop) (s : ExecutionState) : Followed → Prop
  | finished {s' : ExecutionState} (hgrows : Grows s s')
      (hends : Settled s → Closes w s s' ∧ Q s') :
      Explained isAlphanumeric w env Q s (.ok (), s')
  | stopped {s' : ExecutionState} {message : String} (hgrows : Grows s s')
      (hstuck : Stuck isAlphanumeric w env s') :
      Explained isAlphanumeric w env Q s (.error (.error message), s')

theorem followAll_explained {α : Type} {follow : α → ExecutionState → Followed}
    {Q : α → ExecutionState → Prop} {as : List α} {s : ExecutionState}
    (hmono : ∀ a s s', Q a s → Grows s s' → Q a s')
    (h : ∀ a ∈ as, ∀ s', Grows s s' → Explained isAlphanumeric w env (Q a) s' (follow a s')) :
    Explained isAlphanumeric w env (fun s' => ∀ a ∈ as, Q a s') s (followAll follow as s) := by
  induction as generalizing s with
  | nil =>
    refine .finished (Grows.refl s) ?_
    intro hs
    exact ⟨⟨hs, fun step hstep => Or.inl hstep⟩, by simp⟩
  | cons a as ih =>
    have hhead := h a List.mem_cons_self s (Grows.refl s)
    cases hfollow : follow a s with
    | mk result s₁ =>
      rw [hfollow] at hhead
      cases hhead with
      | stopped hgrows hstuck =>
        simp only [followAll, hfollow]
        exact .stopped hgrows hstuck
      | finished hgrows hends =>
        simp only [followAll, hfollow]
        have htail := @ih s₁ (fun b hb s' hg =>
          h b (List.mem_cons_of_mem a hb) s' (hgrows.trans hg))
        cases hrest : followAll follow as s₁ with
        | mk result s₂ =>
          rw [hrest] at htail
          cases htail with
          | stopped hgrows' hstuck => exact .stopped (hgrows.trans hgrows') hstuck
          | finished hgrows' hends' =>
            refine .finished (hgrows.trans hgrows') ?_
            intro hs
            obtain ⟨hcloses, hq⟩ := hends hs
            obtain ⟨hcloses', hqs⟩ := hends' hcloses.settled
            refine ⟨hcloses.trans hgrows' hcloses', ?_⟩
            intro b hb
            rcases List.mem_cons.mp hb with hb | hb
            · rw [hb]
              exact hmono a s₁ s₂ hq hgrows'
            · exact hqs b hb

def remaining (w : Workflow) (s : ExecutionState) : Nat :=
  ((w.agents.entries.map Prod.fst).toFinset \ s.visited).card

theorem remaining_le (h : s.visited ⊆ s'.visited) : w.remaining s' ≤ w.remaining s :=
  Finset.card_le_card (Finset.sdiff_subset_sdiff (Finset.Subset.refl _) h)

variable {spec : AgentSpec}

theorem remaining_lt (hagent : w.agents.get? name = some spec)
    (hfresh : name ∉ s.visited) (h : s.visited ⊆ s'.visited) (hname : name ∈ s'.visited) :
    w.remaining s' < w.remaining s := by
  have hmem : name ∈ (w.agents.entries.map Prod.fst).toFinset := by
    rw [List.mem_toFinset]
    exact List.mem_map.mpr ⟨(name, spec), BTreeMap.mem_entries.mpr hagent, rfl⟩
  apply Finset.card_lt_card
  refine (Finset.ssubset_iff_of_subset ?_).mpr ⟨name, ?_, ?_⟩
  · exact Finset.sdiff_subset_sdiff (Finset.Subset.refl _) h
  · exact Finset.mem_sdiff.mpr ⟨hmem, hfresh⟩
  · intro hname'
    exact (Finset.mem_sdiff.mp hname').2 hname

def FollowExplained (isAlphanumeric : Char → Bool) (w : Workflow) (env : Environment)
    (fuel : Nat) (follow : String → StepOutcome → ExecutionState → Followed) : Prop :=
  ∀ name outcome s, (∃ step ∈ s.trace, step.agent = name ∧ step.outcome = outcome) →
    w.remaining s < fuel →
      Explained isAlphanumeric w env
        (fun s' => ∀ e ∈ w.matching name outcome, e.target ∈ s'.dispatched) s
        (follow name outcome s)

variable {follow : String → StepOutcome → ExecutionState → Followed} {fuel : Nat}

theorem runFrom_explained (hfollow : FollowExplained isAlphanumeric w env fuel follow)
    (hagent : w.agents.get? name = some spec) (hfuel : w.remaining s ≤ fuel) :
    Explained isAlphanumeric w env (fun s' => name ∈ s'.dispatched) s
      (runFrom isAlphanumeric w env follow name s) := by
  have htaken := @runStepOnly_taken isAlphanumeric w env name s
  cases hresult : runStepOnly isAlphanumeric w env name s with
  | mk result s₁ =>
    rw [hresult] at htaken
    have hgrows := htaken.grows
    cases htaken with
    | skipped hvisited =>
      simp only [runFrom, hresult]
      refine .finished hgrows ?_
      intro hs
      exact ⟨⟨hs, fun step hstep => Or.inl hstep⟩, hs name hvisited⟩
    | cancelled hfresh hreason =>
      simp only [runFrom, hresult]
      exact .stopped hgrows (Or.inl ⟨_, _, hreason⟩)
    | unknown hfresh hnone =>
      rw [hagent] at hnone
      cases hnone
    | unresolved hfresh hagent' hinput =>
      simp only [runFrom, hresult]
      refine .stopped hgrows (Or.inr (Or.inl
        ⟨⟨name, s.bindings, s.dispatched⟩, ?_, _, _, hagent', hinput⟩))
      simp
    | @ran step spec' hfresh hagent' hstep hinput =>
      have hless := remaining_lt hagent hfresh hgrows.visited (Finset.mem_insert_self _ _)
      have hrest := hfollow name step.outcome _ ⟨step, by simp, hstep, rfl⟩
        (Nat.lt_of_lt_of_le hless hfuel)
      simp only [runFrom, hresult]
      revert hrest
      generalize follow name step.outcome _ = followed
      intro hrest
      cases hrest with
      | stopped hgrows' hstuck => exact .stopped (hgrows.trans hgrows') hstuck
      | @finished s' hgrows' hends =>
        refine .finished (hgrows.trans hgrows') ?_
        intro hs
        have hsettled : Settled { s with
            clock := s.clock + 1
            visited := insert name s.visited
            bindings := s.bindings.insert (outputKey spec'.output) step.output
            trace := s.trace ++ [step]
            dispatched := s.dispatched ++ [name]
            started := s.started ++ [⟨name, s.bindings, s.dispatched⟩] } := by
          intro other hother
          rcases Finset.mem_insert.mp hother with hother | hother
          · exact List.mem_append_right _ (List.mem_singleton.mpr hother)
          · exact List.mem_append_left _ (hs other hother)
        obtain ⟨hcloses, htargets⟩ := hends hsettled
        refine ⟨⟨hcloses.settled, ?_⟩, ?_⟩
        · intro step' hstep'
          rcases hcloses.closed step' hstep' with hold | hclosed
          · rcases List.mem_append.mp hold with hold | hnew
            · exact Or.inl hold
            · rw [List.mem_singleton.mp hnew]
              refine Or.inr ?_
              rw [ClosedAt, hstep]
              exact htargets
          · exact Or.inr hclosed
        · exact hgrows'.dispatched (by simp)

inductive SiblingLeft (isAlphanumeric : Char → Bool) (w : Workflow) (env : Environment)
    (s : ExecutionState) : Sibling → Prop
  | skipped {target : String} {after : ExecutionState} (hvisited : target ∈ s.visited)
      (hsame : after.visited = s.visited) (htrace : after.trace = []) :
      SiblingLeft isAlphanumeric w env s ⟨target, .skipped, after⟩
  | aborted {target message : String} {after : ExecutionState}
      (htrace : after.trace = [])
      (hreason : (∃ n reason, env.cancelled n = some reason) ∨
        ∃ start ∈ after.started.drop s.started.length, ∃ spec missing,
          w.agents.get? start.agent = some spec ∧
            interpolate isAlphanumeric spec.input start.bindings = .error missing) :
      SiblingLeft isAlphanumeric w env s ⟨target, .aborted message, after⟩
  | ran {target : String} {after : ExecutionState} {step : ExecutionStep}
      (hfresh : target ∉ s.visited) (hvisited : after.visited = insert target s.visited)
      (htrace : after.trace = [step]) (hstep : step.agent = target)
      (hdispatched : after.dispatched.drop s.dispatched.length = [target]) :
      SiblingLeft isAlphanumeric w env s ⟨target, .ran step.outcome, after⟩

theorem SiblingOf.left {sibling : Sibling} (h : SiblingOf isAlphanumeric w env s sibling)
    (hagent : ∃ spec, w.agents.get? sibling.target = some spec) :
    SiblingLeft isAlphanumeric w env s sibling := by
  obtain ⟨clock, ht⟩ := h
  obtain ⟨target, result, after⟩ := sibling
  obtain ⟨spec, hagent⟩ := hagent
  simp only at ht hagent
  cases ht with
  | skipped hvisited => exact .skipped hvisited rfl rfl
  | cancelled hfresh hreason => exact .aborted rfl (Or.inl ⟨_, _, hreason⟩)
  | unknown hfresh hnone =>
    rw [hagent] at hnone
    cases hnone
  | unresolved hfresh hagent' hinput =>
    refine .aborted rfl (Or.inr
      ⟨⟨target, s.bindings, s.dispatched⟩, ?_, _, _, hagent', hinput⟩)
    simp
  | ran hfresh hagent' hstep hinput => exact .ran hfresh rfl rfl hstep (by simp)

section FanOut

variable {s : ExecutionState} {siblings : List Sibling}

theorem mergeSiblings_stuck
    (h : ∀ sibling ∈ siblings, SiblingLeft isAlphanumeric w env s sibling)
    {message : String} (herror : siblings.findSome? Sibling.error? = some message) :
    Stuck isAlphanumeric w env (mergeSiblings env siblings s) := by
  obtain ⟨sibling, hsibling, hmessage⟩ := List.exists_of_findSome?_eq_some herror
  have hleft := h sibling hsibling
  cases hleft with
  | skipped hvisited hsame htrace => cases hmessage
  | aborted htrace hreason =>
    rcases hreason with hcancel | ⟨start, hstart, hstuck⟩
    · exact Or.inl hcancel
    · refine Or.inr (Or.inl ⟨start, ?_, hstuck⟩)
      simp only [mergeSiblings, foldl_mergeSibling_started]
      exact List.mem_append_right _ (List.mem_flatMap.mpr ⟨_, hsibling, hstart⟩)
  | ran hfresh hvisited htrace hstep hdispatched => cases hmessage

theorem mergeSiblings_settled
    (h : ∀ sibling ∈ siblings, SiblingLeft isAlphanumeric w env s sibling)
    (herror : siblings.findSome? Sibling.error? = none) (hs : Settled s) :
    Settled (mergeSiblings env siblings s) ∧
      ∀ sibling ∈ siblings, sibling.target ∈ (mergeSiblings env siblings s).dispatched := by
  have hnone := List.findSome?_eq_none_iff.mp herror
  have htarget : ∀ sibling ∈ siblings,
      sibling.target ∈ (mergeSiblings env siblings s).dispatched ∧
        ∀ name ∈ sibling.after.visited, name ∈ s.visited ∨ name = sibling.target := by
    intro sibling hsibling
    have hleft := h sibling hsibling
    have hclean := hnone sibling hsibling
    cases hleft with
    | skipped hvisited hsame htrace =>
      refine ⟨(mem_mergeSiblings_dispatched s siblings _).mpr (Or.inl (hs _ hvisited)), ?_⟩
      intro name hname
      rw [hsame] at hname
      exact Or.inl hname
    | aborted htrace hreason => cases hclean
    | ran hfresh hvisited htrace hstep hdispatched =>
      refine ⟨(mem_mergeSiblings_dispatched s siblings _).mpr
        (Or.inr ⟨_, hsibling, by simp [hdispatched]⟩), ?_⟩
      intro name hname
      rw [hvisited] at hname
      rcases Finset.mem_insert.mp hname with hname | hname
      · exact Or.inr hname
      · exact Or.inl hname
  refine ⟨?_, fun sibling hsibling => (htarget sibling hsibling).1⟩
  intro name hname
  rcases (mem_foldl_mergeSibling_visited s s siblings name).mp hname with
    hname | ⟨sibling, hsibling, hname⟩
  · exact (mergeSiblings_grows s siblings).dispatched (hs name hname)
  · obtain ⟨hdispatched, hvisited⟩ := htarget sibling hsibling
    rcases hvisited name hname with hname | hname
    · exact (mergeSiblings_grows s siblings).dispatched (hs name hname)
    · rw [hname]
      exact hdispatched

theorem mergeSiblings_completed
    (h : ∀ sibling ∈ siblings, SiblingLeft isAlphanumeric w env s sibling)
    {c : String × StepOutcome} (hc : c ∈ siblings.filterMap Sibling.completed?) :
    (∃ step ∈ (mergeSiblings env siblings s).trace, step.agent = c.1 ∧ step.outcome = c.2) ∧
      c.1 ∉ s.visited ∧ c.1 ∈ (mergeSiblings env siblings s).visited ∧
      ∃ sibling ∈ siblings, sibling.target = c.1 := by
  obtain ⟨sibling, hsibling, hcompleted⟩ := List.mem_filterMap.mp hc
  have hleft := h sibling hsibling
  cases hleft with
  | skipped hvisited hsame htrace => cases hcompleted
  | aborted htrace hreason => cases hcompleted
  | @ran target after step hfresh hvisited htrace hstep hdispatched =>
    have hpair : (target, step.outcome) = c := Option.some.inj hcompleted
    rw [← hpair]
    refine ⟨⟨step, ?_, hstep, rfl⟩, hfresh, ?_, ⟨_, hsibling, rfl⟩⟩
    · simp only [mergeSiblings, foldl_mergeSibling_trace]
      exact List.mem_append_right _ (List.mem_flatMap.mpr ⟨_, hsibling, by simp [htrace]⟩)
    · exact (mem_foldl_mergeSibling_visited s s siblings _).mpr
        (Or.inr ⟨_, hsibling, by simp [hvisited]⟩)

theorem mergeSiblings_trace (h : ∀ sibling ∈ siblings, SiblingLeft isAlphanumeric w env s sibling)
    {step : ExecutionStep} (hstep : step ∈ (mergeSiblings env siblings s).trace) :
    step ∈ s.trace ∨ (step.agent, step.outcome) ∈ siblings.filterMap Sibling.completed? := by
  simp only [mergeSiblings, foldl_mergeSibling_trace] at hstep
  rcases List.mem_append.mp hstep with hstep | hstep
  · exact Or.inl hstep
  · obtain ⟨sibling, hsibling, hstep⟩ := List.mem_flatMap.mp hstep
    have hleft := h sibling hsibling
    cases hleft with
    | skipped hvisited hsame htrace => simp [htrace] at hstep
    | aborted htrace hreason => simp [htrace] at hstep
    | @ran target after step' hfresh hvisited htrace hagent hdispatched =>
      have hsame : step = step' := by simpa [htrace] using hstep
      refine Or.inr (List.mem_filterMap.mpr ⟨_, hsibling, ?_⟩)
      simp [Sibling.completed?, hsame, hagent]

end FanOut

theorem fanOut_explained
    (hfollow : FollowExplained isAlphanumeric w env fuel follow) {targets : List String}
    (hagents : ∀ target ∈ targets, ∃ spec, w.agents.get? target = some spec)
    (hfuel : w.remaining s ≤ fuel) :
    Explained isAlphanumeric w env (fun s' => ∀ target ∈ targets, target ∈ s'.dispatched) s
      (fanOut isAlphanumeric w env follow targets s) := by
  let siblings := runSiblings isAlphanumeric w env targets s
  have hnames : siblings.map Sibling.target = targets := runSiblings_targets targets s
  have hknown : ∀ sibling ∈ siblings, ∃ spec, w.agents.get? sibling.target = some spec := by
    intro sibling hsibling
    apply hagents
    rw [← hnames]
    exact List.mem_map_of_mem hsibling
  have hleft : ∀ sibling ∈ siblings, SiblingLeft isAlphanumeric w env s sibling :=
    fun sibling hsibling => (runSiblings_taken hsibling).left (hknown sibling hsibling)
  have hmerged := @mergeSiblings_grows env s siblings
  have hfollowed := @followAll_explained isAlphanumeric w env (String × StepOutcome)
    (fun c => follow c.1 c.2)
    (fun c s' => ∀ e ∈ w.matching c.1 c.2, e.target ∈ s'.dispatched)
    (siblings.filterMap Sibling.completed?) (mergeSiblings env siblings s)
    (fun c s s' hq hg e he => hg.dispatched (hq e he))
    (by
      intro c hc s' hg
      obtain ⟨⟨step, hstep, hagent, houtcome⟩, hfresh, hvisited, sibling, hsibling, htarget⟩ :=
        mergeSiblings_completed hleft hc
      obtain ⟨spec, hspec⟩ := hknown sibling hsibling
      rw [htarget] at hspec
      have hless := remaining_lt hspec hfresh (hmerged.trans hg).visited (hg.visited hvisited)
      exact hfollow c.1 c.2 s' ⟨step, hg.trace hstep, hagent, houtcome⟩
        (Nat.lt_of_lt_of_le hless hfuel))
  simp only [fanOut]
  revert hfollowed
  show Explained _ _ _ _ _ (followAll _ (siblings.filterMap Sibling.completed?)
    (mergeSiblings env siblings s)) → _
  generalize followAll (fun c : String × StepOutcome => follow c.1 c.2)
    (siblings.filterMap Sibling.completed?) (mergeSiblings env siblings s) = followed
  intro hfollowed
  cases hfollowed with
  | stopped hgrows hstuck => exact .stopped (hmerged.trans hgrows) hstuck
  | @finished s' hgrows hends =>
    cases herror : siblings.findSome? Sibling.error? with
    | some message =>
      have hstuck := (mergeSiblings_stuck hleft herror).grows hgrows
      exact .stopped (hmerged.trans hgrows) hstuck
    | none =>
      refine .finished (hmerged.trans hgrows) ?_
      intro hs
      obtain ⟨hsettled, hdispatched⟩ := mergeSiblings_settled hleft herror hs
      obtain ⟨hcloses, htargets⟩ := hends hsettled
      refine ⟨⟨hcloses.settled, ?_⟩, ?_⟩
      · intro step hstep
        rcases hcloses.closed step hstep with hstep | hclosed
        · rcases mergeSiblings_trace hleft hstep with hold | hcompleted
          · exact Or.inl hold
          · exact Or.inr (htargets _ hcompleted)
        · exact Or.inr hclosed
      · intro target htarget
        rw [← hnames] at htarget
        obtain ⟨sibling, hsibling, hname⟩ := List.mem_map.mp htarget
        rw [← hname]
        exact hgrows.dispatched (hdispatched sibling hsibling)

variable {outcome : StepOutcome}

theorem mem_matching_split {e : Edge} (h : e ∈ w.matching name outcome) :
    e ∈ w.sequentialEdges name outcome ∨ e ∈ w.parallelEdges name outcome := by
  by_cases hparallel : e.condition = .parallel
  · exact Or.inr (List.mem_filter.mpr ⟨h, by simpa using hparallel⟩)
  · exact Or.inl (List.mem_filter.mpr ⟨h, by simpa using hparallel⟩)

theorem unhandled_explained {Q : ExecutionState → Prop}
    (hgrows : Grows s s') (hstep : ∃ step ∈ s.trace, step.agent = name ∧ step.outcome = outcome)
    (hends : Settled s → Closes w s s' ∧ Q s') :
    Explained isAlphanumeric w env Q s (w.unhandled name outcome, s') := by
  cases outcome with
  | success => exact .finished hgrows hends
  | failed e =>
    by_cases hempty : (w.matching name (.failed e)).isEmpty = true
    · simp only [unhandled, if_pos hempty]
      obtain ⟨step, hmem, hagent, houtcome⟩ := hstep
      refine .stopped hgrows (Or.inr (Or.inr ⟨step, hgrows.trace hmem, ?_, ?_⟩))
      · rw [houtcome]
        rfl
      · rw [hagent, houtcome]
        exact List.isEmpty_iff.mp hempty
    · simp only [unhandled, if_neg hempty]
      exact .finished hgrows hends

theorem followEdges_explained
    (hagents : ∀ e ∈ w.flow.edges, ∃ spec, w.agents.get? e.target = some spec) (fuel : Nat) :
    FollowExplained isAlphanumeric w env fuel (followEdges isAlphanumeric w env fuel) := by
  induction fuel with
  | zero =>
    intro name outcome s _ hfuel
    omega
  | succ fuel ih =>
    intro name outcome s hstep hfuel
    have hmatching : ∀ e ∈ w.matching name outcome, ∃ spec, w.agents.get? e.target = some spec :=
      fun e he => hagents e (List.mem_filter.mp he).1
    have hsequential := @followAll_explained isAlphanumeric w env Edge
      (fun e => runFrom isAlphanumeric w env (followEdges isAlphanumeric w env fuel) e.target)
      (fun e s' => e.target ∈ s'.dispatched) (w.sequentialEdges name outcome) s
      (fun e s s' hq hg => hg.dispatched hq)
      (by
        intro e he s' hg
        obtain ⟨spec, hspec⟩ := hmatching e (List.mem_filter.mp he).1
        have hle := remaining_le (w := w) hg.visited
        exact runFrom_explained ih hspec (by omega))
    rw [followEdges]
    revert hsequential
    generalize followAll
      (fun e : Edge =>
        runFrom isAlphanumeric w env (followEdges isAlphanumeric w env fuel) e.target)
      (w.sequentialEdges name outcome) s = followed
    intro hsequential
    cases hsequential with
    | stopped hgrows hstuck => exact .stopped hgrows hstuck
    | @finished s₁ hgrows hends =>
      by_cases hempty : (w.parallelEdges name outcome).isEmpty = true
      · simp only [if_pos hempty]
        apply unhandled_explained hgrows hstep
        intro hs
        obtain ⟨hcloses, htargets⟩ := hends hs
        refine ⟨hcloses, ?_⟩
        intro e he
        rcases mem_matching_split he with he | he
        · exact htargets e he
        · rw [List.isEmpty_iff.mp hempty] at he
          cases he
      · have hle := remaining_le (w := w) hgrows.visited
        have hparallel : ∀ target ∈ (w.parallelEdges name outcome).map Edge.target,
            ∃ spec, w.agents.get? target = some spec := by
          intro target htarget
          obtain ⟨e, he, hname⟩ := List.mem_map.mp htarget
          rw [← hname]
          exact hmatching e (List.mem_filter.mp he).1
        have hfan := fanOut_explained ih hparallel
          (show w.remaining s₁ ≤ fuel by omega)
        simp only [if_neg hempty]
        revert hfan
        generalize fanOut isAlphanumeric w env (followEdges isAlphanumeric w env fuel)
          ((w.parallelEdges name outcome).map Edge.target) s₁ = fanned
        intro hfan
        cases hfan with
        | stopped hgrows' hstuck => exact .stopped (hgrows.trans hgrows') hstuck
        | finished hgrows' hends' =>
          apply unhandled_explained (hgrows.trans hgrows') hstep
          intro hs
          obtain ⟨hcloses, htargets⟩ := hends hs
          obtain ⟨hcloses', htargets'⟩ := hends' hcloses.settled
          refine ⟨hcloses.trans hgrows' hcloses', ?_⟩
          intro e he
          rcases mem_matching_split he with he | he
          · exact hgrows'.dispatched (htargets e he)
          · exact htargets' e.target (List.mem_map_of_mem he)

theorem runWorkflow_explained (hvalid : Validated isAlphanumeric w) (env : Environment)
    (input : String) :
    Explained isAlphanumeric w env (fun s => w.flow.start ∈ s.dispatched) (initialState input)
      (runWorkflow isAlphanumeric w env input) := by
  obtain ⟨spec, hstart⟩ := hvalid.startAgent
  have hfuel : w.remaining (initialState input) ≤ w.agents.entries.length := by
    refine (Finset.card_le_card Finset.sdiff_subset).trans ?_
    refine (List.toFinset_card_le _).trans ?_
    simp
  have hfollow := @followEdges_explained isAlphanumeric w env
    (fun e he => hvalid.targetAgent he) w.agents.entries.length
  exact runFrom_explained hfollow hstart hfuel

def Recorded (s : ExecutionState) : Prop :=
  ∀ name ∈ s.dispatched, ∃ step ∈ s.trace, step.agent = name

theorem Recorded.step {name : String} {s s' : ExecutionState}
    (h : Recorded s) (ht : StepTaken isAlphanumeric w env name s result s') : Recorded s' := by
  cases ht with
  | skipped hvisited => exact h
  | cancelled hfresh hcancel => exact h
  | unknown hfresh hagent => exact h
  | unresolved hfresh hagent hinput => exact h
  | @ran step spec hfresh hagent hstep hinput =>
    intro other hother
    rcases List.mem_append.mp hother with hother | hother
    · obtain ⟨step', hstep', hname⟩ := h other hother
      exact ⟨step', List.mem_append_left _ hstep', hname⟩
    · rw [List.mem_singleton.mp hother]
      exact ⟨step, by simp, hstep⟩

theorem Recorded.fanOut (h : Recorded s) (targets : List String) :
    Recorded (mergeSiblings env (runSiblings isAlphanumeric w env targets s) s) := by
  intro name hname
  rcases (mem_mergeSiblings_dispatched s _ name).mp hname with hname | ⟨sibling, hsibling, hname⟩
  · obtain ⟨step, hstep, hagent⟩ := h name hname
    exact ⟨step, (mergeSiblings_grows s _).trace hstep, hagent⟩
  · obtain ⟨clock, ht⟩ := runSiblings_taken hsibling
    have hafter : ∃ step ∈ sibling.after.trace, step.agent = name := by
      obtain ⟨target, result, after⟩ := sibling
      simp only at ht hname ⊢
      cases ht with
      | skipped hvisited | cancelled hfresh hcancel | unknown hfresh hagent
      | unresolved hfresh hagent hinput =>
        simp at hname
      | @ran step spec hfresh hagent hstep hinput =>
        have hsame : name = target := by simpa using hname
        exact ⟨step, by simp, by rw [hstep, hsame]⟩
    obtain ⟨step, hstep, hagent⟩ := hafter
    refine ⟨step, ?_, hagent⟩
    simp only [mergeSiblings, foldl_mergeSibling_trace]
    exact List.mem_append_right _ (List.mem_flatMap.mpr ⟨sibling, hsibling, hstep⟩)

theorem runWorkflow_recorded (input : String) :
    Recorded (runWorkflow isAlphanumeric w env input).2 := by
  have hrun := @runWorkflow_keeps isAlphanumeric w env (fun s s' => Recorded s → Recorded s')
    (fun _ h => h) (fun _ _ _ h₁ h₂ h => h₂ (h₁ h))
    (fun name s h => h.step (runStepOnly_taken name s)) (fun targets s h => h.fanOut targets) input
  exact hrun (by simp [Recorded, initialState])

/-- In a run that is not cancelled, in which every input resolves and no step fails without
an edge for it, the edges that are followed always and those that handle a failure lead to
steps that are dispatched. -/
theorem always_edges_followed {knownPeers : Option (List String)}
    (hvalid : w.validate isAlphanumeric knownPeers = .ok ())
    (hcancel : ∀ n, env.cancelled n = none) (input : String)
    (hresolves : ∀ start ∈ (runWorkflow isAlphanumeric w env input).2.started, ∀ spec,
      w.agents.get? start.agent = some spec →
        ∃ text, interpolate isAlphanumeric spec.input start.bindings = .ok text)
    (hhandled : ∀ step ∈ (runWorkflow isAlphanumeric w env input).2.trace,
      step.outcome.isFailed = true → ∃ e ∈ w.flow.edges, e.source = step.agent ∧
        (e.condition = .failure ∨ e.condition = .always)) :
    let s := (runWorkflow isAlphanumeric w env input).2
    (∀ name ∈ s.dispatched, ∀ e ∈ w.flow.edges, e.source = name → e.condition = .always →
        e.target ∈ s.dispatched) ∧
      ∀ step ∈ s.trace, step.outcome.isFailed = true → ∀ e ∈ w.flow.edges,
        e.source = step.agent → e.condition = .failure → e.target ∈ s.dispatched := by
  have hexplained := runWorkflow_explained (validate_ok hvalid) env input
  have hrecorded := @runWorkflow_recorded isAlphanumeric w env input
  revert hresolves hhandled hrecorded hexplained
  generalize runWorkflow isAlphanumeric w env input = followed
  intro hresolves hhandled hexplained hrecorded
  cases hexplained with
  | stopped hgrows hstuck =>
    exfalso
    rcases hstuck with ⟨n, reason, hreason⟩ | ⟨start, hstart, spec, missing, hagent, herror⟩ |
      ⟨step, hstep, hfailed, hnone⟩
    · rw [hcancel] at hreason
      cases hreason
    · obtain ⟨text, htext⟩ := hresolves start hstart spec hagent
      rw [htext] at herror
      cases herror
    · obtain ⟨e, he, hsource, hcondition⟩ := hhandled step hstep hfailed
      have hmem : e ∈ w.matching step.agent step.outcome := by
        refine List.mem_filter.mpr ⟨he, ?_⟩
        cases houtcome : step.outcome with
        | success => simp [houtcome, StepOutcome.isFailed] at hfailed
        | failed err =>
          rcases hcondition with hcondition | hcondition
          · simp [hsource, hcondition, matchesOutcome]
          · simp [hsource, hcondition, matchesOutcome]
      rw [hnone] at hmem
      cases hmem
  | @finished s hgrows hends =>
    have hsettled : Settled (initialState input) := by simp [Settled, initialState]
    have hclosed : ∀ step ∈ s.trace, ClosedAt w s step := by
      intro step hstep
      rcases (hends hsettled).1.closed step hstep with hold | hclosed
      · simp [initialState] at hold
      · exact hclosed
    refine ⟨?_, ?_⟩
    · intro name hname e he hsource hcondition
      obtain ⟨step, hstep, hagent⟩ := hrecorded name hname
      apply hclosed step hstep
      refine List.mem_filter.mpr ⟨he, ?_⟩
      cases step.outcome with
      | success | failed err => simp [hsource, hagent, hcondition, matchesOutcome]
    · intro step hstep hfailed e he hsource hcondition
      apply hclosed step hstep
      refine List.mem_filter.mpr ⟨he, ?_⟩
      cases houtcome : step.outcome with
      | success => simp [houtcome, StepOutcome.isFailed] at hfailed
      | failed err => simp [hsource, hcondition, matchesOutcome]

theorem fork_always_followed :
    let s := (runWorkflow Char.isAlphanum
      (fork [⟨"a", "b", .success⟩, ⟨"a", "c", .always⟩]) obliging "").2
    (∀ name ∈ s.dispatched, ∀ e ∈ (fork [⟨"a", "b", .success⟩, ⟨"a", "c", .always⟩]).flow.edges,
        e.source = name → e.condition = .always → e.target ∈ s.dispatched) ∧
      ∀ step ∈ s.trace, step.outcome.isFailed = true →
        ∀ e ∈ (fork [⟨"a", "b", .success⟩, ⟨"a", "c", .always⟩]).flow.edges,
          e.source = step.agent → e.condition = .failure → e.target ∈ s.dispatched := by
  have hvalid : (fork [⟨"a", "b", .success⟩, ⟨"a", "c", .always⟩]).validate
      Char.isAlphanum none = .ok () := by decide +kernel
  have hplain : ∀ a ∈ (fork [⟨"a", "b", .success⟩, ⟨"a", "c", .always⟩]).agents.entries,
      extractVars Char.isAlphanum a.2.input = [] := by decide +kernel
  refine always_edges_followed hvalid (fun _ => rfl) "" ?_ ?_
  · intro start _ spec hspec
    apply interpolate_ok
    rw [hplain (start.agent, spec) (BTreeMap.mem_entries.mpr hspec)]
    simp
  · have hnone : ∀ step ∈ (runWorkflow Char.isAlphanum
        (fork [⟨"a", "b", .success⟩, ⟨"a", "c", .always⟩]) obliging "").2.trace,
        step.outcome.isFailed = false := by decide +kernel
    intro step hstep hfailed
    rw [hnone step hstep] at hfailed
    cases hfailed

def failingSecond : Environment where
  cancelled _ := none
  dispatch n peer method _ := if n = 1 then .error ⟨peer, method, "unreachable"⟩ else .ok "done"
  interleave _ l := l
  interleave_perm _ l := List.Perm.refl l

/-- A failure downstream of the edge before it leaves the edge that is always followed. -/
theorem cleanup_not_run :
    (fork [⟨"a", "b", .success⟩, ⟨"a", "c", .always⟩]).validate Char.isAlphanum none = .ok () ∧
      "a" ∈ (runWorkflow Char.isAlphanum (fork [⟨"a", "b", .success⟩, ⟨"a", "c", .always⟩])
        failingSecond "").2.dispatched ∧
      "c" ∉ (runWorkflow Char.isAlphanum (fork [⟨"a", "b", .success⟩, ⟨"a", "c", .always⟩])
        failingSecond "").2.dispatched := by
  decide +kernel

end Workflow

end Relux
