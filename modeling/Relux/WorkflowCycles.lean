import Relux.WorkflowValidator

/-! What the validator decides: its search for cycles finds one exactly when there is one to be
come to, and a step is seen to have all outputs upstream of it. -/

namespace Relux

namespace Workflow

variable {w : Workflow}

def Forward (w : Workflow) (a b : String) : Prop :=
  ∃ e ∈ w.flow.edges, e.source = a ∧ e.target = b ∧ e.condition ≠ .failure

def Acyclic (w : Workflow) : Prop :=
  ∀ name, Relation.ReflTransGen w.Forward w.flow.start name →
    ¬ Relation.TransGen w.Forward name name

variable {current : String}

theorem mem_forwardEdges {e : Edge} :
    e ∈ w.forwardEdges current ↔
      e ∈ w.flow.edges ∧ e.source = current ∧ e.condition ≠ .failure := by
  simp [forwardEdges]

variable {a b : String}

theorem forward_iff : w.Forward a b ↔ ∃ e ∈ w.forwardEdges a, e.target = b := by
  constructor
  · rintro ⟨e, he, hsource, htarget, hcond⟩
    exact ⟨e, mem_forwardEdges.mpr ⟨he, hsource, hcond⟩, htarget⟩
  · rintro ⟨e, he, htarget⟩
    obtain ⟨he, hsource, hcond⟩ := mem_forwardEdges.mp he
    exact ⟨e, he, hsource, htarget, hcond⟩

inductive Finished (w : Workflow) : Finset String → Prop
  | empty : Finished w ∅
  | insert {name : String} {before : Finset String} : Finished w before → name ∉ before →
      (∀ next, w.Forward name next → next ∈ before) → Finished w (insert name before)

variable {visited : Finset String}

theorem Finished.closed (h : Finished w visited) (ha : a ∈ visited) (hab : w.Forward a b) :
    b ∈ visited := by
  induction h with
  | empty => simp at ha
  | @insert name before _ _ hnext ih =>
    rcases Finset.mem_insert.mp ha with rfl | ha
    · exact Finset.mem_insert_of_mem (hnext b hab)
    · exact Finset.mem_insert_of_mem (ih ha)

theorem Finished.closed_path (h : Finished w visited) (ha : a ∈ visited)
    (hab : Relation.ReflTransGen w.Forward a b) : b ∈ visited := by
  induction hab with
  | refl => exact ha
  | tail _ hstep ih => exact h.closed ih hstep

theorem Finished.acyclic (h : Finished w visited) (ha : a ∈ visited) :
    ¬ Relation.TransGen w.Forward a a := by
  induction h with
  | empty => simp at ha
  | @insert name before hbefore hfresh hnext ih =>
    rcases Finset.mem_insert.mp ha with rfl | ha
    · intro hcycle
      obtain ⟨next, hstep, hback⟩ := Relation.TransGen.head'_iff.mp hcycle
      exact hfresh (hbefore.closed_path (hnext next hstep) hback)
    · exact ih ha

structure Explored (w : Workflow) (s s' : CycleSearch) : Prop where
  stack : s'.onStack = s.onStack
  visited : s.visited ⊆ s'.visited
  finished : Finished w s'.visited
  disjoint : Disjoint s'.onStack s'.visited

variable {s s' : CycleSearch} {search : String → CycleSearch → CycleResult} {edges : List Edge}

theorem searchAll_explored
    (hsearch : ∀ e ∈ edges, ∀ s s', Finished w s.visited → Disjoint s.onStack s.visited →
      search e.target s = some (.ok s') → Explored w s s' ∧ e.target ∈ s'.visited)
    (hfinished : Finished w s.visited) (hdisjoint : Disjoint s.onStack s.visited)
    (h : searchAll search edges s = some (.ok s')) :
    Explored w s s' ∧ ∀ e ∈ edges, e.target ∈ s'.visited := by
  induction edges generalizing s with
  | nil =>
    cases h
    exact ⟨⟨rfl, Finset.Subset.refl _, hfinished, hdisjoint⟩, by simp⟩
  | cons e edges ih =>
    obtain ⟨s₁, hfirst, hrest⟩ := searchAll_ok h
    obtain ⟨hexplored, htarget⟩ := hsearch e List.mem_cons_self s s₁ hfinished hdisjoint hfirst
    obtain ⟨hrest, htargets⟩ := ih (fun e' he' => hsearch e' (List.mem_cons_of_mem e he'))
      hexplored.finished hexplored.disjoint hrest
    refine ⟨⟨hrest.stack.trans hexplored.stack,
      hexplored.visited.trans hrest.visited, hrest.finished, hrest.disjoint⟩, ?_⟩
    intro e' he'
    rcases List.mem_cons.mp he' with rfl | he'
    · exact hrest.visited htarget
    · exact htargets e' he'

variable {fuel : Nat}

theorem dfsCycle_explored (hfinished : Finished w s.visited)
    (hdisjoint : Disjoint s.onStack s.visited) (h : w.dfsCycle fuel current s = some (.ok s')) :
    Explored w s s' ∧ current ∈ s'.visited := by
  induction fuel generalizing current s s' with
  | zero => cases h
  | succ fuel ih =>
    have hstacks := dfsCycle_stack h
    obtain ⟨hstack, ⟨hvisited, rfl⟩ | ⟨hvisited, s₁, hsearch, rfl⟩⟩ := dfsCycle_ok h
    · exact ⟨⟨rfl, Finset.Subset.refl _, hfinished, hdisjoint⟩, hvisited⟩
    · obtain ⟨hexplored, htargets⟩ := searchAll_explored
        (s := ⟨s.path ++ [current], insert current s.onStack, s.visited⟩)
        (fun e _ t t' ht htd hok => ih ht htd hok) hfinished
        (Finset.disjoint_insert_left.mpr ⟨hvisited, hdisjoint⟩) hsearch
      have hfresh : current ∉ s₁.visited := by
        have hmem : current ∈ s₁.onStack := by
          rw [hexplored.stack]
          exact Finset.mem_insert_self _ _
        exact Finset.disjoint_left.mp hexplored.disjoint hmem
      refine ⟨⟨hstacks, ?_, ?_, ?_⟩, Finset.mem_insert_self _ _⟩
      · exact hexplored.visited.trans (Finset.subset_insert _ _)
      · apply hexplored.finished.insert hfresh
        intro next hnext
        obtain ⟨e, he, rfl⟩ := forward_iff.mp hnext
        exact htargets e he
      · show Disjoint (s₁.onStack.erase current) (insert current s₁.visited)
        apply Finset.disjoint_insert_right.mpr
        refine ⟨by simp, ?_⟩
        exact hexplored.disjoint.mono_left (Finset.erase_subset _ _)

variable {cycle : WorkflowError}

theorem searchAll_error (stack : Finset String) (hstack : s.onStack = stack)
    (hkeeps : ∀ e ∈ edges, ∀ s s', s.onStack = stack → search e.target s = some (.ok s') →
      s'.onStack = stack)
    (h : searchAll search edges s = some (.error cycle)) :
    ∃ e ∈ edges, ∃ s₁ : CycleSearch, s₁.onStack = stack ∧
      search e.target s₁ = some (.error cycle) := by
  induction edges generalizing s with
  | nil => cases h
  | cons e edges ih =>
    cases hfirst : search e.target s with
    | none => simp [searchAll, hfirst] at h
    | some result =>
      cases result with
      | error cycle' =>
        simp only [searchAll, hfirst, Option.some.injEq, Except.error.injEq] at h
        rw [h] at hfirst
        exact ⟨e, List.mem_cons_self, s, hstack, hfirst⟩
      | ok s₁ =>
        simp only [searchAll, hfirst] at h
        have hstack₁ := hkeeps e List.mem_cons_self s s₁ hstack hfirst
        obtain ⟨e', he', hrest⟩ :=
          ih hstack₁ (fun e' he' => hkeeps e' (List.mem_cons_of_mem e he')) h
        exact ⟨e', List.mem_cons_of_mem e he', hrest⟩

theorem dfsCycle_error (hpath : ∀ name ∈ s.onStack, Relation.TransGen w.Forward name current)
    (h : w.dfsCycle fuel current s = some (.error cycle)) :
    ∃ name, Relation.ReflTransGen w.Forward current name ∧
      Relation.TransGen w.Forward name name := by
  induction fuel generalizing current s cycle with
  | zero => cases h
  | succ fuel ih =>
    by_cases hstack : current ∈ s.onStack
    · exact ⟨current, .refl, hpath current hstack⟩
    · by_cases hvisited : current ∈ s.visited
      · simp [dfsCycle, hstack, hvisited] at h
      · let entered : CycleSearch :=
          { s with onStack := insert current s.onStack, path := s.path ++ [current] }
        simp only [dfsCycle, if_neg hstack, if_neg hvisited] at h
        cases hsearch : searchAll (w.dfsCycle fuel) (w.forwardEdges current) entered with
        | none => simp [entered, hsearch] at h
        | some result =>
          cases result with
          | ok s₁ => simp [entered, hsearch] at h
          | error cycle' =>
            obtain ⟨e, he, s₁, hon, herror⟩ := searchAll_error
              (insert current s.onStack) rfl
              (fun e _ t t' ht hok => (dfsCycle_stack hok).trans ht) hsearch
            have hstep : w.Forward current e.target := forward_iff.mpr ⟨e, he, rfl⟩
            have hpath' : ∀ name ∈ s₁.onStack, Relation.TransGen w.Forward name e.target := by
              intro name hname
              rw [hon] at hname
              rcases Finset.mem_insert.mp hname with rfl | hname
              · exact .single hstep
              · exact (hpath name hname).tail hstep
            obtain ⟨name, hreach, hcycle⟩ := ih hpath' herror
            exact ⟨name, hreach.head hstep, hcycle⟩

theorem detectSuccessCycle_ok_iff (w : Workflow) :
    (∃ s, w.detectSuccessCycle = .ok s) ↔ w.Acyclic := by
  have hrun : w.dfsCycle (w.flow.edges.length + 2) w.flow.start ⟨[], ∅, ∅⟩ =
      some w.detectSuccessCycle := (Option.some_get cycleFuel_enough).symm
  constructor
  · rintro ⟨s, hs⟩ name hreach
    rw [hs] at hrun
    obtain ⟨hexplored, hstart⟩ := dfsCycle_explored Finished.empty (by simp) hrun
    exact hexplored.finished.acyclic (hexplored.finished.closed_path hstart hreach)
  · intro hacyclic
    cases hs : w.detectSuccessCycle with
    | ok s => exact ⟨s, rfl⟩
    | error cycle =>
      rw [hs] at hrun
      obtain ⟨name, hreach, hcycle⟩ := dfsCycle_error (by simp) hrun
      exact absurd hcycle (hacyclic name hreach)

variable (child : Finset String)

theorem showTo_subset (v : Visibility) (e : Edge) (name : String) :
    seenBy v.1 name ⊆ seenBy (showTo child v e).1 name := by
  rw [showTo_seen]
  by_cases h : name = e.target
  · rw [if_pos h]
    exact Finset.subset_union_left
  · rw [if_neg h]

variable {name : String}

theorem showTo_queued (v : Visibility) (e : Edge)
    (h : seenBy (showTo child v e).1 name ≠ seenBy v.1 name) :
    name ∈ (showTo child v e).2 := by
  rw [showTo_seen] at h
  by_cases hname : name = e.target
  · rw [if_pos hname, hname] at h
    have hgrown : (seenBy v.1 e.target).card < (seenBy v.1 e.target ∪ child).card := by
      apply Finset.card_lt_card
      exact lt_of_le_of_ne Finset.subset_union_left (Ne.symm h)
    simp only [showTo, if_pos hgrown, hname]
    simp
  · rw [if_neg hname] at h
    exact absurd rfl h

theorem showTo_keeps (v : Visibility) (e : Edge)
    (h : name ∈ v.2) : name ∈ (showTo child v e).2 := by
  by_cases hgrown : (seenBy v.1 e.target).card < (seenBy v.1 e.target ∪ child).card
  · simp only [showTo, if_pos hgrown]
    exact List.mem_append_left _ h
  · simp only [showTo, if_neg hgrown]
    exact h

structure ShownTo (child : Finset String) (edges : List Edge) (v v' : Visibility) : Prop where
  subset : ∀ name, seenBy v.1 name ⊆ seenBy v'.1 name
  shown : ∀ e ∈ edges, child ⊆ seenBy v'.1 e.target
  queued : ∀ name, seenBy v'.1 name ≠ seenBy v.1 name → name ∈ v'.2
  keeps : ∀ name ∈ v.2, name ∈ v'.2

theorem foldl_showTo_shown (edges : List Edge) (v : Visibility) :
    ShownTo child edges v (edges.foldl (showTo child) v) := by
  induction edges generalizing v with
  | nil => exact ⟨fun _ => Finset.Subset.refl _, by simp, fun _ h => absurd rfl h, fun _ h => h⟩
  | cons e edges ih =>
    have hrest := ih (showTo child v e)
    refine ⟨?_, ?_, ?_, ?_⟩
    · intro name
      exact (showTo_subset child v e name).trans (hrest.subset name)
    · intro e' he'
      rcases List.mem_cons.mp he' with rfl | he'
      · have hfirst : child ⊆ seenBy (showTo child v e').1 e'.target := by
          rw [showTo_seen, if_pos rfl]
          exact Finset.subset_union_right
        exact hfirst.trans (hrest.subset e'.target)
      · exact hrest.shown e' he'
    · intro name hname
      by_cases hmore : seenBy (showTo child v e).1 name = seenBy v.1 name
      · apply hrest.queued
        rw [hmore]
        exact hname
      · exact hrest.keeps name (showTo_queued child v e hmore)
    · intro name hname
      exact hrest.keeps name (showTo_keeps child v e hname)

def ownOutput (w : Workflow) (name : String) : Finset String :=
  ((w.agents.get? name).map AgentSpec.output).toFinset

/-- A step that has been come to, and does not stand in the queue, has shown all it sees
along its edges. -/
def Settles (w : Workflow) (visibility : HashMap String (Finset String))
    (queue : List String) : Prop :=
  ∀ name, name = w.flow.start ∨ (seenBy visibility name).Nonempty →
    name ∈ queue ∨ ∀ e ∈ w.flow.edges, e.source = name →
      seenBy visibility name ∪ w.ownOutput name ⊆ seenBy visibility e.target

theorem visibilityStep_shown (visibility : HashMap String (Finset String)) (current : String)
    (queue : List String) :
    ShownTo (seenBy visibility current ∪ w.ownOutput current)
      (w.flow.edges.filter (fun e => e.source = current)) (visibility, queue)
      (w.visibilityStep visibility current queue) := by
  have hsplit : w.visibilityStep visibility current queue =
      (w.flow.edges.filter (fun e => e.source = current ∧ e.condition ≠ .failure) ++
        w.flow.edges.filter (fun e => e.source = current ∧ e.condition = .failure)).foldl
          (showTo (seenBy visibility current ∪ w.ownOutput current)) (visibility, queue) := by
    rw [List.foldl_append]
    rfl
  rw [hsplit]
  have hall := foldl_showTo_shown (seenBy visibility current ∪ w.ownOutput current)
    (w.flow.edges.filter (fun e => e.source = current ∧ e.condition ≠ .failure) ++
      w.flow.edges.filter (fun e => e.source = current ∧ e.condition = .failure))
    (visibility, queue)
  refine ⟨hall.subset, ?_, hall.queued, hall.keeps⟩
  intro e he
  apply hall.shown
  obtain ⟨he, hsource⟩ := List.mem_filter.mp he
  have hcurrent : e.source = current := by simpa using hsource
  by_cases hcond : e.condition = .failure
  · exact List.mem_append_right _ (List.mem_filter.mpr ⟨he, by simp [hcurrent, hcond]⟩)
  · exact List.mem_append_left _ (List.mem_filter.mpr ⟨he, by simp [hcurrent, hcond]⟩)

variable {queue : List String}

theorem visibilityStep_settles {visibility : HashMap String (Finset String)}
    (h : w.Settles visibility (current :: queue)) :
    w.Settles (w.visibilityStep visibility current queue).1
      (w.visibilityStep visibility current queue).2 := by
  have hshown := visibilityStep_shown (w := w) visibility current queue
  intro name hname
  by_cases hsame : seenBy (w.visibilityStep visibility current queue).1 name =
      seenBy visibility name
  · by_cases hcurrent : name = current
    · right
      intro e he hsource
      rw [hsame, hcurrent]
      apply hshown.shown
      exact List.mem_filter.mpr ⟨he, by simp [hsource, hcurrent]⟩
    · rw [hsame] at hname
      rcases h name hname with hqueue | hdone
      · rcases List.mem_cons.mp hqueue with hfirst | hqueue
        · exact absurd hfirst hcurrent
        · exact Or.inl (hshown.keeps name hqueue)
      · right
        intro e he hsource
        rw [hsame]
        exact (hdone e he hsource).trans (hshown.subset e.target)
  · exact Or.inl (hshown.queued name hsame)

theorem visibilityLoop_settles {visibility result : HashMap String (Finset String)}
    (hv : w.Settles visibility queue)
    (h : w.visibilityLoop fuel (visibility, queue) = some result) : w.Settles result [] :=
  visibilityLoop_keeps (fun _ _ _ hv => visibilityStep_settles hv) hv h

theorem computeVisibility_settles (w : Workflow) : w.Settles w.computeVisibility [] := by
  have hloop : w.visibilityLoop w.visibilityFuel
      (HashMap.empty.insert w.flow.start ∅, [w.flow.start]) = some w.computeVisibility :=
    (Option.some_get visibilityFuel_enough).symm
  refine visibilityLoop_settles ?_ hloop
  intro name hname
  left
  rcases hname with rfl | hname
  · exact List.mem_singleton.mpr rfl
  · by_cases hstart : name = w.flow.start
    · exact List.mem_singleton.mpr hstart
    · rw [seenBy_insert, if_neg hstart] at hname
      simp [seenBy] at hname

theorem computeVisibility_iff (hsource : ∀ e ∈ w.flow.edges,
      ∃ spec, w.agents.get? e.source = some spec) (name output : String) :
    output ∈ seenBy w.computeVisibility name ↔ w.Upstream name output := by
  refine ⟨computeVisibility_upstream, ?_⟩
  have hsettles := computeVisibility_settles w
  have hedge : ∀ a b, w.Leads a b →
      (a = w.flow.start ∨ (seenBy w.computeVisibility a).Nonempty) →
      seenBy w.computeVisibility a ∪ w.ownOutput a ⊆ seenBy w.computeVisibility b := by
    rintro a b ⟨e, he, rfl, rfl⟩ hcome
    exact (hsettles e.source hcome).resolve_left (by simp) e he rfl
  have hown : ∀ a b, w.Leads a b → (w.ownOutput a).Nonempty := by
    rintro a b ⟨e, he, rfl, rfl⟩
    obtain ⟨spec, hspec⟩ := hsource e he
    exact ⟨spec.output, by simp [ownOutput, hspec]⟩
  have hcome : ∀ a, Relation.ReflTransGen w.Leads w.flow.start a →
      a = w.flow.start ∨ (seenBy w.computeVisibility a).Nonempty := by
    intro a hreach
    induction hreach with
    | refl => exact Or.inl rfl
    | @tail b c _ hstep ih =>
      right
      obtain ⟨o, ho⟩ := hown b c hstep
      exact ⟨o, hedge b c hstep ih (Finset.mem_union_right _ ho)⟩
  rintro ⟨up, spec, hup, houtput, hreach, hpath⟩
  have hfirst : output ∈ w.ownOutput up := by simp [ownOutput, hup, houtput]
  induction hpath with
  | @single b hstep => exact hedge up b hstep (hcome up hreach) (Finset.mem_union_right _ hfirst)
  | @tail b c hpre hstep ih =>
    have hb := hreach.trans hpre.to_reflTransGen
    exact hedge b c hstep (hcome b hb) (Finset.mem_union_left _ ih)

theorem forM_ok_iff {α ε : Type} {f : α → Except ε Unit} {l : List α} :
    l.forM f = .ok () ↔ ∀ a ∈ l, f a = .ok () := by
  refine ⟨forM_ok, ?_⟩
  intro h
  induction l with
  | nil => rfl
  | cons a l ih =>
    have hhead := h a List.mem_cons_self
    have htail := ih (fun b hb => h b (List.mem_cons_of_mem a hb))
    show (f a >>= fun _ => l.forM f) = .ok ()
    rw [hhead]
    exact htail

theorem validate_ok_iff {isAlphanumeric : Char → Bool} :
    w.validate isAlphanumeric none = .ok () ↔
      Validated isAlphanumeric w ∧ w.checkResult isAlphanumeric = .ok () ∧ w.Acyclic := by
  constructor
  · intro h
    have hvalidated := validate_ok h
    obtain ⟨⟨⟩, _, h⟩ := bind_ok h
    obtain ⟨⟨⟩, _, h⟩ := bind_ok h
    obtain ⟨⟨⟩, _, h⟩ := bind_ok h
    obtain ⟨⟨⟩, _, h⟩ := bind_ok h
    obtain ⟨⟨⟩, _, h⟩ := bind_ok h
    obtain ⟨⟨⟩, hresult, h⟩ := bind_ok h
    obtain ⟨s, hs, _⟩ := bind_ok h
    exact ⟨hvalidated, hresult, (detectSuccessCycle_ok_iff w).mp ⟨s, hs⟩⟩
  · rintro ⟨hvalidated, hresult, hacyclic⟩
    obtain ⟨s, hs⟩ := (detectSuccessCycle_ok_iff w).mpr hacyclic
    have hedges := forM_ok_iff.mpr hvalidated.edges
    have hinputs := forM_ok_iff.mpr hvalidated.inputs
    simp only [validate, hvalidated.start, hedges, checkPeers, hvalidated.outputs, hinputs,
      hresult, hs]
    rfl

end Workflow

end Relux
