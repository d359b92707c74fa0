import Relux.SafeApplySteps

/-! A whole apply: which places it can change, and what it leaves at the targets when no step
fails. -/

namespace Relux

namespace SafeApply

variable {host : ApplyHost} {root : ProjectRoot} {artifacts : List RunArtifact}

def inOrder (artifacts : List RunArtifact) : List RunArtifact :=
  artifacts.mergeSort (fun a b => decide (a.relPath ≤ b.relPath))

variable {art : RunArtifact}

theorem mem_inOrder : art ∈ inOrder artifacts ↔ art ∈ artifacts := List.mem_mergeSort

structure IsItem (art : RunArtifact) (item : ApplyPlanItem) : Prop where
  relPath : item.relPath = art.relPath
  canApply : item.action ≠ .refuse → item.canApply = true

theorem planItem_isItem {action : ApplyAction} {canApply conflict : Bool}
    {reason : String} {size : Nat} {exist : Bool} (h : action ≠ .refuse → canApply = true) :
    IsItem art (planItem art action canApply conflict reason size exist) := ⟨rfl, h⟩

theorem planCreated_isItem (art : RunArtifact) (size : Nat) (isFile exist : Bool)
    (hash : Option String) : IsItem art (planCreated art size isFile exist hash) := by
  unfold planCreated
  split_ifs <;> exact planItem_isItem (by simp)

theorem planModified_isItem (art : RunArtifact) (size : Nat) (isFile exist : Bool)
    (hash : Option String) : IsItem art (planModified art size isFile exist hash) := by
  cases hrecorded : art.hash with
  | none =>
    simp only [planModified, hrecorded]
    split_ifs <;> exact planItem_isItem (by simp)
  | some srcHash =>
    cases hash with
    | none =>
      simp only [planModified, hrecorded]
      split_ifs <;> exact planItem_isItem (by simp)
    | some tgtHash =>
      simp only [planModified, hrecorded]
      split_ifs <;> exact planItem_isItem (by simp)

theorem planDeleted_isItem (art : RunArtifact) (exist : Bool) (hash : Option String) :
    IsItem art (planDeleted art exist hash) := by
  cases hash with
  | none =>
    simp only [planDeleted]
    split_ifs <;> exact planItem_isItem (by simp)
  | some tgtHash =>
    simp only [planDeleted]
    split_ifs <;> exact planItem_isItem (by simp)

theorem planOne_isItem (host : ApplyHost) (root : ProjectRoot) (art : RunArtifact) :
    IsItem art (planOne host root art) := by
  cases htarget : resolveTarget root art.relPath with
  | error e =>
    simp only [planOne, htarget]
    split_ifs <;> exact planItem_isItem (by simp)
  | ok target =>
    simp only [planOne, htarget]
    split_ifs
    · exact planItem_isItem (by simp)
    · exact planItem_isItem (by simp)
    · exact planCreated_isItem _ _ _ _ _
    · exact planModified_isItem _ _ _ _ _
    · exact planDeleted_isItem _ _ _
    · exact planItem_isItem (by simp)

theorem planOne_relPath (host : ApplyHost) (root : ProjectRoot) (art : RunArtifact) :
    (planOne host root art).relPath = art.relPath := (planOne_isItem host root art).relPath

theorem planItems_eq (host : ApplyHost) (root : ProjectRoot) (artifacts : List RunArtifact) :
    planItems host root artifacts = (inOrder artifacts).map (planOne host root) := by
  symm
  apply List.map_mergeSort
  intro a _ b _
  rw [planOne_relPath, planOne_relPath]

def step (host : ApplyHost) (root : ProjectRoot) (artifacts : List RunArtifact) (s : Progress)
    (art : RunArtifact) : Progress :=
  applyItem host artifacts s (planOne host root art)

def run (host : ApplyHost) (root : ProjectRoot) (artifacts : List RunArtifact) : Progress :=
  (inOrder artifacts).foldl (step host root artifacts) ⟨root, 0, 0, []⟩

def Applicable (host : ApplyHost) (root : ProjectRoot) (artifacts : List RunArtifact) : Prop :=
  ∀ art ∈ artifacts, (planOne host root art).canApply = true

theorem planItems_canApply : (planItems host root artifacts).all ApplyPlanItem.canApply = true ↔
    Applicable host root artifacts := by
  rw [planItems_eq, List.all_map, List.all_eq_true]
  constructor
  · intro h art hart
    exact h art (mem_inOrder.mpr hart)
  · intro h art hart
    exact h art (mem_inOrder.mp hart)

variable {name : String}

theorem buildApplyPlan_ok (root : ProjectRoot) (artifacts : List RunArtifact)
    (h : host.validateProjectRoot = .ok name) :
    ∃ plan, buildApplyPlan host root artifacts = .ok plan ∧
      plan.items = planItems host root artifacts ∧
      plan.applicable = (planItems host root artifacts).all ApplyPlanItem.canApply := by
  simp only [buildApplyPlan, h, Except.ok.injEq]
  exact ⟨_, rfl, rfl, rfl⟩

theorem applyRun_error (root : ProjectRoot) (artifacts : List RunArtifact) {e : String}
    (h : host.validateProjectRoot = .error e) :
    applyRun host root artifacts = (.error e, root) := by
  simp only [applyRun, buildApplyPlan, h]

theorem applyRun_cases (h : host.validateProjectRoot = .ok name)
    (root : ProjectRoot) (artifacts : List RunArtifact) :
    ∃ plan, plan.items = planItems host root artifacts ∧
      ((¬ Applicable host root artifacts ∧
          applyRun host root artifacts = (.ok ⟨plan, .conflicted, 0, 0, []⟩, root)) ∨
        (Applicable host root artifacts ∧ applyRun host root artifacts =
          (.ok ⟨plan, if 0 < (run host root artifacts).failed then .failed else .applied,
            (run host root artifacts).applied, (run host root artifacts).failed,
            (run host root artifacts).errors⟩, (run host root artifacts).root))) := by
  obtain ⟨plan, hbuild, hitems, happlicable⟩ := buildApplyPlan_ok root artifacts h
  refine ⟨plan, hitems, ?_⟩
  by_cases happly : Applicable host root artifacts
  · right
    have hall : plan.applicable = true := happlicable.trans (planItems_canApply.mpr happly)
    refine ⟨happly, ?_⟩
    simp only [applyRun, hbuild, hall, Bool.not_true, Bool.false_eq_true, if_false]
    rw [hitems, planItems_eq, List.foldl_map]
    rfl
  · left
    have hall : plan.applicable = false := by
      rw [happlicable]
      exact Bool.eq_false_iff.mpr (fun hall => happly (planItems_canApply.mp hall))
    refine ⟨happly, ?_⟩
    simp only [applyRun, hbuild, hall, Bool.not_false, if_true]

variable {q : Path}

theorem grown_none {par : Path} (h : grown root par q = none) : root.node q = none := by
  by_cases hq : q <+: par ∧ root.node q = none
  · exact hq.2
  · rwa [grown, if_neg hq] at h

variable {s : Progress}

theorem applyItem_none {item : ApplyPlanItem}
    (h : (applyItem host artifacts s item).root.node q = none) :
    s.root.node q = none ∨ item.action = .delete ∧ components item.relPath = q := by
  have hwrite : (applyWrite host artifacts s item).root.node q = none →
      s.root.node q = none := by
    intro hnone
    rcases applyWrite_cases host artifacts s item with ⟨_, hsame⟩ | hfailed | ⟨bytes, hdone⟩
    · rwa [hsame] at hnone
    · by_cases hbefore : s.root.node q = none
      · exact hbefore
      · rw [hfailed.keeps q hbefore] at hnone
        exact hnone
    · rw [hdone.node q] at hnone
      by_cases hq : q = components item.relPath
      · rw [if_pos hq] at hnone
        cases hnone
      · rw [if_neg hq] at hnone
        exact grown_none hnone
  cases haction : item.action with
  | noop =>
    simp only [applyItem, haction] at h
    exact Or.inl h
  | refuse =>
    simp only [applyItem, haction] at h
    exact Or.inl h
  | create =>
    simp only [applyItem, haction] at h
    exact Or.inl (hwrite h)
  | overwrite =>
    simp only [applyItem, haction] at h
    exact Or.inl (hwrite h)
  | delete =>
    simp only [applyItem, haction] at h
    rcases applyDelete_cases host s item with hfailed | ⟨_, _, hnode⟩
    · by_cases hbefore : s.root.node q = none
      · exact Or.inl hbefore
      · rw [hfailed.keeps q hbefore] at h
        exact Or.inl h
    · by_cases hq : q = components item.relPath
      · exact Or.inr ⟨rfl, hq.symm⟩
      · rw [hnode, Function.update_of_ne hq] at h
        exact Or.inl h

theorem foldl_step_none {done : List RunArtifact}
    (h : (done.foldl (step host root artifacts) s).root.node q = none) :
    s.root.node q = none ∨ ∃ art ∈ done, (planOne host root art).action = .delete ∧
      components art.relPath = q := by
  induction done generalizing s with
  | nil => exact Or.inl h
  | cons art done ih =>
    rcases ih h with hnone | ⟨art', hart', hdelete⟩
    · rcases applyItem_none hnone with hbefore | ⟨haction, htarget⟩
      · exact Or.inl hbefore
      · rw [planOne_relPath] at htarget
        exact Or.inr ⟨art, List.mem_cons_self, haction, htarget⟩
    · exact Or.inr ⟨art', List.mem_cons_of_mem art hart', hdelete⟩

theorem applyRun_deletes (hbefore : root.node q ≠ none)
    (hafter : (applyRun host root artifacts).2.node q = none) :
    ∃ art ∈ artifacts, art.kind = "deleted" ∧ components art.relPath = q := by
  cases hroot : host.validateProjectRoot with
  | error e =>
    rw [applyRun_error root artifacts hroot] at hafter
    exact absurd hafter hbefore
  | ok name =>
    obtain ⟨plan, _, hcases⟩ := applyRun_cases hroot root artifacts
    rcases hcases with ⟨_, hrun⟩ | ⟨happly, hrun⟩
    · rw [hrun] at hafter
      exact absurd hafter hbefore
    · rw [hrun] at hafter
      rcases foldl_step_none hafter with hnone | ⟨art, hart, haction, htarget⟩
      · exact absurd hnone hbefore
      · have hmem : art ∈ artifacts := mem_inOrder.mp hart
        have hcan := planOne_canApply (happly art hmem)
        have hplanned := hcan.planned
        rw [haction] at hplanned
        refine ⟨art, hmem, ?_, htarget⟩
        cases hplanned with
        | delete hkind _ => exact hkind
        | write action haction' =>
          rcases haction' with h | h
          · cases h
          · cases h

end SafeApply

end Relux
