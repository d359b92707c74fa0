import Relux.OrgChart

/-! Both trees along a whole run. Neither has a cycle, and a branch is what is below its
manager, exactly while no task is moved under one too far below it for the walk to see it
and no agent comes to have a Line longer than the walk. -/

namespace Relux

open Forest (upN Acyclic Bounded)
open Transition (Guarded)

structure KernelState.Staffed (s : KernelState) : Prop where
  keyed : s.CrewKeyed
  lead : ∀ a l, s.post a = some (some l) → s.post l ≠ none

variable {lead : Option AgentId}

namespace KernelState.Staffed

variable {s s' : KernelState} {a : AgentId}

theorem reportsTo_known (h : s.Staffed) {l : AgentId} (hl : s.reportsTo a = some l) :
    s.post l ≠ none := by
  rw [reportsTo_eq] at hl
  cases hp : s.post a with
  | none => simp [hp] at hl
  | some lead =>
    rw [hp, Option.bind_some, id] at hl
    subst hl
    exact h.lead a l hp

variable {n : Nat} {b : AgentId}

theorem upN_known (h : s.Staffed) (ha : s.post a ≠ none)
    (hup : upN s.reportsTo n a = some b) : s.post b ≠ none := by
  induction n generalizing a with
  | zero =>
    cases hup
    exact ha
  | succ n ih =>
    cases hl : s.reportsTo a with
    | none => simp [Forest.upN, hl] at hup
    | some l => exact ih (h.reportsTo_known hl) ((Forest.upN_succ hl).symm.trans hup)

theorem height_of_unknown (h : s.Staffed) (hb : s.post b = none)
    (hup : upN s.reportsTo n a = some b) : n = 0 := by
  cases n with
  | zero => rfl
  | succ n =>
    cases hl : s.reportsTo a with
    | none => simp [Forest.upN, hl] at hup
    | some l =>
      rw [Forest.upN_succ hl] at hup
      exact absurd hb (h.upN_known (h.reportsTo_known hl) hup)

theorem keep (h : s.Staffed) (hstep : KeepsLeads s s') : s'.Staffed := by
  refine ⟨hstep.keyed h.keyed, ?_⟩
  rw [hstep.post]
  exact h.lead

variable {id : AgentId}

theorem update (h : s.Staffed) (hk : s'.CrewKeyed)
    (hpost : s'.post = Function.update s.post id (some lead))
    (hlead : ∀ l, lead = some l → s.post l ≠ none) : s'.Staffed := by
  have known : ∀ l, s.post l ≠ none → s'.post l ≠ none := by
    intro l hl
    rw [hpost, Function.update_apply]
    split
    · exact Option.some_ne_none _
    · exact hl
  refine ⟨hk, fun a l ha => ?_⟩
  rw [hpost, Function.update_apply] at ha
  split at ha
  · cases ha
    exact known l (hlead l rfl)
  · exact known l (h.lead a l ha)

theorem hire (h : s.Staffed) {adapterPlugin : PluginId}
    (hstep : PostStep s s' (Hires s id adapterPlugin lead)
      (Function.update s.post id (some lead))) : s'.Staffed := by
  by_cases haccepted : Hires s id adapterPlugin lead
  · exact h.update (hstep.keyed h.keyed) (hstep.done haccepted)
      (fun l hl => (haccepted.2.2 l hl).2)
  · exact h.keep ⟨hstep.refused haccepted, hstep.keyed⟩

theorem edit (h : s.Staffed) {e : AgentEdit}
    (hstep : PostStep s s' (Edits s id e) (s.postWith id e.reportsTo)) : s'.Staffed := by
  by_cases haccepted : Edits s id e
  · have hpost := hstep.done haccepted
    have hcheck := haccepted.2.2
    cases hlead : e.reportsTo with
    | none =>
      rw [hlead] at hpost
      exact h.keep ⟨hpost, hstep.keyed⟩
    | some lead =>
      rw [hlead] at hpost
      refine h.update (hstep.keyed h.keyed) hpost (fun l hl => ?_)
      rw [hl] at hlead
      exact (checkNewLead_ok.mp (hcheck l hlead)).1.2
  · exact h.keep ⟨hstep.refused haccepted, hstep.keyed⟩

end KernelState.Staffed

def KernelOp.isLeadOp : KernelOp → Bool
  | .config (.createAgent ..) => true
  | .config (.createAgentWithSkills ..) => true
  | .config (.updateAgentWithSkills ..) => true
  | _ => false

variable (w : World)

theorem KernelOp.exec_keepsLeads (p : ControlPlane) (op : KernelOp)
    (hk : p.kernel.Keyed) (h : op.isLeadOp = false) :
    KeepsLeads p.kernel (op.exec w p).kernel := by
  rcases op.exec_cases w p hk with ⟨moves, htrace⟩ | ⟨op, rfl⟩ | ⟨op, rfl⟩ | ⟨call, rfl⟩
  · exact .of_agents (congrArg Catalog.agents htrace.catalog)
  · cases hcrew : op.isCrewOp with
    | false => exact .of_agents ((op.exec_configures w p.kernel).agents hcrew)
    | true =>
      cases op with
      | grantPermissionToAgent agentId permission =>
        exact (CrewWrite.agentPermission p.kernel agentId permission).1.keepsLeads
      | revokePermissionFromAgent agentId permission =>
        exact (CrewWrite.agentPermission p.kernel agentId permission).2.keepsLeads
      | createAgent id name adapterPlugin persona permissions => cases h
      | createAgentWithSkills id name description adapterPlugin ns persona permissions skills
          lead => cases h
      | updateAgentWithSkills id edit => cases h
      | _ => cases hcrew
  · exact .of_agents (congrArg Catalog.agents (op.exec_rules w p.kernel).catalog)
  · exact (call.exec_writes p.kernel).keepsLeads

structure KernelState.WellFiled (s : KernelState) : Prop where
  wellKept : s.WellKept
  minted : s.board.TasksMinted
  filed : s.Filed
  staffed : s.Staffed

theorem KernelOp.exec_staffed (p : ControlPlane) (op : KernelOp)
    (hk : p.kernel.Keyed) (h : p.kernel.Staffed) : (op.exec w p).kernel.Staffed := by
  cases hlead : op.isLeadOp with
  | false => exact h.keep (op.exec_keepsLeads w p hk hlead)
  | true =>
    cases op with
    | config op =>
      cases op with
      | createAgent id name adapterPlugin persona permissions =>
        exact h.hire (createAgentWithSkills_post p.kernel id name "" adapterPlugin workspaceNs
          persona permissions [] none)
      | createAgentWithSkills id name description adapterPlugin ns persona permissions skills
          lead =>
        exact h.hire (createAgentWithSkills_post p.kernel id name description adapterPlugin ns
          persona permissions skills lead)
      | updateAgentWithSkills id edit => exact h.edit (updateAgentWithSkills_post p.kernel id edit)
      | _ => cases hlead
    | _ => cases hlead

theorem KernelOp.exec_wellFiled (p : ControlPlane) (op : KernelOp)
    (h : p.kernel.WellFiled) : (op.exec w p).kernel.WellFiled := by
  obtain ⟨moves, hboard⟩ := op.exec_board w p h.wellKept.keyed
  have hminted : (op.exec w p).kernel.board.TasksMinted := hboard ▸ h.minted.play moves
  exact ⟨op.exec_wellKept w p h.wellKept, hminted, h.filed.step (op.exec_tree w p) hminted,
    op.exec_staffed w p h.wellKept.keyed h.staffed⟩

theorem KernelState.new_wellFiled : KernelState.new.WellFiled where
  wellKept := new_wellKept
  minted n _ := by simp [KernelState.new, KernelState.board]
  filed := ⟨fun n _ => by simp [KernelState.new, place],
    fun t ns p h => by simp [KernelState.new, place] at h⟩
  staffed := ⟨fun a agent h => by simp [KernelState.new] at h,
    fun a l h => by simp [KernelState.new, post] at h⟩

structure KernelState.HierarchiesSound (s : KernelState) : Prop where
  tasks : Acyclic s.parentOf
  agents : Acyclic s.reportsTo
  subtree : ∀ manager child, isInSubtree manager child (reportsToMap s) = true ↔
    Relation.TransGen (fun a b => s.reportsTo a = some b) child manager

theorem hierarchiesSound_iff {s : KernelState} (hk : s.CrewKeyed) :
    s.HierarchiesSound ↔
      Acyclic s.parentOf ∧ Acyclic s.reportsTo ∧ Bounded maxHierarchyDepth s.reportsTo := by
  have hsubtree : Acyclic s.reportsTo →
      ((∀ manager child, isInSubtree manager child (reportsToMap s) = true ↔
        Relation.TransGen (fun a b => s.reportsTo a = some b) child manager) ↔
          Bounded maxHierarchyDepth s.reportsTo) := by
    intro ha
    rw [← ha.climb_eq_above_iff]
    constructor
    · intro h child manager
      rw [← isInSubtree_of_acyclic hk ha]
      exact h manager child
    · intro h manager child
      rw [isInSubtree_of_acyclic hk ha]
      exact h child manager
  constructor
  · rintro ⟨ht, ha, hs⟩
    exact ⟨ht, ha, (hsubtree ha).mp hs⟩
  · rintro ⟨ht, ha, hb⟩
    exact ⟨ht, ha, (hsubtree ha).mpr hb⟩

/-- The agent, the Lead and a new adapter are known, and the Lead is not below the agent. -/
def SetsLead (s : KernelState) (id : AgentId) (edit : AgentEdit) (lead : AgentId) : Prop :=
  s.post id ≠ none ∧
    (∀ plugin, edit.adapterPlugin = some plugin → s.plugins.get? plugin ≠ none) ∧
    s.post lead ≠ none ∧ ∀ n, upN s.reportsTo n lead ≠ some id

def KernelOp.MovesInReach (s : KernelState) (op : KernelOp) : Prop :=
  ∀ t parent, op.treeMove = some (t, some parent) →
    ∀ n, maxTaskDepth < n → upN s.parentOf n parent ≠ some t

/-- A Lead that is set makes no Line longer than the walk, neither the agent's nor that of
one below it. -/
def KernelOp.KeepsLinesShort (s : KernelState) : KernelOp → Prop
  | .config (.createAgentWithSkills id _ _ adapterPlugin _ _ _ _ (some lead)) =>
    Hires s id adapterPlugin (some lead) → upN s.reportsTo maxHierarchyDepth lead = none
  | .config (.updateAgentWithSkills id edit) =>
    ∀ lead, edit.reportsTo = some (some lead) → SetsLead s id edit lead →
      ∀ a n, upN s.reportsTo n a = some id → upN s.reportsTo (maxHierarchyDepth - n) lead = none
  | _ => True

section Chart

variable {s s' : KernelState} {id : AgentId}

theorem reportsTo_congr (h : s'.post = s.post) : s'.reportsTo = s.reportsTo := by
  funext a
  rw [reportsTo_eq, reportsTo_eq, h]

theorem reportsTo_update (h : s'.post = Function.update s.post id (some lead)) :
    s'.reportsTo = Function.update s.reportsTo id lead := by
  funext a
  rw [reportsTo_eq, h, Function.update_apply, Function.update_apply]
  split
  · rfl
  · rw [reportsTo_eq]

def KernelState.ChartSound (s : KernelState) : Prop :=
  Acyclic s.reportsTo ∧ Bounded maxHierarchyDepth s.reportsTo

theorem chartSound_congr (h : s'.post = s.post) : s'.ChartSound ↔ s.ChartSound := by
  rw [KernelState.ChartSound, reportsTo_congr h]
  rfl

theorem chartSound_clear (h : s.ChartSound)
    (hpost : s'.post = Function.update s.post id (some none)) : s'.ChartSound := by
  rw [KernelState.ChartSound, reportsTo_update hpost]
  exact ⟨h.1.clear id, h.2.clear id⟩

theorem chartSound_set (h : s.ChartSound) {lead : AgentId}
    (hpost : s'.post = Function.update s.post id (some (some lead)))
    (hlead : ∀ n, upN s.reportsTo n lead ≠ some id) :
    s'.ChartSound ↔ ∀ a n, upN s.reportsTo n a = some id →
      upN s.reportsTo (maxHierarchyDepth - n) lead = none := by
  rw [KernelState.ChartSound, reportsTo_update hpost, ← h.2.update_iff h.1 hlead]
  exact and_iff_right (h.1.update hlead)

theorem chartSound_hire (hs : s.Staffed) (h : s.ChartSound) {adapterPlugin : PluginId}
    {lead : AgentId} (hstep : PostStep s s' (Hires s id adapterPlugin (some lead))
      (Function.update s.post id (some (some lead)))) :
    s'.ChartSound ↔
      (Hires s id adapterPlugin (some lead) → upN s.reportsTo maxHierarchyDepth lead = none) := by
  by_cases haccepted : Hires s id adapterPlugin (some lead)
  · have hnew := haccepted.2.1
    have hknown := (haccepted.2.2 lead rfl).2
    have habove : ∀ n, upN s.reportsTo n lead ≠ some id := fun n hup => hs.upN_known hknown hup hnew
    rw [chartSound_set h (hstep.done haccepted) habove]
    constructor
    · intro hall _
      exact hall id 0 rfl
    · intro hline a n hup
      rw [hs.height_of_unknown hnew hup]
      exact hline haccepted
  · rw [chartSound_congr (hstep.refused haccepted)]
    exact ⟨fun _ hyes => absurd hyes haccepted, fun _ => h⟩

variable {edit : AgentEdit}

theorem edits_iff_setsLead (hs : s.Staffed) (h : s.ChartSound)
    {lead : AgentId} (hedit : edit.reportsTo = some (some lead)) :
    Edits s id edit ↔ SetsLead s id edit lead := by
  have hcheck : checkNewLead s id lead = .ok () ↔
      s.post lead ≠ none ∧ ∀ n, upN s.reportsTo n lead ≠ some id := by
    rw [checkNewLead_ok, wouldCreateCycle_eq_false hs.keyed h.1]
    constructor
    · rintro ⟨⟨-, hknown⟩, hnone⟩
      refine ⟨hknown, fun n hup => ?_⟩
      by_cases hn : n ≤ maxHierarchyDepth
      · exact hnone n hn hup
      · have hout := Forest.upN_none_mono (show maxHierarchyDepth + 1 ≤ n by omega) (h.2 lead)
        rw [hout] at hup
        cases hup
    · rintro ⟨hknown, hnone⟩
      refine ⟨⟨?_, hknown⟩, fun n _ => hnone n⟩
      rintro rfl
      exact hnone 0 rfl
  simp only [Edits, SetsLead, hedit, Option.some.injEq, forall_eq', hcheck]

theorem chartSound_edit (hs : s.Staffed) (h : s.ChartSound)
    (hstep : PostStep s s' (Edits s id edit) (s.postWith id edit.reportsTo)) :
    s'.ChartSound ↔ ∀ lead, edit.reportsTo = some (some lead) → SetsLead s id edit lead →
      ∀ a n, upN s.reportsTo n a = some id →
        upN s.reportsTo (maxHierarchyDepth - n) lead = none := by
  by_cases haccepted : Edits s id edit
  · have hpost := hstep.done haccepted
    cases hedit : edit.reportsTo with
    | none =>
      rw [hedit] at hpost
      rw [chartSound_congr hpost]
      exact ⟨fun _ lead hl => absurd hl (by simp), fun _ => h⟩
    | some lead =>
      rw [hedit] at hpost
      cases lead with
      | none => exact ⟨fun _ lead hl => absurd hl (by simp), fun _ => chartSound_clear h hpost⟩
      | some lead =>
        have hsets := (edits_iff_setsLead hs h hedit).mp haccepted
        rw [chartSound_set h hpost hsets.2.2.2]
        constructor
        · rintro hall lead' hl -
          cases hl
          exact hall
        · exact fun hall => hall lead rfl hsets
  · rw [chartSound_congr (hstep.refused haccepted)]
    refine ⟨fun _ lead hedit hsets => ?_, fun _ => h⟩
    exact absurd ((edits_iff_setsLead hs h hedit).mpr hsets) haccepted

end Chart

theorem KernelOp.exec_tasks (p : ControlPlane) (op : KernelOp)
    (hfiled : p.kernel.Filed) (ha : Acyclic p.kernel.parentOf) :
    Acyclic (op.exec w p).kernel.parentOf ↔ op.MovesInReach p.kernel := by
  constructor
  · intro hnew t parent hmove n hn hup
    cases op with
    | run op =>
      cases op with
      | reparentTask t' newParent =>
        cases hmove
        exact hfiled.cyclic_reparent ha hn hup hnew
      | _ => cases hmove
    | _ => cases hmove
  · exact hfiled.acyclic_step ha (op.exec_tree w p)

theorem KernelOp.exec_chart (p : ControlPlane) (op : KernelOp)
    (hk : p.kernel.Keyed) (hs : p.kernel.Staffed) (h : p.kernel.ChartSound) :
    (op.exec w p).kernel.ChartSound ↔ op.KeepsLinesShort p.kernel := by
  have kept : ∀ {op : KernelOp}, op.isLeadOp = false → op.KeepsLinesShort p.kernel →
      ((op.exec w p).kernel.ChartSound ↔ op.KeepsLinesShort p.kernel) := by
    intro op hlead hshort
    rw [chartSound_congr (op.exec_keepsLeads w p hk hlead).post]
    exact ⟨fun _ => hshort, fun _ => h⟩
  have unled : ∀ {s' : KernelState} {id : AgentId} {adapterPlugin : PluginId},
      PostStep p.kernel s' (Hires p.kernel id adapterPlugin none)
        (Function.update p.kernel.post id (some none)) → s'.ChartSound := by
    intro s' id adapterPlugin hstep
    by_cases haccepted : Hires p.kernel id adapterPlugin none
    · exact chartSound_clear h (hstep.done haccepted)
    · exact (chartSound_congr (hstep.refused haccepted)).mpr h
  cases op with
  | run op | background op | approval op | manager call | rehash runs tasks grants =>
    exact kept rfl trivial
  | config op =>
    cases op with
    | createAgent id name adapterPlugin persona permissions =>
      have hstep := createAgentWithSkills_post p.kernel id name "" adapterPlugin workspaceNs
        persona permissions [] none
      exact ⟨fun _ => trivial, fun _ => unled hstep⟩
    | createAgentWithSkills id name description adapterPlugin ns persona permissions skills
        lead =>
      have hstep := createAgentWithSkills_post p.kernel id name description adapterPlugin ns
        persona permissions skills lead
      cases lead with
      | none => exact ⟨fun _ => trivial, fun _ => unled hstep⟩
      | some lead => exact chartSound_hire hs h hstep
    | updateAgentWithSkills id edit =>
      exact chartSound_edit hs h (updateAgentWithSkills_post p.kernel id edit)
    | _ => exact kept rfl trivial

theorem KernelOp.exec_hierarchies (p : ControlPlane) (op : KernelOp)
    (h : p.kernel.WellFiled) (hsound : p.kernel.HierarchiesSound) :
    (op.exec w p).kernel.HierarchiesSound ↔
      op.MovesInReach p.kernel ∧ op.KeepsLinesShort p.kernel := by
  obtain ⟨htasks, hchart⟩ := (hierarchiesSound_iff h.staffed.keyed).mp hsound
  have hnext := op.exec_wellFiled w p h
  rw [hierarchiesSound_iff hnext.staffed.keyed]
  exact and_congr (op.exec_tasks w p h.filed htasks)
    (op.exec_chart w p h.wellKept.keyed h.staffed hchart)

theorem KernelState.new_hierarchiesSound : KernelState.new.HierarchiesSound := by
  have hparent : KernelState.new.parentOf = fun _ => none := rfl
  have hlead : KernelState.new.reportsTo = fun _ => none := rfl
  have hacyclic : Acyclic (fun _ : String => (none : Option String)) := by
    rw [Forest.acyclic_iff]
    intro a n h
    simp [upN] at h
  rw [hierarchiesSound_iff new_wellFiled.staffed.keyed, hparent, hlead]
  exact ⟨hacyclic, hacyclic, fun _ => rfl⟩

/-- All along a run both trees are without a cycle and the branches are what is below their
managers, exactly if every task moves within reach and every Line stays short. -/
theorem hierarchies_sound_iff (ops : List (World × KernelOp)) :
    (∀ pre, pre <+: ops → (Transition.run ControlPlane.step (ControlPlane.of KernelState.new)
      pre).kernel.HierarchiesSound) ↔
      Guarded ControlPlane.step
        (fun p e => e.2.MovesInReach p.kernel ∧ e.2.KeepsLinesShort p.kernel)
        (ControlPlane.of KernelState.new) ops := by
  have hinv : ∀ (p : ControlPlane) (e : World × KernelOp), p.kernel.WellFiled →
      (p.step e).kernel.WellFiled := fun p e hp => e.2.exec_wellFiled e.1 p hp
  have hgood : ∀ (p : ControlPlane) (e : World × KernelOp), p.kernel.WellFiled →
      p.kernel.HierarchiesSound → ((p.step e).kernel.HierarchiesSound ↔
        e.2.MovesInReach p.kernel ∧ e.2.KeepsLinesShort p.kernel) :=
    fun p e hp hsound => e.2.exec_hierarchies e.1 p hp hsound
  have hnew : (ControlPlane.of KernelState.new).kernel.WellFiled := KernelState.new_wellFiled
  exact Transition.prefixes_iff_guarded hinv hgood hnew KernelState.new_hierarchiesSound ops

theorem crewKeyed_run (ops : List (World × KernelOp)) :
    (Transition.run ControlPlane.step (ControlPlane.of KernelState.new) ops).kernel.CrewKeyed := by
  have hstep : ∀ (p : ControlPlane) (e : World × KernelOp), p.kernel.WellFiled → True →
      (p.step e).kernel.WellFiled :=
    fun p e hp _ => e.2.exec_wellFiled e.1 p hp
  have hfiled : (ControlPlane.of KernelState.new).kernel.WellFiled := KernelState.new_wellFiled
  exact (Transition.invariant_run hstep hfiled (Transition.guarded_true _ _ ops)).staffed.keyed

theorem createAgentWithSkills_plugins (s : KernelState) (id : AgentId) (name description : String)
    (adapterPlugin : PluginId) (ns : NamespaceId) (persona : Option String)
    (permissions : List Permission) (skills : List String) (lead : Option AgentId) :
    (createAgentWithSkills s id name description adapterPlugin ns persona permissions skills
      lead).2.plugins = s.plugins := by
  unfold createAgentWithSkills
  repeat' split
  all_goals rfl

def crewLine (n : Nat) : List (World × KernelOp) :=
  (.silent, .config (.registerPlugin ⟨localPrimeAdapterId, "Local Prime", "1.0.0", .adapter,
    "", "", .official, [], [], .healthy⟩)) ::
  (List.range n).map (fun i => (.silent, .config (.createAgentWithSkills (mintedId "op_" i)
    "Operative" "" localPrimeAdapterId workspaceNs none [] []
    (if i = 0 then none else some (mintedId "op_" (i - 1))))))

def topUnderBottom : List (World × KernelOp) :=
  crewLine 52 ++ [(.silent, .config (.updateAgentWithSkills (mintedId "op_" 0)
    ⟨none, none, none, none, none, none, some (some (mintedId "op_" 51))⟩))]

/-- Each of the first `n` operatives reports to the one before, and the others are unknown. -/
def KernelState.InLine (s : KernelState) (n : Nat) : Prop := ∀ i,
  s.post (mintedId "op_" i) =
    if i < n then some (if i = 0 then none else some (mintedId "op_" (i - 1))) else none

theorem crewLine_post (n : Nat) :
    let s := (Transition.run ControlPlane.step (ControlPlane.of KernelState.new)
      (crewLine n)).kernel
    s.plugins.get? localPrimeAdapterId ≠ none ∧ s.InLine n := by
  induction n with
  | zero => exact ⟨nofun, fun _ => rfl⟩
  | succ n ih =>
    unfold crewLine at ih ⊢
    rw [List.range_succ, List.map_append, ← List.cons_append, Transition.run_append]
    generalize Transition.run _ _ _ = p at ih ⊢
    obtain ⟨hplugin, hpost⟩ := ih
    have hstep := createAgentWithSkills_post p.kernel (mintedId "op_" n) "Operative" ""
      localPrimeAdapterId workspaceNs none [] []
      (if n = 0 then none else some (mintedId "op_" (n - 1)))
    have haccepted : Hires p.kernel (mintedId "op_" n) localPrimeAdapterId
        (if n = 0 then none else some (mintedId "op_" (n - 1))) := by
      refine ⟨hplugin, by rw [hpost, if_neg (lt_irrefl n)], fun l hl => ?_⟩
      cases n with
      | zero => cases hl
      | succ n =>
        cases hl
        rw [Nat.add_sub_cancel, hpost, if_pos (Nat.lt_succ_self n)]
        exact ⟨fun he => absurd (mintedId_inj he) (Nat.ne_of_lt n.lt_succ_self), nofun⟩
    refine ⟨(createAgentWithSkills_plugins ..).symm ▸ hplugin, fun i => ?_⟩
    change (createAgentWithSkills ..).2.post _ = _
    rw [hstep.done haccepted, Function.update_apply, hpost]
    by_cases he : i = n
    · rw [if_pos (he ▸ rfl), he, if_pos n.lt_succ_self]
    · rw [if_neg (fun h => he (mintedId_inj h))]
      simp only [show i < n + 1 ↔ i < n by omega]

/-- The walk from the bottom stops one below the top, so the edit is let through. -/
theorem line_closes {p : ControlPlane} (hkeyed : p.kernel.CrewKeyed) (hpost : p.kernel.InLine 52) :
    ¬ (Transition.run ControlPlane.step p [(.silent, .config (.updateAgentWithSkills
      (mintedId "op_" 0) ⟨none, none, none, none, none, none,
        some (some (mintedId "op_" 51))⟩))]).kernel.HierarchiesSound := by
  intro h
  have hapart : ∀ i, i ≠ 0 → mintedId "op_" i ≠ mintedId "op_" 0 := fun _ hi he =>
    hi (mintedId_inj he)
  have hup : ∀ n ≤ 51, upN p.kernel.reportsTo n (mintedId "op_" 51) =
      some (mintedId "op_" (51 - n)) := by
    intro n hn
    induction n with
    | zero => rfl
    | succ n ih =>
      rw [Forest.upN_add, ih (by omega), Option.bind_some, upN, reportsTo_eq, hpost,
        if_pos (by omega), if_neg (by omega)]
      rfl
  have hstep := updateAgentWithSkills_post p.kernel (mintedId "op_" 0)
    ⟨none, none, none, none, none, none, some (some (mintedId "op_" 51))⟩
  by_cases haccepted : Edits p.kernel (mintedId "op_" 0)
    ⟨none, none, none, none, none, none, some (some (mintedId "op_" 51))⟩
  · refine Forest.acyclic_iff.mp h.agents (mintedId "op_" 0) 51 ?_
    change upN (updateAgentWithSkills ..).2.reportsTo _ _ = _
    rw [reportsTo_update (hstep.done haccepted), Forest.upN_succ (Function.update_self ..)]
    refine Forest.upN_update_of_avoids (hup 51 le_rfl) (fun m hm he => ?_)
    rw [hup m hm.le] at he
    exact hapart _ (by omega) (Option.some.inj he)
  · have hacyclic : Acyclic p.kernel.reportsTo :=
      reportsTo_congr (hstep.refused haccepted) ▸ h.agents
    refine haccepted ⟨by rw [hpost]; exact Option.some_ne_none _, fun _ h => (by cases h),
      fun l hl => ?_⟩
    cases hl
    rw [checkNewLead_ok, wouldCreateCycle_eq_false hkeyed hacyclic, hpost]
    refine ⟨⟨hapart 51 (by omega), Option.some_ne_none _⟩, fun n hn he => ?_⟩
    rw [maxHierarchyDepth] at hn
    rw [hup n (by omega)] at he
    exact hapart _ (by omega) (Option.some.inj he)

theorem hierarchies_not_sound :
    ¬ (Transition.run ControlPlane.step (ControlPlane.of KernelState.new)
      topUnderBottom).kernel.HierarchiesSound := by
  rw [topUnderBottom, Transition.run_append]
  exact line_closes (crewKeyed_run _) (crewLine_post 52).2

end Relux
