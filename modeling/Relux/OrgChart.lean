import Relux.TaskTree

/-! The org chart. Only a creation and an edit change whom an agent reports to; the Lead
they set exists, and an edit is refused a Lead the walk upwards leads back from. -/

namespace Relux

open Forest (upN Acyclic Bounded)

namespace KernelState

def post (s : KernelState) (a : AgentId) : Option (Option AgentId) :=
  (s.agents.get? a).map (·.reportsTo)

def reportsTo (s : KernelState) (a : AgentId) : Option AgentId :=
  (s.agents.get? a).bind (·.reportsTo)

def CrewKeyed (s : KernelState) : Prop := ∀ a agent, s.agents.get? a = some agent → agent.id = a

end KernelState

theorem reportsTo_eq (s : KernelState) (a : AgentId) :
    s.reportsTo a = (s.post a).bind id := by
  simp only [KernelState.reportsTo, KernelState.post]
  cases s.agents.get? a <;> rfl

variable {s : KernelState}

theorem get?_reportsToMap (h : s.CrewKeyed) : (reportsToMap s).get? = s.reportsTo := by
  have hmem : ∀ a m, (a, m) ∈ s.agents.values.filterMap
      (fun agent => agent.reportsTo.map (fun m => (agent.id, m))) ↔ s.reportsTo a = some m := by
    intro a m
    simp only [List.mem_filterMap, Option.map_eq_some_iff, Prod.mk.injEq,
      KernelState.reportsTo, Option.bind_eq_some_iff]
    constructor
    · rintro ⟨agent, hagent, m', hm, rfl, rfl⟩
      obtain ⟨a, ha⟩ := HashMap.mem_values.mp hagent
      rw [h a agent ha]
      exact ⟨agent, ha, hm⟩
    · rintro ⟨agent, ha, hm⟩
      exact ⟨agent, HashMap.mem_values.mpr ⟨a, ha⟩, m, hm, h a agent ha, rfl⟩
  funext a
  exact HashMap.get?_collect (fun e he => (hmem e.1 e.2).mp he)
    (fun k v hk => (hmem k v).mpr hk) a

variable {child : AgentId} {manager : AgentId}

theorem isInSubtree_iff (h : s.CrewKeyed) :
    isInSubtree manager child (reportsToMap s) = true ↔
      manager ≠ child ∧ manager ∈ Forest.climb s.reportsTo maxHierarchyDepth [child] child := by
  simp only [isInSubtree, chainOfCommand, get?_reportsToMap h]
  by_cases he : manager = child
  · simp [he]
  · simp [he]

theorem isInSubtree_of_acyclic (h : s.CrewKeyed) (ha : Acyclic s.reportsTo) :
    isInSubtree manager child (reportsToMap s) = true ↔
      manager ∈ Forest.climb s.reportsTo maxHierarchyDepth [child] child := by
  rw [isInSubtree_iff h, and_iff_right_iff_imp]
  rintro hmem rfl
  obtain ⟨k, -, hup⟩ := Forest.mem_climb hmem
  exact Forest.acyclic_iff.mp ha manager k hup

variable {lead : AgentId}

theorem wouldCreateCycle_eq_false (h : s.CrewKeyed) (ha : Acyclic s.reportsTo) :
    wouldCreateCycle child lead (reportsToMap s) = false ↔
      ∀ n ≤ maxHierarchyDepth, upN s.reportsTo n lead ≠ some child := by
  rw [wouldCreateCycle, Bool.or_eq_false_iff, beq_eq_false_iff_ne, ← Bool.not_eq_true,
    isInSubtree_of_acyclic h ha, ha.mem_climb_iff]
  constructor
  · rintro ⟨hne, hnone⟩ n hn hup
    cases n with
    | zero =>
      cases hup
      exact hne rfl
    | succ n => exact hnone ⟨n, hn, hup⟩
  · intro hnone
    refine ⟨?_, ?_⟩
    · rintro rfl
      exact hnone 0 (Nat.zero_le _) rfl
    · rintro ⟨k, hk, hup⟩
      exact hnone (k + 1) hk hup

variable {a : AgentId}

theorem checkLead_ok : checkLead s a lead = .ok () ↔ lead ≠ a ∧ s.post lead ≠ none := by
  simp only [checkLead, KernelState.post]
  by_cases he : lead = a
  · simp [he]
  · cases s.agents.get? lead <;> simp [he]

theorem checkNewLead_ok :
    checkNewLead s a lead = .ok () ↔ (lead ≠ a ∧ s.post lead ≠ none) ∧
      wouldCreateCycle a lead (reportsToMap s) = false := by
  rw [← checkLead_ok, checkNewLead]
  cases checkLead s a lead with
  | error e => simp
  | ok u => cases wouldCreateCycle a lead (reportsToMap s) <;> simp

variable {s' : KernelState}

theorem post_congr (h : s'.agents = s.agents) : s'.post = s.post := by
  funext a
  simp only [KernelState.post, h]

theorem crewKeyed_congr (h : s'.agents = s.agents) (hk : s.CrewKeyed) : s'.CrewKeyed := by
  unfold KernelState.CrewKeyed
  rw [h]
  exact hk

variable {agentId : AgentId} {f : Agent → Agent}

theorem crewKeyed_modify
    (h : s'.agents = s.agents.modify agentId f) (hf : ∀ a, (f a).id = a.id) (hk : s.CrewKeyed) :
    s'.CrewKeyed := by
  unfold KernelState.CrewKeyed
  rw [h]
  exact HashMap.KeyedBy.modify hk agentId hf

theorem post_modify
    (h : s'.agents = s.agents.modify agentId f) (hf : ∀ a, (f a).reportsTo = a.reportsTo) :
    s'.post = s.post := by
  funext a
  simp only [KernelState.post, h, HashMap.get?_modify]
  split
  next he => simp only [he, Option.map_map, Function.comp_def, hf]
  · rfl

structure KeepsLeads (s s' : KernelState) : Prop where
  post : s'.post = s.post
  keyed : s.CrewKeyed → s'.CrewKeyed

theorem KeepsLeads.of_agents (h : s'.agents = s.agents) :
    KeepsLeads s s' := ⟨post_congr h, crewKeyed_congr h⟩

theorem CrewWrite.keepsLeads (h : CrewWrite s s') : KeepsLeads s s' := by
  induction h with
  | none => exact .of_agents rfl
  | setAgent agentId f hf =>
    simp only [Prod.mk.injEq] at hf
    exact ⟨post_modify rfl (fun a => (hf a).2), crewKeyed_modify rfl (fun a => (hf a).1)⟩
  | assign taskId target _ _ =>
    obtain ⟨moves, htrace, -⟩ := assignTask_trace s taskId target
    exact .of_agents (congrArg Catalog.agents htrace.catalog)
  | audit _ _ _ _ _ _ _ ih => exact ⟨ih.post, ih.keyed⟩

structure PostStep (s s' : KernelState) (accepted : Prop)
    (post : AgentId → Option (Option AgentId)) : Prop where
  keyed : s.CrewKeyed → s'.CrewKeyed
  done : accepted → s'.post = post
  refused : ¬ accepted → s'.post = s.post

theorem PostStep.of_same {accepted : Prop} {post : AgentId → Option (Option AgentId)} (h : s' = s)
    (hnot : ¬ accepted) : PostStep s s' accepted post := by
  subst h
  exact ⟨id, fun h => absurd h hnot, fun _ => rfl⟩

theorem post_eq_none : s.post a = none ↔ s.agents.get? a = none := by
  simp only [KernelState.post, Option.map_eq_none_iff]

def Hires (s : KernelState) (id : AgentId) (adapterPlugin : PluginId) (lead : Option AgentId) :
    Prop :=
  s.plugins.get? adapterPlugin ≠ none ∧ s.post id = none ∧
    ∀ l, lead = some l → l ≠ id ∧ s.post l ≠ none

theorem createAgentWithSkills_post (s : KernelState) (id : AgentId) (name description : String)
    (adapterPlugin : PluginId) (ns : NamespaceId) (persona : Option String)
    (permissions : List Permission) (skills : List String) (lead : Option AgentId) :
    PostStep s (createAgentWithSkills s id name description adapterPlugin ns persona permissions
      skills lead).2 (Hires s id adapterPlugin lead)
      (Function.update s.post id (some lead)) := by
  have hlead : checkLeadOf s id lead = .ok () ↔
      ∀ l, lead = some l → l ≠ id ∧ s.post l ≠ none := by
    cases lead with
    | none => simp [checkLeadOf]
    | some l => simp [checkLeadOf, checkLead_ok]
  by_cases hplugin : s.plugins.get? adapterPlugin = none
  · exact .of_same (by simp [createAgentWithSkills, hplugin]) (fun h => h.1 hplugin)
  by_cases hknown : s.agents.get? id = none
  · cases hcheck : checkLeadOf s id lead with
    | error e =>
      refine .of_same (by simp [createAgentWithSkills, hplugin, hknown, hcheck]) (fun h => ?_)
      rw [hlead.mpr h.2.2] at hcheck
      cases hcheck
    | ok u =>
      have hagents : (createAgentWithSkills s id name description adapterPlugin ns persona
          permissions skills lead).2.agents = s.agents.insert id ⟨id, name, description,
            adapterPlugin, persona, ns, permissions, skills, lead, .active⟩ := by
        simp only [createAgentWithSkills, hknown, hcheck, Option.isNone_iff_eq_none, hplugin,
          Option.isSome_none, Bool.false_eq_true, if_false]
        rfl
      refine ⟨fun hk => ?_, fun _ => funext fun a => ?_, fun h => ?_⟩
      · unfold KernelState.CrewKeyed
        rw [hagents]
        exact HashMap.KeyedBy.insert hk rfl
      · simp only [KernelState.post, hagents, HashMap.get?_insert, Function.update_apply]
        split <;> rfl
      · exact absurd ⟨hplugin, post_eq_none.mpr hknown, hlead.mp hcheck⟩ h
  · have hsome : (s.agents.get? id).isSome = true := Option.isSome_iff_ne_none.mpr hknown
    exact .of_same (by simp [createAgentWithSkills, hplugin, hsome])
      (fun h => hknown (post_eq_none.mp h.2.1))

def Edits (s : KernelState) (id : AgentId) (edit : AgentEdit) : Prop :=
  s.post id ≠ none ∧
    (∀ plugin, edit.adapterPlugin = some plugin → s.plugins.get? plugin ≠ none) ∧
    ∀ l, edit.reportsTo = some (some l) → checkNewLead s id l = .ok ()

def KernelState.postWith (s : KernelState) (id : AgentId) :
    Option (Option AgentId) → AgentId → Option (Option AgentId)
  | none => s.post
  | some lead => Function.update s.post id (some lead)

theorem updateAgentWithSkills_post (s : KernelState) (id : AgentId) (edit : AgentEdit) :
    PostStep s (updateAgentWithSkills s id edit).2 (Edits s id edit)
      (s.postWith id edit.reportsTo) := by
  have hlead : checkLeadEdit s id edit.reportsTo = .ok () ↔
      ∀ l, edit.reportsTo = some (some l) → checkNewLead s id l = .ok () := by
    cases hedit : edit.reportsTo with
    | none => simp [checkLeadEdit]
    | some lead => cases lead <;> simp [checkLeadEdit]
  have hplugins : edit.adapterPlugin.filter (fun p => (s.plugins.get? p).isNone) = none ↔
      ∀ plugin, edit.adapterPlugin = some plugin → s.plugins.get? plugin ≠ none := by
    cases edit.adapterPlugin with
    | none => simp
    | some plugin => simp [Option.filter]
  by_cases hknown : s.agents.get? id = none
  · exact .of_same (by simp [updateAgentWithSkills, hknown])
      (fun h => h.1 (post_eq_none.mpr hknown))
  cases hplugin : edit.adapterPlugin.filter (fun p => (s.plugins.get? p).isNone) with
  | some plugin =>
    refine .of_same (by simp [updateAgentWithSkills, hknown, hplugin]) (fun h => ?_)
    rw [hplugins.mpr h.2.1] at hplugin
    cases hplugin
  | none =>
    cases hcheck : checkLeadEdit s id edit.reportsTo with
    | error e =>
      refine .of_same (by simp [updateAgentWithSkills, hknown, hplugin, hcheck]) (fun h => ?_)
      rw [hlead.mpr h.2.2] at hcheck
      cases hcheck
    | ok u =>
      have hagents : (updateAgentWithSkills s id edit).2.agents =
          s.agents.modify id edit.apply := by
        simp only [updateAgentWithSkills, hcheck, hplugin, Option.isNone_iff_eq_none, hknown,
          if_false]
        rfl
      refine ⟨crewKeyed_modify hagents (fun _ => rfl), fun _ => ?_, fun h => ?_⟩
      · cases hedit : edit.reportsTo with
        | none => exact post_modify hagents (fun a => by simp [AgentEdit.apply, hedit])
        | some lead =>
          obtain ⟨agent, hagent⟩ := Option.ne_none_iff_exists'.mp hknown
          funext a
          simp only [KernelState.post, hagents, HashMap.get?_modify, KernelState.postWith,
            Function.update_apply]
          split
          · simp [hagent, AgentEdit.apply, hedit]
          · rfl
      · exact absurd
          ⟨fun h => hknown (post_eq_none.mp h), hplugins.mp hplugin, hlead.mp hcheck⟩ h

end Relux
