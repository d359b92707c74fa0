import Relux.ApprovedTerms

/-! The gates before a tool runs. The two direct paths ask the same questions and agree on
every call. One corner of them reads two different permissions: a source tool of an
installed plugin requires the source permission, and its grants are looked up under the
permission its manifest declares. -/

namespace Relux

def DirectlyAdmits (s : KernelState) (agentId : AgentId) (pluginId : PluginId)
    (toolName : String) (required : Permission) : Prop :=
  (∃ w runId s', callToolAdmit w s runId agentId pluginId toolName = (.ok required, s')) ∨
    ∃ s', invokeToolAdmit s agentId pluginId toolName = (.ok required, s')

/-- A grant that has not been revoked matches the call with this permission text and this
risk. -/
def Granted (s : KernelState) (agentId : AgentId) (pluginId : PluginId) (toolName : String)
    (permission : String) (risk : RiskLevel) : Prop :=
  ∃ k g, s.persistentGrants.get? k = some g ∧
    g.authorizesInvocation agentId pluginId toolName permission risk = true

/-- A direct call runs only with the permission the tool requires now and, where the tool
needs approval, under a grant of that permission and the tool's risk. -/
def DirectGateKept (s : KernelState) (agentId : AgentId) (pluginId : PluginId)
    (toolName : String) : Prop :=
  ∀ required, DirectlyAdmits s agentId pluginId toolName required →
    resolveToolPermission s agentId pluginId toolName = .ok required ∧
    agentHoldsPermission s agentId required = true ∧
    (toolNeedsApproval s pluginId toolName = true →
      Granted s agentId pluginId toolName required.asStr (toolRiskFor s pluginId toolName))

/-- An approved call runs only with the permission its tool requires now, and consumes the
open binding of its approval, which is approved. -/
def ApprovedGateKept (s : KernelState) : Prop :=
  ∀ w id executedBy b required s',
    executeApprovedAdmit w s id executedBy = (.ok (b, required), s') →
    resolveToolPermission s b.agentId b.pluginId b.toolName = .ok required ∧
    agentHoldsPermission s b.agentId required = true ∧
    (∃ a, s.approvals.get? id = some a ∧ a.status = .approved) ∧
    s.pendingToolInvocations.get? id = some b ∧ b.consumed = false ∧
    s'.pendingToolInvocations.get? id = some { b with consumed := true }

def DirectPathsAgree (s : KernelState) (agentId : AgentId) (pluginId : PluginId)
    (toolName : String) : Prop :=
  ∀ w runId, (callToolAdmit w s runId agentId pluginId toolName).1 =
    (invokeToolAdmit s agentId pluginId toolName).1

theorem direct_paths_agree (s : KernelState) (agentId : AgentId) (pluginId : PluginId)
    (toolName : String) : DirectPathsAgree s agentId pluginId toolName := by
  intro w runId
  unfold callToolAdmit invokeToolAdmit
  repeat' split
  all_goals rfl

theorem approved_gate_kept (s : KernelState) : ApprovedGateKept s := by
  intro w id executedBy b required s' h
  rcases executeApprovedAdmit_docket w s h with
    ⟨⟨e, he⟩, -⟩ | ⟨a, b', required', hok, ha, happroved, hb, hopen, hrequired, hholds, hd, -⟩
  · cases he
  · cases hok
    refine ⟨hrequired, hholds, ⟨a, ha, happroved⟩, hb, hopen, ?_⟩
    have hpending := congrArg Docket.pendingToolInvocations hd
    change s'.pendingToolInvocations =
      s.pendingToolInvocations.modify id (fun b => { b with consumed := true }) at hpending
    rw [hpending, HashMap.get?_modify, if_pos rfl, hb, Option.map_some]

variable {pluginId : PluginId} {s : KernelState} {agentId : AgentId} {toolName : String}

theorem findGrant_isSome {permission : String} {risk : RiskLevel} :
    (findGrant s agentId pluginId toolName permission risk).isSome = true ↔
      Granted s agentId pluginId toolName permission risk := by
  unfold findGrant Granted
  rw [List.find?_isSome]
  constructor
  · rintro ⟨g, hg, hauth⟩
    obtain ⟨k, hk⟩ := HashMap.mem_values.mp hg
    exact ⟨k, g, hk, hauth⟩
  · rintro ⟨k, g, hk, hauth⟩
    exact ⟨g, HashMap.mem_values.mpr ⟨k, hk⟩, hauth⟩

theorem matchingGrant_isSome :
    (matchingPersistentGrantId s agentId pluginId toolName).isSome = true ↔
      ∃ permission risk, grantTerms s pluginId toolName = some (permission, risk) ∧
        Granted s agentId pluginId toolName permission risk := by
  unfold matchingPersistentGrantId
  cases hterms : grantTerms s pluginId toolName with
  | none =>
    constructor
    · exact nofun
    · rintro ⟨permission, risk, h, -⟩
      cases h
  | some terms =>
    obtain ⟨permission, risk⟩ := terms
    rw [Option.isSome_map, findGrant_isSome]
    constructor
    · exact fun h => ⟨permission, risk, rfl, h⟩
    · rintro ⟨permission', risk', h, hgranted⟩
      cases h
      exact hgranted

variable {required : Permission}

theorem directlyAdmits_iff :
    DirectlyAdmits s agentId pluginId toolName required ↔
      resolveToolPermission s agentId pluginId toolName = .ok required ∧
      agentHoldsPermission s agentId required = true ∧
      (toolNeedsApproval s pluginId toolName = true →
        (matchingPersistentGrantId s agentId pluginId toolName).isSome = true) := by
  have hinvoke : (∃ s', invokeToolAdmit s agentId pluginId toolName = (.ok required, s')) ↔
      (invokeToolAdmit s agentId pluginId toolName).1 = .ok required :=
    ⟨fun ⟨s', h⟩ => congrArg Prod.fst h, fun h => ⟨_, Prod.ext h rfl⟩⟩
  have hcall : DirectlyAdmits s agentId pluginId toolName required ↔
      (invokeToolAdmit s agentId pluginId toolName).1 = .ok required := by
    unfold DirectlyAdmits
    rw [hinvoke]
    constructor
    · rintro (⟨w, runId, s', h⟩ | h)
      · rw [← direct_paths_agree s agentId pluginId toolName w runId, h]
      · exact h
    · exact .inr
  rw [hcall]
  unfold invokeToolAdmit
  cases hresolve : resolveToolPermission s agentId pluginId toolName with
  | error e =>
    constructor
    · exact nofun
    · rintro ⟨h, -⟩
      cases h
  | ok required' =>
    dsimp only
    by_cases hholds : agentHoldsPermission s agentId required' = true
    · rw [if_neg (not_not.mpr hholds)]
      by_cases hneeds : toolNeedsApproval s pluginId toolName = true
      · rw [if_pos hneeds]
        cases hgrant : matchingPersistentGrantId s agentId pluginId toolName with
        | none =>
          constructor
          · exact nofun
          · rintro ⟨-, -, h⟩
            cases h hneeds
        | some grantId =>
          constructor
          · intro h
            cases h
            exact ⟨rfl, hholds, fun _ => rfl⟩
          · rintro ⟨h, -, -⟩
            exact h
      · rw [if_neg hneeds]
        constructor
        · intro h
          cases h
          exact ⟨rfl, hholds, fun h => absurd h hneeds⟩
        · rintro ⟨h, -, -⟩
          exact h
    · rw [if_pos hholds]
      constructor
      · exact nofun
      · rintro ⟨h, hholds', -⟩
        cases h
        exact absurd hholds' hholds

/-- A source tool of an installed plugin that its manifest declares as needing approval:
the agent holds the source permission, and a grant matches the declared permission while
none matches the source permission. -/
def StaleSourceGrant (s : KernelState) (agentId : AgentId) (pluginId : PluginId)
    (toolName : String) : Prop :=
  isMcpPlugin pluginId = false ∧ isPluginLens s pluginId toolName = true ∧
  (s.agents.get? agentId).isSome = true ∧
  agentHoldsPermission s agentId ⟨sourceReadPermission⟩ = true ∧
  ∃ tool, toolDefinition s pluginId toolName = some tool ∧
    approvalBlocksDirectInvocation tool.approval tool.risk = true ∧
    Granted s agentId pluginId toolName tool.permission.asStr tool.risk ∧
    ¬ Granted s agentId pluginId toolName sourceReadPermission tool.risk

theorem mcpServer_none (h : isMcpPlugin pluginId = false) :
    mcpServerForPlugin s pluginId = none := by
  unfold mcpServerForPlugin
  unfold isMcpPlugin at h
  rw [← List.isSome_isPrefixOf?_eq_isPrefixOf, Option.isSome_eq_false_iff,
    Option.isNone_iff_eq_none] at h
  rw [h]

theorem grantTerms_required
    (hresolve : resolveToolPermission s agentId pluginId toolName = .ok required)
    (hlens : isMcpPlugin pluginId = true ∨ isPluginLens s pluginId toolName = false) :
    grantTerms s pluginId toolName = some (required.asStr, toolRiskFor s pluginId toolName) := by
  unfold resolveToolPermission at hresolve
  unfold grantTerms toolRiskFor
  split at hresolve
  · cases hresolve
  · split at hresolve
    · split at hresolve
      · cases hresolve
      next server hserver =>
        rw [hserver]
        split at hresolve
        · cases hresolve
        · split at hresolve
          · cases hresolve
          next required' hnew =>
            cases hresolve
            rw [Permission.new_asStr hnew]
    next hmcp =>
      rw [Bool.not_eq_true] at hmcp
      have hnone := mcpServer_none (s := s) hmcp
      have hnolens : isPluginLens s pluginId toolName = false := by
        rcases hlens with h | h
        · rw [hmcp] at h
          cases h
        · exact h
      rw [hnolens] at hresolve
      rw [hnone]
      split at hresolve
      · cases ‹false = true›
      · split at hresolve
        · cases hresolve
        next manifest hmanifest =>
          split at hresolve
          · cases hresolve
          next tool htool =>
            cases hresolve
            have hdefinition : toolDefinition s pluginId toolName = some tool := by
              unfold toolDefinition
              rw [hmanifest, Option.bind_some, htool]
            rw [hdefinition, Option.map_some]

theorem resolve_lens (hmcp : isMcpPlugin pluginId = false)
    (hlens : isPluginLens s pluginId toolName = true)
    (hagent : (s.agents.get? agentId).isSome = true) :
    resolveToolPermission s agentId pluginId toolName = .ok ⟨sourceReadPermission⟩ := by
  have hnew : Permission.new sourceReadPermission = .ok ⟨sourceReadPermission⟩ := by decide
  obtain ⟨agent, hget⟩ := Option.isSome_iff_exists.mp hagent
  unfold resolveToolPermission
  rw [hget]
  simp only [hmcp, Bool.false_eq_true, if_false, hlens, if_true, hnew]

theorem directGateKept_iff (s : KernelState) (agentId : AgentId) (pluginId : PluginId)
    (toolName : String) :
    DirectGateKept s agentId pluginId toolName ↔
      ¬ StaleSourceGrant s agentId pluginId toolName := by
  constructor
  · rintro hkept ⟨hmcp, hlens, hagent, hholds, tool, htool, hneeds, hgranted, hnot⟩
    have hnone := mcpServer_none (s := s) hmcp
    have hresolve := resolve_lens hmcp hlens hagent
    have hneeds' : toolNeedsApproval s pluginId toolName = true := by
      simp only [toolNeedsApproval, hnone, htool, hneeds]
    have hterms : grantTerms s pluginId toolName = some (tool.permission.asStr, tool.risk) := by
      simp only [grantTerms, hnone, htool, Option.map_some]
    have hrisk : toolRiskFor s pluginId toolName = tool.risk := by
      simp only [toolRiskFor, hnone, htool]
    obtain ⟨-, -, hcovered⟩ := hkept ⟨sourceReadPermission⟩ (directlyAdmits_iff.mpr
      ⟨hresolve, hholds, fun _ => matchingGrant_isSome.mpr ⟨_, _, hterms, hgranted⟩⟩)
    rw [hrisk] at hcovered
    exact hnot (hcovered hneeds')
  · intro hnot required hadmits
    obtain ⟨hresolve, hholds, hgrant⟩ := directlyAdmits_iff.mp hadmits
    refine ⟨hresolve, hholds, fun hneeds => ?_⟩
    obtain ⟨permission, risk, hterms, hgranted⟩ := matchingGrant_isSome.mp (hgrant hneeds)
    by_cases hlens : isMcpPlugin pluginId = true ∨ isPluginLens s pluginId toolName = false
    · rw [grantTerms_required hresolve hlens] at hterms
      cases hterms
      exact hgranted
    · rw [not_or, Bool.not_eq_true, Bool.not_eq_false] at hlens
      obtain ⟨hmcp, hlens⟩ := hlens
      have hnone := mcpServer_none (s := s) hmcp
      have hagent : (s.agents.get? agentId).isSome = true := by
        unfold agentHoldsPermission at hholds
        split at hholds
        · cases hholds
        next a ha => rw [ha, Option.isSome_some]
      rw [resolve_lens hmcp hlens hagent] at hresolve
      cases hresolve
      cases htool : toolDefinition s pluginId toolName with
      | none =>
        simp only [grantTerms, hnone, htool, Option.map_none] at hterms
        cases hterms
      | some tool =>
        simp only [grantTerms, hnone, htool, Option.map_some, Option.some.injEq,
          Prod.mk.injEq] at hterms
        obtain ⟨rfl, rfl⟩ := hterms
        simp only [toolNeedsApproval, hnone, htool] at hneeds
        simp only [toolRiskFor, hnone, htool]
        by_contra hno
        exact hnot ⟨hmcp, hlens, hagent, hholds, tool, htool, hneeds, hgranted, hno⟩

/-- The three dispatch paths keep their gates and the two direct ones agree, for every
state and every call, exactly where no stale grant covers a source tool. -/
theorem tool_gates_kept (s : KernelState) (agentId : AgentId) (pluginId : PluginId)
    (toolName : String) :
    DirectGateKept s agentId pluginId toolName ∧ ApprovedGateKept s ∧
        DirectPathsAgree s agentId pluginId toolName ↔
      ¬ StaleSourceGrant s agentId pluginId toolName := by
  rw [← directGateKept_iff]
  constructor
  · exact fun h => h.1
  · exact fun h => ⟨h, approved_gate_kept s, direct_paths_agree s agentId pluginId toolName⟩

def lensManifest : PluginManifest :=
  ⟨"notes", "Notes", "1.0.0", .toolSet, "", "", .community,
    [⟨"plugin.summary", "", .medium, ⟨"tool:notes:summary"⟩, .required, none⟩],
    [⟨"tool:notes:summary"⟩], .healthy⟩

def lensPlane : ControlPlane :=
  docketPlane
    [ .config (.registerPlugin ⟨localPrimeAdapterId, "Local Prime", "1.0.0", .adapter, "", "",
        .official, [], [], .healthy⟩),
      .config (.registerPlugin lensManifest),
      .config (.createAgent "prime" "Prime" localPrimeAdapterId none
        [⟨"tool:notes:summary"⟩, ⟨"plugin:source:read"⟩]),
      .approval (.grantPersistentToolInvocation "founder" "prime" "notes" "plugin.summary"),
      .config (.installPlugin lensManifest .localDir "notes" "/plugins/notes" true) ]

theorem tool_gates_not_kept :
    ¬ DirectGateKept lensPlane.kernel "prime" "notes" "plugin.summary" := by
  intro h
  have hadmitted : (invokeToolAdmit lensPlane.kernel "prime" "notes" "plugin.summary").1 =
      .ok ⟨"plugin:source:read"⟩ := rfl
  obtain ⟨-, -, hcovered⟩ := h ⟨"plugin:source:read"⟩ (.inr ⟨_, Prod.ext hadmitted rfl⟩)
  obtain ⟨k, g, hg, hauth⟩ := hcovered rfl
  change (HashMap.empty.insert "grant_0001" _).get? k = some g at hg
  rw [HashMap.get?_insert] at hg
  split at hg
  · cases hg
    cases hauth
  · cases hg

end Relux
