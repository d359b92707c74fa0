import Relux.Reachable

/-! What makes a state fit to be saved: every record is stored under the id it carries, and
the rows of both logs are numbered. Every operation keeps it. -/

namespace Relux

namespace Catalog

structure Sound (c : Catalog) : Prop where
  plugins : c.plugins.KeyedBy (·.id)
  installed : c.installedPlugins.KeyedBy (·.id)
  toolRuntimes : c.toolRuntimeConfigs.KeyedBy (·.pluginId)
  adapterRuntimes : c.adapterRuntimeConfigs.KeyedBy (·.pluginId)
  commandTools : c.commandToolConfigs.KeyedBy (fun cfg => (cfg.pluginId, cfg.toolName))
  mcpServers : c.mcpServers.KeyedBy (·.id)
  agents : c.agents.KeyedBy (·.id)

end Catalog

theorem CrewWrite.archive {s s' : KernelState} (hwrite : CrewWrite s s') (h : s.archive.Sound) :
    s'.archive.Sound := by
  induction hwrite with
  | none => exact h
  | setAgent agentId f _ => exact h
  | assign taskId target _ _ =>
    obtain ⟨moves, htrace, -⟩ := assignTask_trace s taskId target
    exact htrace.archive h
  | audit _ _ _ _ _ _ _ ih => exact ih.audited rfl

theorem CrewWrite.catalog {s s' : KernelState} (hwrite : CrewWrite s s') (h : s.catalog.Sound) :
    s'.catalog.Sound := by
  induction hwrite with
  | none => exact h
  | setAgent agentId f hf =>
    exact { h with agents := h.agents.modify agentId (fun a => congrArg Prod.fst (hf a)) }
  | assign taskId target _ _ =>
    obtain ⟨moves, htrace, -⟩ := assignTask_trace s taskId target
    exact htrace.catalog ▸ h
  | audit _ _ _ _ _ _ _ ih => exact ih

theorem updatedManifest_id {m updated : PluginManifest} {pluginId : PluginId}
    {tool : ToolDefinition} {what : String}
    (h : updatedManifest m pluginId tool what = .ok updated) : updated.id = m.id := by
  unfold updatedManifest at h
  split at h
  · cases h
  · split at h
    · cases h
    · cases h
      rfl

section Catalog

variable {s : KernelState} (h : s.catalog.Sound)

include h

theorem installPlugin_catalog (manifest : PluginManifest) (kind : PluginSourceKind)
    (label dir : String) (enabled : Bool) :
    (installPlugin s manifest kind label dir enabled).catalog.Sound :=
  { h with plugins := h.plugins.insert rfl, installed := h.installed.insert rfl }

theorem removePluginTool_catalog (pluginId : PluginId) (toolName : String) :
    (removePluginTool s pluginId toolName).2.catalog.Sound := by
  unfold removePluginTool
  dsimp only
  split
  · exact h
  next manifest hmanifest =>
    have hid : manifest.id = pluginId := by
      unfold configurableManifest at hmanifest
      split at hmanifest
      · cases hmanifest
      · split at hmanifest
        · cases hmanifest
        · split at hmanifest
          · cases hmanifest
          next hplugin =>
            cases hmanifest
            exact h.plugins pluginId manifest hplugin
    repeat' split
    all_goals first
      | exact h
      | exact { h with
          plugins := h.plugins.insert hid
          commandTools := h.commandTools.remove (pluginId, toolName) }

theorem configurePluginTool_catalog (pluginId : PluginId) (input : PluginToolInput) :
    (configurePluginTool s pluginId input).2.catalog.Sound := by
  unfold configurePluginTool
  repeat' split
  all_goals first
    | exact h
    | skip
  next manifest hplugin _ updated hupdated =>
    have hid := (updatedManifest_id hupdated).trans (h.plugins pluginId _ hplugin)
    exact { h with plugins := h.plugins.insert hid }

theorem configureCommandTool_catalog (pluginId : PluginId) (draft : CommandToolDraft) :
    (configureCommandTool s pluginId draft).2.catalog.Sound := by
  unfold configureCommandTool
  repeat' split
  all_goals first
    | exact h
    | skip
  next tool htool _ manifest hplugin _ updated hupdated =>
    have hid := (updatedManifest_id hupdated).trans (h.plugins pluginId _ hplugin)
    have hname : tool.name = draft.name := (CommandToolDraft.intoToolDefinition_required htool).1
    exact { h with
      plugins := h.plugins.insert hid
      commandTools := h.commandTools.insert (by rw [hname]; rfl) }

theorem createAgentWithSkills_catalog (id : AgentId) (name description : String)
    (adapterPlugin : PluginId) (namespaceId : NamespaceId) (persona : Option String)
    (permissions : List Permission) (skills : List String) (reportsTo : Option AgentId) :
    (createAgentWithSkills s id name description adapterPlugin namespaceId persona permissions
      skills reportsTo).2.catalog.Sound := by
  unfold createAgentWithSkills
  repeat' split
  all_goals first
    | exact h
    | exact { h with agents := h.agents.insert rfl }

theorem updateAgentWithSkills_catalog (id : AgentId) (edit : AgentEdit) :
    (updateAgentWithSkills s id edit).2.catalog.Sound := by
  unfold updateAgentWithSkills
  repeat' split
  all_goals first
    | exact h
    | exact { h with agents := h.agents.modify id (fun _ => rfl) }

theorem ConfigOp.exec_catalog (w : World) (op : ConfigOp) : (op.exec w s).catalog.Sound := by
  cases op with
  | registerPlugin m => exact { h with plugins := h.plugins.insert rfl }
  | installPlugin m kind label dir enabled => exact installPlugin_catalog h m kind label dir enabled
  | removeInstalledPlugin id =>
    simp only [ConfigOp.exec, Relux.removeInstalledPlugin]
    split
    · exact h
    · exact { h with
        plugins := h.plugins.remove id
        installed := h.installed.remove id
        toolRuntimes := h.toolRuntimes.remove id
        adapterRuntimes := h.adapterRuntimes.remove id }
  | refreshBundledPlugin m label dir =>
    simp only [ConfigOp.exec, Relux.refreshBundledPlugin]
    repeat' split
    all_goals first
      | exact h
      | exact installPlugin_catalog h _ _ _ _ _
  | configurePluginTool pluginId input => exact configurePluginTool_catalog h pluginId input
  | removePluginTool pluginId toolName => exact removePluginTool_catalog h pluginId toolName
  | configureCommandTool pluginId draft => exact configureCommandTool_catalog h pluginId draft
  | removeCommandTool pluginId toolName =>
    simp only [ConfigOp.exec, Relux.removeCommandTool]
    split
    · exact h
    · exact removePluginTool_catalog h pluginId toolName
  | configureToolRuntime pluginId baseUrl enabled timeoutMs =>
    simp only [ConfigOp.exec, Relux.configureToolRuntime]
    repeat' split
    all_goals first
      | exact h
      | exact { h with toolRuntimes := h.toolRuntimes.insert rfl }
  | disableToolRuntime pluginId =>
    simp only [ConfigOp.exec, Relux.disableToolRuntime]
    split
    · exact h
    · exact { h with toolRuntimes := h.toolRuntimes.modify pluginId (fun _ => rfl) }
  | removeToolRuntime pluginId =>
    simp only [ConfigOp.exec, Relux.removeToolRuntime]
    split
    · exact h
    · exact { h with toolRuntimes := h.toolRuntimes.remove pluginId }
  | configureAdapterRuntime pluginId request =>
    simp only [ConfigOp.exec, Relux.configureAdapterRuntime]
    repeat' split
    all_goals first
      | exact h
      | exact { h with adapterRuntimes := h.adapterRuntimes.insert rfl }
  | disableAdapterRuntime pluginId =>
    simp only [ConfigOp.exec, Relux.disableAdapterRuntime]
    split
    · exact h
    · exact { h with adapterRuntimes := h.adapterRuntimes.modify pluginId (fun _ => rfl) }
  | removeAdapterRuntime pluginId =>
    simp only [ConfigOp.exec, Relux.removeAdapterRuntime]
    split
    · exact h
    · exact { h with adapterRuntimes := h.adapterRuntimes.remove pluginId }
  | registerMcpServer id endpoint enabled timeoutMs =>
    simp only [ConfigOp.exec, Relux.registerMcpServer]
    split
    · exact h
    · exact { h with mcpServers := h.mcpServers.insert rfl }
  | setMcpServerEnabled id enabled =>
    simp only [ConfigOp.exec, Relux.setMcpServerEnabled]
    split
    · exact h
    · exact { h with mcpServers := h.mcpServers.modify id (fun _ => rfl) }
  | removeMcpServer id =>
    simp only [ConfigOp.exec, Relux.removeMcpServer]
    split
    · exact h
    · exact { h with mcpServers := h.mcpServers.remove id }
  | setMcpToolClassification serverId toolName risk approval =>
    simp only [ConfigOp.exec, Relux.setMcpToolClassification]
    repeat' split
    all_goals first
      | exact h
      | exact { h with mcpServers := h.mcpServers.modify serverId (fun _ => rfl) }
  | clearMcpToolClassification serverId toolName =>
    simp only [ConfigOp.exec, Relux.clearMcpToolClassification]
    split
    · exact h
    · exact { h with mcpServers := h.mcpServers.modify serverId (fun _ => rfl) }
  | createAgent id name adapterPlugin persona permissions =>
    exact createAgentWithSkills_catalog h id name "" adapterPlugin workspaceNs persona
      permissions [] none
  | createAgentWithSkills id name description adapterPlugin ns persona permissions skills lead =>
    exact createAgentWithSkills_catalog h id name description adapterPlugin ns persona
      permissions skills lead
  | updateAgentWithSkills id edit => exact updateAgentWithSkills_catalog h id edit
  | grantPermissionToAgent agentId permission => exact (CrewWrite.agentPermission s _ _).1.catalog h
  | revokePermissionFromAgent agentId permission => exact (CrewWrite.agentPermission s _ _).2.catalog h

end Catalog

end Relux
