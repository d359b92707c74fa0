import Relux.ToolGates

/-! The recipes of command tools. They are kept apart from the manifests, so a recipe
belongs to a tool that needs approval as long as every operation that replaces a manifest,
redefines a tool or removes a plugin looks after the recipes it leaves behind. -/

namespace Relux

open Transition (Guarded)

def PluginManifest.tool? (m : PluginManifest) (name : String) : Option ToolDefinition :=
  m.tools.find? (fun t => t.name == name)

def PluginManifest.Requires (m : PluginManifest) (name : String) : Prop :=
  ∃ tool, m.tool? name = some tool ∧ tool.approval = .required

def KernelState.RecipesGated (s : KernelState) : Prop :=
  ∀ pluginId toolName cfg, s.commandToolConfigs.get? (pluginId, toolName) = some cfg →
    (s.installedPlugins.get? pluginId).isSome = true ∧
      ∃ m, s.plugins.get? pluginId = some m ∧ m.Requires toolName

def RunsRecipe (s : KernelState) (pluginId : PluginId) (toolName : String) : Prop :=
  mcpServerForPlugin s pluginId = none ∧ isSourceTool toolName = false ∧
    (s.commandToolConfigs.get? (pluginId, toolName)).isSome = true

def KernelState.RecipesGuarded (s : KernelState) : Prop :=
  ∀ agentId pluginId toolName required, RunsRecipe s pluginId toolName →
    DirectlyAdmits s agentId pluginId toolName required →
    Granted s agentId pluginId toolName required.asStr (toolRiskFor s pluginId toolName)

variable {s : KernelState}

theorem KernelState.RecipesGated.guarded (h : s.RecipesGated) : s.RecipesGuarded := by
  rintro agentId pluginId toolName required ⟨hmcp, hsource, hrecipe⟩ hadmits
  obtain ⟨cfg, hcfg⟩ := Option.isSome_iff_exists.mp hrecipe
  obtain ⟨-, m, hm, tool, htool, happroval⟩ := h pluginId toolName cfg hcfg
  have hdefinition : toolDefinition s pluginId toolName = some tool := by
    unfold toolDefinition
    rw [hm, Option.bind_some]
    exact htool
  have hneeds : toolNeedsApproval s pluginId toolName = true := by
    simp only [toolNeedsApproval, hmcp, hdefinition, happroval, approvalBlocksDirectInvocation]
  have hcorner : ¬ StaleSourceGrant s agentId pluginId toolName := by
    rintro ⟨-, hlens, -⟩
    simp only [isPluginLens, hsource, Bool.false_and, Bool.false_eq_true] at hlens
  obtain ⟨-, -, hgranted⟩ := (directGateKept_iff s agentId pluginId toolName).mpr hcorner
    required hadmits
  exact hgranted hneeds

theorem find_upsertTool (tool : ToolDefinition) (tools : List ToolDefinition) (name : String) :
    (upsertTool tool tools).find? (fun t => t.name == name) =
      if tool.name = name then some tool else tools.find? (fun t => t.name == name) := by
  induction tools with
  | nil =>
    simp only [upsertTool, List.find?_cons, List.find?_nil]
    by_cases h : tool.name = name
    · simp only [h, beq_self_eq_true, if_true]
    · rw [if_neg h, beq_false_of_ne h]
  | cons t ts ih =>
    simp only [upsertTool]
    by_cases ht : t.name = tool.name
    · rw [if_pos ht]
      by_cases h : tool.name = name
      · rw [List.find?_cons, h, beq_self_eq_true, if_pos rfl]
      · rw [List.find?_cons, beq_false_of_ne h, if_neg h, List.find?_cons, ht, beq_false_of_ne h]
    · rw [if_neg ht, List.find?_cons, List.find?_cons, ih]
      by_cases h : tool.name = name
      · rw [beq_false_of_ne (fun he => ht (he.trans h.symm)), if_pos h]
      · simp only [if_neg h]

theorem tool?_withTool (m : PluginManifest) (tool : ToolDefinition) (name : String) :
    (m.withTool tool).tool? name = if tool.name = name then some tool else m.tool? name :=
  find_upsertTool tool m.tools name

theorem tool?_withoutTool (m : PluginManifest) {removed name : String} (h : name ≠ removed) :
    (m.withoutTool removed).tool? name = m.tool? name := by
  unfold PluginManifest.tool? PluginManifest.withoutTool
  induction m.tools with
  | nil => rfl
  | cons t ts ih =>
    by_cases ht : t.name = removed
    · rw [List.filter_cons, if_neg (by simp only [ht, bne_self_eq_false, Bool.false_eq_true,
        not_false_eq_true]), ih, List.find?_cons, ht, beq_false_of_ne (Ne.symm h)]
    · rw [List.filter_cons, if_pos (by simp only [bne_iff_ne, ne_eq, ht, not_false_eq_true]),
        List.find?_cons, List.find?_cons, ih]

variable {pluginId : PluginId}

theorem updatedManifest_ok {m m' : PluginManifest}
    {tool : ToolDefinition} {what : String} (h : updatedManifest m pluginId tool what = .ok m') :
    m' = m.withTool tool := by
  unfold updatedManifest at h
  split at h
  · cases h
  · split at h
    · cases h
    · cases h
      rfl

/-- A manifest that takes the place of another one declares every tool of the plugin that
has a recipe, as needing approval. -/
def KeepsRecipes (s : KernelState) (m : PluginManifest) : Prop :=
  ∀ toolName cfg, s.commandToolConfigs.get? (m.id, toolName) = some cfg → m.Requires toolName

/-- A tool can be configured on the plugin: it is installed and not bundled, a tool set,
and its manifest with the tool is valid. -/
def acceptsTool (s : KernelState) (pluginId : PluginId) (tool : ToolDefinition) : Bool :=
  match s.installedPlugins.get? pluginId with
  | none => false
  | some installed =>
    installed.sourceKind != .bundled && (match s.plugins.get? pluginId with
      | none => false
      | some m => (updatedManifest m pluginId tool "tools").toBool)

/-- A manifest is replaced only by one that keeps the recipes of its plugin, a plugin is
removed only when it has none, and a tool that has one is configured only as needing
approval. -/
def ConfigOp.LooksAfterRecipes (s : KernelState) : ConfigOp → Prop
  | .registerPlugin m => KeepsRecipes s m
  | .installPlugin m _ _ _ _ => KeepsRecipes s m
  | .refreshBundledPlugin m _ _ => ∀ installed, s.installedPlugins.get? m.id = some installed →
      installed.sourceKind = .bundled → KeepsRecipes s m
  | .removeInstalledPlugin id => ∀ toolName, s.commandToolConfigs.get? (id, toolName) = none
  | .configurePluginTool pluginId input => ∀ tool, input.intoToolDefinition pluginId = .ok tool →
      acceptsTool s pluginId tool = true →
      (s.commandToolConfigs.get? (pluginId, tool.name)).isSome = true →
      tool.approval = .required
  | _ => True

def KernelOp.LooksAfterRecipes (p : ControlPlane) : KernelOp → Prop
  | .config op => op.LooksAfterRecipes p.kernel
  | _ => True

variable {s' : KernelState}

theorem KernelState.RecipesGated.replace (h : s.RecipesGated) {m : PluginManifest}
    (hconfigs : ∀ p t cfg, s'.commandToolConfigs.get? (p, t) = some cfg →
      s.commandToolConfigs.get? (p, t) = some cfg)
    (hplugins : ∀ p, s'.plugins.get? p = if p = pluginId then some m else s.plugins.get? p)
    (hinstalled : ∀ p, (s.installedPlugins.get? p).isSome = true →
      (s'.installedPlugins.get? p).isSome = true)
    (hkeeps : ∀ toolName cfg, s'.commandToolConfigs.get? (pluginId, toolName) = some cfg →
      m.Requires toolName) : s'.RecipesGated := by
  intro p toolName cfg hcfg
  obtain ⟨hsome, m', hm', hrequires⟩ := h p toolName cfg (hconfigs p toolName cfg hcfg)
  refine ⟨hinstalled p hsome, ?_⟩
  rw [hplugins]
  split
  next he =>
    subst he
    exact ⟨m, rfl, hkeeps toolName cfg hcfg⟩
  · exact ⟨m', hm', hrequires⟩

theorem KernelState.RecipesGated.install (h : s.RecipesGated) (m : PluginManifest)
    (kind : PluginSourceKind) (label dir : String) (enabled : Bool) (hkeeps : KeepsRecipes s m) :
    (installPlugin s m kind label dir enabled).RecipesGated := by
  refine h.replace (fun _ _ _ => id) (fun p => HashMap.get?_insert _ _ _ _) (fun p hp => ?_)
    hkeeps
  change ((s.installedPlugins.insert m.id _).get? p).isSome = true
  rw [HashMap.get?_insert]
  split
  · rfl
  · exact hp

theorem KernelState.RecipesGated.of_tooling (h : s.RecipesGated) (ht : s'.tooling = s.tooling) :
    s'.RecipesGated := by
  simp only [KernelState.tooling, Prod.mk.injEq] at ht
  obtain ⟨hplugins, hinstalled, hconfigs⟩ := ht
  intro pluginId toolName cfg hcfg
  rw [hconfigs] at hcfg
  rw [hplugins, hinstalled]
  exact h pluginId toolName cfg hcfg

theorem refreshBundledPlugin_gated (h : s.RecipesGated) (m : PluginManifest) (label dir : String)
    (hkeeps : ∀ installed, s.installedPlugins.get? m.id = some installed →
      installed.sourceKind = .bundled → KeepsRecipes s m) :
    (refreshBundledPlugin s m label dir).2.RecipesGated := by
  unfold refreshBundledPlugin
  split
  next hnone =>
    -- A plugin that is not installed has no recipes.
    refine h.install m _ _ _ _ (fun toolName cfg hcfg => ?_)
    obtain ⟨hsome, -⟩ := h m.id toolName cfg hcfg
    rw [hnone] at hsome
    cases hsome
  next existing hexisting =>
    split
    · exact h
    next hbundled =>
      dsimp only
      split
      · exact h
      · exact h.install m _ _ _ _ (hkeeps existing hexisting (not_not.mp hbundled))

theorem configurePluginTool_gated (h : s.RecipesGated) (pluginId : PluginId)
    (input : PluginToolInput) (hkeeps : ∀ tool, input.intoToolDefinition pluginId = .ok tool →
      acceptsTool s pluginId tool = true →
      (s.commandToolConfigs.get? (pluginId, tool.name)).isSome = true →
      tool.approval = .required) : (configurePluginTool s pluginId input).2.RecipesGated := by
  unfold configurePluginTool
  split
  · exact h
  next installed hinstalled =>
    split
    · exact h
    next hbundled =>
      split
      · exact h
      next tool htool =>
        split
        · exact h
        next manifest hmanifest =>
          split
          · exact h
          next updated hupdated =>
            have haccepts : acceptsTool s pluginId tool = true := by
              simp only [acceptsTool, hinstalled, hmanifest, hupdated, Bool.and_eq_true, bne_iff_ne]
              exact ⟨hbundled, rfl⟩
            refine h.replace (fun _ _ _ => id) (fun p => HashMap.get?_insert _ _ _ _)
              (fun _ => id) (fun toolName cfg hcfg => ?_)
            change s.commandToolConfigs.get? (pluginId, toolName) = some cfg at hcfg
            rw [updatedManifest_ok hupdated]
            by_cases hname : tool.name = toolName
            · subst hname
              have hrequired := hkeeps tool htool haccepts (by rw [hcfg, Option.isSome_some])
              exact ⟨tool, by rw [tool?_withTool, if_pos rfl], hrequired⟩
            · obtain ⟨-, m, hm, old, hold, hrequired⟩ := h pluginId toolName cfg hcfg
              rw [hmanifest] at hm
              cases hm
              exact ⟨old, by rw [tool?_withTool, if_neg hname, hold], hrequired⟩

theorem configureCommandTool_gated (h : s.RecipesGated) (pluginId : PluginId)
    (draft : CommandToolDraft) : (configureCommandTool s pluginId draft).2.RecipesGated := by
  unfold configureCommandTool
  split
  · exact h
  next installed hinstalled =>
    split
    · exact h
    · split
      · exact h
      · split
        · exact h
        next tool htool =>
          split
          · exact h
          next manifest hmanifest =>
            split
            · exact h
            next updated hupdated =>
              obtain ⟨-, happroval⟩ := CommandToolDraft.intoToolDefinition_required htool
              intro p toolName cfg hcfg
              change (s.commandToolConfigs.insert (pluginId, tool.name) _).get? (p, toolName) =
                some cfg at hcfg
              change (s.installedPlugins.get? p).isSome = true ∧
                ∃ m, (s.plugins.insert pluginId updated).get? p = some m ∧ m.Requires toolName
              rw [HashMap.get?_insert, updatedManifest_ok hupdated]
              rw [HashMap.get?_insert] at hcfg
              split at hcfg
              next he =>
                cases he
                rw [if_pos rfl, hinstalled]
                exact ⟨rfl, _, rfl, tool, by rw [tool?_withTool, if_pos rfl], happroval⟩
              next hne =>
                obtain ⟨hsome, m, hm, old, hold, hrequired⟩ := h p toolName cfg hcfg
                refine ⟨hsome, ?_⟩
                split
                next hp =>
                  subst hp
                  rw [hmanifest] at hm
                  cases hm
                  have hname : tool.name ≠ toolName := by
                    rintro rfl
                    exact hne rfl
                  exact ⟨_, rfl, old, by rw [tool?_withTool, if_neg hname, hold], hrequired⟩
                · exact ⟨m, hm, old, hold, hrequired⟩

theorem removePluginTool_gated (h : s.RecipesGated) (pluginId : PluginId) (removed : String) :
    (removePluginTool s pluginId removed).2.RecipesGated := by
  unfold removePluginTool
  split
  · exact h
  next manifest hmanifest =>
    have hget : s.plugins.get? pluginId = some manifest := by
      unfold configurableManifest at hmanifest
      split at hmanifest
      · cases hmanifest
      · split at hmanifest
        · cases hmanifest
        · split at hmanifest
          · cases hmanifest
          next m hm =>
            cases hmanifest
            exact hm
    dsimp only
    split
    · exact h
    · split
      · exact h
      · have hconfig : ∀ p t cfg,
            (s.commandToolConfigs.remove (pluginId, removed)).get? (p, t) = some cfg →
            (p, t) ≠ (pluginId, removed) ∧ s.commandToolConfigs.get? (p, t) = some cfg := by
          intro p t cfg hcfg
          rw [HashMap.get?_remove] at hcfg
          split at hcfg
          · cases hcfg
          next hne => exact ⟨hne, hcfg⟩
        refine h.replace (fun p t cfg hcfg => (hconfig p t cfg hcfg).2)
          (fun p => HashMap.get?_insert _ _ _ _) (fun _ => id) (fun toolName cfg hcfg => ?_)
        obtain ⟨hne, hcfg⟩ := hconfig pluginId toolName cfg hcfg
        obtain ⟨-, m, hm, old, hold, hrequired⟩ := h pluginId toolName cfg hcfg
        rw [hget] at hm
        cases hm
        have hname : toolName ≠ removed := by
          rintro rfl
          exact hne rfl
        exact ⟨old, by rw [tool?_withoutTool _ hname, hold], hrequired⟩

theorem removeInstalledPlugin_gated (h : s.RecipesGated) (id : PluginId)
    (hnone : ∀ toolName, s.commandToolConfigs.get? (id, toolName) = none) :
    (removeInstalledPlugin s id).2.RecipesGated := by
  unfold removeInstalledPlugin
  split
  · exact h
  · intro p toolName cfg hcfg
    change s.commandToolConfigs.get? (p, toolName) = some cfg at hcfg
    have hne : p ≠ id := by
      rintro rfl
      rw [hnone] at hcfg
      cases hcfg
    change ((s.installedPlugins.remove id).get? p).isSome = true ∧
      ∃ m, (s.plugins.remove id).get? p = some m ∧ m.Requires toolName
    rw [HashMap.get?_remove, HashMap.get?_remove, if_neg hne, if_neg hne]
    exact h p toolName cfg hcfg

theorem ConfigOp.exec_gated (w : World) (h : s.RecipesGated) (op : ConfigOp)
    (hop : op.LooksAfterRecipes s) : (op.exec w s).RecipesGated := by
  cases op with
  | registerPlugin m =>
    exact h.replace (fun _ _ _ => id) (fun p => HashMap.get?_insert _ _ _ _) (fun _ => id) hop
  | installPlugin m kind label dir enabled => exact h.install m kind label dir enabled hop
  | removeInstalledPlugin id => exact removeInstalledPlugin_gated h id hop
  | refreshBundledPlugin m label dir => exact refreshBundledPlugin_gated h m label dir hop
  | configurePluginTool pluginId input => exact configurePluginTool_gated h pluginId input hop
  | removePluginTool pluginId toolName => exact removePluginTool_gated h pluginId toolName
  | configureCommandTool pluginId draft => exact configureCommandTool_gated h pluginId draft
  | removeCommandTool pluginId toolName =>
    change (Relux.removeCommandTool s pluginId toolName).2.RecipesGated
    unfold Relux.removeCommandTool
    split
    · exact h
    · exact removePluginTool_gated h pluginId toolName
  | _ => exact h.of_tooling ((ConfigOp.exec_configures w s _).tooling rfl)

theorem tooling_of_catalog (h : s.catalog.Matches s'.catalog) : s'.tooling = s.tooling := by
  have hrest := h.rest
  simp only [KernelState.catalog, Catalog.mk.injEq] at hrest
  obtain ⟨hplugins, hinstalled, -, -, hcommands, -⟩ := hrest
  simp only [KernelState.tooling, hplugins, hinstalled, hcommands]

theorem KernelOp.exec_gated (w : World) (p : ControlPlane) (op : KernelOp)
    (hk : p.kernel.Keyed) (h : p.kernel.RecipesGated) (hop : op.LooksAfterRecipes p) :
    (op.exec w p).kernel.RecipesGated := by
  by_cases hconfig : ∃ op', op = .config op'
  · obtain ⟨op', rfl⟩ := hconfig
    exact op'.exec_gated w h hop
  · have hcatalog := op.exec_catalog w p hk (fun op' he => hconfig ⟨op', he⟩)
    exact h.of_tooling (tooling_of_catalog hcatalog)

theorem KernelState.new_recipesGated : KernelState.new.RecipesGated := by
  intro pluginId toolName cfg hcfg
  cases hcfg

/-- In every run whose operations look after the recipes, each recipe is of a tool its
installed plugin declares as needing approval, and no recipe is run by a direct call without
a matching grant. -/
theorem command_recipes_gated (ops : List (World × KernelOp))
    (hguard : Guarded ControlPlane.step (fun p e => e.2.LooksAfterRecipes p)
      (ControlPlane.of KernelState.new) ops) :
    let s := (Transition.run ControlPlane.step (ControlPlane.of KernelState.new) ops).kernel
    s.RecipesGated ∧ s.RecipesGuarded := by
  have hstep : ∀ (p : ControlPlane) (e : World × KernelOp),
      (p.kernel.WellKept ∧ p.kernel.RecipesGated) → e.2.LooksAfterRecipes p →
      (p.step e).kernel.WellKept ∧ (p.step e).kernel.RecipesGated :=
    fun p e hp he => ⟨e.2.exec_wellKept e.1 p hp.1, e.2.exec_gated e.1 p hp.1.keyed hp.2 he⟩
  have hnew : (ControlPlane.of KernelState.new).kernel.WellKept ∧
      (ControlPlane.of KernelState.new).kernel.RecipesGated :=
    ⟨KernelState.new_wellKept, KernelState.new_recipesGated⟩
  have hgated := (Transition.invariant_run hstep hnew hguard).2
  exact ⟨hgated, hgated.guarded⟩

def toolsManifest (tools : List ToolDefinition) : PluginManifest :=
  ⟨"tools", "Tools", "1.0.0", .toolSet, "", "", .community, tools, [], .healthy⟩

def installTools (tools : List ToolDefinition) : KernelOp :=
  .config (.installPlugin (toolsManifest tools) .localDir "tools" "/plugins/tools" true)

def recipeOp : KernelOp :=
  .config (.configureCommandTool "tools"
    ⟨"sync", "sync", "", "rsync", [], none, [], 30, .high, true⟩)

def removeOp : KernelOp := .config (.removeInstalledPlugin "tools")

/-- The recipe is configured, and its tool is removed with it before the plugin is. -/
theorem command_recipes_gated_sample :
    (docketPlane [installTools [], recipeOp, .config (.removeCommandTool "tools" "sync"),
        removeOp]).kernel.RecipesGated ∧
      (docketPlane [installTools [], recipeOp]).kernel.RecipesGated := by
  have hinstall : KernelOp.LooksAfterRecipes (docketPlane []) (installTools []) := by
    intro toolName cfg hcfg
    cases hcfg
  have hremove : KernelOp.LooksAfterRecipes (docketPlane [installTools [], recipeOp,
      .config (.removeCommandTool "tools" "sync")]) removeOp := by
    intro toolName
    change ((HashMap.empty.insert ("tools", "sync") _).remove ("tools", "sync")).get?
      ("tools", toolName) = none
    rw [HashMap.get?_remove, HashMap.get?_insert, HashMap.get?_empty]
    split <;> rfl
  have hfirst := command_recipes_gated ([installTools [], recipeOp,
    .config (.removeCommandTool "tools" "sync"), removeOp].map (fun op => (.silent, op)))
    (.intro hinstall (.intro trivial (.intro trivial (.intro hremove trivial))))
  have hsecond := command_recipes_gated ([installTools [], recipeOp].map
    (fun op => (.silent, op))) (.intro hinstall (.intro trivial trivial))
  exact ⟨hfirst.1, hsecond.1⟩

/-- The recipe outlives its plugin, which comes back with a tool of that name that needs no
approval. -/
theorem command_recipes_not_gated :
    ¬ (docketPlane [installTools [], recipeOp, removeOp,
      installTools [⟨"sync", "", .low, ⟨"tool:tools:sync"⟩, .never, none⟩]]).kernel.RecipesGated := by
  intro h
  obtain ⟨-, m, hm, tool, htool, happroval⟩ := h "tools" "sync" _ rfl
  cases hm
  cases htool
  cases happroval

end Relux
