import Relux.Records
import Relux.Tools

/-! The operator's requests for a plugin tool and for a command tool, with the argv
contract a command recipe has to meet before it is stored. -/

namespace Relux

def stdioCommandMetachars : List Char :=
  [';', '|', '&', '$', '`', '<', '>', '(', ')', '{', '}', '[', ']', '*', '?', '!', '#',
    Char.ofNat 39, '"']

def dangerousStdioFlags : List String :=
  ["--dangerously-skip-permissions", "--dangerously-bypass-approvals-and-sandbox", "--yolo"]

def maxMcpCommandChars : Nat := 256
def maxMcpArgChars : Nat := 4096
def maxMcpArgs : Nat := 64
def maxMcpEnvNameChars : Nat := 128
def maxMcpCwdChars : Nat := 1024
def maxCommandInputArgs : Nat := 16

def validateStdioArgs : List String → Except String Unit
  | [] => .ok ()
  | arg :: rest =>
    if arg.toList.length > maxMcpArgChars then
      .error "managed-stdio MCP server argument is too long (max 4096 chars)"
    else if arg.toList.any isControl then
      .error ("managed-stdio MCP server argument is not safe: an argument must not contain " ++
        "control characters")
    else if dangerousStdioFlags.any
        (fun f => toAsciiLowercase f.toList == toAsciiLowercase (trimChars arg.toList)) then
      .error ("managed-stdio MCP server argument is a forbidden bypass/danger flag: " ++ trim arg)
    else validateStdioArgs rest

def validateStdioCommand (command : String) (args : List String) : Except String Unit :=
  let cmd := trimChars command.toList
  if cmd.isEmpty then .error "managed-stdio MCP server command must not be empty"
  else if cmd.length > maxMcpCommandChars then
    .error "managed-stdio MCP server command is too long (max 256 chars)"
  else if cmd.any isControl then
    .error ("managed-stdio MCP server command is not a safe program token: the command must " ++
      "not contain control characters")
  else if cmd.any stdioCommandMetachars.contains then
    .error ("managed-stdio MCP server command is not a safe program token: the command must " ++
      "not contain shell metacharacters; Relux runs it directly (argv only), never through a " ++
      "shell")
  else if args.length > maxMcpArgs then
    .error "managed-stdio MCP server has too many args (max 64)"
  else validateStdioArgs args

def validateStdioCwdShape (cwd : String) : Except String Unit :=
  let trimmed := trimChars cwd.toList
  if trimmed.isEmpty then
    .error "managed-stdio MCP server cwd is not safe: the cwd must not be empty"
  else if trimmed.length > maxMcpCwdChars then
    .error "managed-stdio MCP server cwd is too long (max 1024 chars)"
  else if trimmed.any isControl then
    .error ("managed-stdio MCP server cwd is not safe: the cwd must not contain control " ++
      "characters")
  else if (splitFields (fun c => c == '/' || c == '\\') trimmed).any (· == ['.', '.']) then
    .error ("managed-stdio MCP server cwd is not safe: the cwd must not contain a '..' " ++
      "parent-directory traversal")
  else .ok ()

def isValidEnvVarName (name : String) : Bool :=
  match name.toList with
  | [] => false
  | c :: cs =>
    (c.isAlpha || c == '_') && cs.length + 1 ≤ maxMcpEnvNameChars &&
      cs.all (fun c => c.isAlphanum || c == '_')

def validateInputArgs (seen : List String) : List CommandInputArg → Except String Unit
  | [] => .ok ()
  | arg :: rest =>
    if ¬ isValidEnvVarName arg.name then
      .error ("input arg name '" ++ arg.name ++
        "' is not a valid identifier (letters, digits, '_')")
    else if seen.contains arg.name then .error ("duplicate input arg name '" ++ arg.name ++ "'")
    else validateInputArgs (seen ++ [arg.name]) rest

def validateCommandToolConfig (config : CommandToolConfig) : Except String Unit :=
  match validateStdioCommand config.program config.args with
  | .error e => .error ("invalid command: " ++ e)
  | .ok _ =>
    match config.cwd.elim (.ok ()) validateStdioCwdShape with
    | .error e => .error ("invalid command: " ++ e)
    | .ok _ =>
      if config.inputArgs.length > maxCommandInputArgs then
        .error "too many input args (max 16)"
      else validateInputArgs [] config.inputArgs

def derivedPermission (pluginId : PluginId) (verb : String) : Except String Permission :=
  match Permission.new ("tool:" ++ pluginId ++ ":" ++ verb) with
  | .error e => .error ("derived permission invalid: " ++ e.text)
  | .ok permission => .ok permission

structure PluginToolInput where
  name : String
  verb : String
  description : String
  risk : RiskLevel
  autoApprove : Option Bool
  timeoutSecs : Option Nat

def PluginToolInput.approval (i : PluginToolInput) : ApprovalRequirement :=
  if i.risk = .low ∧ i.autoApprove ≠ some false then .never else .required

def PluginToolInput.intoToolDefinition (i : PluginToolInput) (pluginId : PluginId) :
    Except String ToolDefinition :=
  match derivedPermission pluginId i.verb with
  | .error e => .error e
  | .ok permission =>
    .ok ⟨i.name, i.description, i.risk, permission, i.approval, i.timeoutSecs⟩

structure CommandToolDraft where
  name : String
  verb : String
  description : String
  program : String
  args : List String
  cwd : Option String
  inputArgs : List CommandInputArg
  timeoutSecs : Nat
  risk : RiskLevel
  enabled : Bool

def CommandToolDraft.intoToolDefinition (d : CommandToolDraft) (pluginId : PluginId) :
    Except String ToolDefinition :=
  match derivedPermission pluginId d.verb with
  | .error e => .error e
  | .ok permission =>
    .ok ⟨d.name, d.description, d.risk, permission, .required, some d.timeoutSecs⟩

def clampCommandTimeout (timeoutMs : Nat) : Nat := max 500 (min timeoutMs 300000)

def CommandToolDraft.intoCommandConfig (d : CommandToolDraft) (pluginId : PluginId) :
    CommandToolConfig where
  pluginId := pluginId
  toolName := d.name
  program := d.program
  args := d.args
  cwd := d.cwd
  inputArgs := d.inputArgs
  timeoutMs := clampCommandTimeout (d.timeoutSecs * 1000)
  enabled := d.enabled

theorem CommandToolDraft.intoToolDefinition_required {d : CommandToolDraft}
    {pluginId : PluginId} {tool : ToolDefinition}
    (h : d.intoToolDefinition pluginId = .ok tool) :
    tool.name = d.name ∧ tool.approval = .required := by
  simp only [CommandToolDraft.intoToolDefinition] at h
  split at h
  · cases h
  · cases h
    exact ⟨rfl, rfl⟩

/-! What an operator configures: plugins and their tools, runtimes and MCP servers. -/

def kernelAudit (s : KernelState) (action target id : String) : KernelState :=
  recordAudit s "kernel" "kernel" action (some target) (some id) .success

def registerPlugin (s : KernelState) (manifest : PluginManifest) : KernelState :=
  let s := kernelAudit s "plugin:register" "plugin" manifest.id
  { s with plugins := s.plugins.insert manifest.id manifest }

def installPlugin (s : KernelState) (manifest : PluginManifest)
    (sourceKind : PluginSourceKind) (sourceLabel installDir : String) (enabled : Bool) :
    KernelState :=
  let registered := registerPlugin s manifest
  let installed : InstalledPlugin := ⟨manifest.id, manifest.version, manifest.kind,
    registered.stamp, sourceKind, sourceLabel, installDir, enabled⟩
  let s := kernelAudit registered.tick "plugin:install" "plugin" manifest.id
  { s with installedPlugins := s.installedPlugins.insert manifest.id installed }

def removeInstalledPlugin (s : KernelState) (id : PluginId) : Outcome InstalledPlugin :=
  match s.installedPlugins.get? id with
  | none => (.error (.pluginNotInstalled id), s)
  | some removed =>
    let dropped : KernelState := { s with
      installedPlugins := s.installedPlugins.remove id
      plugins := s.plugins.remove id
      toolRuntimeConfigs := s.toolRuntimeConfigs.remove id
      adapterRuntimeConfigs := s.adapterRuntimeConfigs.remove id }
    (.ok removed, kernelAudit dropped "plugin:remove" "plugin" id)

inductive BundledRefresh where
  | added
  | updated
  | unchanged
  | skippedUserInstalled
  deriving DecidableEq

def refreshBundledPlugin (s : KernelState) (manifest : PluginManifest)
    (sourceLabel installDir : String) : BundledRefresh × KernelState :=
  match s.installedPlugins.get? manifest.id with
  | none => (.added, installPlugin s manifest .bundled sourceLabel installDir true)
  | some existing =>
    if existing.sourceKind ≠ .bundled then (.skippedUserInstalled, s)
    else
      let metaSame := existing.version = manifest.version ∧ existing.installDir = installDir ∧
        existing.sourceLabel = sourceLabel
      if metaSame ∧ s.plugins.get? manifest.id = some manifest then (.unchanged, s)
      else (.updated, installPlugin s manifest .bundled sourceLabel installDir existing.enabled)

def upsertTool (tool : ToolDefinition) : List ToolDefinition → List ToolDefinition
  | [] => [tool]
  | t :: ts => if t.name = tool.name then tool :: ts else t :: upsertTool tool ts

def PluginManifest.withTool (m : PluginManifest) (tool : ToolDefinition) : PluginManifest :=
  { m with
    tools := upsertTool tool m.tools
    permissions := if m.permissions.any (· == tool.permission) then m.permissions
      else m.permissions ++ [tool.permission] }

def PluginKind.debug : PluginKind → String
  | .adapter => "Adapter"
  | .toolSet => "ToolSet"
  | .serviceProvider => "ServiceProvider"
  | .executionEnvironment => "ExecutionEnvironment"
  | .memoryProvider => "MemoryProvider"
  | .policyProvider => "PolicyProvider"
  | .observabilityProvider => "ObservabilityProvider"
  | .uiExtension => "UiExtension"
  | .workflowExtension => "WorkflowExtension"
  | .integrationBridge => "IntegrationBridge"

/-- The manifest a tool may be configured on: of an installed plugin that is not bundled. -/
def configurableManifest (s : KernelState) (pluginId : PluginId) :
    Except KernelError PluginManifest :=
  match s.installedPlugins.get? pluginId with
  | none => .error (.pluginNotInstalled pluginId)
  | some installed =>
    if installed.sourceKind = .bundled then .error (.bundledPluginProtected pluginId)
    else match s.plugins.get? pluginId with
      | none => .error (.pluginNotInstalled pluginId)
      | some manifest => .ok manifest

def updatedManifest (m : PluginManifest) (pluginId : PluginId) (tool : ToolDefinition)
    (what : String) : Except KernelError PluginManifest :=
  if m.kind ≠ .toolSet then
    .error (.pluginNotToolConfigurable pluginId ("only ToolSet plugins can have " ++ what ++
      " configured here; this plugin is a " ++ m.kind.debug))
  else match validateManifest (m.withTool tool) with
    | .error source => .error (.manifestInvalid pluginId source)
    | .ok _ => .ok (m.withTool tool)

def configurePluginTool (s : KernelState) (pluginId : PluginId) (input : PluginToolInput) :
    Outcome ToolDefinition :=
  match s.installedPlugins.get? pluginId with
  | none => (.error (.pluginNotInstalled pluginId), s)
  | some installed =>
    if installed.sourceKind = .bundled then (.error (.bundledPluginProtected pluginId), s)
    else match input.intoToolDefinition pluginId with
      | .error message => (.error (.invalidToolDefinition pluginId message), s)
      | .ok tool =>
        match s.plugins.get? pluginId with
        | none => (.error (.pluginNotInstalled pluginId), s)
        | some manifest =>
          match updatedManifest manifest pluginId tool "tools" with
          | .error e => (.error e, s)
          | .ok updated =>
            let s := { s with plugins := s.plugins.insert pluginId updated }
            (.ok tool, kernelAudit s "plugin:tool_configure" "plugin" pluginId)

/-- The manifest without a tool, and without its permission when no other tool needs it. -/
def PluginManifest.withoutTool (m : PluginManifest) (toolName : String) : PluginManifest :=
  let tools := m.tools.filter (fun t => t.name != toolName)
  { m with
    tools := tools
    permissions := match m.tools.find? (fun t => t.name == toolName) with
      | none => m.permissions
      | some removed =>
        if tools.any (fun t => t.permission == removed.permission) then m.permissions
        else m.permissions.filter (· != removed.permission) }

def removePluginTool (s : KernelState) (pluginId : PluginId) (toolName : String) :
    Outcome Unit :=
  match configurableManifest s pluginId with
  | .error e => (.error e, s)
  | .ok manifest =>
    let updated := manifest.withoutTool toolName
    if updated.tools.length = manifest.tools.length then
      (.error (.pluginToolNotFound pluginId toolName), s)
    else match validateManifest updated with
      | .error source => (.error (.manifestInvalid pluginId source), s)
      | .ok _ =>
        let s := { s with
          plugins := s.plugins.insert pluginId updated
          commandToolConfigs := s.commandToolConfigs.remove (pluginId, toolName) }
        (.ok (), kernelAudit s "plugin:tool_remove" "plugin" pluginId)

def configureCommandTool (s : KernelState) (pluginId : PluginId) (draft : CommandToolDraft) :
    Outcome ToolDefinition :=
  match s.installedPlugins.get? pluginId with
  | none => (.error (.pluginNotInstalled pluginId), s)
  | some installed =>
    if installed.sourceKind = .bundled then (.error (.bundledPluginProtected pluginId), s)
    else match validateCommandToolConfig (draft.intoCommandConfig pluginId) with
      | .error message => (.error (.invalidToolDefinition pluginId message), s)
      | .ok _ =>
        match draft.intoToolDefinition pluginId with
        | .error message => (.error (.invalidToolDefinition pluginId message), s)
        | .ok tool =>
          match s.plugins.get? pluginId with
          | none => (.error (.pluginNotInstalled pluginId), s)
          | some manifest =>
            match updatedManifest manifest pluginId tool "command tools" with
            | .error e => (.error e, s)
            | .ok updated =>
              let s := { s with
                plugins := s.plugins.insert pluginId updated
                commandToolConfigs := s.commandToolConfigs.insert (pluginId, tool.name)
                  (draft.intoCommandConfig pluginId) }
              (.ok tool, kernelAudit s "plugin:command_tool_configure" "plugin" pluginId)

def removeCommandTool (s : KernelState) (pluginId : PluginId) (toolName : String) :
    Outcome Unit :=
  if (s.commandToolConfigs.get? (pluginId, toolName)).isNone then
    (.error (.pluginToolNotFound pluginId toolName), s)
  else removePluginTool s pluginId toolName

def clampRuntimeTimeout (timeoutMs : Option Nat) : Nat := max 100 (min (timeoutMs.getD 5000) 60000)

def configureToolRuntime (w : World) (s : KernelState) (pluginId : PluginId)
    (baseUrl : String) (enabled : Bool) (timeoutMs : Option Nat) : Outcome ToolRuntimeConfig :=
  match s.installedPlugins.get? pluginId with
  | none => (.error (.pluginNotInstalled pluginId), s)
  | some installed =>
    if installed.sourceKind = .bundled then
      (.error (.invalidRuntimeConfig pluginId ("bundled plugins already run as built-in " ++
        "deterministic tools; configuring a loopback runtime for them is not allowed")), s)
    else match w.validateLoopbackUrl (trim baseUrl) with
      | .error e => (.error (.invalidRuntimeConfig pluginId e), s)
      | .ok _ =>
        let config : ToolRuntimeConfig :=
          ⟨pluginId, trim baseUrl, enabled, clampRuntimeTimeout timeoutMs⟩
        let s := kernelAudit s "plugin:runtime_configure" "plugin" pluginId
        (.ok config, { s with toolRuntimeConfigs := s.toolRuntimeConfigs.insert pluginId config })

def disableToolRuntime (s : KernelState) (pluginId : PluginId) : Outcome Unit :=
  match s.toolRuntimeConfigs.get? pluginId with
  | none => (.error (.runtimeNotConfigured pluginId), s)
  | some _ =>
    let s := { s with toolRuntimeConfigs :=
      s.toolRuntimeConfigs.modify pluginId (fun c => { c with enabled := false }) }
    (.ok (), kernelAudit s "plugin:runtime_disable" "plugin" pluginId)

def removeToolRuntime (s : KernelState) (pluginId : PluginId) : Outcome Unit :=
  match s.toolRuntimeConfigs.get? pluginId with
  | none => (.error (.runtimeNotConfigured pluginId), s)
  | some _ =>
    let s := { s with toolRuntimeConfigs := s.toolRuntimeConfigs.remove pluginId }
    (.ok (), kernelAudit s "plugin:runtime_remove" "plugin" pluginId)

def clampAdapterTimeout (t : Option Nat) : Nat := max 5 (min (t.getD 120) 1800)
def clampAdapterMaxOutput (b : Option Nat) : Nat := max 1024 (min (b.getD 1000000) 16000000)

def mergeText (requested existing : Option String) : Option String :=
  match (requested.map trim).filter (fun t => !t.isEmpty) with
  | some t => some t
  | none => existing

structure AdapterRuntimeRequest where
  enabled : Option Bool
  command : Option String
  timeoutSeconds : Option Nat
  maxOutputBytes : Option Nat
  workingDir : Option String

def mergeAdapterRuntime (pluginId : PluginId) (kind : AdapterKind)
    (existing : Option AdapterRuntimeConfig) (r : AdapterRuntimeRequest) :
    AdapterRuntimeConfig where
  pluginId := pluginId
  kind := kind
  enabled := (r.enabled.or (existing.map (·.enabled))).getD false
  command := mergeText r.command (existing.bind (·.command))
  timeoutSeconds := clampAdapterTimeout (r.timeoutSeconds.or (existing.map (·.timeoutSeconds)))
  maxOutputBytes := clampAdapterMaxOutput
    (r.maxOutputBytes.or (existing.map (·.maxOutputBytes)))
  workingDir := mergeText r.workingDir (existing.bind (·.workingDir))

def configureAdapterRuntime (s : KernelState) (pluginId : PluginId)
    (r : AdapterRuntimeRequest) : Outcome AdapterRuntimeConfig :=
  match s.plugins.get? pluginId with
  | none => (.error (.pluginNotInstalled pluginId), s)
  | some manifest =>
    if manifest.kind ≠ .adapter then (.error (.notAnAdapter pluginId), s)
    else if recognizeAdapterKind pluginId = some .localPrime then
      (.error (.adapterNotConfigurable pluginId ("the local Prime adapter runs the " ++
        "deterministic echo path and has no external CLI to configure")), s)
    else
      let config := mergeAdapterRuntime pluginId
        ((recognizeAdapterKind pluginId).getD .command)
        (s.adapterRuntimeConfigs.get? pluginId) r
      if config.resolvedCommand.isNone then
        (.error (.invalidAdapterConfig pluginId
          "a generic command adapter requires an explicit command"), s)
      else
        let s := kernelAudit s "adapter:runtime_configure" "adapter" pluginId
        (.ok config, { s with
          adapterRuntimeConfigs := s.adapterRuntimeConfigs.insert pluginId config })

def disableAdapterRuntime (s : KernelState) (pluginId : PluginId) : Outcome Unit :=
  match s.adapterRuntimeConfigs.get? pluginId with
  | none => (.error (.adapterRuntimeNotConfigured pluginId), s)
  | some _ =>
    let s := { s with adapterRuntimeConfigs :=
      s.adapterRuntimeConfigs.modify pluginId (fun c => { c with enabled := false }) }
    (.ok (), kernelAudit s "adapter:runtime_disable" "adapter" pluginId)

def removeAdapterRuntime (s : KernelState) (pluginId : PluginId) : Outcome Unit :=
  match s.adapterRuntimeConfigs.get? pluginId with
  | none => (.error (.adapterRuntimeNotConfigured pluginId), s)
  | some _ =>
    let s := { s with adapterRuntimeConfigs := s.adapterRuntimeConfigs.remove pluginId }
    (.ok (), kernelAudit s "adapter:runtime_remove" "adapter" pluginId)

def maxMcpIdChars : Nat := 64

def validateMcpServerConfig (w : World) (c : McpServerConfig) : Except String Unit :=
  let id := c.id.toList
  if id.isEmpty then .error "MCP server id must not be empty"
  else if id.length > maxMcpIdChars then
    .error "MCP server id is too long (max 64 chars)"
  else if ¬ id.all (fun c => c.isAlphanum || c == '.' || c == '-' || c == '_') then
    .error ("MCP server id must use only letters, digits, '.', '-' or '_' (no spaces or path " ++
      "separators)")
  else match w.validateLoopbackUrl c.endpoint with
    | .error e => .error ("MCP server endpoint is not a valid loopback URL: " ++ e)
    | .ok _ => .ok ()

def clampMcpTimeout (timeoutMs : Option Nat) : Nat := max 100 (min (timeoutMs.getD 10000) 60000)

def registerMcpServer (w : World) (s : KernelState) (id endpoint : String) (enabled : Bool)
    (timeoutMs : Option Nat) : Outcome McpServerConfig :=
  let overrides := match s.mcpServers.get? (trim id) with
    | some existing => existing.toolOverrides
    | none => .empty
  let config : McpServerConfig :=
    ⟨trim id, trim endpoint, enabled, clampMcpTimeout timeoutMs, overrides⟩
  match validateMcpServerConfig w config with
  | .error message => (.error (.invalidMcpConfig (trim id) message), s)
  | .ok _ =>
    let s := kernelAudit s "mcp:server_register" "mcp_server" config.id
    (.ok config, { s with mcpServers := s.mcpServers.insert config.id config })

def setMcpServerEnabled (s : KernelState) (id : String) (enabled : Bool) : Outcome Unit :=
  match s.mcpServers.get? id with
  | none => (.error (.unknownMcpServer id), s)
  | some _ =>
    let s := { s with
      mcpServers := s.mcpServers.modify id (fun c => { c with enabled := enabled }) }
    (.ok (), kernelAudit s (if enabled then "mcp:server_enable" else "mcp:server_disable")
      "mcp_server" id)

def removeMcpServer (s : KernelState) (id : String) : Outcome Unit :=
  match s.mcpServers.get? id with
  | none => (.error (.unknownMcpServer id), s)
  | some _ =>
    (.ok (), kernelAudit { s with mcpServers := s.mcpServers.remove id }
      "mcp:server_remove" "mcp_server" id)

def McpServerConfig.classify (c : McpServerConfig) (toolName : String) (risk : RiskLevel)
    (approval : ApprovalRequirement) : McpServerConfig :=
  { c with toolOverrides := c.toolOverrides.insert toolName ⟨risk, approval⟩ }

def McpServerConfig.unclassify (c : McpServerConfig) (toolName : String) : McpServerConfig :=
  { c with toolOverrides := c.toolOverrides.remove toolName }

def setMcpToolClassification (s : KernelState) (serverId toolName : String)
    (risk : RiskLevel) (approval : ApprovalRequirement) : Outcome Unit :=
  if ¬ isValidMcpToolName toolName then (.error (.invalidMcpToolName serverId toolName), s)
  else match s.mcpServers.get? serverId with
    | none => (.error (.unknownMcpServer serverId), s)
    | some _ =>
      let s := { s with
        mcpServers := s.mcpServers.modify serverId (·.classify toolName risk approval) }
      (.ok (), kernelAudit s "mcp:tool_classify" "mcp_tool" toolName)

def clearMcpToolClassification (s : KernelState) (serverId toolName : String) :
    Outcome Unit :=
  match s.mcpServers.get? serverId with
  | none => (.error (.unknownMcpServer serverId), s)
  | some _ =>
    let s := { s with mcpServers := s.mcpServers.modify serverId (·.unclassify toolName) }
    (.ok (), kernelAudit s "mcp:tool_unclassify" "mcp_tool" toolName)

end Relux
