import Relux.KernelState

/-! The tool surface: which permission, risk and approval a tool has now, what a call of
it reaches, and the two direct paths to it. -/

namespace Relux

/-- The loop of `sanitize_identifier`, with its output reversed. -/
def sanitizeLoop (sep : Char) (out : List Char) (lastSep : Bool) : List Char → List Char
  | [] => out.reverse
  | c :: cs =>
    if c.isAlphanum || c == '_' || c == '-' then sanitizeLoop sep (c :: out) false cs
    else if !lastSep && !out.isEmpty then sanitizeLoop sep (sep :: out) true cs
    else sanitizeLoop sep out lastSep cs

def sanitizeIdentifier (s : List Char) (sep : Char) : List Char :=
  trimMatches (fun c => c == '-' || c == '_')
    (sanitizeLoop sep [] false (toAsciiLowercase (trimChars s)))

def deriveVerb (name : List Char) : List Char :=
  let tail := ((splitFields (· == '.') name).getLast?).getD name
  let candidate := if tail.isEmpty then name else tail
  let kept := ((toAsciiLowercase (trimChars candidate)).map
    (fun c => if c == '-' then '_' else c)).filter (fun c => c.isAlphanum || c == '_')
  let verb := trimMatches (· == '_') kept
  if verb.isEmpty then "tool".toList else verb

def mcpToolPermission (serverId toolName : String) : String :=
  "tool:mcp-" ++ String.ofList (sanitizeIdentifier serverId.toList '-') ++ ":" ++
    String.ofList (deriveVerb toolName.toList)

def maxMcpToolNameChars : Nat := 128

def isValidMcpToolName (name : String) : Bool :=
  let chars := trimChars name.toList
  !chars.isEmpty && chars.length ≤ maxMcpToolNameChars &&
    chars.all (fun c => c.isAlphanum || c == '.' || c == '-' || c == '_')

def sourceReadPermission : String := "plugin:source:read"

def isSourceTool (name : String) : Bool :=
  ["plugin.summary", "plugin.inspect", "plugin.search", "plugin.read_file"].contains name

def isInternalPlugin (pluginId : PluginId) : Bool := pluginId == "relux-tools-echo"

def isMcpPlugin (pluginId : PluginId) : Bool := "mcp:".toList.isPrefixOf pluginId.toList

def mcpServerForPlugin (s : KernelState) (pluginId : PluginId) : Option McpServerConfig :=
  match "mcp:".toList.isPrefixOf? pluginId.toList with
  | none => none
  | some serverId => s.mcpServers.get? (String.ofList serverId)

def toolDefinition (s : KernelState) (pluginId : PluginId) (toolName : String) :
    Option ToolDefinition :=
  (s.plugins.get? pluginId).bind (fun m => m.tools.find? (fun t => t.name == toolName))

/-- A source tool of an installed plugin that is neither bundled nor an internal fixture. -/
def isPluginLens (s : KernelState) (pluginId : PluginId) (toolName : String) : Bool :=
  isSourceTool toolName && (match s.installedPlugins.get? pluginId with
    | none => false
    | some installed => installed.sourceKind != .bundled && !isInternalPlugin pluginId)

def resolveToolPermission (s : KernelState) (agentId : AgentId) (pluginId : PluginId)
    (toolName : String) : Except KernelError Permission :=
  match s.agents.get? agentId with
  | none => .error (.unknownAgent agentId)
  | some _ =>
    if isMcpPlugin pluginId then
      match mcpServerForPlugin s pluginId with
      | none => .error (.unknownMcpServer
          (String.ofList (("mcp:".toList.isPrefixOf? pluginId.toList).getD pluginId.toList)))
      | some server =>
        if ¬ isValidMcpToolName toolName then .error (.invalidMcpToolName server.id toolName)
        else match Permission.new (mcpToolPermission server.id toolName) with
          | .error e => .error (.invalidMcpToolName server.id (toolName ++ ": " ++ e.text))
          | .ok required => .ok required
    else if isPluginLens s pluginId toolName then
      match Permission.new sourceReadPermission with
      | .error _ => .error (.toolNotFound pluginId toolName)
      | .ok required => .ok required
    else match s.plugins.get? pluginId with
      | none => .error (.unknownPlugin pluginId)
      | some manifest =>
        match manifest.tools.find? (fun t => t.name == toolName) with
        | none => .error (.toolNotFound pluginId toolName)
        | some tool => .ok tool.permission

def toolNeedsApproval (s : KernelState) (pluginId : PluginId) (toolName : String) : Bool :=
  match mcpServerForPlugin s pluginId with
  | some server =>
    let c := server.toolClassification toolName
    approvalBlocksDirectInvocation c.approval c.risk
  | none =>
    match toolDefinition s pluginId toolName with
    | some t => approvalBlocksDirectInvocation t.approval t.risk
    | none => false

def toolRiskFor (s : KernelState) (pluginId : PluginId) (toolName : String) : RiskLevel :=
  match mcpServerForPlugin s pluginId with
  | some server => (server.toolClassification toolName).risk
  | none =>
    match toolDefinition s pluginId toolName with
    | some t => t.risk
    | none => .high

def agentHoldsPermission (s : KernelState) (agentId : AgentId) (permission : Permission) :
    Bool :=
  match s.agents.get? agentId with
  | none => false
  | some a => a.permissions.any (·.authorizes permission)

def grantTerms (s : KernelState) (pluginId : PluginId) (toolName : String) :
    Option (String × RiskLevel) :=
  match mcpServerForPlugin s pluginId with
  | some server =>
    some (mcpToolPermission server.id toolName, (server.toolClassification toolName).risk)
  | none => (toolDefinition s pluginId toolName).map (fun t => (t.permission.asStr, t.risk))

def findGrant (s : KernelState) (subject : AgentId) (pluginId : PluginId)
    (toolName permission : String) (risk : RiskLevel) : Option PersistentGrant :=
  s.persistentGrants.values.find?
    (·.authorizesInvocation subject pluginId toolName permission risk)

def matchingPersistentGrantId (s : KernelState) (subject : AgentId) (pluginId : PluginId)
    (toolName : String) : Option String :=
  match grantTerms s pluginId toolName with
  | none => none
  | some (permission, risk) =>
    (findGrant s subject pluginId toolName permission risk).map (·.id)

def recordPersistentGrantUse (s : KernelState) (grantId : String) (agentId : AgentId) :
    KernelState :=
  let used : KernelState := { s.tick with
    persistentGrants := s.persistentGrants.modify grantId
      (fun g => { g with lastUsedAt := some s.stamp }) }
  recordAudit used "agent" agentId "grant:use" (some "grant") (some grantId) .success

def builtinToolOutput (w : World) (pluginId : PluginId) (toolName : String) (input : Json) :
    Option Json :=
  if pluginId = "relux-tools-echo" ∧ toolName = "echo.say" then some input
  else if pluginId = "relux-tools-status" ∧ toolName = "status.summary" then some w.stateSummary
  else none

def runTarget (w : World) (s : KernelState) (pluginId : PluginId) (toolName : String)
    (target : ToolTarget) (input : Json) : Except KernelError Json :=
  match w.toolRuntime s.clock target toolName input with
  | .ok output => .ok output
  | .error message => .error (.toolRuntimeInvocation pluginId toolName message)

def executeToolRuntime (w : World) (s : KernelState) (pluginId : PluginId)
    (toolName : String) (input : Json) : Except KernelError Json :=
  match mcpServerForPlugin s pluginId with
  | some server =>
    if ¬ server.enabled then .error (.mcpServerDisabled server.id)
    else if ¬ isValidMcpToolName toolName then .error (.invalidMcpToolName server.id toolName)
    else runTarget w s pluginId toolName (.mcp server) input
  | none =>
    if isSourceTool toolName then
      match s.installedPlugins.get? pluginId with
      | none => .error (.pluginNotInstalled pluginId)
      | some installed => runTarget w s pluginId toolName (.source installed.installDir) input
    else match builtinToolOutput w pluginId toolName input with
      | some output => .ok output
      | none =>
        match s.commandToolConfigs.get? (pluginId, toolName) with
        | some cfg =>
          if ¬ cfg.enabled then .error (.toolRuntimeDisabled pluginId)
          else match s.installedPlugins.get? pluginId with
            | none => .error (.pluginNotInstalled pluginId)
            | some p => runTarget w s pluginId toolName (.command cfg p.installDir) input
        | none =>
          match s.toolRuntimeConfigs.get? pluginId with
          | none => .error (.toolRuntimeUnavailable pluginId toolName)
          | some cfg =>
            if ¬ cfg.enabled then .error (.toolRuntimeDisabled pluginId)
            else runTarget w s pluginId toolName (.loopback cfg) input

def toolCallKind (mcp : Bool) (suffix : String) : String :=
  if mcp then "mcp_tool_call" ++ suffix else "tool_call" ++ suffix

def auditTool (s : KernelState) (actorType actorId : String) (required : Permission)
    (toolName : String) (result : AuditResult) : KernelState :=
  recordAudit s actorType actorId required.asStr (some "tool") (some toolName) result

def denyToolCall (w : World) (s : KernelState) (runId : RunId) (agentId : AgentId)
    (pluginId : PluginId) (toolName : String) (required : Permission) (why : String) :
    KernelState :=
  let mcp := (mcpServerForPlugin s pluginId).isSome
  let message := if mcp then "denied MCP tool " ++ toolName ++ " via " ++ pluginId ++ ": " ++ why
    else "denied " ++ toolName ++ ": " ++ why
  auditTool (pushRunEvent w s runId (toolCallKind mcp "_denied") "kernel" message)
    "agent" agentId required toolName .denied

/-- The gates of `call_tool`: the permission, then an approval or a standing grant. -/
def callToolAdmit (w : World) (s : KernelState) (runId : RunId) (agentId : AgentId)
    (pluginId : PluginId) (toolName : String) : Outcome Permission :=
  match resolveToolPermission s agentId pluginId toolName with
  | .error e => (.error e, s)
  | .ok required =>
    if ¬ agentHoldsPermission s agentId required then
      (.error (.permissionDenied agentId required.asStr),
        denyToolCall w s runId agentId pluginId toolName required
          ("agent lacks " ++ required.asStr))
    else if toolNeedsApproval s pluginId toolName then
      match matchingPersistentGrantId s agentId pluginId toolName with
      | some grantId => (.ok required, recordPersistentGrantUse s grantId agentId)
      | none =>
        (.error (.toolRequiresApproval pluginId toolName),
          denyToolCall w s runId agentId pluginId toolName required "requires approval")
    else (.ok required, s)

def callTool (w : World) (s : KernelState) (runId : RunId) (agentId : AgentId)
    (pluginId : PluginId) (toolName : String) (input : Json) : Outcome Json :=
  match callToolAdmit w s runId agentId pluginId toolName with
  | (.error e, s) => (.error e, s)
  | (.ok required, s) =>
    let mcp := (mcpServerForPlugin s pluginId).isSome
    match executeToolRuntime w s pluginId toolName input with
    | .error e =>
      let message :=
        if mcp then "MCP tool " ++ toolName ++ " via " ++ pluginId ++ " did not run: " ++
          w.redactSecrets e.text
        else toolName ++ " on " ++ pluginId ++ " did not run: " ++ e.text
      (.error e, auditTool
        (pushRunEvent w s runId (toolCallKind mcp "_failed") "kernel" message)
        "agent" agentId required toolName .failed)
    | .ok output =>
      let message :=
        if mcp then "called MCP tool " ++ toolName ++ " via " ++ pluginId
        else "called " ++ toolName ++ " via " ++ pluginId
      (.ok output, auditTool (pushRunEvent w s runId (toolCallKind mcp "") agentId message)
        "agent" agentId required toolName .success)

structure ToolInvocationResult where
  pluginId : PluginId
  toolName : String
  agentId : AgentId
  permission : String
  output : Json

/-- The gates of `invoke_tool`. -/
def invokeToolAdmit (s : KernelState) (agentId : AgentId) (pluginId : PluginId)
    (toolName : String) : Outcome Permission :=
  match resolveToolPermission s agentId pluginId toolName with
  | .error e => (.error e, s)
  | .ok required =>
    if ¬ agentHoldsPermission s agentId required then
      (.error (.permissionDenied agentId required.asStr),
        auditTool s "agent" agentId required toolName .denied)
    else if toolNeedsApproval s pluginId toolName then
      match matchingPersistentGrantId s agentId pluginId toolName with
      | some grantId => (.ok required, recordPersistentGrantUse s grantId agentId)
      | none =>
        (.error (.toolRequiresApproval pluginId toolName),
          auditTool s "agent" agentId required toolName .denied)
    else (.ok required, s)

def invokeTool (w : World) (s : KernelState) (agentId : AgentId) (pluginId : PluginId)
    (toolName : String) (input : Json) : Outcome ToolInvocationResult :=
  match invokeToolAdmit s agentId pluginId toolName with
  | (.error e, s) => (.error e, s)
  | (.ok required, s) =>
    match executeToolRuntime w s pluginId toolName input with
    | .error e => (.error e, auditTool s "agent" agentId required toolName .failed)
    | .ok output =>
      (.ok ⟨pluginId, toolName, agentId, required.asStr, output⟩,
        auditTool s "agent" agentId required toolName .success)

/-! Approvals: raising and deciding one, the tool call bound to it, and the standing grants
that let a later call pass without one. -/

def requestApproval (s : KernelState) (requestedBy action reason : String) (risk : RiskLevel) :
    ApprovalId × KernelState :=
  let id := approvalIdOf (s.nextApproval + 1)
  let approval : Approval := ⟨id, requestedBy, action, reason, risk, .pending, none, s.stamp,
    none, none⟩
  let s := recordAudit { s.tick with nextApproval := s.nextApproval + 1 }
    "agent" requestedBy "approval:request" (some "approval") (some id) .success
  (id, { s with approvals := s.approvals.insert id approval })

def resolveApproval (s : KernelState) (id : ApprovalId) (approve : Bool) (approver : String)
    (note : Option String) : Outcome Unit :=
  let ticked := s.tick
  match s.approvals.get? id with
  | none => (.error (.unknownApproval id), ticked)
  | some _ =>
    let decided := { ticked with approvals := s.approvals.modify id (fun a =>
      { a with
        status := if approve then .approved else .rejected
        approvedBy := some approver
        resolvedAt := some s.stamp
        note := note }) }
    let freed := if approve then decided else { decided with
      pendingToolInvocations := s.pendingToolInvocations.remove id }
    (.ok (), recordAudit freed "user" approver "approval:resolve" (some "approval") (some id)
      (if approve then .approved else .rejected))

def maxToolInvocationArgsBytes : Nat := 256 * 1024

def requestToolInvocationApproval (w : World) (s : KernelState) (requestedBy : String)
    (agentId : AgentId) (pluginId : PluginId) (toolName : String) (input : Json) :
    Outcome ApprovalId :=
  match resolveToolPermission s agentId pluginId toolName with
  | .error e => (.error e, s)
  | .ok required =>
    if ¬ agentHoldsPermission s agentId required then
      (.error (.permissionDenied agentId required.asStr),
        auditTool s "user" requestedBy required toolName .denied)
    else if ¬ toolNeedsApproval s pluginId toolName then
      (.error (.toolDoesNotRequireApproval pluginId toolName), s)
    else
      let body := w.jsonBytes input
      if body.length > maxToolInvocationArgsBytes then
        (.error (.toolInvocationArgsTooLarge pluginId toolName body.length
          maxToolInvocationArgsBytes), s)
      else
        let risk := toolRiskFor s pluginId toolName
        let argsSha256 := w.sha256Hex body
        let action := "invoke tool " ++ toolName ++ " on " ++ pluginId ++ " (as " ++ agentId ++ ")"
        let reason := risk.debug ++ "-risk per-call tool invocation requested by " ++
          requestedBy ++ "; args sha256 " ++ String.ofList (argsSha256.toList.take 12) ++ "…"
        let requested := requestApproval s requestedBy action reason risk
        let binding : PendingToolInvocation := ⟨requested.1, pluginId, toolName, agentId,
          required.asStr, input, argsSha256, requestedBy, risk, s.stamp, false⟩
        let bound := { requested.2 with pendingToolInvocations :=
          requested.2.pendingToolInvocations.insert requested.1 binding }
        (.ok requested.1, recordAudit bound "user" requestedBy "tool_invocation:request"
          (some "approval") (some requested.1) .success)

/-- The gates of an approved call: the approval, the binding, the digest of its arguments
and the permission. Passing them consumes the binding, before anything runs. -/
def executeApprovedAdmit (w : World) (s : KernelState) (id : ApprovalId)
    (executedBy : String) : Outcome (PendingToolInvocation × Permission) :=
  match s.approvals.get? id with
  | none => (.error (.unknownApproval id), s)
  | some approval =>
    if approval.status ≠ .approved then
      (.error (.toolInvocationNotApproved id approval.status.label), s)
    else match s.pendingToolInvocations.get? id with
      | none => (.error (.noBoundToolInvocation id), s)
      | some binding =>
        if binding.consumed then (.error (.toolInvocationConsumed id), s)
        else if w.sha256Hex (w.jsonBytes binding.input) ≠ binding.argsSha256 then
          (.error (.toolInvocationArgsTampered id), s)
        else match resolveToolPermission s binding.agentId binding.pluginId binding.toolName with
          | .error e => (.error e, s)
          | .ok required =>
            if ¬ agentHoldsPermission s binding.agentId required then
              (.error (.permissionDenied binding.agentId required.asStr),
                auditTool s "user" executedBy required binding.toolName .denied)
            else
              let s := { s with pendingToolInvocations :=
                s.pendingToolInvocations.modify id (fun b => { b with consumed := true }) }
              (.ok (binding, required), s)

def executeApprovedToolInvocation (w : World) (s : KernelState) (id : ApprovalId)
    (executedBy : String) : Outcome ToolInvocationResult :=
  match executeApprovedAdmit w s id executedBy with
  | (.error e, s) => (.error e, s)
  | (.ok (b, required), s) =>
    match executeToolRuntime w s b.pluginId b.toolName b.input with
    | .error e => (.error e, auditTool s "user" executedBy required b.toolName .failed)
    | .ok output =>
      (.ok ⟨b.pluginId, b.toolName, b.agentId, required.asStr, output⟩,
        auditTool s "user" executedBy required b.toolName .success)

def grantPersistentToolInvocation (s : KernelState) (createdBy : String)
    (subjectAgent : AgentId) (pluginId : PluginId) (toolName : String) :
    Outcome PersistentGrant :=
  match resolveToolPermission s subjectAgent pluginId toolName with
  | .error e => (.error e, s)
  | .ok required =>
    if ¬ agentHoldsPermission s subjectAgent required then
      (.error (.permissionDenied subjectAgent required.asStr),
        auditTool s "user" createdBy required toolName .denied)
    else if ¬ toolNeedsApproval s pluginId toolName then
      (.error (.toolDoesNotRequireApproval pluginId toolName), s)
    else
      let risk := toolRiskFor s pluginId toolName
      match findGrant s subjectAgent pluginId toolName required.asStr risk with
      | some existing => (.ok existing, s)
      | none =>
        let id := grantIdOf (s.nextGrant + 1)
        let grant : PersistentGrant := ⟨id, createdBy, subjectAgent, pluginId, toolName,
          required.asStr, risk, s.stamp, none⟩
        let s := { s.tick with
          nextGrant := s.nextGrant + 1
          persistentGrants := s.persistentGrants.insert id grant }
        (.ok grant, recordAudit s "user" createdBy "grant:create" (some "grant") (some id)
          .success)

def revokePersistentGrant (s : KernelState) (id revokedBy : String) : Outcome Unit :=
  match s.persistentGrants.get? id with
  | none => (.error (.unknownPersistentGrant id), s)
  | some _ =>
    let s := { s with persistentGrants := s.persistentGrants.remove id }
    (.ok (), recordAudit s "user" revokedBy "grant:revoke" (some "grant") (some id) .success)

/-- A standing grant from the call an approval is bound to, and then the approval itself. -/
def allowAlwaysFromApproval (s : KernelState) (id : ApprovalId) (approver : String) :
    Outcome PersistentGrant :=
  match s.pendingToolInvocations.get? id with
  | none => (.error (.noBoundToolInvocation id), s)
  | some binding =>
    match grantPersistentToolInvocation s approver binding.agentId binding.pluginId
        binding.toolName with
    | (.error e, s) => (.error e, s)
    | (.ok grant, s) =>
      match resolveApproval s id true approver none with
      | (.error e, s) => (.error e, s)
      | (.ok _, s) => (.ok grant, s)

end Relux
