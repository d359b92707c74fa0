import Relux.Admission.AgentStore
import Relux.Branch
import Relux.Numbers

/-! The coordinator's agent profiles: their making, the update of one field, the hire flow and
the org tree of `reports_to`. -/

namespace Relux.Roster

open Admission (AgentStoreError normTenant)

structure AgentProfile where
  agentId : String
  name : String
  role : String
  title : String
  department : String
  team : String
  createdBy : String
  status : String
  subjectId : String
  surfaceAllowlist : List String
  riskCeiling : String
  allowCategories : List String
  denyCategories : List String
  allowSensitivityTags : List String
  denySensitivityTags : List String
  approvalRequiredCategories : List String
  authorizedApprovers : List String
  approvalTimeoutSecs : Int
  profile : Option String
  reportsTo : Option String
  rig : Option String
  monthlyAllowanceCents : Option Int
  maxConcurrentRuns : Int
  wakeOnTimer : Bool
  wakeOnDemand : Bool
  canSpawnAgents : Bool
  spawnRoute : String
  canAssignWork : Bool
  assignScope : String
  assignAllowedAgents : List String
  canManageWork : Bool
  manageScope : String
  manageAllowedAgents : List String
  canConfigureAgents : Bool
  configureScope : String
  configureAllowedAgents : List String
  secretAllowlist : List String
  instructionBundle : String
  modelPreference : Option String
  reasoningEffort : Option String
  createdAt : Int
  updatedAt : Int
  tenantId : String
  deriving DecidableEq

abbrev Profiles := HashMap String AgentProfile

def isKnownRisk (s : String) : Bool := ["safe", "low", "medium", "high", "critical"].contains s

def isKnownEffort (s : String) : Bool := ["minimal", "low", "medium", "high"].contains s

def defaultApprovalCategories : List String :=
  ["payments", "production_deploy", "credentials:read", "email:send", "external_api:write",
    "browser.form_submit"]

structure NewAgent where
  name : String
  role : String
  title : String
  department : String
  team : String
  createdBy : String
  subjectId : String
  riskCeiling : String
  tenantId : String

def NewAgent.blank (input : NewAgent) : Option String :=
  ([("name", input.name), ("role", input.role), ("title", input.title),
    ("department", input.department), ("team", input.team), ("created_by", input.createdBy),
    ("subject_id", input.subjectId)].find? (fun e => (trim e.2).isEmpty)).map (·.1)

def roleSlug (role : String) : String :=
  let slug := trimMatches (· == '_') (role.toList.map (fun c =>
    if c.isAlphanum then c.toLower else '_'))
  if slug.isEmpty then "agent" else String.ofList (slug.take 20)

/-- `suffix` is the random one: eight hexadecimal digits. -/
def newAgentId (role suffix : String) : String := s!"agt_{roleSlug role}_{suffix}"

def NewAgent.row (input : NewAgent) (now : Int) (suffix : String) : AgentProfile where
  agentId := newAgentId input.role suffix
  name := input.name
  role := input.role
  title := input.title
  department := input.department
  team := input.team
  createdBy := input.createdBy
  status := "active"
  subjectId := input.subjectId
  surfaceAllowlist := []
  riskCeiling := input.riskCeiling
  allowCategories := []
  denyCategories := []
  allowSensitivityTags := []
  denySensitivityTags := []
  approvalRequiredCategories := defaultApprovalCategories
  authorizedApprovers := []
  approvalTimeoutSecs := 86400
  profile := none
  reportsTo := none
  rig := none
  monthlyAllowanceCents := none
  maxConcurrentRuns := 20
  wakeOnTimer := true
  wakeOnDemand := true
  canSpawnAgents := false
  spawnRoute := "founder"
  canAssignWork := false
  assignScope := "specific"
  assignAllowedAgents := []
  canManageWork := false
  manageScope := "specific"
  manageAllowedAgents := []
  canConfigureAgents := false
  configureScope := "none"
  configureAllowedAgents := []
  secretAllowlist := []
  instructionBundle := ""
  modelPreference := none
  reasoningEffort := none
  createdAt := now
  updatedAt := now
  tenantId := if (trim input.tenantId).isEmpty then "default" else input.tenantId

namespace Profiles

variable (profiles : Profiles)

def createAgent (now : Int) (suffix : String) (input : NewAgent) :
    Except AgentStoreError (String × Profiles) :=
  match input.blank with
  | some label => .error (.badInput s!"{label} required")
  | none =>
    let row := input.row now suffix
    if !isKnownRisk input.riskCeiling then
      .error (.badInput (s!"risk_ceiling '{input.riskCeiling}' not in " ++
        "safe/low/medium/high/critical"))
    else if (profiles.get? row.agentId).isSome then
      .error (.uniqueViolation "agent_profiles.agent_id")
    else if profiles.values.any (fun p => p.subjectId == input.subjectId) then
      .error (.uniqueViolation "agent_profiles.subject_id")
    else .ok (row.agentId, profiles.insert row.agentId row)

/-- The second store access of `request_hire`. -/
def setPending (now : Int) (agentId : String) : Profiles :=
  profiles.modify agentId (fun p => { p with status := "pending", updatedAt := now })

def requestHire (now : Int) (suffix : String) (input : NewAgent) :
    Except AgentStoreError (String × Profiles) :=
  (profiles.createAgent now suffix input).map (fun r => (r.1, r.2.setPending now r.1))

def bossOf (agentId : String) : Option String := (profiles.get? agentId).bind (·.reportsTo)

def getAgentForTenant (agentId tenant : String) : Option AgentProfile :=
  (profiles.get? agentId).filter (fun p => p.tenantId == normTenant tenant)

def textField : String → Option (String → AgentProfile → AgentProfile)
  | "role" => some (fun v p => { p with role := v })
  | "title" => some (fun v p => { p with title := v })
  | "department" => some (fun v p => { p with department := v })
  | "team" => some (fun v p => { p with team := v })
  | _ => none

def listField : String → Option (List String → AgentProfile → AgentProfile)
  | "surface_allowlist" => some (fun v p => { p with surfaceAllowlist := v })
  | "allow_categories" => some (fun v p => { p with allowCategories := v })
  | "deny_categories" => some (fun v p => { p with denyCategories := v })
  | "allow_sensitivity_tags" => some (fun v p => { p with allowSensitivityTags := v })
  | "deny_sensitivity_tags" => some (fun v p => { p with denySensitivityTags := v })
  | "approval_required_categories" => some (fun v p => { p with approvalRequiredCategories := v })
  | "authorized_approvers" => some (fun v p => { p with authorizedApprovers := v })
  | "assign_allowed_agents" => some (fun v p => { p with assignAllowedAgents := v })
  | "secret_allowlist" => some (fun v p => { p with secretAllowlist := v })
  | "manage_allowed_agents" => some (fun v p => { p with manageAllowedAgents := v })
  | "configure_allowed_agents" => some (fun v p => { p with configureAllowedAgents := v })
  | _ => none

def boolField : String → Option (String × (Bool → AgentProfile → AgentProfile))
  | "wake_on_timer" => some ("wake_on_timer", fun v p => { p with wakeOnTimer := v })
  | "timer_wake" => some ("wake_on_timer", fun v p => { p with wakeOnTimer := v })
  | "wake_on_demand" => some ("wake_on_demand", fun v p => { p with wakeOnDemand := v })
  | "on_demand_wake" => some ("wake_on_demand", fun v p => { p with wakeOnDemand := v })
  | "can_spawn_agents" => some ("can_spawn_agents", fun v p => { p with canSpawnAgents := v })
  | "can_manage_work" => some ("can_manage_work", fun v p => { p with canManageWork := v })
  | "can_configure_agents" =>
    some ("can_configure_agents", fun v p => { p with canConfigureAgents := v })
  | "can_assign_work" => some ("can_assign_work", fun v p => { p with canAssignWork := v })
  | _ => none

def choiceField : String → Option (List String × (String → AgentProfile → AgentProfile))
  | "spawn_route" => some (["direct", "lead", "founder"], fun v p => { p with spawnRoute := v })
  | "assign_scope" => some (["any", "branch", "specific"], fun v p => { p with assignScope := v })
  | "configure_scope" =>
    some (["any", "branch", "specific", "none"], fun v p => { p with configureScope := v })
  | "manage_scope" => some (["any", "branch", "specific"], fun v p => { p with manageScope := v })
  | _ => none

def parseBoolKey (value field : String) : Except AgentStoreError Bool :=
  let v := String.ofList (toAsciiLowercase (trimChars value.toList))
  if ["1", "true", "yes", "on"].contains v then .ok true
  else if ["0", "false", "no", "off"].contains v then .ok false
  else .error (.badInput s!"{field} must be boolean (true/false), got \x60{v}\x60")

/-- A list as a JSON array, which `parseJson` reads, or as texts between commas. -/
def normaliseStringList (parseJson : String → Except String (List String)) (value : String) :
    Except String (List String) :=
  let trimmed := trimChars value.toList
  if trimmed.head? = some '[' then parseJson (String.ofList trimmed)
  else .ok (((splitFields (· == ',') trimmed).map (fun s => String.ofList (trimChars s))).filter
    (fun s => !s.isEmpty))

def maxChainDepth : Nat := 10000

def reportsToEdit (agentId value : String) :
    Except AgentStoreError (AgentProfile → AgentProfile) :=
  let trimmed := trim value
  if trimmed.isEmpty then .ok (fun p => { p with reportsTo := none })
  else if trimmed = agentId then .error (.badInput "an agent cannot report to itself")
  else if (profiles.get? trimmed).isNone then
    .error (.badInput s!"reports_to target '{trimmed}' is not a known agent")
  else if Forest.reaches profiles.bossOf agentId maxChainDepth trimmed then
    .error (.badInput "reports_to would create a cycle in the org tree")
  else .ok (fun p => { p with reportsTo := some trimmed })

def allowanceEdit (value : String) : Except AgentStoreError (AgentProfile → AgentProfile) :=
  let trimmed := trim value
  if trimmed.isEmpty then .ok (fun p => { p with monthlyAllowanceCents := none })
  else match parseI64 trimmed.toList with
    | none => .error (.badInput s!"allowance not an integer: {trimmed}")
    | some cents =>
      if cents < 0 then .error (.badInput "allowance must be >= 0")
      else .ok (fun p => { p with monthlyAllowanceCents := some cents })

def concurrencyEdit (value : String) : Except AgentStoreError (AgentProfile → AgentProfile) :=
  let trimmed := trim value
  match parseI64 trimmed.toList with
  | none => .error (.badInput s!"max_concurrent_runs not an integer: {trimmed}")
  | some slots =>
    if slots < 1 ∨ 50 < slots then
      .error (.badInput "max_concurrent_runs must be between 1 and 50")
    else .ok (fun p => { p with maxConcurrentRuns := slots })

def timeoutEdit (value : String) : Except AgentStoreError (AgentProfile → AgentProfile) :=
  match parseI64 value.toList with
  | none => .error (.badInput s!"not an i64: {value}")
  | some secs =>
    if secs ≤ 0 then .error (.badInput "approval_timeout_secs must be > 0")
    else .ok (fun p => { p with approvalTimeoutSecs := secs })

def modelEdit (value : String) : Except AgentStoreError (AgentProfile → AgentProfile) :=
  let trimmed := trim value
  if 128 < trimmed.utf8ByteSize then
    .error (.badInput s!"model_preference too long ({trimmed.utf8ByteSize} chars; max 128)")
  else if trimmed.toList.any (fun c => ['|', '\n', '\r', '\t'].contains c) then
    .error (.badInput "model_preference cannot contain pipe, tab, or newline characters")
  else .ok (fun p => { p with modelPreference := if trimmed.isEmpty then none else some trimmed })

def bundleEdit (value : String) : Except AgentStoreError (AgentProfile → AgentProfile) :=
  if 65536 < value.utf8ByteSize then
    .error (.badInput s!"instruction_bundle too large ({value.utf8ByteSize} bytes; max 65536)")
  else .ok (fun p => { p with instructionBundle := value })

def soleField (agentId field value : String) :
    Option (Except AgentStoreError (AgentProfile → AgentProfile)) :=
  match field with
  | "status" => some (
    if ["active", "suspended", "disabled"].contains value then .ok (fun p => { p with status := value })
    else .error (.badInput s!"status '{value}' not in active/suspended/disabled"))
  | "risk_ceiling" => some (
    if isKnownRisk value then .ok (fun p => { p with riskCeiling := value })
    else .error (.badInput s!"risk_ceiling '{value}' not in safe/low/medium/high/critical"))
  | "approval_timeout_secs" => some (timeoutEdit value)
  | "profile" => some (
    if (trim value).isEmpty then .ok (fun p => { p with profile := none })
    else if trim value = "allow-all" then .ok (fun p => { p with profile := some "allow-all" })
    else .error (.badInput
      (s!"profile '{trim value}' not recognised (only 'allow-all' or empty are valid)")))
  | "reports_to" => some (profiles.reportsToEdit agentId value)
  | "rig" => some (.ok (fun p =>
      { p with rig := if (trim value).isEmpty then none else some (trim value) }))
  | "allowance" => some (allowanceEdit value)
  | "max_concurrent_runs" => some (concurrencyEdit value)
  | "concurrency" => some (concurrencyEdit value)
  | "instruction_bundle" => some (bundleEdit value)
  | "charter" => some (bundleEdit value)
  | "model_preference" => some (modelEdit value)
  | "model" => some (modelEdit value)
  | "reasoning_effort" => some (effortEdit value)
  | "effort" => some (effortEdit value)
  | _ => none
where
  effortEdit (value : String) : Except AgentStoreError (AgentProfile → AgentProfile) :=
    if (trim value).isEmpty then .ok (fun p => { p with reasoningEffort := none })
    else if isKnownEffort (trim value) then
      .ok (fun p => { p with reasoningEffort := some (trim value) })
    else .error (.badInput s!"reasoning_effort '{trim value}' not in minimal/low/medium/high")

def familyField (parseJson : String → Except String (List String)) (field value : String) :
    Option (Except AgentStoreError (AgentProfile → AgentProfile)) :=
  ((((textField field).map (fun set =>
      if (trim value).isEmpty then .error (.badInput s!"{field} required") else .ok (set value))).or
    ((listField field).map (fun set =>
      match normaliseStringList parseJson value with
      | .error e => .error (.badInput s!"{field}: {e}")
      | .ok items => .ok (set items)))).or
    ((boolField field).map (fun f => (parseBoolKey value f.1).map f.2))).or
    ((choiceField field).map (fun f =>
      if f.1.contains (trim value) then .ok (f.2 (trim value))
      else .error (.badInput (s!"{field} '{trim value}' not in " ++ String.intercalate "/" f.1))))

def updateAgentField (parseJson : String → Except String (List String)) (now : Int)
    (agentId field value : String) : Except AgentStoreError Profiles :=
  match (profiles.soleField agentId field value).or (familyField parseJson field value) with
  | none => .error (.badInput s!"unknown field '{field}'")
  | some (.error e) => .error e
  | some (.ok set) =>
    if (profiles.get? agentId).isSome then
      .ok (profiles.modify agentId (fun p => { set p with updatedAt := now }))
    else .error (.notFound agentId)

def updateAgentFieldForTenant (parseJson : String → Except String (List String)) (now : Int)
    (agentId tenant field value : String) : Except AgentStoreError Profiles :=
  if (profiles.getAgentForTenant agentId tenant).isNone then .error (.notFound agentId)
  else profiles.updateAgentField parseJson now agentId field value

def bossIn (tenant agentId : String) : Option String :=
  (profiles.getAgentForTenant agentId tenant).bind (·.reportsTo)

def reportsIn (tenant manager : String) : List String :=
  (profiles.values.filter (fun p =>
    p.reportsTo == some manager && p.tenantId == normTenant tenant)).map (·.agentId)

def maxNodes : Nat := 10000

def managerSubtreeForTenant (manager tenant : String) : List String :=
  Forest.descend (profiles.reportsIn tenant) maxNodes manager (maxNodes + 2) [] [manager]

def maxDepth : Nat := 1024

def chainOfCommandForTenant (agentId tenant : String) : List String :=
  Forest.climb (profiles.bossIn tenant) maxDepth [agentId] agentId

def managesForTenant (manager target tenant : String) : Bool :=
  if manager = target then false
  else (profiles.managerSubtreeForTenant manager tenant).any (· == target)

end Profiles

end Relux.Roster

/-! The Keys of an Operative: what it may do to others, decided from its profile alone. -/

namespace Relux.Roster

open Admission (AgentStoreError)

inductive KeyVerdict
  | allow
  | clearance (reason : String)
  | deny (reason : String)
  deriving DecidableEq, Repr

def normalizeSpawnRoute (route : String) : String :=
  let r := trim route
  if ["direct", "lead", "founder"].contains r then r else "founder"

def normalizeConfigureScope (scope : String) : String :=
  let s := trim scope
  if ["any", "branch", "specific", "none"].contains s then s else "none"

def scopeDecision (can : Bool) (key scope : String) (allowedAgents : List String)
    (targetId : String) (targetInBranch : Bool) : KeyVerdict :=
  if !can then .deny s!"{key} is off for this Operative"
  else if scope = "any" then .allow
  else if scope = "branch" then
    if targetInBranch then .allow
    else .deny s!"{key} scope=branch: \x60{targetId}\x60 is not in this Operative's Branch"
  else if scope = "specific" then
    if allowedAgents.contains targetId then .allow
    else .deny s!"{key} scope=specific: \x60{targetId}\x60 is not in the allowlist"
  else .deny s!"{key} scope={scope}: no targets permitted"

def configureVerdict (canConfigure : Bool) (configureScope : String) (allowedAgents : List String)
    (targetId : String) (targetInBranch : Bool) : KeyVerdict :=
  scopeDecision canConfigure "can_configure_agents" (normalizeConfigureScope configureScope)
    allowedAgents targetId targetInBranch

def spawnVerdict (canSpawn : Bool) (spawnRoute : String) : KeyVerdict :=
  if !canSpawn then .deny "can_spawn_agents is off for this Operative"
  else
    let route := normalizeSpawnRoute spawnRoute
    if route = "direct" then .allow
    else .clearance
      (s!"spawn_route={route}: the hire must be greenlit by your {route} before it goes active")

namespace Profiles

variable (profiles : Profiles)

def getBySubjectForTenant (subjectId tenant : String) : Option AgentProfile :=
  profiles.values.find? (fun p => p.subjectId == subjectId && p.tenantId == tenant)

def settleHire (now : Int) (agentId : String) (f : AgentProfile → AgentProfile) :
    Except AgentStoreError Profiles :=
  if (profiles.get? agentId).any (fun p => p.status == "pending") then
    .ok (profiles.modify agentId (fun p => { f p with updatedAt := now }))
  else .error (.notFound agentId)

def approveHire (now : Int) (agentId : String) : Except AgentStoreError Profiles :=
  profiles.settleHire now agentId (fun p => { p with status := "active" })

def rejectHire (now : Int) (agentId : String) : Except AgentStoreError Profiles :=
  profiles.settleHire now agentId (fun p => { p with status := "disabled" })

structure ApproveHireOutcome where
  rigSet : Bool
  rig : Option String

def approveHireWithRig (now : Int) (agentId : String) (rig : Option String) (tenant : String) :
    Except AgentStoreError (ApproveHireOutcome × Profiles) :=
  match profiles.getAgentForTenant agentId tenant with
  | none => .error (.notFound agentId)
  | some row =>
    if row.status ≠ "pending" then
      .error (.badInput
        s!"hire is not pending (status={row.status}); duplicate approval is a no-op")
    else
      let existing := row.rig.filter (fun r => !(trim r).isEmpty)
      let wanted := (rig.map trim).filter (fun r => !r.isEmpty)
      let rigToSet := if existing.isSome then none else wanted
      .ok (⟨rigToSet.isSome, rigToSet.or existing⟩,
        profiles.modify agentId (fun p =>
          { p with status := "active", rig := rigToSet.or p.rig, updatedAt := now }))

end Profiles

end Relux.Roster
