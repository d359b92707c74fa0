import Relux.HashMap
import Relux.LruCache
import Relux.Text
import Relux.Admission.AgentStore
import Relux.Admission.Token

/-! The allowlist policy, and the policies of tenants. -/

namespace Relux

namespace Admission

structure VerifiedIdentity where
  subjectId : String
  name : String
  groups : List String
  role : String
  deriving DecidableEq

def VerifiedIdentity.hasAnyGroup (caller : VerifiedIdentity) (requiredGroups : List String) : Bool :=
  requiredGroups.any (fun g => caller.groups.contains g)

inductive Decision where
  | allow (matchedRule : String)
  | deny (reason : String) (matchedRule : Option String)
  deriving DecidableEq

structure Rule where
  name : String
  method : String
  allowGroups : List String
  deriving DecidableEq

structure PolicyFile where
  admitGroups : List String
  rules : List Rule
  deriving DecidableEq

structure PolicyHost where
  parseToml : String → Option PolicyFile
  debugGroups : List String → String

def PolicyFile.evaluate (host : PolicyHost) (file : PolicyFile) (caller : VerifiedIdentity)
    (method : String) : Decision :=
  if !file.admitGroups.isEmpty && !caller.hasAnyGroup file.admitGroups then
    .deny s!"caller {caller.name} not admitted by [admit] groups" none
  else
    match file.rules.find? (fun rule => rule.method == method &&
      (rule.allowGroups.isEmpty || caller.hasAnyGroup rule.allowGroups)) with
    | some rule => .allow rule.name
    | none =>
      .deny (s!"no allow rule for method {method} matches caller {caller.name} " ++
        s!"(groups={host.debugGroups caller.groups})") none

def TENANT_POLICY_CACHE_CAP : Nat := 1000

/-- The cache holds, for the path of a policy file, when it was read and what was in it; none
when there was no file or it did not parse. -/
structure TenantPolicyResolver where
  global : PolicyFile
  dir : Option String
  ttl : Nat
  tenantIsolationEnabled : Bool
  cache : LruCache String (Nat × Option PolicyFile)

def sanitiseChar (c : Char) : Char := if c.isAlphanum || c = '_' then c else '_'

def sanitiseTenantId (raw : Option String) : String :=
  let s := raw.getD "default"
  if s.isEmpty then "default" else String.ofList (s.toList.map sanitiseChar)

namespace TenantPolicyResolver

def new (global : PolicyFile) (dir : Option String) (ttlSecs : Nat) : TenantPolicyResolver :=
  ⟨global, dir, ttlSecs, false, .new TENANT_POLICY_CACHE_CAP⟩

def withTenantIsolation (r : TenantPolicyResolver) (enabled : Bool) : TenantPolicyResolver :=
  { r with tenantIsolationEnabled := enabled }

def tenantPath (r : TenantPolicyResolver) (tenantId : Option String) : Option String :=
  r.dir.map (fun dir => dir ++ "/" ++ sanitiseTenantId tenantId ++ ".policy.toml")

def load (host : PolicyHost) (files : HashMap String String) (path : String) : Option PolicyFile :=
  (files.get? path).bind host.parseToml

def cached (r : TenantPolicyResolver) (now : Nat) (path : String) : Option (Option PolicyFile) :=
  if r.ttl = 0 then none
  else ((r.cache.get path).1.filter (fun e => now - e.1 < r.ttl)).map Prod.snd

def engineForTenant (host : PolicyHost) (files : HashMap String String) (now : Nat)
    (r : TenantPolicyResolver) (tenantId : Option String) :
    Option PolicyFile × TenantPolicyResolver :=
  match r.tenantPath tenantId with
  | none => (none, r)
  | some path =>
    let looked := if r.ttl = 0 then r.cache else (r.cache.get path).2
    match r.cached now path with
    | some entry => (entry, { r with cache := looked })
    | none =>
      let loaded := load host files path
      (loaded, { r with cache := if r.ttl = 0 then looked else looked.put path (now, loaded) })

def evaluate (host : PolicyHost) (files : HashMap String String) (now : Nat)
    (r : TenantPolicyResolver) (caller : VerifiedIdentity) (method : String)
    (tenantId : Option String) : Decision × TenantPolicyResolver :=
  if r.tenantIsolationEnabled && tenantId.all (fun s => (trim s).isEmpty) then
    (.deny "tenant_id required in multi-tenant mode" none, r)
  else
    let found := engineForTenant host files now r tenantId
    ((found.1.getD r.global).evaluate host caller method, found.2)

end TenantPolicyResolver

end Admission

/-! The permission gate of agents, between the identity check and the policy. -/

namespace Admission

inductive RiskLevel where
  | unknown | safe | low | medium | high | critical
  deriving DecidableEq

def RiskLevel.label : RiskLevel → String
  | .unknown => "unknown"
  | .safe => "safe"
  | .low => "low"
  | .medium => "medium"
  | .high => "high"
  | .critical => "critical"

inductive CostClass where
  | cheap | expensive | externalPaid
  deriving DecidableEq

structure CapabilityDescriptor where
  methodName : String
  costClass : CostClass
  sensitivityTags : List String
  categories : List String
  riskLevel : RiskLevel
  deriving DecidableEq

structure RequestEnvelope where
  method : String
  approvalToken : Option String
  taskId : Option String
  sessionId : Option String
  workspacePath : Option String
  tenantId : Option String
  deriving DecidableEq

structure GateAllow where
  matchedRule : String
  consumedApprovalId : Option String
  deriving DecidableEq

structure GateDeny where
  reason : String
  matchedRule : String
  agentId : Option String
  deriving DecidableEq

structure GateApprovalRequest where
  agentId : String
  subjectId : String
  method : String
  category : String
  reason : String
  approverGroups : List String
  approvalTimeoutSecs : Int
  taskId : Option String
  authorizedApprovers : List String
  tenantId : String
  deriving DecidableEq

inductive GateDecision where
  | allow (a : GateAllow)
  | deny (d : GateDeny)
  | requireApproval (r : GateApprovalRequest)
  deriving DecidableEq

namespace DenyReasons

def AGENT_SUSPENDED : String := "agent_suspended"
def AGENT_DISABLED : String := "agent_disabled"
def AGENT_SURFACE_DENIED : String := "agent_surface_denied"
def AGENT_RISK_CEILING_EXCEEDED : String := "agent_risk_ceiling_exceeded"
def AGENT_CATEGORY_DENIED : String := "agent_category_denied"
def AGENT_SENSITIVITY_DENIED : String := "agent_sensitivity_denied"
def AGENT_CATEGORY_NOT_ALLOWED : String := "agent_category_not_allowed"
def AGENT_SENSITIVITY_NOT_ALLOWED : String := "agent_sensitivity_not_allowed"
def AGENT_STORE_NOT_CONFIGURED : String := "agent_store_not_configured"
def AGENT_NO_PROFILE : String := "agent_no_profile"

end DenyReasons

def ALLOW_RULE_ALLOW_ALL_PROFILE : String := "allow_all_profile"

def PROFILE_ALLOW_ALL : String := "allow-all"

structure GateInputs where
  identity : VerifiedIdentity
  envelope : RequestEnvelope
  capability : Option CapabilityDescriptor
  now : Int
  nowMs : Int
  keyset : ApprovalKeySet
  callerSurface : Option String

structure GateHost extends TokenHost where
  debugStrings : List String → String

namespace AgentGate

def tokenDeny (err : TokenError) (agentId : Option String) : GateDecision :=
  .deny ⟨err.text, err.matchedRule, agentId⟩

def checkToken (host : TokenHost) (tokenWire requestMethod callerSubjectId : String)
    (keyset : ApprovalKeySet) (nowMs : Int) : Except TokenError ApprovalToken := do
  let tok ← ApprovalToken.parse host tokenWire
  tok.verifySignature host keyset
  tok.checkMethod requestMethod
  tok.checkSubject callerSubjectId
  tok.checkNotExpired nowMs
  return tok

def evaluateToken (host : TokenHost) (store : AgentStore)
    (tokenWire requestMethod callerSubjectId : String) (keyset : ApprovalKeySet) (nowMs : Int) :
    GateDecision × AgentStore :=
  match checkToken host tokenWire requestMethod callerSubjectId keyset nowMs with
  | .error e => (tokenDeny e none, store)
  | .ok tok =>
    match store.getApproval tok.approvalId with
    | none => (tokenDeny (.store s!"approval not found: {tok.approvalId}") none, store)
    | some record =>
      if record.status ≠ .approved then (tokenDeny .alreadyConsumed (some record.agentId), store)
      else
        match store.tryConsumeTokenAtomic (tok.blocklistKey host) tok.approvalId nowMs with
        | (false, store) => (tokenDeny .alreadyConsumed (some record.agentId), store)
        | (true, store) => (.allow ⟨"approval_token", some tok.approvalId⟩, store)

def deny (matchedRule reason : String) (view : AgentGateView) : GateDecision :=
  .deny ⟨reason, matchedRule, some view.agentId⟩

def riskRank (s : String) : Option Int :=
  if s = "safe" then some 0
  else if s = "low" then some 1
  else if s = "medium" then some 2
  else if s = "high" then some 3
  else if s = "critical" then some 4
  else if s = "unknown" then some 4
  else none

def riskWithinCeiling (level ceiling : String) : Bool :=
  match riskRank level, riskRank ceiling with
  | some l, some c => decide (l ≤ c)
  | _, _ => false

def standingEstimatedCostMicros : CostClass → Int
  | .cheap => 0
  | .expensive => 1000
  | .externalPaid => 10000

def standingMatch (view : AgentGateView) (inputs : GateInputs) (cap : CapabilityDescriptor)
    (category : String) : AgentStore.StandingApprovalMatch :=
  { agentId := view.agentId
    category
    method := inputs.envelope.method
    taskId := inputs.envelope.taskId.bind nonEmptyOpt
    sessionId := inputs.envelope.sessionId.bind nonEmptyOpt
    workspacePath := inputs.envelope.workspacePath.bind nonEmptyOpt
    tenantId := inputs.envelope.tenantId
    estimatedCostMicros := standingEstimatedCostMicros cap.costClass
    now := inputs.now }

def approvalRequest (view : AgentGateView) (inputs : GateInputs) (cap : CapabilityDescriptor)
    (category : String) : GateApprovalRequest :=
  { agentId := view.agentId
    subjectId := view.subjectId
    method := inputs.envelope.method
    category
    reason := s!"agent {view.agentId} attempted {inputs.envelope.method} (category=" ++
      cap.categories.head?.getD "" ++ ")"
    approverGroups := ["ops", "admin"]
    approvalTimeoutSecs := view.approvalTimeoutSecs
    taskId := inputs.envelope.taskId.filter (fun s => !(trim s).isEmpty)
    authorizedApprovers := view.authorizedApprovers
    tenantId := inputs.envelope.tenantId.getD "default" }

def deniedByProfile (host : GateHost) (view : AgentGateView) (callerSurface : Option String) :
    Option GateDecision :=
  if view.status = "suspended" then
    some (deny DenyReasons.AGENT_SUSPENDED "agent status=suspended" view)
  else if view.status = "disabled" then
    some (deny DenyReasons.AGENT_DISABLED "agent status=disabled" view)
  else if view.status ≠ "active" then
    some (deny "agent_status_unknown" s!"unrecognised status: {view.status}" view)
  else if !view.surfaceAllowlist.isEmpty && !callerSurface.any view.surfaceAllowlist.contains then
    some (deny DenyReasons.AGENT_SURFACE_DENIED
      ("transport surface " ++ callerSurface.getD "<none>" ++ " not in " ++
        host.debugStrings view.surfaceAllowlist) view)
  else none

def deniedByCapability (host : GateHost) (view : AgentGateView) (cap : CapabilityDescriptor) :
    Option GateDecision :=
  if !riskWithinCeiling cap.riskLevel.label view.riskCeiling then
    some (deny DenyReasons.AGENT_RISK_CEILING_EXCEEDED
      s!"risk={cap.riskLevel.label} > ceiling={view.riskCeiling}" view)
  else if cap.categories.any view.denyCategories.contains then
    some (deny DenyReasons.AGENT_CATEGORY_DENIED
      (s!"category in deny list: cap={host.debugStrings cap.categories} " ++
        s!"deny={host.debugStrings view.denyCategories}") view)
  else if cap.sensitivityTags.any view.denySensitivityTags.contains then
    some (deny DenyReasons.AGENT_SENSITIVITY_DENIED
      (s!"sensitivity tag in deny list: cap={host.debugStrings cap.sensitivityTags} " ++
        s!"deny={host.debugStrings view.denySensitivityTags}") view)
  else if !view.allowCategories.isEmpty && !cap.categories.any view.allowCategories.contains then
    some (deny DenyReasons.AGENT_CATEGORY_NOT_ALLOWED
      (s!"no overlap with allow_categories: cap={host.debugStrings cap.categories} " ++
        s!"allow={host.debugStrings view.allowCategories}") view)
  else if !view.allowSensitivityTags.isEmpty && !cap.sensitivityTags.isEmpty &&
      !cap.sensitivityTags.all view.allowSensitivityTags.contains then
    some (deny DenyReasons.AGENT_SENSITIVITY_NOT_ALLOWED
      (s!"sensitivity tag outside allow list: cap={host.debugStrings cap.sensitivityTags} " ++
        s!"allow={host.debugStrings view.allowSensitivityTags}") view)
  else none

def matchedCategory (view : AgentGateView) (cap : CapabilityDescriptor) : Option String :=
  cap.categories.find? view.approvalRequiredCategories.contains

def gatePass : GateDecision := .allow ⟨"agent_gate_pass", none⟩

def checkApproval (store : AgentStore) (view : AgentGateView) (inputs : GateInputs)
    (cap : CapabilityDescriptor) : GateDecision × AgentStore :=
  match matchedCategory view cap with
  | none => (gatePass, store)
  | some category =>
    match store.consumeActiveStandingFor (standingMatch view inputs cap category) with
    | (some standingId, store) =>
      (.allow ⟨s!"standing_approval:{category}:{standingId}", none⟩, store)
    | (none, store) => (.requireApproval (approvalRequest view inputs cap category), store)

def evaluateAgainstView (host : GateHost) (store : AgentStore) (view : AgentGateView)
    (inputs : GateInputs) : GateDecision × AgentStore :=
  if view.profile = some PROFILE_ALLOW_ALL then
    (.allow ⟨ALLOW_RULE_ALLOW_ALL_PROFILE, none⟩, store)
  else
    match deniedByProfile host view inputs.callerSurface with
    | some d => (d, store)
    | none =>
      match inputs.capability with
      | none => (gatePass, store)
      | some cap =>
        match deniedByCapability host view cap with
        | some d => (d, store)
        | none => checkApproval store view inputs cap

def noProfile (subjectId : String) : GateDecision :=
  .deny
    { reason := s!"agent_gate: no profile found for agent {subjectId} — " ++
        "register the agent before making requests"
      matchedRule := DenyReasons.AGENT_NO_PROFILE
      agentId := none }

def noStore : GateDecision :=
  .deny
    { reason := "agent_gate: store not configured — all requests denied until agent store is wired"
      matchedRule := DenyReasons.AGENT_STORE_NOT_CONFIGURED
      agentId := none }

def evaluateStore (host : GateHost) (store : AgentStore) (inputs : GateInputs) :
    GateDecision × AgentStore :=
  match inputs.envelope.approvalToken with
  | some tokenWire =>
    evaluateToken host.toTokenHost store tokenWire inputs.envelope.method inputs.identity.subjectId
      inputs.keyset inputs.nowMs
  | none =>
    match store.getBySubject inputs.identity.subjectId with
    | none => (noProfile inputs.identity.subjectId, store)
    | some view => evaluateAgainstView host store view inputs

def evaluate (host : GateHost) (store : Option AgentStore) (inputs : GateInputs) :
    GateDecision × Option AgentStore :=
  match store with
  | none => (noStore, none)
  | some store =>
    let (decision, store) := evaluateStore host store inputs
    (decision, some store)

variable {host : GateHost} {view : AgentGateView} {d : GateDecision}

theorem deniedByProfile_deny {surface : Option String}
    (h : deniedByProfile host view surface = some d) : ∃ denied, d = .deny denied := by
  unfold deniedByProfile at h
  iterate 4
    split at h
    · exact ⟨_, (Option.some.inj h).symm⟩
  cases h

theorem deniedByCapability_deny {cap : CapabilityDescriptor}
    (h : deniedByCapability host view cap = some d) : ∃ denied, d = .deny denied := by
  unfold deniedByCapability at h
  iterate 5
    split at h
    · exact ⟨_, (Option.some.inj h).symm⟩
  cases h

theorem refuse_eq_none {p : Prop} [Decidable p] {d : GateDecision} {rest : Option GateDecision} :
    (if p then some d else rest) = none ↔ ¬p ∧ rest = none := by
  split <;> simp [*]

theorem deniedByProfile_none {surface : Option String} :
    deniedByProfile host view surface = none ↔ view.status = "active" ∧
      (view.surfaceAllowlist = [] ∨ ∃ s ∈ view.surfaceAllowlist, surface = some s) := by
  simp only [deniedByProfile, refuse_eq_none, and_true, not_not]
  constructor
  · rintro ⟨-, -, hactive, hsurface⟩
    refine ⟨hactive, ?_⟩
    cases surface with
    | none => simpa using hsurface
    | some s => simpa [or_iff_not_imp_left] using hsurface
  · rintro ⟨hactive, hsurface⟩
    refine ⟨by simp [hactive], by simp [hactive], hactive, ?_⟩
    rcases hsurface with hempty | ⟨s, hs, rfl⟩
    · simp [hempty]
    · simp [hs]

theorem deniedByCapability_none {cap : CapabilityDescriptor} :
    deniedByCapability host view cap = none ↔
      riskWithinCeiling cap.riskLevel.label view.riskCeiling = true ∧
      (∀ c ∈ cap.categories, c ∉ view.denyCategories) ∧
      (∀ t ∈ cap.sensitivityTags, t ∉ view.denySensitivityTags) ∧
      (view.allowCategories = [] ∨ ∃ c ∈ cap.categories, c ∈ view.allowCategories) ∧
      (view.allowSensitivityTags = [] ∨
        ∀ t ∈ cap.sensitivityTags, t ∈ view.allowSensitivityTags) := by
  simp only [deniedByCapability, refuse_eq_none, and_true]
  refine and_congr (by simp) (and_congr (by simp) (and_congr (by simp) (and_congr ?_ ?_)))
  · by_cases hempty : view.allowCategories = []
    · simp [hempty]
    · simp [hempty]
  · by_cases hempty : view.allowSensitivityTags = []
    · simp [hempty]
    · by_cases hnone : cap.sensitivityTags = []
      · simp [hempty, hnone]
      · simp [hempty, hnone]

theorem evaluateAgainstView_cases (host : GateHost) (store : AgentStore) {view : AgentGateView}
    (inputs : GateInputs) (hall : view.profile ≠ some PROFILE_ALLOW_ALL) :
    ((deniedByProfile host view inputs.callerSurface ≠ none ∨
          ∃ cap, inputs.capability = some cap ∧ deniedByCapability host view cap ≠ none) ∧
        ∃ denied, evaluateAgainstView host store view inputs = (.deny denied, store)) ∨
      deniedByProfile host view inputs.callerSurface = none ∧
        (inputs.capability = none ∧
            evaluateAgainstView host store view inputs = (gatePass, store) ∨
          ∃ cap, inputs.capability = some cap ∧ deniedByCapability host view cap = none ∧
            evaluateAgainstView host store view inputs = checkApproval store view inputs cap) := by
  unfold evaluateAgainstView
  rw [if_neg hall]
  cases hprofile : deniedByProfile host view inputs.callerSurface with
  | some d =>
    obtain ⟨denied, rfl⟩ := deniedByProfile_deny hprofile
    exact .inl ⟨.inl (by simp), denied, rfl⟩
  | none =>
    cases hcap : inputs.capability with
    | none => exact .inr ⟨rfl, .inl ⟨rfl, rfl⟩⟩
    | some cap =>
      dsimp only
      cases hdenied : deniedByCapability host view cap with
      | some d =>
        obtain ⟨denied, rfl⟩ := deniedByCapability_deny hdenied
        exact .inl ⟨.inr ⟨cap, rfl, by simp [hdenied]⟩, denied, rfl⟩
      | none => exact .inr ⟨rfl, .inr ⟨cap, rfl, hdenied, rfl⟩⟩

end AgentGate

end Admission

end Relux
