import Relux.HashMap
import Relux.Text

/-! The tables of the agent store that the admission gate reads: profiles, approval requests,
standing approvals and the blocklist of spent tokens. -/

namespace Relux

namespace Admission

def nonEmptyOpt (s : String) : Option String :=
  let trimmed := trim s
  if trimmed.isEmpty then none else some trimmed

def normTenant (tenant : String) : String := (nonEmptyOpt tenant).getD "default"

inductive AgentStoreError where
  | badInput (message : String)
  | notFound (id : String)
  /-- An insert that meets a row with its primary key. -/
  | uniqueViolation (column : String)
  deriving DecidableEq

def AgentStoreError.text : AgentStoreError → String
  | badInput message => s!"agent store: bad input: {message}"
  | notFound id => s!"agent store: not found: {id}"
  | uniqueViolation column => s!"agent store: db: UNIQUE constraint failed: {column}"

structure AgentGateView where
  agentId : String
  subjectId : String
  status : String
  surfaceAllowlist : List String
  riskCeiling : String
  allowCategories : List String
  denyCategories : List String
  allowSensitivityTags : List String
  denySensitivityTags : List String
  approvalRequiredCategories : List String
  authorizedApprovers : List String
  approvalTimeoutSecs : Int
  profile : Option String
  deriving DecidableEq

inductive ApprovalStatus where
  | pending | approved | rejected | expired | consumed | legacyTokenExpired
  deriving DecidableEq

def ApprovalStatus.asWire : ApprovalStatus → String
  | .pending => "pending"
  | .approved => "approved"
  | .rejected => "rejected"
  | .expired => "expired"
  | .consumed => "consumed"
  | .legacyTokenExpired => "legacy_token_expired"

structure ApprovalRecord where
  approvalId : String
  agentId : String
  subjectId : String
  method : String
  capabilityCategory : String
  argsRedactedHash : String
  reason : String
  approverGroups : List String
  requestedAt : Int
  expiresAt : Int
  status : ApprovalStatus
  decidedAt : Option Int
  decidedBy : Option String
  decisionNote : Option String
  taskId : Option String
  authorizedApprovers : List String
  tenantId : String
  deriving DecidableEq

structure StandingApproval where
  standingId : String
  agentId : String
  matchCategory : String
  matchPathGlob : Option String
  scopeKind : String
  taskId : Option String
  sessionId : Option String
  methodPrefix : Option String
  workspacePathGlob : Option String
  expiresAt : Int
  grantedBy : String
  maxCalls : Option Int
  callsUsed : Int
  maxCostMicros : Option Int
  costUsedMicros : Int
  note : String
  createdAt : Int
  tenantId : String
  deriving DecidableEq

/-- Profiles are kept by their `subject_id`, which a unique index keys; the other tables by
their primary keys. The blocklist holds the approval and the time of each spent token. -/
structure AgentStore where
  profiles : HashMap String AgentGateView
  approvals : HashMap String ApprovalRecord
  standing : HashMap String StandingApproval
  blocklist : HashMap String (String × Int)

namespace AgentStore

def getBySubject (store : AgentStore) (subjectId : String) : Option AgentGateView :=
  store.profiles.get? subjectId

structure ApprovalCreate where
  agentId : String
  subjectId : String
  method : String
  capabilityCategory : String
  argsRedactedHash : String
  reason : String
  approverGroups : List String
  taskId : Option String
  expiresAt : Int
  authorizedApprovers : List String
  tenantId : String

def pendingRecord (now : Int) (approvalId : String) (input : ApprovalCreate) : ApprovalRecord :=
  { approvalId
    agentId := input.agentId
    subjectId := input.subjectId
    method := input.method
    capabilityCategory := input.capabilityCategory
    argsRedactedHash := input.argsRedactedHash
    reason := input.reason
    approverGroups := input.approverGroups
    requestedAt := now
    expiresAt := input.expiresAt
    status := .pending
    decidedAt := none
    decidedBy := none
    decisionNote := none
    taskId := input.taskId
    authorizedApprovers := input.authorizedApprovers
    tenantId := if (trim input.tenantId).isEmpty then "default" else input.tenantId }

/-- `approvalId` is the random one of `new_approval_id`. -/
def createApproval (store : AgentStore) (now : Int) (approvalId : String) (input : ApprovalCreate) :
    Except AgentStoreError AgentStore :=
  match store.approvals.get? approvalId with
  | some _ => .error (.uniqueViolation "approval_requests.approval_id")
  | none =>
    .ok { store with approvals := store.approvals.insert approvalId (pendingRecord now approvalId input) }

def getApproval (store : AgentStore) (approvalId : String) : Option ApprovalRecord :=
  store.approvals.get? approvalId

def getApprovalRecordForTenant (store : AgentStore) (approvalId tenant : String) :
    Option ApprovalRecord :=
  (store.approvals.get? approvalId).filter (fun r => r.tenantId == normTenant tenant)

structure DecidedApprovalMetadata where
  approvalId : String
  subjectId : String
  method : String
  taskId : Option String

def decided (decision : ApprovalStatus) (now : Int) (decidedBy note : String) (r : ApprovalRecord) :
    ApprovalRecord :=
  { r with status := decision, decidedAt := some now, decidedBy := some decidedBy,
           decisionNote := some note }

def decideApproval (store : AgentStore) (now : Int) (approvalId : String) (decision : ApprovalStatus)
    (decidedBy note : String) :
    Except AgentStoreError (Option DecidedApprovalMetadata × AgentStore) :=
  if ¬(decision = .approved ∨ decision = .rejected) then
    .error (.badInput "decide accepts only Approved/Rejected")
  else
    match store.approvals.get? approvalId with
    | none => .error (.notFound approvalId)
    | some r =>
      if r.status ≠ .pending then .error (.badInput s!"approval is {r.status.asWire}, not pending")
      else
        .ok (if decision = .approved then some ⟨approvalId, r.subjectId, r.method, r.taskId⟩ else none,
          { store with
            approvals := store.approvals.insert approvalId (decided decision now decidedBy note r) })

def EXPIRED_PENDING_LIMIT : Nat := 100

def listExpiredPending (store : AgentStore) (now : Int) : List String :=
  (((store.approvals.values.filter
      (fun r => r.status == .pending && decide (r.expiresAt ≤ now))).mergeSort
        (fun a b => decide (a.expiresAt ≤ b.expiresAt))).take EXPIRED_PENDING_LIMIT).map (·.approvalId)

def markExpired (store : AgentStore) (now : Int) (approvalId : String) : Except AgentStoreError AgentStore :=
  match store.approvals.get? approvalId with
  | none => .error (.notFound approvalId)
  | some r =>
    if r.status ≠ .pending then .error (.notFound approvalId)
    else
      .ok { store with
            approvals := store.approvals.insert approvalId
              { r with status := .expired, decidedAt := some now } }

/-- Whether this was the first to insert `tokenId`. -/
def tryConsumeTokenAtomic (store : AgentStore) (tokenId approvalId : String) (consumedAtMs : Int) :
    Bool × AgentStore :=
  match store.blocklist.get? tokenId with
  | some _ => (false, store)
  | none => (true, { store with blocklist := store.blocklist.insert tokenId (approvalId, consumedAtMs) })

def normalizeStandingScope (scopeKind : Option String) : String :=
  match scopeKind.bind nonEmptyOpt with
  | some kind => if kind = "capability_family" then "method_prefix" else kind
  | none => "agent_category"

def validateStandingScope (scopeKind : String) (taskId sessionId methodPrefix pathGlob : Option String) :
    Except AgentStoreError Unit :=
  if scopeKind = "agent_category" then .ok ()
  else if scopeKind = "task" then
    if (taskId.bind nonEmptyOpt).isSome then .ok ()
    else .error (.badInput "task scoped standing approval requires task_id")
  else if scopeKind = "session" then
    if (sessionId.bind nonEmptyOpt).isSome then .ok ()
    else .error (.badInput "session scoped standing approval requires session_id")
  else if scopeKind = "method_prefix" then
    if (methodPrefix.bind nonEmptyOpt).isSome then .ok ()
    else .error (.badInput "method_prefix scoped standing approval requires method_prefix")
  else if scopeKind = "workspace_path" then
    if (pathGlob.bind nonEmptyOpt).isSome then .ok ()
    else .error (.badInput
      "workspace_path scoped standing approval requires path_glob or workspace_path_glob")
  else .error (.badInput s!"unsupported standing approval scope_kind: {scopeKind}")

structure StandingApprovalCreate where
  agentId : String
  matchCategory : String
  matchPathGlob : Option String
  scopeKind : Option String
  taskId : Option String
  sessionId : Option String
  methodPrefix : Option String
  workspacePathGlob : Option String
  expiresAt : Int
  grantedBy : String
  maxCalls : Option Int
  maxCostMicros : Option Int
  note : String
  tenantId : String

def standingRow (now : Int) (standingId : String) (input : StandingApprovalCreate) : StandingApproval :=
  { standingId
    agentId := input.agentId
    matchCategory := input.matchCategory
    matchPathGlob := input.matchPathGlob
    scopeKind := normalizeStandingScope input.scopeKind
    taskId := input.taskId.bind nonEmptyOpt
    sessionId := input.sessionId.bind nonEmptyOpt
    methodPrefix := input.methodPrefix.bind nonEmptyOpt
    workspacePathGlob := input.workspacePathGlob.bind nonEmptyOpt
    expiresAt := input.expiresAt
    grantedBy := input.grantedBy
    maxCalls := input.maxCalls
    callsUsed := 0
    maxCostMicros := input.maxCostMicros
    costUsedMicros := 0
    note := input.note
    createdAt := now
    tenantId := if (trim input.tenantId).isEmpty then "default" else input.tenantId }

/-- `standingId` is the random one of `new_standing_id`. -/
def createScopedStanding (store : AgentStore) (now : Int) (standingId : String)
    (input : StandingApprovalCreate) : Except AgentStoreError AgentStore :=
  if (trim input.agentId).isEmpty || (trim input.matchCategory).isEmpty then
    .error (.badInput "agent_id and match_category required")
  else
    match validateStandingScope (normalizeStandingScope input.scopeKind) input.taskId input.sessionId
        input.methodPrefix (input.matchPathGlob.or input.workspacePathGlob) with
    | .error e => .error e
    | .ok () =>
      if input.maxCalls.any (fun n => decide (n ≤ 0)) then
        .error (.badInput "standing approval max_calls must be positive")
      else if input.maxCostMicros.any (fun n => decide (n ≤ 0)) then
        .error (.badInput "standing approval max_cost_micros must be positive")
      else
        match store.standing.get? standingId with
        | some _ => .error (.uniqueViolation "standing_approvals.standing_id")
        | none =>
          .ok { store with standing := store.standing.insert standingId (standingRow now standingId input) }

def revokeStanding (store : AgentStore) (standingId : String) : Except AgentStoreError AgentStore :=
  match store.standing.get? standingId with
  | none => .error (.notFound standingId)
  | some _ => .ok { store with standing := store.standing.remove standingId }

structure StandingApprovalMatch where
  agentId : String
  category : String
  method : String
  taskId : Option String
  sessionId : Option String
  workspacePath : Option String
  tenantId : Option String
  estimatedCostMicros : Int
  now : Int

def workspaceMatches (pattern workspacePath : Option String) : Bool :=
  match pattern.bind nonEmptyOpt with
  | none => true
  | some pattern =>
    match workspacePath.bind nonEmptyOpt with
    | none => false
    | some path =>
      if pattern.toList.getLast? = some '*' then pattern.toList.dropLast.isPrefixOf path.toList
      else path == pattern

def standingScopeMatches (row : StandingApproval) (input : StandingApprovalMatch) : Bool :=
  if row.scopeKind = "agent_category" then workspaceMatches row.matchPathGlob input.workspacePath
  else if row.scopeKind = "task" then
    row.taskId == input.taskId && workspaceMatches row.matchPathGlob input.workspacePath
  else if row.scopeKind = "session" then
    row.sessionId == input.sessionId && workspaceMatches row.matchPathGlob input.workspacePath
  else if row.scopeKind = "method_prefix" then
    row.methodPrefix.any (fun pre => pre.toList.isPrefixOf input.method.toList) &&
      workspaceMatches row.matchPathGlob input.workspacePath
  else if row.scopeKind = "workspace_path" then
    workspaceMatches (row.workspacePathGlob.or row.matchPathGlob) input.workspacePath
  else false

def StandingApprovalMatch.tenant (input : StandingApprovalMatch) : String :=
  (input.tenantId.bind nonEmptyOpt).getD "default"

def StandingApprovalMatch.cost (input : StandingApprovalMatch) : Int := max input.estimatedCostMicros 0

/-- The guard of the selection and of the update: one more call, and its cost, is in bounds. -/
def inBounds (row : StandingApproval) (cost : Int) : Bool :=
  row.maxCalls.all (fun n => decide (row.callsUsed < n)) &&
    row.maxCostMicros.all (fun n => decide (row.costUsedMicros + cost ≤ n))

def isCandidate (input : StandingApprovalMatch) (row : StandingApproval) : Bool :=
  row.tenantId == input.tenant && row.agentId == input.agentId && row.matchCategory == input.category &&
    decide (input.now < row.expiresAt) && inBounds row input.cost

/-- `ORDER BY created_at ASC, standing_id ASC`. -/
def olderFirst (a b : StandingApproval) : Bool :=
  decide (a.createdAt < b.createdAt) ||
    (decide (a.createdAt = b.createdAt) && decide (a.standingId ≤ b.standingId))

def candidates (store : AgentStore) (input : StandingApprovalMatch) : List StandingApproval :=
  (store.standing.values.filter (isCandidate input)).mergeSort olderFirst

def StandingApproval.charged (row : StandingApproval) (cost : Int) : StandingApproval :=
  { row with callsUsed := row.callsUsed + (if row.maxCalls.isNone then 0 else 1)
             costUsedMicros := row.costUsedMicros + (if row.maxCostMicros.isNone then 0 else cost) }

def chargeStanding (store : AgentStore) (standingId : String) (cost : Int) : Option AgentStore :=
  match store.standing.get? standingId with
  | none => none
  | some row =>
    if inBounds row cost then
      some { store with standing := store.standing.insert standingId (StandingApproval.charged row cost) }
    else none

def consumeFirst (store : AgentStore) (input : StandingApprovalMatch) :
    List StandingApproval → Option String × AgentStore
  | [] => (none, store)
  | row :: rest =>
    if ¬standingScopeMatches row input then consumeFirst store input rest
    else if row.maxCalls.isNone && row.maxCostMicros.isNone then (some row.standingId, store)
    else
      match chargeStanding store row.standingId input.cost with
      | some store' => (some row.standingId, store')
      | none => consumeFirst store input rest

def consumeActiveStandingFor (store : AgentStore) (input : StandingApprovalMatch) :
    Option String × AgentStore :=
  consumeFirst store input (store.candidates input)

end AgentStore

end Admission

end Relux
