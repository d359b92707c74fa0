import Relux.Admission.AgentGate

/-! Deciding an approval: the operator's decision, the token it mints, the autonomous greenlight
of a hire, and the sweep of rows past their time. -/

namespace Relux

namespace Admission

inductive HandlerOutcome where
  | ok (body : String)
  | err (kind : Nat) (cause : String) (retryHint : Nat)
  deriving DecidableEq

namespace ErrorKinds

def INVALID_ARGS : Nat := 5
def RESPONDER_INTERNAL : Nat := 11
def SECURITY_DENIED : Nat := 21

end ErrorKinds

def invalid (cause : String) : HandlerOutcome := .err ErrorKinds.INVALID_ARGS cause 2

def internal (cause : String) : HandlerOutcome := .err ErrorKinds.RESPONDER_INTERNAL cause 1

def OPERATOR_ROLES : List String := ["operator", "admin"]

def SPAWN_CLEARANCE_METHOD : String := "agent.activate_hire"

structure InvocationCtx where
  caller : VerifiedIdentity
  tenantId : Option String
  args : Except String String

def InvocationCtx.tenantIdOrDefault (ctx : InvocationCtx) : String := ctx.tenantId.getD "default"

def mayDecide (record : ApprovalRecord) (caller : VerifiedIdentity) : Bool :=
  OPERATOR_ROLES.contains caller.role || record.authorizedApprovers.contains caller.subjectId

namespace AgentStore

def settleHire (store : AgentStore) (agentId status : String) : Except AgentStoreError AgentStore :=
  match store.profiles.values.find? (fun v => v.agentId == agentId && v.status == "pending") with
  | none => .error (.notFound agentId)
  | some view => .ok { store with profiles := store.profiles.insert view.subjectId { view with status } }

def approveHire (store : AgentStore) (agentId : String) : Except AgentStoreError AgentStore :=
  settleHire store agentId "active"

def rejectHire (store : AgentStore) (agentId : String) : Except AgentStoreError AgentStore :=
  settleHire store agentId "disabled"

end AgentStore

structure DecideArgs where
  approvalId : String
  decision : ApprovalStatus
  decidedBy : String
  note : String

def parseDecideArgs (args : Except String String) : Except HandlerOutcome DecideArgs :=
  match args with
  | .error e => .error (invalid s!"coord.approval.decide utf8: {e}")
  | .ok s =>
    match (splitN '|' 4 s.toList).map String.ofList with
    | approvalId :: decision :: decidedBy :: rest =>
      if trim decision = "approved" then
        .ok ⟨trim approvalId, .approved, decidedBy, rest.headD ""⟩
      else if trim decision = "rejected" then
        .ok ⟨trim approvalId, .rejected, decidedBy, rest.headD ""⟩
      else .error (invalid s!"coord.approval.decide: bad decision: {trim decision}")
    | _ =>
      .error (invalid ("coord.approval.decide: expected " ++ String.ofList ['\x60'] ++
        "approval_id|decision|decided_by|note?" ++ String.ofList ['\x60']))

def notAnApprover (caller : VerifiedIdentity) (approvalId : String) : HandlerOutcome :=
  .err ErrorKinds.SECURITY_DENIED
    ("coord.approval.decide: caller " ++ String.ofList ['\x60'] ++ caller.subjectId ++
      String.ofList ['\x60'] ++ " is not an authorised approver for " ++ String.ofList ['\x60'] ++
      approvalId ++ String.ofList ['\x60'] ++ " (role=" ++ caller.role ++ ")") 0

theorem decideApproval_ok {store store' : AgentStore} {now : Int} {id by' note : String}
    {decision : ApprovalStatus} {metadata : Option AgentStore.DecidedApprovalMetadata}
    (h : store.decideApproval now id decision by' note = .ok (metadata, store')) :
    ∃ r, store.approvals.get? id = some r ∧ r.status = .pending ∧
      metadata = (if decision = .approved then some ⟨id, r.subjectId, r.method, r.taskId⟩ else none) ∧
      store' = { store with
        approvals := store.approvals.insert id (AgentStore.decided decision now by' note r) } := by
  unfold AgentStore.decideApproval at h
  split at h
  · cases h
  cases hget : store.approvals.get? id with
  | none =>
    rw [hget] at h
    cases h
  | some r =>
    rw [hget] at h
    dsimp only at h
    by_cases hpending : r.status = .pending
    · rw [if_neg (not_not_intro hpending)] at h
      cases h
      exact ⟨r, rfl, hpending, rfl, rfl⟩
    · rw [if_pos hpending] at h
      cases h

def decideStep (store : AgentStore) (now : Int) (ctx : InvocationCtx) :
    Except HandlerOutcome
      ((ApprovalRecord × DecideArgs × Option AgentStore.DecidedApprovalMetadata) × AgentStore) :=
  match parseDecideArgs ctx.args with
  | .error outcome => .error outcome
  | .ok args =>
    match store.getApprovalRecordForTenant args.approvalId ctx.tenantIdOrDefault with
    | none => .error (invalid s!"coord.approval.decide: not found: {args.approvalId}")
    | some record =>
      if !mayDecide record ctx.caller then .error (notAnApprover ctx.caller args.approvalId)
      else
        match store.decideApproval now args.approvalId args.decision args.decidedBy args.note with
        | .error (.notFound _) =>
          .error (invalid s!"coord.approval.decide: not found: {args.approvalId}")
        | .error (.badInput m) => .error (invalid m)
        | .error e => .error (internal s!"coord.approval.decide: {e.text}")
        | .ok (metadata, store) => .ok ((record, args, metadata), store)

/-- A decided hire clearance settles the hire; a hire that is not pending stays as it is. -/
def hireHop (store : AgentStore) (record : ApprovalRecord) (decision : ApprovalStatus) : AgentStore :=
  if record.method = SPAWN_CLEARANCE_METHOD then
    match if decision = .approved then store.approveHire record.agentId
        else store.rejectHire record.agentId with
    | .ok store => store
    | .error _ => store
  else store

/-- What the controller signs tokens with: the signer, the lifetime of a token, and the random
bytes and the clock of this call. -/
structure Mint where
  signer : Option ApprovalSigner
  ttlMs : Int
  nonce : List UInt8
  nowMs : Int

def Mint.issue (host : TokenHost) (mint : Mint) (signer : ApprovalSigner)
    (decided : AgentStore.DecidedApprovalMetadata) : Except TokenError String :=
  ApprovalToken.issue host signer mint.nonce decided.approvalId decided.method decided.subjectId
    (decided.taskId.getD "") mint.nowMs mint.ttlMs

def decideBody (host : TokenHost) (mint : Mint) (metadata : Option AgentStore.DecidedApprovalMetadata) :
    HandlerOutcome :=
  match metadata, mint.signer with
  | some decided, some signer =>
    match mint.issue host signer decided with
    | .ok wire => .ok s!"ok|{wire}\n"
    | .error e => internal s!"coord.approval.decide: token mint: {e.text}"
  | some _, none => .ok "ok\n"
  | none, _ => .ok "ok\n"

/-- `now` is the clock the row is stamped with. -/
def handleApprovalDecide (host : TokenHost) (mint : Mint) (store : AgentStore) (now : Int)
    (ctx : InvocationCtx) : HandlerOutcome × AgentStore :=
  match decideStep store now ctx with
  | .error outcome => (outcome, store)
  | .ok ((record, args, metadata), store) =>
    (decideBody host mint metadata, hireHop store record args.decision)

def autonomousApproveSpawnClearance (store : AgentStore) (now : Int) (tenant approvalId : String) :
    Except String AgentStore :=
  match store.getApprovalRecordForTenant approvalId tenant with
  | none => .error s!"clearance not found in this Guild: {approvalId}"
  | some rec =>
    if rec.method ≠ SPAWN_CLEARANCE_METHOD then
      .error (s!"approval {approvalId} is not a spawn Clearance (method={rec.method}) — autonomous " ++
        "Prime only greenlights spawn Clearances")
    else if rec.status ≠ .pending then
      .error s!"clearance {approvalId} is not pending (status={rec.status.asWire})"
    else
      match store.decideApproval now approvalId .approved "autonomous-prime"
          "autonomous Prime standing authority" with
      | .error e => .error s!"decide: {e.text}"
      | .ok (_, store) => .ok store

/-- One pass of the loop over what it listed: a row that is no longer pending is skipped. -/
def markNext (store : AgentStore) (now : Int) (approvalId : String) : AgentStore :=
  match store.markExpired now approvalId with
  | .ok store => store
  | .error _ => store

end Admission

end Relux
