import Relux.Admission.ApprovalDecide
import Relux.Admission.Bridge
import Relux.AgentProfiles
import Relux.Interleave
import Relux.Probation

/-! The hire flow as the coordinator serves it: each call takes the lock of the agent store once
for each access, and other calls come in between. -/

namespace Relux.Roster

open Admission (ApprovalRecord HandlerOutcome InvocationCtx VerifiedIdentity
  DecideArgs TokenHost Mint invalid internal OPERATOR_ROLES SPAWN_CLEARANCE_METHOD mayDecide
  notAnApprover decideBody parseDecideArgs normTenant)
open Probation (Standing Ledger)

/-- Who makes an agent active: a caller in its own name, or the clearance that was approved. -/
inductive Activator
  | caller (who : VerifiedIdentity)
  | clearance (approvalId : String)
  deriving DecidableEq

structure Shared where
  now : Int
  profiles : Profiles
  approvals : HashMap String ApprovalRecord
  /-- No part of the store: the agents that hires minted, those of them whose second access is
  still to come, the writes that made agents active and the hires that were rejected. -/
  minted : List String
  due : List String
  activations : List (String × Activator)
  rejections : List String

def standingOf (status : String) : Standing :=
  if status = "pending" then .pending else if status = "active" then .active else .idle

namespace Shared

variable (s : Shared)

def desk : Admission.AgentStore := ⟨.empty, s.approvals, .empty, .empty⟩

def withDesk (desk : Admission.AgentStore) : Shared := { s with approvals := desk.approvals }

def standing (agentId : String) : Option Standing :=
  (s.profiles.get? agentId).map (fun p => standingOf p.status)

def ledger : Ledger String Activator where
  standing := s.standing
  minted := s.minted
  due := s.due
  activations := s.activations
  rejections := s.rejections

end Shared

inductive SpawnGate
  | proceed
  | clearance (reason : String) (approverSubjects : List String)

inductive Edit
  | update (agentId field value : String)
  | delete (agentId : String)

def Edit.agentId : Edit → String
  | update agentId _ _ => agentId
  | delete agentId => agentId

inductive Method
  | requestHire
  | update
  | delete
  | approveHire
  | rejectHire
  | decide

inductive Task
  | asked (method : Method) (ctx : InvocationCtx)
  | autonomous (tenant approvalId : String) (rig : Option String)
  | spawning (ctx : InvocationCtx) (input : NewAgent)
  | leading (ctx : InvocationCtx) (input : NewAgent) (reason leadId : String)
  | minting (ctx : InvocationCtx) (input : NewAgent) (gate : SpawnGate)
  | settingPending (ctx : InvocationCtx) (input : NewAgent) (gate : SpawnGate) (hireId : String)
  | clearing (ctx : InvocationCtx) (input : NewAgent) (reason : String)
      (approverSubjects : List String) (hireId : String)
  | configuring (ctx : InvocationCtx) (edit : Edit)
  | targeting (ctx : InvocationCtx) (edit : Edit) (actor : AgentProfile)
  | scoping (ctx : InvocationCtx) (edit : Edit) (actor : AgentProfile)
  | owning (ctx : InvocationCtx) (edit : Edit)
  | writing (ctx : InvocationCtx) (edit : Edit)
  | approving (ctx : InvocationCtx) (agentId : String) (rig : Option String)
  | rejecting (ctx : InvocationCtx) (agentId : String)
  | loading (ctx : InvocationCtx) (args : DecideArgs)
  | deciding (ctx : InvocationCtx) (args : DecideArgs) (record : ApprovalRecord)
  | hopping (args : DecideArgs) (record : ApprovalRecord)
      (metadata : Option Admission.AgentStore.DecidedApprovalMetadata)
  | greenlighting (tenant approvalId : String) (rig : Option String) (record : ApprovalRecord)
  | hiring (tenant approvalId : String) (rig : Option String) (hireId : String)
  | answered (outcome : HandlerOutcome)
  | returned (result : Except String String)

structure Draw where
  id : String
  mint : Mint

def policyDenied (cause : String) : HandlerOutcome :=
  .err Admission.Bridge.ErrorKinds.POLICY_DENIED cause 0

def securityDenied (cause : String) : HandlerOutcome :=
  .err Admission.ErrorKinds.SECURITY_DENIED cause 0

def callerIsOperator (ctx : InvocationCtx) : Bool := OPERATOR_ROLES.contains ctx.caller.role

def utf8 (method : String) (ctx : InvocationCtx) : Except HandlerOutcome String :=
  match ctx.args with
  | .error e => .error (invalid s!"{method} utf8: {e}")
  | .ok s => .ok s

def parts (n : Nat) (s : String) : List String := (splitN '|' n s.toList).map String.ofList

def hireArgs (ctx : InvocationCtx) : Except HandlerOutcome NewAgent :=
  match utf8 "agent.request_hire" ctx with
  | .error outcome => .error outcome
  | .ok s =>
    match parts 8 s with
    | [name, role, title, department, team, createdBy, subjectId, riskCeiling] =>
      .ok ⟨name, role, title, department, team, createdBy, subjectId, riskCeiling,
        ctx.tenantIdOrDefault⟩
    | _ => .error (invalid ("agent.request_hire: expected " ++
        "\x60name|role|title|department|team|created_by|subject_id|risk_ceiling\x60"))

def updateArgs (ctx : InvocationCtx) : Except HandlerOutcome Edit :=
  match utf8 "agent.update" ctx with
  | .error outcome => .error outcome
  | .ok s =>
    match parts 3 s with
    | [agentId, field, value] => .ok (.update agentId field value)
    | _ => .error (invalid "agent.update: expected \x60agent_id|field|value\x60")

def agentIdArg (method : String) (ctx : InvocationCtx) : Except HandlerOutcome String :=
  match utf8 method ctx with
  | .error outcome => .error outcome
  | .ok s => if (trim s).isEmpty then .error (invalid s!"{method}: agent_id required") else .ok (trim s)

def KNOWN_RIG_NAMES : List String := ["echo", "claude", "codex", "gemini", "hermes"]

def isKnownRig (name : String) : Bool := KNOWN_RIG_NAMES.contains (trim name)

def approveArgs (ctx : InvocationCtx) : Except HandlerOutcome (String × Option String) :=
  match utf8 "agent.approve_hire" ctx with
  | .error outcome => .error outcome
  | .ok s =>
    let agentId := trim ((parts 2 s).headD "")
    let rig := (((parts 2 s).drop 1).head?.map trim).filter (fun r => !r.isEmpty)
    if agentId.isEmpty then .error (invalid "agent.approve_hire: agent_id required")
    else if rig.any (fun r => !isKnownRig r) then
      .error (invalid ("agent.approve_hire: unknown rig '" ++ rig.getD "" ++ "' (known: " ++
        String.intercalate ", " KNOWN_RIG_NAMES ++ ")"))
    else .ok (agentId, rig)

namespace Shared

variable (s : Shared)

def createHire (suffix : String) (input : NewAgent) :
    Except Admission.AgentStoreError (String × Shared) :=
  match s.profiles.createAgent s.now suffix input with
  | .error e => .error e
  | .ok (hireId, profiles) =>
    .ok (hireId, { s with
      profiles := profiles
      minted := hireId :: s.minted
      due := hireId :: s.due })

def setPending (hireId : String) : Shared :=
  { s with
    profiles := s.profiles.setPending s.now hireId
    due := s.due.filter (fun other => other ≠ hireId) }

def writeField (parseJson : String → Except String (List String)) (who : VerifiedIdentity)
    (agentId field value : String) : Except Admission.AgentStoreError Shared :=
  match s.profiles.updateAgentField parseJson s.now agentId field value with
  | .error e => .error e
  | .ok profiles =>
    .ok { s with
      profiles := profiles
      activations := if field = "status" ∧ value = "active" then
          (agentId, .caller who) :: s.activations else s.activations }

def approveHire (agentId : String) (by' : Activator) : Except Admission.AgentStoreError Shared :=
  match s.profiles.approveHire s.now agentId with
  | .error e => .error e
  | .ok profiles =>
    .ok { s with profiles := profiles, activations := (agentId, by') :: s.activations }

def approveHireWithRig (agentId : String) (rig : Option String) (tenant : String)
    (by' : Activator) : Except Admission.AgentStoreError (Profiles.ApproveHireOutcome × Shared) :=
  match s.profiles.approveHireWithRig s.now agentId rig tenant with
  | .error e => .error e
  | .ok (outcome, profiles) =>
    .ok (outcome, { s with profiles := profiles, activations := (agentId, by') :: s.activations })

def rejectHire (agentId : String) : Except Admission.AgentStoreError Shared :=
  match s.profiles.rejectHire s.now agentId with
  | .error e => .error e
  | .ok profiles => .ok { s with profiles := profiles, rejections := agentId :: s.rejections }

def SPAWN_CLEARANCE_TTL_SECS : Int := 604800

def createSpawnClearance (approvalId hireId hireSubject reason : String)
    (approverSubjects : List String) (tenant : String) :
    Except Admission.AgentStoreError Shared :=
  (s.desk.createApproval s.now approvalId {
    agentId := hireId
    subjectId := hireSubject
    method := SPAWN_CLEARANCE_METHOD
    capabilityCategory := "agents:create"
    argsRedactedHash := "spawn"
    reason := reason
    approverGroups := []
    taskId := none
    expiresAt := s.now + SPAWN_CLEARANCE_TTL_SECS
    authorizedApprovers := approverSubjects
    tenantId := tenant }).map s.withDesk

end Shared

def jsonString (s : String) : String :=
  let digit (n : Nat) : Char := if n < 10 then Char.ofNat (48 + n) else Char.ofNat (87 + n)
  "\"" ++ String.ofList (s.toList.flatMap (fun c =>
    if c = '"' then ['\\', '"']
    else if c = '\\' then ['\\', '\\']
    else if c = '\n' then ['\\', 'n']
    else if c = '\r' then ['\\', 'r']
    else if c = '\t' then ['\\', 't']
    else if c.toNat = 8 then ['\\', 'b']
    else if c.toNat = 12 then ['\\', 'f']
    else if c.toNat < 32 then ['\\', 'u', '0', '0', digit (c.toNat / 16), digit (c.toNat % 16)]
    else [c])) ++ "\""

def approveBody (agentId : String) (outcome : Profiles.ApproveHireOutcome) : String :=
  "\x7b\"agent_id\":" ++ jsonString agentId ++
    ",\"needs_rig\":" ++ toString (!outcome.rig.isSome) ++
    ",\"rig\":" ++ ((outcome.rig.map jsonString).getD "null") ++
    ",\"rig_set\":" ++ toString outcome.rigSet ++
    ",\"runnable\":" ++ toString outcome.rig.isSome ++ ",\"status\":\"approved\"\x7d"

def editOutcome (edit : Edit) : Admission.AgentStoreError → HandlerOutcome
  | .notFound _ =>
    match edit with
    | .update agentId _ _ => invalid s!"agent.update: not found: {agentId}"
    | .delete agentId => invalid s!"agent.delete: not found: {agentId}"
  | .badInput m =>
    match edit with
    | .update _ _ _ => invalid m
    | .delete _ => internal ("agent.delete: " ++ (Admission.AgentStoreError.badInput m).text)
  | e =>
    match edit with
    | .update _ _ _ => internal ("agent.update: " ++ e.text)
    | .delete _ => internal ("agent.delete: " ++ e.text)

def approveOutcome (agentId : String) : Admission.AgentStoreError → HandlerOutcome
  | .notFound _ => invalid s!"agent.approve_hire: no pending hire {agentId} in this Guild"
  | .badInput m => invalid s!"agent.approve_hire: {m}"
  | e => internal ("agent.approve_hire: " ++ e.text)

def rejectOutcome : Admission.AgentStoreError → HandlerOutcome
  | .notFound m => invalid s!"agent.reject_hire: not pending: {m}"
  | e => internal ("agent.reject_hire: " ++ e.text)

def hireOutcome : Admission.AgentStoreError → HandlerOutcome
  | .badInput m => invalid m
  | e => internal ("agent.request_hire: " ++ e.text)

def decideOutcome (approvalId : String) : Admission.AgentStoreError → HandlerOutcome
  | .notFound _ => invalid s!"coord.approval.decide: not found: {approvalId}"
  | .badInput m => invalid m
  | e => internal ("coord.approval.decide: " ++ e.text)

section
variable (parseJson : String → Except String (List String)) (host : TokenHost) (s : Shared)

def parsed {α : Type} (r : Except HandlerOutcome α) (next : α → Task) : Task :=
  match r with
  | .error outcome => .answered outcome
  | .ok a => next a

def gated (ctx : InvocationCtx) (edit : Edit) : Task :=
  if callerIsOperator ctx then .owning ctx edit else .configuring ctx edit

def stepAsked (ctx : InvocationCtx) : Method → Task
  | .requestHire => parsed (hireArgs ctx) (fun input =>
      if callerIsOperator ctx then .minting ctx input .proceed else .spawning ctx input)
  | .update => parsed (updateArgs ctx) (gated ctx)
  | .delete => parsed (agentIdArg "agent.delete" ctx) (fun agentId => gated ctx (.delete agentId))
  | .approveHire => parsed (approveArgs ctx) (fun args => .approving ctx args.1 args.2)
  | .rejectHire => parsed (agentIdArg "agent.reject_hire" ctx) (.rejecting ctx)
  | .decide => parsed (parseDecideArgs ctx.args) (.loading ctx)

/-- `enforce_spawn_key` up to the lead's profile. -/
def stepSpawning (ctx : InvocationCtx) (input : NewAgent) : Task :=
  match s.profiles.getBySubjectForTenant ctx.caller.subjectId ctx.tenantIdOrDefault with
  | none => .answered (securityDenied (s!"spawn denied: caller \x60{ctx.caller.subjectId}\x60 " ++
      "has no Operative profile in this Guild"))
  | some actor =>
    match spawnVerdict actor.canSpawnAgents actor.spawnRoute with
    | .allow => .minting ctx input .proceed
    | .deny reason => .answered (policyDenied s!"spawn denied: {reason}")
    | .clearance reason =>
      match actor.reportsTo.filter (fun _ => normalizeSpawnRoute actor.spawnRoute == "lead") with
      | none => .minting ctx input (.clearance reason [])
      | some leadId => .leading ctx input reason leadId

def stepLeading (ctx : InvocationCtx) (input : NewAgent) (reason leadId : String) : Task :=
  .minting ctx input (.clearance reason
    ((s.profiles.getAgentForTenant leadId ctx.tenantIdOrDefault).map (·.subjectId)).toList)

/-- `enforce_configure_key`, one access after the other. -/
def stepConfiguring (ctx : InvocationCtx) (edit : Edit) : Task :=
  match s.profiles.getBySubjectForTenant ctx.caller.subjectId ctx.tenantIdOrDefault with
  | none => .answered (securityDenied
      (s!"configure denied: caller \x60{ctx.caller.subjectId}\x60 " ++
        "has no Operative profile in this Guild"))
  | some actor =>
    if trim edit.agentId = actor.agentId then
      .answered (policyDenied
        "configure denied: an Operative cannot configure itself (self-escalation)")
    else .targeting ctx edit actor

def stepTargeting (ctx : InvocationCtx) (edit : Edit) (actor : AgentProfile) : Task :=
  if (s.profiles.getAgentForTenant (trim edit.agentId) ctx.tenantIdOrDefault).isNone then
    .answered (policyDenied (s!"configure denied: \x60{trim edit.agentId}\x60 " ++
      "is not an Operative in this Guild"))
  else .scoping ctx edit actor

def stepScoping (ctx : InvocationCtx) (edit : Edit) (actor : AgentProfile) : Task :=
  let target := trim edit.agentId
  match configureVerdict actor.canConfigureAgents actor.configureScope
      actor.configureAllowedAgents target
      (s.profiles.managesForTenant actor.agentId target ctx.tenantIdOrDefault) with
  | .allow => .owning ctx edit
  | .clearance reason => .answered (policyDenied s!"configure denied: {reason}")
  | .deny reason => .answered (policyDenied s!"configure denied: {reason}")

def stepOwning (ctx : InvocationCtx) (edit : Edit) : Task :=
  if (s.profiles.getAgentForTenant edit.agentId ctx.tenantIdOrDefault).isNone then
    .answered (editOutcome edit (.notFound edit.agentId))
  else .writing ctx edit

def Edit.field : Edit → String × String
  | update _ field value => (field, value)
  | delete _ => ("status", "disabled")

def stepWriting (ctx : InvocationCtx) (edit : Edit) : Shared × Task :=
  match s.writeField parseJson ctx.caller edit.agentId edit.field.1 edit.field.2 with
  | .error e => (s, .answered (editOutcome edit e))
  | .ok s' => (s', .answered (.ok "ok\n"))

def stepMinting (draw : Draw) (ctx : InvocationCtx) (input : NewAgent) (gate : SpawnGate) :
    Shared × Task :=
  match s.createHire draw.id input with
  | .error e => (s, .answered (hireOutcome e))
  | .ok (hireId, s') => (s', .settingPending ctx input gate hireId)

def stepSettingPending (ctx : InvocationCtx) (input : NewAgent) (gate : SpawnGate)
    (hireId : String) : Shared × Task :=
  (s.setPending hireId,
    match gate with
    | .proceed => .answered (.ok s!"{hireId}\n")
    | .clearance reason approvers => .clearing ctx input reason approvers hireId)

def stepClearing (draw : Draw) (ctx : InvocationCtx) (input : NewAgent) (reason : String)
    (approverSubjects : List String) (hireId : String) : Shared × Task :=
  match s.createSpawnClearance draw.id hireId input.subjectId reason approverSubjects
      ctx.tenantIdOrDefault with
  | .error e => (s, .answered (internal ("agent.request_hire spawn clearance: " ++ e.text)))
  | .ok s' =>
    (s', .answered (.ok (s!"{hireId}\n" ++ s!"clearance: {reason} (clearance_id={draw.id})\n")))

def stepApproving (ctx : InvocationCtx) (agentId : String) (rig : Option String) :
    Shared × Task :=
  match s.approveHireWithRig agentId rig ctx.tenantIdOrDefault (.caller ctx.caller) with
  | .error e => (s, .answered (approveOutcome agentId e))
  | .ok (outcome, s') => (s', .answered (.ok (approveBody agentId outcome)))

def stepRejecting (agentId : String) : Shared × Task :=
  match s.rejectHire agentId with
  | .error e => (s, .answered (rejectOutcome e))
  | .ok s' => (s', .answered (.ok "rejected\n"))

def stepLoading (ctx : InvocationCtx) (args : DecideArgs) : Task :=
  match s.desk.getApprovalRecordForTenant args.approvalId ctx.tenantIdOrDefault with
  | none => .answered (invalid s!"coord.approval.decide: not found: {args.approvalId}")
  | some record =>
    if !mayDecide record ctx.caller then .answered (notAnApprover ctx.caller args.approvalId)
    else .deciding ctx args record

def stepDeciding (args : DecideArgs) (record : ApprovalRecord) : Shared × Task :=
  match s.desk.decideApproval s.now args.approvalId args.decision args.decidedBy args.note with
  | .error e => (s, .answered (decideOutcome args.approvalId e))
  | .ok (metadata, desk) => (s.withDesk desk, .hopping args record metadata)

def stepHopping (draw : Draw) (args : DecideArgs) (record : ApprovalRecord)
    (metadata : Option Admission.AgentStore.DecidedApprovalMetadata) : Shared × Task :=
  let outcome := decideBody host draw.mint metadata
  if record.method = SPAWN_CLEARANCE_METHOD then
    match if args.decision = .approved then
        s.approveHire record.agentId (.clearance args.approvalId)
      else s.rejectHire record.agentId with
    | .ok s' => (s', .answered outcome)
    | .error _ => (s, .answered outcome)
  else (s, .answered outcome)

/-- `autonomous_approve_spawn_clearance`, one access after the other. -/
def stepAutonomous (tenant approvalId : String) (rig : Option String) : Task :=
  match s.desk.getApprovalRecordForTenant approvalId tenant with
  | none => .returned (.error s!"clearance not found in this Guild: {approvalId}")
  | some record =>
    if record.method ≠ SPAWN_CLEARANCE_METHOD then
      .returned (.error (s!"approval {approvalId} is not a spawn Clearance " ++
        s!"(method={record.method}) — autonomous Prime only greenlights spawn Clearances"))
    else if record.status ≠ .pending then
      .returned (.error s!"clearance {approvalId} is not pending (status={record.status.asWire})")
    else .greenlighting tenant approvalId rig record

def stepGreenlighting (tenant approvalId : String) (rig : Option String)
    (record : ApprovalRecord) : Shared × Task :=
  match s.desk.decideApproval s.now approvalId .approved "autonomous-prime"
      "autonomous Prime standing authority" with
  | .error e => (s, .returned (.error ("decide: " ++ e.text)))
  | .ok (_, desk) => (s.withDesk desk, .hiring tenant approvalId rig record.agentId)

def stepHiring (tenant approvalId : String) (rig : Option String) (hireId : String) :
    Shared × Task :=
  match s.approveHireWithRig hireId rig tenant (.clearance approvalId) with
  | .error (.notFound _) => (s, .returned (.ok hireId))
  | .error e => (s, .returned (.error ("activate hire: " ++ e.text)))
  | .ok (_, s') => (s', .returned (.ok hireId))

def step (draw : Draw) : Task → Option (Shared × Task)
  | .asked method ctx => some (s, stepAsked ctx method)
  | .autonomous tenant approvalId rig => some (s, stepAutonomous s tenant approvalId rig)
  | .spawning ctx input => some (s, stepSpawning s ctx input)
  | .leading ctx input reason leadId => some (s, stepLeading s ctx input reason leadId)
  | .minting ctx input gate => some (stepMinting s draw ctx input gate)
  | .settingPending ctx input gate hireId => some (stepSettingPending s ctx input gate hireId)
  | .clearing ctx input reason approvers hireId =>
    some (stepClearing s draw ctx input reason approvers hireId)
  | .configuring ctx edit => some (s, stepConfiguring s ctx edit)
  | .targeting ctx edit actor => some (s, stepTargeting s ctx edit actor)
  | .scoping ctx edit actor => some (s, stepScoping s ctx edit actor)
  | .owning ctx edit => some (s, stepOwning s ctx edit)
  | .writing ctx edit => some (stepWriting parseJson s ctx edit)
  | .approving ctx agentId rig => some (stepApproving s ctx agentId rig)
  | .rejecting _ agentId => some (stepRejecting s agentId)
  | .loading ctx args => some (s, stepLoading s ctx args)
  | .deciding _ args record => some (stepDeciding s args record)
  | .hopping args record metadata => some (stepHopping host s draw args record metadata)
  | .greenlighting tenant approvalId rig record =>
    some (stepGreenlighting s tenant approvalId rig record)
  | .hiring tenant approvalId rig hireId => some (stepHiring s tenant approvalId rig hireId)
  | .answered _ => none
  | .returned _ => none

end

/-- The clock goes as it likes, others file approvals, and those past their time expire. -/
def service (parseJson : String → Except String (List String)) (host : TokenHost) :
    Tasking Shared Task where
  exec := fun s t s' t' fork => fork = none ∧ ∃ draw, step parseJson host s draw t = some (s', t')
  env := fun s s' => (∃ now, s' = { s with now := now }) ∨
    (∃ approvalId input desk, s.desk.createApproval s.now approvalId input = .ok desk ∧
      s' = s.withDesk desk) ∨
    ∃ approvalId desk, s.desk.markExpired s.now approvalId = .ok desk ∧ s' = s.withDesk desk
  spawn := fun s t s' => s' = s ∧ ((∃ method ctx, t = .asked method ctx) ∨
    ∃ tenant approvalId rig, t = .autonomous tenant approvalId rig)

end Relux.Roster
