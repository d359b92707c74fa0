import Relux.Text
import Relux.Admission.AccessBroker
import Relux.Admission.AgentGate
import Relux.Admission.TenantPolicy

/-! What is done about a reply of low confidence. -/

namespace Relux

namespace Admission

inductive FallbackAction where
  | pass
  | retry (maxRetries retryDelayMs : Nat)
  | escalate (escalateTo : String)
  | safeDefault (defaultValue : String)
  | alert (alertMessage : String)
  | abort (abortMessage : String)
  deriving DecidableEq

structure ScoreOps (F : Type) where
  le : F → F → Bool
  lt : F → F → Bool
  zero : F
  half : F
  atLeastOne : F → F

structure ConfidencePolicy (F : Type) where
  capability : String
  lowThreshold : F
  criticalThreshold : F
  lowAction : FallbackAction
  criticalAction : FallbackAction

structure ActionVerdict (F : Type) where
  action : FallbackAction
  matched : Bool
  critical : Bool
  lowThreshold : Option F
  criticalThreshold : Option F

def ActionVerdict.pass {F : Type} : ActionVerdict F := ⟨.pass, false, false, none, none⟩

/-- A `*` at an end of the pattern matches any text there. -/
def globMatch (pattern value : String) : Bool :=
  let inner := trimMatches (fun c => c == '*') pattern.toList
  match pattern.toList.head? == some '*', pattern.toList.getLast? == some '*' with
  | false, false => pattern == value
  | true, false => inner.isSuffixOf value.toList
  | false, true => inner.isPrefixOf value.toList
  | true, true => containsChars inner value.toList

namespace FallbackEngine

def decide {F : Type} (ops : ScoreOps F) (policies : List (ConfidencePolicy F)) (capability : String)
    (score : F) : ActionVerdict F :=
  match policies.find? (fun p => globMatch p.capability capability) with
  | none => .pass
  | some p =>
    if ops.le score p.criticalThreshold then
      ⟨p.criticalAction, true, true, some p.lowThreshold, some p.criticalThreshold⟩
    else if ops.le score p.lowThreshold then
      ⟨p.lowAction, true, false, some p.lowThreshold, some p.criticalThreshold⟩
    else ⟨.pass, true, false, some p.lowThreshold, some p.criticalThreshold⟩

end FallbackEngine

end Admission

/-! The dispatch bridge: what a call passes on its way to a handler, on the unary and on the
streaming entry point. -/

namespace Admission

namespace Bridge

namespace ErrorKinds

def TRANSPORT : Nat := 1
def TIMEOUT : Nat := 2
def UNKNOWN_METHOD : Nat := 4
def INVALID_ARGS : Nat := 5
def POLICY_DENIED : Nat := 6
def IDENTITY_INVALID : Nat := 7
def REPLAY_REJECTED : Nat := 13
def APPROVAL_REQUIRED : Nat := 19
def SECURITY_DENIED : Nat := 21
def RESOURCE_EXHAUSTED : Nat := 22

end ErrorKinds

structure Envelope extends RequestEnvelope where
  rid : List UInt8
  issuedAtMs : Int
  deadline : Int
  identityBundle : List UInt8
  sessionToken : Option String
  args : List UInt8

structure InvocationCtx where
  caller : VerifiedIdentity
  requestId : List UInt8
  args : List UInt8
  tenantId : Option String

structure ErrorEnvelope where
  kind : Nat
  cause : String
  retryHint : Nat
  deriving DecidableEq

inductive HandlerOutcome where
  | ok (body : List UInt8)
  | err (e : ErrorEnvelope)
  deriving DecidableEq

abbrev Handler := InvocationCtx → Nat → HandlerOutcome

abbrev StreamingHandler := InvocationCtx → Except ErrorEnvelope (List (Except ErrorEnvelope (List UInt8)))

structure SessionVerification where
  valid : Bool
  reason : Option String
  scopes : List String

inductive GateOutcome where
  | blocked (cause : String)
  | redacted
  | logged
  deriving DecidableEq

inductive BudgetDecision where
  | allow
  | throttle (delayMs : Nat)
  | reject (cause : String)
  deriving DecidableEq

structure AgentGateBindings where
  store : AgentStore
  describe : String → Option CapabilityDescriptor

/-- The bridge with its tables. The scanner answers by request, agent, method and arguments, with
the arguments it leaves; the enforcer by agent and method; the scorer by agent, method, outcome and
the handlers called so far. -/
structure DispatchBridge (F : Type) where
  overflowChecks : Bool
  replay : ReplayGate
  verifyOnDispatchEnabled : Bool
  sessionService : Option (String → SessionVerification)
  handlers : HashMap String Handler
  streamingHandlers : HashMap String StreamingHandler
  agentGate : Option AgentGateBindings
  approvalKeyset : ApprovalKeySet
  alwaysRequireMethods : List String
  tenantPolicy : Option TenantPolicyResolver
  policy : PolicyFile
  accessBroker : Option AgentAccessBroker
  piiGate : Option (List UInt8 → String → String → List UInt8 → Option GateOutcome × List UInt8)
  budgetEnforcer : Option (String → String → BudgetDecision)
  confidenceScorer : Option (String → String → HandlerOutcome → Nat → F)
  fallbackEngine : Option (List (ConfidencePolicy F))

structure BridgeHost (F : Type) where
  gate : GateHost
  policy : PolicyHost
  scores : ScoreOps F
  decode : List UInt8 → Except String Envelope
  validateIdentityBundle : List UInt8 → Int → Except String VerifiedIdentity

/-- What the clocks, the policy files and the random source give while a request is handled. -/
structure Moment where
  now : Int
  nowMs : Int
  gateNowMs : Int
  approvalNow : Int
  approvalId : String
  files : HashMap String String
  policyNow : Nat
  brokerNow : Int
  retryNow : Nat → Int

inductive Exit where
  | refused (kind : Nat) (cause : String)
  | panicked
  deriving DecidableEq

def Exit.kind : Exit → Option Nat
  | refused kind _ => some kind
  | panicked => none

abbrev Admit (F α : Type) := EStateM Exit (DispatchBridge F) α

variable {F : Type}

def decodeEnvelope (host : BridgeHost F) (cause : String → String) (encoded : List UInt8) :
    Admit F Envelope := fun b =>
  match host.decode encoded with
  | .error e => .error (.refused ErrorKinds.INVALID_ARGS (cause e)) b
  | .ok req => .ok req b

def checkDeadline (moment : Moment) (req : Envelope) : Admit F Unit := fun b =>
  if req.deadline < moment.now then
    .error (.refused ErrorKinds.TIMEOUT "admission:deadline_exceeded") b
  else .ok () b

def checkFreshness (moment : Moment) (req : Envelope) : Admit F Unit := fun b =>
  match ageMs b.overflowChecks moment.nowMs req.issuedAtMs with
  | none => .error .panicked b
  | some age =>
    if age < -b.replay.maxClockSkewMs then
      .error (.refused ErrorKinds.REPLAY_REJECTED "admission:future_envelope") b
    else if b.replay.freshnessWindowMs < age then
      .error (.refused ErrorKinds.REPLAY_REJECTED "admission:stale_envelope") b
    else .ok () b

def verifyIdentity (host : BridgeHost F) (moment : Moment) (req : Envelope) :
    Admit F VerifiedIdentity := fun b =>
  match host.validateIdentityBundle req.identityBundle moment.now with
  | .error e => .error (.refused ErrorKinds.IDENTITY_INVALID s!"admission:identity_invalid:{e}") b
  | .ok caller => .ok caller b

def checkReplay (moment : Moment) (req : Envelope) (caller : VerifiedIdentity) : Admit F Unit :=
  fun b =>
    match b.replay.cache.checkAndInsert (replayKey caller.subjectId req.rid req.issuedAtMs)
        moment.nowMs with
    | (.error .replayed, cache) =>
      .error (.refused ErrorKinds.REPLAY_REJECTED "admission:replay_rejected")
        { b with replay := { b.replay with cache := cache } }
    | (.ok (), cache) => .ok () { b with replay := { b.replay with cache := cache } }

def verifySession (host : BridgeHost F) (req : Envelope) : Admit F Unit := fun b =>
  if b.verifyOnDispatchEnabled then
    match b.sessionService with
    | none => .error (.refused ErrorKinds.SECURITY_DENIED "session_service_unavailable") b
    | some verify =>
      match req.sessionToken with
      | none => .error (.refused ErrorKinds.SECURITY_DENIED "session_token_missing") b
      | some token =>
        if !(verify token).valid then
          .error (.refused ErrorKinds.SECURITY_DENIED
            ("session_token_invalid: " ++ (verify token).reason.getD "session_token_invalid")) b
        else if !(verify token).scopes.any (fun s => s == "*" || s == req.method) then
          .error (.refused ErrorKinds.SECURITY_DENIED
            (s!"session_token_invalid: token_insufficient_scope (method={req.method}, scopes=" ++
              host.gate.debugStrings (verify token).scopes ++ ")")) b
        else .ok () b
  else .ok () b

def lookupHandler (req : Envelope) : Admit F Handler := fun b =>
  match b.handlers.get? req.method with
  | none => .error (.refused ErrorKinds.UNKNOWN_METHOD "admission:unknown_method") b
  | some handler => .ok handler b

def lookupStreamingHandler (req : Envelope) : Admit F StreamingHandler := fun b =>
  match b.streamingHandlers.get? req.method with
  | none =>
    .error (.refused ErrorKinds.UNKNOWN_METHOD s!"unknown streaming method: {req.method}") b
  | some handler => .ok handler b

def gateInputs (b : DispatchBridge F) (bindings : AgentGateBindings) (moment : Moment)
    (surface : Option String) (req : Envelope) (caller : VerifiedIdentity) (method : String) :
    GateInputs :=
  { identity := caller
    envelope := { req.toRequestEnvelope with method }
    capability := bindings.describe method
    now := moment.now
    nowMs := moment.gateNowMs
    keyset := b.approvalKeyset
    callerSurface := surface }

/-- The row of the controller's closure: a placeholder stands for the hash of the arguments. -/
def onRequireApproval (host : BridgeHost F) (moment : Moment) (store : AgentStore)
    (request : GateApprovalRequest) : Except AgentStoreError AgentStore :=
  store.createApproval moment.approvalNow moment.approvalId
    { agentId := request.agentId
      subjectId := request.subjectId
      method := request.method
      capabilityCategory := request.category
      argsRedactedHash := hexEncode (host.gate.blake3 (utf8 request.method))
      reason := request.reason
      approverGroups := request.approverGroups
      taskId := request.taskId
      expiresAt := moment.approvalNow + request.approvalTimeoutSecs
      authorizedApprovers := request.authorizedApprovers
      tenantId := request.tenantId }

def askAgentGate (host : BridgeHost F) (moment : Moment) (surface : Option String) (req : Envelope)
    (caller : VerifiedIdentity) : Admit F Unit := fun b =>
  match b.agentGate with
  | none => .ok () b
  | some bindings =>
    match AgentGate.evaluateStore host.gate bindings.store
        (gateInputs b bindings moment surface req caller req.method) with
    | (.allow _, store) => .ok () { b with agentGate := some { bindings with store } }
    | (.deny d, store) =>
      .error (.refused ErrorKinds.POLICY_DENIED s!"agent_gate:deny:{d.matchedRule}:{d.reason}")
        { b with agentGate := some { bindings with store } }
    | (.requireApproval request, store) =>
      match onRequireApproval host moment store request with
      | .ok created =>
        .error (.refused ErrorKinds.APPROVAL_REQUIRED s!"approval_required:{moment.approvalId}")
          { b with agentGate := some { bindings with store := created } }
      | .error e =>
        .error (.refused ErrorKinds.APPROVAL_REQUIRED
            s!"approval_required (create failed: {e.text})")
          { b with agentGate := some { bindings with store } }

def requireApproval (unverifiable : String) (req : Envelope) : Admit F Unit := fun b =>
  if b.alwaysRequireMethods.contains req.method then
    if req.approvalToken.isNone then
      .error (.refused ErrorKinds.APPROVAL_REQUIRED "always_require_methods") b
    else if b.agentGate.isNone then .error (.refused ErrorKinds.SECURITY_DENIED unverifiable) b
    else .ok () b
  else .ok () b

def policyDecision (host : BridgeHost F) (moment : Moment) (b : DispatchBridge F) (req : Envelope)
    (caller : VerifiedIdentity) (method : String) : Decision × Option TenantPolicyResolver :=
  match b.tenantPolicy with
  | some r =>
    ((r.evaluate host.policy moment.files moment.policyNow caller method req.tenantId).1,
      some (r.evaluate host.policy moment.files moment.policyNow caller method req.tenantId).2)
  | none => (b.policy.evaluate host.policy caller method, none)

def decidePolicy (host : BridgeHost F) (moment : Moment) (req : Envelope)
    (caller : VerifiedIdentity) : Admit F String := fun b =>
  match policyDecision host moment b req caller req.method with
  | (.allow rule, tenantPolicy) => .ok s!"allow:{rule}" { b with tenantPolicy }
  | (.deny reason rule, tenantPolicy) =>
    .error (.refused ErrorKinds.POLICY_DENIED ("deny:" ++ rule.getD "default_deny" ++ ":" ++ reason))
      { b with tenantPolicy }

def askBroker (moment : Moment) (req : Envelope) (caller : VerifiedIdentity) : Admit F Unit :=
  fun b =>
    match b.accessBroker with
    | none => .ok () b
    | some broker =>
      match broker.atomicCheckAndRecord moment.brokerNow caller.name req.method with
      | (.allow, broker) => .ok () { b with accessBroker := some broker }
      | (.deny reason, broker) =>
        .error (.refused ErrorKinds.POLICY_DENIED s!"access_broker:deny:{reason}")
          { b with accessBroker := some broker }
      | (.rateLimited retry, broker) =>
        .error (.refused ErrorKinds.POLICY_DENIED s!"access_broker:rate_limited:{retry}s")
          { b with accessBroker := some broker }

def scanInbound (req : Envelope) (caller : VerifiedIdentity) : Admit F (List UInt8) := fun b =>
  match b.piiGate with
  | none => .ok req.args b
  | some scan =>
    match scan req.rid caller.name req.method req.args with
    | (some (.blocked cause), _) =>
      .error (.refused ErrorKinds.POLICY_DENIED s!"pii_gate:block:{cause}") b
    | (_, args) => .ok args b

def checkBudget (req : Envelope) (caller : VerifiedIdentity) : Admit F Unit := fun b =>
  match b.budgetEnforcer with
  | none => .ok () b
  | some check =>
    match check caller.name req.method with
    | .reject cause => .error (.refused ErrorKinds.RESOURCE_EXHAUSTED s!"budget:reject:{cause}") b
    | _ => .ok () b

structure Admitted (H : Type) where
  req : Envelope
  caller : VerifiedIdentity
  handler : H
  args : List UInt8
  policyDecision : String

def Admitted.ctx {H : Type} (a : Admitted H) : InvocationCtx :=
  ⟨a.caller, a.req.rid, a.args, a.req.tenantId⟩

/-- The steps of `handle_inbound_with_surface` before the dispatch. -/
def admitInbound (host : BridgeHost F) (moment : Moment) (encoded : List UInt8)
    (surface : Option String) : Admit F (Admitted Handler) := do
  let req ← decodeEnvelope host (fun _ => "envelope decode failed") encoded
  checkDeadline moment req
  checkFreshness moment req
  let caller ← verifyIdentity host moment req
  checkReplay moment req caller
  verifySession host req
  let handler ← lookupHandler req
  askAgentGate host moment surface req caller
  requireApproval ("approval_token_unverifiable: no agent gate wired to verify + consume the " ++
    "token atomically — operator must wire \x60[[execution.agents]]\x60 or remove the " ++
    "always_require_methods entry") req
  let decision ← decidePolicy host moment req caller
  askBroker moment req caller
  let args ← scanInbound req caller
  checkBudget req caller
  return ⟨req, caller, handler, args, decision⟩

/-- The steps of `handle_inbound_stream_with_surface` before the dispatch. -/
def admitInboundStream (host : BridgeHost F) (moment : Moment) (encoded : List UInt8)
    (surface : Option String) : Admit F (Admitted StreamingHandler) := do
  let req ← decodeEnvelope host (fun e => s!"envelope decode: {e}") encoded
  checkDeadline moment req
  checkFreshness moment req
  let caller ← verifyIdentity host moment req
  checkReplay moment req caller
  verifySession host req
  let handler ← lookupStreamingHandler req
  askAgentGate host moment surface req caller
  requireApproval ("approval_token_unverifiable: no agent gate wired to verify + consume the " ++
    "token atomically") req
  let decision ← decidePolicy host moment req caller
  askBroker moment req caller
  let args ← scanInbound req caller
  checkBudget req caller
  return ⟨req, caller, handler, args, decision⟩

inductive Occasion where
  | dispatch | retry | escalation
  deriving DecidableEq

structure Invocation where
  method : String
  caller : VerifiedIdentity
  occasion : Occasion
  deriving DecidableEq

def MAX_RETRY_CAP : Nat := 8

structure Scored (F : Type) where
  outcome : HandlerOutcome
  score : Option F
  invoked : List Invocation

def retryDeadline : ErrorEnvelope :=
  ⟨ErrorKinds.TIMEOUT, "retry:deadline_exceeded — request deadline elapsed mid-retry", 0⟩

/-- The retries that are left, after `attempt` of them; the handler was called once before. -/
def retryLoop (ops : ScoreOps F) (moment : Moment) (score : HandlerOutcome → Nat → F)
    (a : Admitted Handler) (threshold : F) (attempt : Nat) (outcome : HandlerOutcome) (best : F) :
    Nat → Scored F
  | 0 => ⟨outcome, some best, []⟩
  | left + 1 =>
    if a.req.deadline < moment.retryNow attempt then ⟨.err retryDeadline, some best, []⟩
    else
      let retried := a.handler a.ctx (attempt + 1)
      let retryScore := score retried (attempt + 1)
      let kept := if ops.le best retryScore then (retried, retryScore) else (outcome, best)
      let rest :=
        if ops.lt threshold retryScore then ⟨kept.1, some kept.2, []⟩
        else retryLoop ops moment score a threshold (attempt + 1) kept.1 kept.2 left
      { rest with invoked := ⟨a.req.method, a.caller, .retry⟩ :: rest.invoked }

def applyFallback (host : BridgeHost F) (moment : Moment) (b : DispatchBridge F)
    (scorer : String → String → HandlerOutcome → Nat → F) (policies : List (ConfidencePolicy F))
    (a : Admitted Handler) (outcome : HandlerOutcome) (best : F) : FallbackAction → Scored F
  | .pass => ⟨outcome, some best, []⟩
  | .retry maxRetries _ =>
    let threshold := ((policies.find? (fun p => globMatch p.capability a.req.method)).map
      (·.lowThreshold)).getD host.scores.half
    retryLoop host.scores moment (scorer a.caller.name a.req.method) a threshold 0 outcome best
      (min maxRetries MAX_RETRY_CAP)
  | .escalate escalateTo =>
    match b.handlers.get? escalateTo with
    | none => ⟨outcome, some best, []⟩
    | some handler =>
      let escalated := handler a.ctx 1
      let score := scorer a.caller.name escalateTo escalated 1
      let kept := if host.scores.le best score then (escalated, score) else (outcome, best)
      ⟨kept.1, some kept.2, [⟨escalateTo, a.caller, .escalation⟩]⟩
  | .safeDefault value => ⟨.ok (utf8 value), some (host.scores.atLeastOne best), []⟩
  | .alert _ => ⟨outcome, some best, []⟩
  | .abort message => ⟨.err ⟨ErrorKinds.INVALID_ARGS, message, 0⟩, some host.scores.zero, []⟩

def applyConfidence (host : BridgeHost F) (moment : Moment) (b : DispatchBridge F)
    (a : Admitted Handler) (outcome : HandlerOutcome) : Scored F :=
  match b.confidenceScorer, b.fallbackEngine with
  | some scorer, some policies =>
    let score := scorer a.caller.name a.req.method outcome 0
    let verdict := FallbackEngine.decide host.scores policies a.req.method score
    if !verdict.matched || verdict.action = .pass then ⟨outcome, some score, []⟩
    else applyFallback host moment b scorer policies a outcome score verdict.action
  | _, _ => ⟨outcome, none, []⟩

inductive Answer (F : Type) where
  | refused (kind : Nat) (cause : String)
  | panicked
  | replied (outcome : HandlerOutcome) (confidence : Option F)

def Exit.answer : Exit → Answer F
  | refused kind cause => .refused kind cause
  | panicked => .panicked

structure Handled (F α : Type) where
  answer : α
  invoked : List Invocation
  bridge : DispatchBridge F

def handleInboundWithSurface (host : BridgeHost F) (moment : Moment) (b : DispatchBridge F)
    (encoded : List UInt8) (surface : Option String) : Handled F (Answer F) :=
  match admitInbound host moment encoded surface b with
  | .error e b => ⟨e.answer, [], b⟩
  | .ok a b =>
    let scored := applyConfidence host moment b a (a.handler a.ctx 0)
    ⟨.replied scored.outcome scored.score, ⟨a.req.method, a.caller, .dispatch⟩ :: scored.invoked, b⟩

inductive StreamFrame where
  | header (aid : List UInt8) (processedAt : Int)
  | chunk (bytes : List UInt8)
  | done
  | err (kind : Nat) (cause : String)
  deriving DecidableEq

/-- The frames of a stream of chunks; `writes` says which writes of the caller's end succeed. -/
def streamFrames (writes : Nat → Bool) (n : Nat) :
    List (Except ErrorEnvelope (List UInt8)) → List StreamFrame
  | [] => [.done]
  | .error e :: _ => [.err e.kind e.cause]
  | .ok chunk :: rest =>
    if writes n then .chunk chunk :: streamFrames writes (n + 1) rest else []

def handleInboundStreamWithSurface (host : BridgeHost F) (moment : Moment) (writes : Nat → Bool)
    (b : DispatchBridge F) (encoded : List UInt8) (surface : Option String) :
    Handled F (List StreamFrame) :=
  match admitInboundStream host moment encoded surface b with
  | .error (.refused kind cause) b => ⟨[.err kind cause], [], b⟩
  | .error .panicked b => ⟨[], [], b⟩
  | .ok a b =>
    if writes 0 then
      ⟨.header a.req.rid moment.now :: (match a.handler a.ctx with
          | .error e => [.err e.kind e.cause]
          | .ok chunks => streamFrames writes 1 chunks),
        [⟨a.req.method, a.caller, .dispatch⟩], b⟩
    else ⟨[], [], b⟩

end Bridge

end Admission

end Relux
