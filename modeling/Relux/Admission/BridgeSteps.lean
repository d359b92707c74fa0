import Relux.Admission.Bridge

/-! The steps of the bridge in one place for its two entry points, and how a call gets through
them. -/

namespace Relux

namespace Admission

namespace Bridge

variable {F H α β : Type}

structure EntryPoint (F H : Type) where
  table : DispatchBridge F → HashMap String H
  decodeCause : String → String
  unknownCause : String → String
  unverifiable : String
  table_replay : ∀ (b : DispatchBridge F) (replay : ReplayGate), table { b with replay } = table b

def unary : EntryPoint F Handler where
  table := DispatchBridge.handlers
  decodeCause := fun _ => "envelope decode failed"
  unknownCause := fun _ => "admission:unknown_method"
  unverifiable := "approval_token_unverifiable: no agent gate wired to verify + consume the " ++
    "token atomically — operator must wire \x60[[execution.agents]]\x60 or remove the " ++
    "always_require_methods entry"
  table_replay := fun _ _ => rfl

def streaming : EntryPoint F StreamingHandler where
  table := DispatchBridge.streamingHandlers
  decodeCause := fun e => s!"envelope decode: {e}"
  unknownCause := fun method => s!"unknown streaming method: {method}"
  unverifiable := "approval_token_unverifiable: no agent gate wired to verify + consume the " ++
    "token atomically"
  table_replay := fun _ _ => rfl

namespace EntryPoint

def lookup (e : EntryPoint F H) (req : Envelope) : Admit F H := fun b =>
  match (e.table b).get? req.method with
  | none => .error (.refused ErrorKinds.UNKNOWN_METHOD (e.unknownCause req.method)) b
  | some handler => .ok handler b

def judge (e : EntryPoint F H) (host : BridgeHost F) (moment : Moment) (surface : Option String)
    (req : Envelope) (caller : VerifiedIdentity) (handler : H) : Admit F (Admitted H) := do
  askAgentGate host moment surface req caller
  requireApproval e.unverifiable req
  let decision ← decidePolicy host moment req caller
  askBroker moment req caller
  let args ← scanInbound req caller
  checkBudget req caller
  return ⟨req, caller, handler, args, decision⟩

def pipeline (e : EntryPoint F H) (host : BridgeHost F) (moment : Moment) (encoded : List UInt8)
    (surface : Option String) : Admit F (Admitted H) := do
  let req ← decodeEnvelope host e.decodeCause encoded
  checkDeadline moment req
  checkFreshness moment req
  let caller ← verifyIdentity host moment req
  checkReplay moment req caller
  verifySession host req
  let handler ← e.lookup req
  e.judge host moment surface req caller handler

end EntryPoint

theorem lookupHandler_eq (req : Envelope) :
    (lookupHandler req : Admit F Handler) = unary.lookup req := by
  funext b
  have htable : unary.table b = b.handlers := rfl
  unfold lookupHandler EntryPoint.lookup
  rw [htable]
  cases b.handlers.get? req.method <;> rfl

theorem lookupStreamingHandler_eq (req : Envelope) :
    (lookupStreamingHandler req : Admit F StreamingHandler) = streaming.lookup req := by
  funext b
  have htable : streaming.table b = b.streamingHandlers := rfl
  unfold lookupStreamingHandler EntryPoint.lookup
  rw [htable]
  cases b.streamingHandlers.get? req.method <;> rfl

theorem admitInbound_eq (host : BridgeHost F) (moment : Moment) (encoded : List UInt8)
    (surface : Option String) :
    admitInbound host moment encoded surface = unary.pipeline host moment encoded surface := by
  unfold admitInbound EntryPoint.pipeline EntryPoint.judge
  simp only [lookupHandler_eq]
  rfl

theorem admitInboundStream_eq (host : BridgeHost F) (moment : Moment) (encoded : List UInt8)
    (surface : Option String) :
    admitInboundStream host moment encoded surface =
      streaming.pipeline host moment encoded surface := by
  unfold admitInboundStream EntryPoint.pipeline EntryPoint.judge
  simp only [lookupStreamingHandler_eq]
  rfl

variable {x : Admit F α} {f : α → Admit F β}

theorem bind_ok {b b' : DispatchBridge F} {a : α} (h : x b = .ok a b') : (x >>= f) b = f a b' := by
  show EStateM.bind x f b = f a b'
  unfold EStateM.bind
  rw [h]

theorem bind_error {b b' : DispatchBridge F} {exit : Exit}
    (h : x b = .error exit b') : (x >>= f) b = .error exit b' := by
  show EStateM.bind x f b = .error exit b'
  unfold EStateM.bind
  rw [h]

def SessionCovers (b : DispatchBridge F) (req : Envelope) (method : String) : Prop :=
  b.verifyOnDispatchEnabled = true →
    ∃ verify token, b.sessionService = some verify ∧ req.sessionToken = some token ∧
      (verify token).valid = true ∧ ∃ s ∈ (verify token).scopes, s = "*" ∨ s = method

structure Fresh (moment : Moment) (b : DispatchBridge F) (req : Envelope)
    (caller : VerifiedIdentity) : Prop where
  deadline : moment.now ≤ req.deadline
  age : ∃ age, ageMs b.overflowChecks moment.nowMs req.issuedAtMs = some age ∧
    -b.replay.maxClockSkewMs ≤ age ∧ age ≤ b.replay.freshnessWindowMs
  unseen : (b.replay.cache.checkAndInsert (replayKey caller.subjectId req.rid req.issuedAtMs)
    moment.nowMs).1 = .ok ()

structure Comes (host : BridgeHost F) (moment : Moment) (b : DispatchBridge F)
    (encoded : List UInt8) (req : Envelope) (caller : VerifiedIdentity) : Prop where
  decoded : host.decode encoded = .ok req
  identity : host.validateIdentityBundle req.identityBundle moment.now = .ok caller
  fresh : Fresh moment b req caller
  session : SessionCovers b req req.method

def DispatchBridge.noting (b : DispatchBridge F) (moment : Moment) (req : Envelope)
    (caller : VerifiedIdentity) : DispatchBridge F :=
  { b with replay := { b.replay with
      cache := (b.replay.cache.checkAndInsert
        (replayKey caller.subjectId req.rid req.issuedAtMs) moment.nowMs).2 } }

variable {host : BridgeHost F} {moment : Moment} {b : DispatchBridge F} {req : Envelope}
  {caller : VerifiedIdentity} {encoded : List UInt8} {surface : Option String}

theorem Comes.unique {req' : Envelope} {caller' : VerifiedIdentity}
    (h : Comes host moment b encoded req caller) (h' : Comes host moment b encoded req' caller') :
    req' = req ∧ caller' = caller := by
  have hreq : req' = req := by
    have hdecoded := h'.decoded
    rw [h.decoded] at hdecoded
    exact (Except.ok.inj hdecoded).symm
  subst hreq
  have hidentity := h'.identity
  rw [h.identity] at hidentity
  exact ⟨rfl, (Except.ok.inj hidentity).symm⟩

theorem checkDeadline_cases (moment : Moment) (req : Envelope) (b : DispatchBridge F) :
    moment.now ≤ req.deadline ∧ checkDeadline moment req b = .ok () b ∨
      req.deadline < moment.now ∧ ∃ exit, checkDeadline moment req b = .error exit b := by
  unfold checkDeadline
  by_cases hlate : req.deadline < moment.now
  · rw [if_pos hlate]
    exact .inr ⟨hlate, _, rfl⟩
  · rw [if_neg hlate]
    exact .inl ⟨by omega, rfl⟩

theorem checkFreshness_cases (moment : Moment) (req : Envelope) (b : DispatchBridge F) :
    (∃ age, ageMs b.overflowChecks moment.nowMs req.issuedAtMs = some age ∧
        -b.replay.maxClockSkewMs ≤ age ∧ age ≤ b.replay.freshnessWindowMs) ∧
        checkFreshness moment req b = .ok () b ∨
      (¬∃ age, ageMs b.overflowChecks moment.nowMs req.issuedAtMs = some age ∧
        -b.replay.maxClockSkewMs ≤ age ∧ age ≤ b.replay.freshnessWindowMs) ∧
        ∃ exit, checkFreshness moment req b = .error exit b := by
  unfold checkFreshness
  cases hage : ageMs b.overflowChecks moment.nowMs req.issuedAtMs with
  | none => exact .inr ⟨by simp, _, rfl⟩
  | some age =>
    dsimp only
    by_cases hfuture : age < -b.replay.maxClockSkewMs
    · rw [if_pos hfuture]
      refine .inr ⟨?_, _, rfl⟩
      rintro ⟨age', hsame, hskew, -⟩
      cases hsame
      omega
    · rw [if_neg hfuture]
      by_cases hstale : b.replay.freshnessWindowMs < age
      · rw [if_pos hstale]
        refine .inr ⟨?_, _, rfl⟩
        rintro ⟨age', hsame, -, hwindow⟩
        cases hsame
        omega
      · rw [if_neg hstale]
        exact .inl ⟨⟨age, rfl, by omega, by omega⟩, rfl⟩

theorem checkReplay_cases (moment : Moment) (req : Envelope) (caller : VerifiedIdentity)
    (b : DispatchBridge F) :
    (b.replay.cache.checkAndInsert (replayKey caller.subjectId req.rid req.issuedAtMs)
        moment.nowMs).1 = .ok () ∧
        checkReplay moment req caller b = .ok () (b.noting moment req caller) ∨
      (b.replay.cache.checkAndInsert (replayKey caller.subjectId req.rid req.issuedAtMs)
        moment.nowMs).1 ≠ .ok () ∧
        ∃ exit, checkReplay moment req caller b = .error exit (b.noting moment req caller) := by
  unfold checkReplay DispatchBridge.noting
  cases b.replay.cache.checkAndInsert (replayKey caller.subjectId req.rid req.issuedAtMs)
      moment.nowMs with
  | mk outcome cache =>
    cases outcome with
    | ok _ => exact .inl ⟨rfl, rfl⟩
    | error e =>
      cases e
      refine .inr ⟨?_, _, rfl⟩
      intro h
      cases h

theorem verifySession_cases (host : BridgeHost F) (req : Envelope) (b : DispatchBridge F) :
    SessionCovers b req req.method ∧ verifySession host req b = .ok () b ∨
      ¬SessionCovers b req req.method ∧ ∃ exit, verifySession host req b = .error exit b := by
  unfold verifySession SessionCovers
  by_cases henabled : b.verifyOnDispatchEnabled = true
  · rw [if_pos henabled]
    cases hservice : b.sessionService with
    | none =>
      refine .inr ⟨fun h => ?_, _, rfl⟩
      obtain ⟨verify, token, hsome, -⟩ := h henabled
      cases hsome
    | some verify =>
      dsimp only
      cases htoken : req.sessionToken with
      | none =>
        refine .inr ⟨fun h => ?_, _, rfl⟩
        obtain ⟨verify', token, -, hsome, -⟩ := h henabled
        cases hsome
      | some token =>
        dsimp only
        by_cases hvalid : (verify token).valid = true
        · rw [if_neg (by simp [hvalid])]
          by_cases hscope : ((verify token).scopes.any (fun s => s == "*" || s == req.method)) = true
          · rw [if_neg (by simp [hscope])]
            refine .inl ⟨fun _ => ⟨verify, token, rfl, rfl, hvalid, ?_⟩, rfl⟩
            simpa using hscope
          · rw [if_pos (by simpa using hscope)]
            refine .inr ⟨fun h => ?_, _, rfl⟩
            obtain ⟨verify', token', hverify, htoken', -, hcovered⟩ := h henabled
            cases hverify
            cases htoken'
            exact hscope (by simpa using hcovered)
        · rw [if_pos (by simpa using hvalid)]
          refine .inr ⟨fun h => ?_, _, rfl⟩
          obtain ⟨verify', token', hverify, htoken', hvalid', -⟩ := h henabled
          cases hverify
          cases htoken'
          exact hvalid hvalid'
  · rw [if_neg henabled]
    exact .inl ⟨fun h => absurd h henabled, rfl⟩

theorem EntryPoint.pipeline_cases (e : EntryPoint F H) (host : BridgeHost F) (moment : Moment)
    (encoded : List UInt8) (surface : Option String) (b : DispatchBridge F) :
    (∃ req caller handler, Comes host moment b encoded req caller ∧
        (e.table b).get? req.method = some handler ∧
        e.pipeline host moment encoded surface b =
          e.judge host moment surface req caller handler (b.noting moment req caller)) ∨
      (¬∃ req caller, Comes host moment b encoded req caller ∧
        ((e.table b).get? req.method).isSome) ∧
        ∃ exit replay, e.pipeline host moment encoded surface b = .error exit { b with replay } := by
  unfold EntryPoint.pipeline
  cases hdecoded : host.decode encoded with
  | error err =>
    refine .inr ⟨?_, _, b.replay, bind_error (by unfold decodeEnvelope; rw [hdecoded])⟩
    rintro ⟨req, caller, hcomes, -⟩
    have := hcomes.decoded
    rw [hdecoded] at this
    cases this
  | ok req =>
    have hsame : ∀ req' caller', Comes host moment b encoded req' caller' → req' = req := by
      intro req' caller' h
      have := h.decoded
      rw [hdecoded] at this
      exact (Except.ok.inj this).symm
    rw [bind_ok (show decodeEnvelope host e.decodeCause encoded b = .ok req b by
      unfold decodeEnvelope; rw [hdecoded])]
    rcases checkDeadline_cases moment req b with ⟨hdeadline, hok⟩ | ⟨hlate, exit, herror⟩
    · rw [bind_ok hok]
      rcases checkFreshness_cases moment req b with ⟨hage, hok⟩ | ⟨hstale, exit, herror⟩
      · rw [bind_ok hok]
        cases hidentity : host.validateIdentityBundle req.identityBundle moment.now with
        | error err =>
          refine .inr ⟨?_, _, b.replay, bind_error (by unfold verifyIdentity; rw [hidentity])⟩
          rintro ⟨req', caller', hcomes, -⟩
          have := hcomes.identity
          rw [hsame _ _ hcomes, hidentity] at this
          cases this
        | ok caller =>
          have honly : ∀ req' caller', Comes host moment b encoded req' caller' →
              req' = req ∧ caller' = caller := by
            intro req' caller' h
            have heq := hsame _ _ h
            have := h.identity
            rw [heq, hidentity] at this
            exact ⟨heq, (Except.ok.inj this).symm⟩
          rw [bind_ok (show verifyIdentity host moment req b = .ok caller b by
            unfold verifyIdentity; rw [hidentity])]
          rcases checkReplay_cases moment req caller b with ⟨hunseen, hok⟩ | ⟨hseen, exit, herror⟩
          · rw [bind_ok hok]
            rcases verifySession_cases host req (b.noting moment req caller) with
              ⟨hsession, hok⟩ | ⟨hsession, exit, herror⟩
            · rw [bind_ok hok]
              have hcomes : Comes host moment b encoded req caller :=
                ⟨hdecoded, hidentity, ⟨hdeadline, hage, hunseen⟩, hsession⟩
              have htable : e.table (b.noting moment req caller) = e.table b := e.table_replay b _
              cases hhandler : (e.table b).get? req.method with
              | none =>
                have herror : e.lookup req (b.noting moment req caller) =
                    .error (.refused ErrorKinds.UNKNOWN_METHOD (e.unknownCause req.method))
                      (b.noting moment req caller) := by
                  unfold EntryPoint.lookup
                  rw [htable, hhandler]
                refine .inr ⟨?_, _, _, bind_error herror⟩
                rintro ⟨req', caller', hcomes', hregistered⟩
                rw [hsame _ _ hcomes', hhandler] at hregistered
                cases hregistered
              | some handler =>
                refine .inl ⟨req, caller, handler, hcomes, hhandler, bind_ok ?_⟩
                unfold EntryPoint.lookup
                rw [htable, hhandler]
            · refine .inr ⟨?_, exit, _, bind_error herror⟩
              rintro ⟨req', caller', hcomes, -⟩
              obtain ⟨rfl, rfl⟩ := honly _ _ hcomes
              exact hsession hcomes.session
          · refine .inr ⟨?_, exit, _, bind_error herror⟩
            rintro ⟨req', caller', hcomes, -⟩
            obtain ⟨rfl, rfl⟩ := honly _ _ hcomes
            exact hseen hcomes.fresh.unseen
      · refine .inr ⟨?_, exit, b.replay, bind_error herror⟩
        rintro ⟨req', caller', hcomes, -⟩
        cases hsame _ _ hcomes
        exact hstale hcomes.fresh.age
    · refine .inr ⟨?_, exit, b.replay, bind_error herror⟩
      rintro ⟨req', caller', hcomes, -⟩
      have hdeadline := hcomes.fresh.deadline
      rw [hsame _ _ hcomes] at hdeadline
      omega

def gateAnswer (host : BridgeHost F) (moment : Moment) (surface : Option String)
    (b : DispatchBridge F) (req : Envelope) (caller : VerifiedIdentity)
    (bindings : AgentGateBindings) (method : String) : GateDecision × AgentStore :=
  AgentGate.evaluateStore host.gate bindings.store
    (gateInputs b bindings moment surface req caller method)

def GateAllows (host : BridgeHost F) (moment : Moment) (surface : Option String)
    (b : DispatchBridge F) (req : Envelope) (caller : VerifiedIdentity) (method : String) : Prop :=
  ∀ bindings, b.agentGate = some bindings →
    ∃ a, (gateAnswer host moment surface b req caller bindings method).1 = .allow a

/-- A method that always needs an approval is called with a token, where a gate is wired. -/
def FloorAllows (b : DispatchBridge F) (req : Envelope) (method : String) : Prop :=
  method ∈ b.alwaysRequireMethods → req.approvalToken ≠ none ∧ b.agentGate ≠ none

def PolicyAllows (host : BridgeHost F) (moment : Moment) (b : DispatchBridge F) (req : Envelope)
    (caller : VerifiedIdentity) (method : String) : Prop :=
  ∃ rule, (policyDecision host moment b req caller method).1 = .allow rule

def BrokerAllows (moment : Moment) (b : DispatchBridge F) (caller : VerifiedIdentity)
    (method : String) : Prop :=
  ∀ broker, b.accessBroker = some broker →
    (broker.atomicCheckAndRecord moment.brokerNow caller.name method).1 = .allow

def ScanAllows (b : DispatchBridge F) (req : Envelope) (caller : VerifiedIdentity) : Prop :=
  ∀ scan, b.piiGate = some scan →
    ∀ cause, (scan req.rid caller.name req.method req.args).1 ≠ some (.blocked cause)

def BudgetAllows (b : DispatchBridge F) (req : Envelope) (caller : VerifiedIdentity) : Prop :=
  ∀ check, b.budgetEnforcer = some check → ∀ cause, check caller.name req.method ≠ .reject cause

def DispatchBridge.gated (b : DispatchBridge F) (host : BridgeHost F) (moment : Moment)
    (surface : Option String) (req : Envelope) (caller : VerifiedIdentity) : DispatchBridge F :=
  { b with agentGate := b.agentGate.map (fun bindings =>
      { bindings with
        store := (gateAnswer host moment surface b req caller bindings req.method).2 }) }

def DispatchBridge.askedBroker (b : DispatchBridge F) (moment : Moment) (req : Envelope)
    (caller : VerifiedIdentity) : Option AgentAccessBroker :=
  b.accessBroker.map (fun broker =>
    (broker.atomicCheckAndRecord moment.brokerNow caller.name req.method).2)

theorem askAgentGate_cases (host : BridgeHost F) (moment : Moment) (surface : Option String)
    (req : Envelope) (caller : VerifiedIdentity) (b : DispatchBridge F) :
    GateAllows host moment surface b req caller req.method ∧
        askAgentGate host moment surface req caller b =
          .ok () (b.gated host moment surface req caller) ∨
      ∃ bindings kind cause approvals, b.agentGate = some bindings ∧
        (∀ a, (gateAnswer host moment surface b req caller bindings req.method).1 ≠ .allow a) ∧
        askAgentGate host moment surface req caller b = .error (.refused kind cause)
          { b with agentGate := some { bindings with
              store := { (gateAnswer host moment surface b req caller bindings req.method).2 with
                approvals } } } := by
  unfold askAgentGate GateAllows DispatchBridge.gated
  cases hgate : b.agentGate with
  | none =>
    refine .inl ⟨fun bindings h => (by cases h), ?_⟩
    dsimp only
    rw [Option.map_none, ← hgate]
  | some bindings =>
    dsimp only [Option.map_some]
    have hanswer : AgentGate.evaluateStore host.gate bindings.store
        (gateInputs b bindings moment surface req caller req.method) =
          gateAnswer host moment surface b req caller bindings req.method := rfl
    rw [hanswer]
    cases hdecided : gateAnswer host moment surface b req caller bindings req.method with
    | mk decision store =>
      cases decision with
      | allow a =>
        refine .inl ⟨fun bindings' h => ?_, rfl⟩
        cases h
        exact ⟨a, by rw [hdecided]⟩
      | deny d =>
        exact .inr ⟨bindings, _, _, store.approvals, rfl, fun a h => (by rw [hdecided] at h; cases h),
          by rw [hdecided]⟩
      | requireApproval request =>
        have hnot : ∀ a, (gateAnswer host moment surface b req caller bindings req.method).1 ≠
            .allow a := by
          intro a h
          rw [hdecided] at h
          cases h
        dsimp only
        cases hcreated : onRequireApproval host moment store request with
        | error e => exact .inr ⟨bindings, _, _, store.approvals, rfl, hnot, by rw [hdecided]⟩
        | ok created =>
          refine .inr ⟨bindings, ErrorKinds.APPROVAL_REQUIRED,
            s!"approval_required:{moment.approvalId}", created.approvals, rfl, hnot, ?_⟩
          have hsame : created = { store with approvals := created.approvals } := by
            unfold onRequireApproval AgentStore.createApproval at hcreated
            split at hcreated
            · cases hcreated
            · cases hcreated
              rfl
          rw [hdecided, ← hsame]

theorem requireApproval_cases (unverifiable : String) (req : Envelope) (b : DispatchBridge F) :
    FloorAllows b req req.method ∧ requireApproval unverifiable req b = .ok () b ∨
      ¬FloorAllows b req req.method ∧
        ∃ kind cause, requireApproval unverifiable req b = .error (.refused kind cause) b := by
  unfold requireApproval FloorAllows
  by_cases hfloor : req.method ∈ b.alwaysRequireMethods
  · rw [if_pos (by simpa using hfloor)]
    cases htoken : req.approvalToken with
    | none => exact .inr ⟨fun h => (h hfloor).1 rfl, _, _, rfl⟩
    | some token =>
      cases hgate : b.agentGate with
      | none => exact .inr ⟨fun h => (h hfloor).2 rfl, _, _, rfl⟩
      | some bindings => exact .inl ⟨fun _ => ⟨by simp, by simp⟩, rfl⟩
  · rw [if_neg (by simpa using hfloor)]
    exact .inl ⟨fun h => absurd h hfloor, rfl⟩

theorem decidePolicy_cases (host : BridgeHost F) (moment : Moment) (req : Envelope)
    (caller : VerifiedIdentity) (b : DispatchBridge F) :
    PolicyAllows host moment b req caller req.method ∧
        (∃ decision, decidePolicy host moment req caller b = .ok decision
          { b with tenantPolicy := (policyDecision host moment b req caller req.method).2 }) ∨
      ¬PolicyAllows host moment b req caller req.method ∧
        ∃ kind cause, decidePolicy host moment req caller b = .error (.refused kind cause)
          { b with tenantPolicy := (policyDecision host moment b req caller req.method).2 } := by
  unfold decidePolicy PolicyAllows
  cases policyDecision host moment b req caller req.method with
  | mk decision tenantPolicy =>
    cases decision with
    | allow rule => exact .inl ⟨⟨rule, rfl⟩, _, rfl⟩
    | deny reason rule =>
      refine .inr ⟨?_, _, _, rfl⟩
      rintro ⟨rule', h⟩
      cases h

theorem askBroker_cases (moment : Moment) (req : Envelope) (caller : VerifiedIdentity)
    (b : DispatchBridge F) :
    BrokerAllows moment b caller req.method ∧ askBroker moment req caller b =
        .ok () { b with accessBroker := b.askedBroker moment req caller } ∨
      ¬BrokerAllows moment b caller req.method ∧
        ∃ kind cause, askBroker moment req caller b = .error (.refused kind cause)
          { b with accessBroker := b.askedBroker moment req caller } := by
  unfold askBroker BrokerAllows DispatchBridge.askedBroker
  cases hbroker : b.accessBroker with
  | none =>
    refine .inl ⟨fun broker h => (by cases h), ?_⟩
    dsimp only
    rw [Option.map_none, ← hbroker]
  | some broker =>
    dsimp only [Option.map_some]
    cases hasked : broker.atomicCheckAndRecord moment.brokerNow caller.name req.method with
    | mk decision broker' =>
      have hrefused : decision ≠ .allow → ¬∀ broker', some broker = some broker' →
          (broker'.atomicCheckAndRecord moment.brokerNow caller.name req.method).1 = .allow := by
        intro hne hall
        have hallowed := hall broker rfl
        rw [hasked] at hallowed
        exact hne hallowed
      cases decision with
      | allow =>
        refine .inl ⟨fun broker' h => ?_, rfl⟩
        cases h
        rw [hasked]
      | deny reason | rateLimited retry => exact .inr ⟨hrefused (fun h => by cases h), _, _, rfl⟩

theorem scanInbound_cases (req : Envelope) (caller : VerifiedIdentity) (b : DispatchBridge F) :
    ScanAllows b req caller ∧ (∃ args, scanInbound req caller b = .ok args b) ∨
      ¬ScanAllows b req caller ∧
        ∃ kind cause, scanInbound req caller b = .error (.refused kind cause) b := by
  unfold scanInbound ScanAllows
  cases hscan : b.piiGate with
  | none => exact .inl ⟨fun scan h => (by cases h), _, rfl⟩
  | some scan =>
    dsimp only
    cases hscanned : scan req.rid caller.name req.method req.args with
    | mk outcome args =>
      have hpassed : (∀ cause, outcome ≠ some (.blocked cause)) → ∀ scan', some scan = some scan' →
          ∀ cause, (scan' req.rid caller.name req.method req.args).1 ≠ some (.blocked cause) := by
        intro hne scan' h cause
        cases h
        rw [hscanned]
        exact hne cause
      cases outcome with
      | none => exact .inl ⟨hpassed (fun cause h => by cases h), _, rfl⟩
      | some outcome =>
        cases outcome with
        | blocked cause =>
          refine .inr ⟨fun hall => hall scan rfl cause ?_, _, _, rfl⟩
          rw [hscanned]
        | redacted | logged => exact .inl ⟨hpassed (fun cause h => by cases h), _, rfl⟩

theorem checkBudget_cases (req : Envelope) (caller : VerifiedIdentity) (b : DispatchBridge F) :
    BudgetAllows b req caller ∧ checkBudget req caller b = .ok () b ∨
      ¬BudgetAllows b req caller ∧
        ∃ kind cause, checkBudget req caller b = .error (.refused kind cause) b := by
  unfold checkBudget BudgetAllows
  cases hbudget : b.budgetEnforcer with
  | none => exact .inl ⟨fun check h => (by cases h), rfl⟩
  | some check =>
    dsimp only
    cases hchecked : check caller.name req.method with
    | reject cause => exact .inr ⟨fun hall => hall check rfl cause hchecked, _, _, rfl⟩
    | allow =>
      refine .inl ⟨fun check' h cause => ?_, rfl⟩
      cases h
      rw [hchecked]
      exact BudgetDecision.noConfusion
    | throttle delay =>
      refine .inl ⟨fun check' h cause => ?_, rfl⟩
      cases h
      rw [hchecked]
      exact BudgetDecision.noConfusion

theorem EntryPoint.judge_cases {H : Type} (e : EntryPoint F H) (host : BridgeHost F)
    (moment : Moment) (surface : Option String) (req : Envelope) (caller : VerifiedIdentity)
    (handler : H) (b : DispatchBridge F) :
    (∃ bindings kind cause approvals, b.agentGate = some bindings ∧
        (∀ a, (gateAnswer host moment surface b req caller bindings req.method).1 ≠ .allow a) ∧
        e.judge host moment surface req caller handler b = .error (.refused kind cause)
          { b with agentGate := some { bindings with
              store := { (gateAnswer host moment surface b req caller bindings req.method).2 with
                approvals } } }) ∨
      GateAllows host moment surface b req caller req.method ∧
        (¬(FloorAllows b req req.method ∧ PolicyAllows host moment b req caller req.method) ∧
            (∃ kind cause tenantPolicy, e.judge host moment surface req caller handler b =
              .error (.refused kind cause)
                { b.gated host moment surface req caller with tenantPolicy }) ∨
          (FloorAllows b req req.method ∧ PolicyAllows host moment b req caller req.method) ∧
            (¬(BrokerAllows moment b caller req.method ∧ ScanAllows b req caller ∧
                  BudgetAllows b req caller) ∧
                (∃ kind cause tenantPolicy, e.judge host moment surface req caller handler b =
                  .error (.refused kind cause)
                    { b.gated host moment surface req caller with
                      tenantPolicy, accessBroker := b.askedBroker moment req caller }) ∨
              (BrokerAllows moment b caller req.method ∧ ScanAllows b req caller ∧
                  BudgetAllows b req caller) ∧
                ∃ args decision tenantPolicy, e.judge host moment surface req caller handler b =
                  .ok ⟨req, caller, handler, args, decision⟩
                    { b.gated host moment surface req caller with
                      tenantPolicy, accessBroker := b.askedBroker moment req caller })) := by
  unfold EntryPoint.judge
  rcases askAgentGate_cases host moment surface req caller b with
    ⟨hgate, hok⟩ | ⟨bindings, kind, cause, approvals, hgate, hrefused, herror⟩
  · refine .inr ⟨hgate, ?_⟩
    rw [bind_ok hok]
    have hfloor : FloorAllows (b.gated host moment surface req caller) req req.method ↔
        FloorAllows b req req.method := by
      unfold FloorAllows DispatchBridge.gated
      simp
    have hpolicy : PolicyAllows host moment (b.gated host moment surface req caller) req caller
        req.method ↔ PolicyAllows host moment b req caller req.method := Iff.rfl
    rw [← hfloor, ← hpolicy]
    rcases requireApproval_cases e.unverifiable req (b.gated host moment surface req caller) with
      ⟨hallows, hok⟩ | ⟨hdenies, kind, cause, herror⟩
    · rw [bind_ok hok]
      rcases decidePolicy_cases host moment req caller (b.gated host moment surface req caller) with
        ⟨hpolicy, decision, hok⟩ | ⟨hdenies, kind, cause, herror⟩
      · rw [bind_ok hok]
        refine .inr ⟨⟨hallows, hpolicy⟩, ?_⟩
        rcases askBroker_cases moment req caller { b.gated host moment surface req caller with
            tenantPolicy := (policyDecision host moment (b.gated host moment surface req caller)
              req caller req.method).2 } with
          ⟨hbroker, hok⟩ | ⟨hbroker, kind, cause, herror⟩
        · have hasked : askBroker moment req caller { b.gated host moment surface req caller with
              tenantPolicy := (policyDecision host moment (b.gated host moment surface req caller)
                req caller req.method).2 } = .ok () { b.gated host moment surface req caller with
              tenantPolicy := (policyDecision host moment (b.gated host moment surface req caller)
                req caller req.method).2, accessBroker := b.askedBroker moment req caller } := hok
          rw [bind_ok hasked]
          rcases scanInbound_cases req caller { b.gated host moment surface req caller with
              tenantPolicy := (policyDecision host moment (b.gated host moment surface req caller)
                req caller req.method).2, accessBroker := b.askedBroker moment req caller } with
            ⟨hscan, args, hok⟩ | ⟨hscan, kind, cause, herror⟩
          · rw [bind_ok hok]
            rcases checkBudget_cases req caller { b.gated host moment surface req caller with
                tenantPolicy := (policyDecision host moment (b.gated host moment surface req caller)
                  req caller req.method).2, accessBroker := b.askedBroker moment req caller } with
              ⟨hbudget, hok⟩ | ⟨hbudget, kind, cause, herror⟩
            · exact .inr ⟨⟨hbroker, hscan, hbudget⟩, args, decision, _, bind_ok hok⟩
            · exact .inl ⟨fun h => hbudget h.2.2, kind, cause, _, bind_error herror⟩
          · exact .inl ⟨fun h => hscan h.2.1, kind, cause, _, bind_error herror⟩
        · exact .inl ⟨fun h => hbroker h.1, kind, cause, _, bind_error herror⟩
      · exact .inl ⟨fun h => hdenies h.2, kind, cause, _, bind_error herror⟩
    · exact .inl ⟨fun h => hdenies h.1, kind, cause, _, bind_error herror⟩
  · exact .inl ⟨bindings, kind, cause, approvals, hgate, hrefused, bind_error herror⟩

end Bridge

end Admission

end Relux
