import Relux.Admission.BridgeSteps
import Relux.Admission.TokenApprovals
import Relux.Admission.StandingApprovals

/-! What a call that is refused has spent: a token, a standing approval, room under its rate
limit. -/

namespace Relux

namespace Admission

def StandingApproval.usage (row : StandingApproval) : Int × Int :=
  (row.callsUsed, row.costUsedMicros)

namespace AgentStore

variable {store : AgentStore} {input : StandingApprovalMatch}

def usable (store : AgentStore) (input : StandingApprovalMatch) (row : StandingApproval) : Bool :=
  standingScopeMatches row input &&
    (row.maxCalls.isNone && row.maxCostMicros.isNone ||
      (store.standing.get? row.standingId).any (fun r => inBounds r input.cost))

def Charges (store : AgentStore) (input : StandingApprovalMatch) : Prop :=
  ∃ row r, (store.candidates input).find? (store.usable input) = some row ∧
    ¬(row.maxCalls = none ∧ row.maxCostMicros = none) ∧
    store.standing.get? row.standingId = some r ∧
    (r.maxCalls ≠ none ∨ r.maxCostMicros ≠ none ∧ input.cost ≠ 0)

theorem charged_usage_ne_iff (r : StandingApproval) (cost : Int) :
    (StandingApproval.charged r cost).usage ≠ r.usage ↔
      r.maxCalls ≠ none ∨ r.maxCostMicros ≠ none ∧ cost ≠ 0 := by
  unfold StandingApproval.charged StandingApproval.usage
  cases hcalls : r.maxCalls with
  | some n =>
    have hmore : r.callsUsed + 1 ≠ r.callsUsed := by omega
    simp [hmore]
  | none =>
    cases hmicros : r.maxCostMicros with
    | some n =>
      have hmore : r.costUsedMicros + cost = r.costUsedMicros ↔ cost = 0 := by omega
      simp [hmore]
    | none => simp

theorem consumeFirst_find (rows : List StandingApproval) :
    (∃ row r, rows.find? (store.usable input) = some row ∧
        ¬(row.maxCalls = none ∧ row.maxCostMicros = none) ∧
        store.standing.get? row.standingId = some r ∧
        store.consumeFirst input rows = (some row.standingId, { store with
          standing := store.standing.insert row.standingId
            (StandingApproval.charged r input.cost) })) ∨
      (∀ row, rows.find? (store.usable input) = some row →
        row.maxCalls = none ∧ row.maxCostMicros = none) ∧
        (store.consumeFirst input rows).2 = store := by
  induction rows with
  | nil => exact .inr ⟨fun row h => (by cases h), rfl⟩
  | cons row rest ih =>
    unfold consumeFirst
    by_cases hscope : standingScopeMatches row input = true
    · rw [if_neg (not_not_intro hscope)]
      by_cases hfree : (row.maxCalls.isNone && row.maxCostMicros.isNone) = true
      · rw [if_pos hfree]
        have husable : store.usable input row = true := by
          unfold usable
          rw [hscope, hfree]
          rfl
        refine .inr ⟨fun row' h => ?_, rfl⟩
        rw [List.find?_cons_of_pos husable] at h
        cases h
        simpa using hfree
      · rw [if_neg hfree]
        have hbounded : ¬(row.maxCalls = none ∧ row.maxCostMicros = none) := by simpa using hfree
        unfold chargeStanding
        cases hget : store.standing.get? row.standingId with
        | none =>
          have husable : ¬store.usable input row = true := by
            unfold usable
            rw [hscope, hget]
            simpa using hbounded
          rw [List.find?_cons_of_neg husable]
          exact ih
        | some r =>
          dsimp only
          by_cases hroom : inBounds r input.cost = true
          · rw [if_pos hroom]
            have husable : store.usable input row = true := by
              unfold usable
              rw [hscope, hget]
              simp [hroom]
            rw [List.find?_cons_of_pos husable]
            exact .inl ⟨row, r, rfl, hbounded, hget, rfl⟩
          · rw [if_neg hroom]
            have husable : ¬store.usable input row = true := by
              unfold usable
              rw [hscope, hget]
              simpa [hroom] using hbounded
            rw [List.find?_cons_of_neg husable]
            exact ih
    · rw [if_pos hscope]
      have husable : ¬store.usable input row = true := by
        unfold usable
        simp [hscope]
      rw [List.find?_cons_of_neg husable]
      exact ih

theorem consume_usage (store : AgentStore) (input : StandingApprovalMatch) :
    (store.Charges input ∧ (store.consumeActiveStandingFor input).1.isSome ∧
        ∃ id, ((store.consumeActiveStandingFor input).2.standing.get? id).map
          StandingApproval.usage ≠ (store.standing.get? id).map StandingApproval.usage) ∨
      ¬store.Charges input ∧
        ∀ id, ((store.consumeActiveStandingFor input).2.standing.get? id).map
          StandingApproval.usage = (store.standing.get? id).map StandingApproval.usage := by
  unfold consumeActiveStandingFor Charges
  rcases consumeFirst_find (store.candidates input) with
    ⟨row, r, hfind, hbounded, hget, hconsumed⟩ | ⟨hfree, hsame⟩
  · rw [hconsumed]
    have husage := charged_usage_ne_iff r input.cost
    by_cases hcounted : r.maxCalls ≠ none ∨ r.maxCostMicros ≠ none ∧ input.cost ≠ 0
    · refine .inl ⟨⟨row, r, hfind, hbounded, hget, hcounted⟩, rfl, row.standingId, ?_⟩
      rw [HashMap.get?_insert, if_pos rfl, hget, Option.map_some, Option.map_some]
      intro heq
      exact husage.mpr hcounted (Option.some.inj heq)
    · refine .inr ⟨?_, fun id => ?_⟩
      · rintro ⟨row', r', hfind', -, hget', hcounted'⟩
        rw [hfind] at hfind'
        cases hfind'
        rw [hget] at hget'
        cases hget'
        exact hcounted hcounted'
      · dsimp only
        rw [HashMap.get?_insert]
        by_cases hid : id = row.standingId
        · have hequal : (StandingApproval.charged r input.cost).usage = r.usage :=
            Decidable.of_not_not (fun hne => hcounted (husage.mp hne))
          rw [if_pos hid, hid, hget, Option.map_some, Option.map_some, hequal]
        · rw [if_neg hid]
  · refine .inr ⟨?_, fun id => by rw [hsame]⟩
    rintro ⟨row, r, hfind, hbounded, -⟩
    exact hbounded (hfree row hfind)

end AgentStore

structure SameGrants (store store' : AgentStore) : Prop where
  tokens : ∀ key, store'.blocklist.get? key = store.blocklist.get? key
  standing : ∀ id, (store'.standing.get? id).map StandingApproval.usage =
    (store.standing.get? id).map StandingApproval.usage

namespace AgentGate

def Spends (host : GateHost) (store : AgentStore) (inputs : GateInputs) : Prop :=
  (∃ wire tok, inputs.envelope.approvalToken = some wire ∧
      Spendable host.toTokenHost store inputs wire tok) ∨
    ∃ view cap category, asks host store inputs = some (view, cap, category) ∧
      store.Charges (standingMatch view inputs cap category)

theorem asks_token {host : GateHost} {store : AgentStore} {inputs : GateInputs} {wire : String}
    (h : inputs.envelope.approvalToken = some wire) : asks host store inputs = none := by
  unfold asks
  rw [h]
  rfl

theorem evaluateStore_spends (host : GateHost) (store : AgentStore) (inputs : GateInputs) :
    (Spends host store inputs ∧ (∃ a, (evaluateStore host store inputs).1 = .allow a) ∧
        ¬SameGrants store (evaluateStore host store inputs).2) ∨
      ¬Spends host store inputs ∧ SameGrants store (evaluateStore host store inputs).2 := by
  cases htoken : inputs.envelope.approvalToken with
  | some wire =>
    have hevaluate : evaluateStore host store inputs = evaluateToken host.toTokenHost store wire
        inputs.envelope.method inputs.identity.subjectId inputs.keyset inputs.nowMs := by
      unfold evaluateStore
      rw [htoken]
    rw [hevaluate]
    rcases @evaluateToken_cases host store inputs wire with ⟨tok, hspendable, heq⟩ | ⟨-, hsame, hnone⟩
    · rw [heq]
      refine .inl ⟨.inl ⟨wire, tok, htoken, hspendable⟩, ⟨_, rfl⟩, fun hgrants => ?_⟩
      have hkey := hgrants.tokens (tok.blocklistKey host.toTokenHost)
      rw [HashMap.get?_insert, if_pos rfl, hspendable.unspent] at hkey
      cases hkey
    · rw [hsame]
      refine .inr ⟨?_, fun _ => rfl, fun _ => rfl⟩
      rintro (⟨wire', tok, hwire, hspendable⟩ | ⟨view, cap, category, hasks, -⟩)
      · rw [htoken] at hwire
        cases hwire
        exact hnone ⟨tok, hspendable⟩
      · rw [asks_token htoken] at hasks
        cases hasks
  | none =>
    have hnotoken : ¬∃ wire tok, inputs.envelope.approvalToken = some wire ∧
        Spendable host.toTokenHost store inputs wire tok := by
      rintro ⟨wire, tok, hwire, -⟩
      rw [htoken] at hwire
      cases hwire
    have hblocklist : (evaluateStore host store inputs).2.blocklist = store.blocklist := by
      unfold evaluateStore
      rw [htoken]
      cases store.getBySubject inputs.identity.subjectId with
      | none => rfl
      | some view => exact (evaluateAgainstView_tables host store view inputs).2
    cases hasks : asks host store inputs with
    | none =>
      refine .inr ⟨?_, fun key => by rw [hblocklist], fun id => by rw [asks_none hasks]⟩
      rintro (htok | ⟨view, cap, category, hsome, -⟩)
      · exact hnotoken htok
      · rw [hasks] at hsome
        cases hsome
    | some asked =>
      obtain ⟨view, cap, category⟩ := asked
      obtain ⟨-, hcategory, hevaluate⟩ := asks_some hasks
      have hstore : (checkApproval store view inputs cap).2 =
          (store.consumeActiveStandingFor (standingMatch view inputs cap category)).2 :=
        checkApproval_snd hcategory
      rcases store.consume_usage (standingMatch view inputs cap category) with
        ⟨hcharges, hused, id, husage⟩ | ⟨hfree, hsame⟩
      · refine .inl ⟨.inr ⟨view, cap, category, hasks, hcharges⟩, ?_, fun hgrants => ?_⟩
        · rw [hevaluate]
          unfold checkApproval
          rw [hcategory]
          dsimp only
          cases hconsumed : store.consumeActiveStandingFor (standingMatch view inputs cap category) with
          | mk used store' =>
            rw [hconsumed] at hused
            cases used with
            | none => cases hused
            | some standingId => exact ⟨_, rfl⟩
        · have hcounted := hgrants.standing id
          rw [hevaluate, hstore] at hcounted
          exact husage hcounted
      · refine .inr ⟨?_, fun key => by rw [hblocklist], fun id => ?_⟩
        · rintro (htok | ⟨view', cap', category', hsome, hcharges⟩)
          · exact hnotoken htok
          · rw [hasks] at hsome
            cases hsome
            exact hfree hcharges
        · rw [hevaluate, hstore]
          exact hsame id

end AgentGate

namespace Bridge

variable {F H : Type}

def DispatchBridge.spentToken (b : DispatchBridge F) (key : String) : Option (String × Int) :=
  b.agentGate.bind (fun bindings => bindings.store.blocklist.get? key)

def DispatchBridge.standingUsage (b : DispatchBridge F) (standingId : String) :
    Option (Int × Int) :=
  b.agentGate.bind (fun bindings =>
    (bindings.store.standing.get? standingId).map StandingApproval.usage)

def DispatchBridge.recordedCalls (b : DispatchBridge F) (agent : String) : Option (List Int) :=
  b.accessBroker.bind (fun broker => broker.callCounts.get? agent)

structure Unspent (b b' : DispatchBridge F) : Prop where
  tokens : ∀ key, b'.spentToken key = b.spentToken key
  standing : ∀ standingId, b'.standingUsage standingId = b.standingUsage standingId
  calls : ∀ agent, b'.recordedCalls agent = b.recordedCalls agent

/-- What the gate would spend on a call, and what the broker would record of it, is for a call
that no later step refuses. -/
structure Frugal (host : BridgeHost F) (moment : Moment) (surface : Option String)
    (b : DispatchBridge F) (req : Envelope) (caller : VerifiedIdentity) : Prop where
  gate : ∀ bindings, b.agentGate = some bindings →
    AgentGate.Spends host.gate bindings.store
      (gateInputs b bindings moment surface req caller req.method) →
    FloorAllows b req req.method ∧ PolicyAllows host moment b req caller req.method ∧
      BrokerAllows moment b caller req.method ∧ ScanAllows b req caller ∧ BudgetAllows b req caller
  broker : b.accessBroker ≠ none → GateAllows host moment surface b req caller req.method →
    FloorAllows b req req.method → PolicyAllows host moment b req caller req.method →
    BrokerAllows moment b caller req.method → ScanAllows b req caller ∧ BudgetAllows b req caller

variable {host : BridgeHost F} {moment : Moment} {b b' : DispatchBridge F} {req : Envelope}
  {caller : VerifiedIdentity} {encoded : List UInt8} {surface : Option String}

def SameTables (b b' : DispatchBridge F) : Prop :=
  (∀ key, b'.spentToken key = b.spentToken key) ∧
    ∀ standingId, b'.standingUsage standingId = b.standingUsage standingId

theorem gated_same (host : BridgeHost F) (moment : Moment) (surface : Option String)
    (b : DispatchBridge F) (req : Envelope) (caller : VerifiedIdentity) :
    SameTables b (b.gated host moment surface req caller) ↔
      ∀ bindings, b.agentGate = some bindings →
        ¬AgentGate.Spends host.gate bindings.store
          (gateInputs b bindings moment surface req caller req.method) := by
  unfold SameTables DispatchBridge.spentToken DispatchBridge.standingUsage DispatchBridge.gated
  cases hgate : b.agentGate with
  | none => simp
  | some bindings =>
    simp only [Option.map_some, Option.bind_some, Option.some.injEq, forall_eq']
    rcases AgentGate.evaluateStore_spends host.gate bindings.store
        (gateInputs b bindings moment surface req caller req.method) with
      ⟨hspends, -, hchanged⟩ | ⟨hfree, hsame⟩
    · constructor
      · intro hsame
        exact absurd ⟨hsame.1, hsame.2⟩ hchanged
      · exact fun hfree => absurd hspends hfree
    · exact ⟨fun _ => hfree, fun _ => ⟨hsame.tokens, hsame.standing⟩⟩

theorem asked_same (moment : Moment) (b : DispatchBridge F) (req : Envelope)
    (caller : VerifiedIdentity) :
    (∀ agent, (b.askedBroker moment req caller).bind (fun broker => broker.callCounts.get? agent) =
        b.recordedCalls agent) ↔
      (b.accessBroker ≠ none → ¬BrokerAllows moment b caller req.method) := by
  unfold DispatchBridge.askedBroker DispatchBridge.recordedCalls BrokerAllows
  cases hbroker : b.accessBroker with
  | none => simp
  | some broker =>
    simp only [Option.map_some, Option.bind_some, Option.some.injEq, forall_eq', ne_eq,
      reduceCtorEq, not_false_eq_true, true_implies]
    rcases broker.atomicCheckAndRecord_cases moment.brokerNow caller.name req.method with
      hrecorded | ⟨hrefused, hsame⟩
    · rw [hrecorded]
      constructor
      · intro hsame
        exact absurd (hsame caller.name)
          (AgentAccessBroker.recordCallLocked_ne broker.callCounts caller.name moment.brokerNow)
      · exact fun hrefused => absurd rfl hrefused
    · rw [hsame]
      exact ⟨fun _ => hrefused, fun _ agent => rfl⟩

theorem EntryPoint.unspent_iff (e : EntryPoint F H) (host : BridgeHost F) (moment : Moment)
    (encoded : List UInt8) (surface : Option String) (b : DispatchBridge F) :
    (∀ kind cause b', e.pipeline host moment encoded surface b = .error (.refused kind cause) b' →
        Unspent b b') ↔
      ∀ req caller, Comes host moment b encoded req caller →
        ((e.table b).get? req.method).isSome → Frugal host moment surface b req caller := by
  rcases e.pipeline_cases host moment encoded surface b with
    ⟨req, caller, handler, hcomes, hhandler, hresult⟩ | ⟨hnone, exit, replay, hresult⟩
  · have honly : (∀ req caller, Comes host moment b encoded req caller →
        ((e.table b).get? req.method).isSome → Frugal host moment surface b req caller) ↔
          Frugal host moment surface b req caller := by
      constructor
      · intro h
        exact h req caller hcomes (by rw [hhandler]; rfl)
      · intro h req' caller' hcomes' _
        obtain ⟨rfl, rfl⟩ := hcomes.unique hcomes'
        exact h
    rw [honly, hresult]
    rcases e.judge_cases host moment surface req caller handler (b.noting moment req caller) with
      ⟨bindings, kind, cause, approvals, hgate, hrefused, hjudged⟩ | ⟨hgate, hrest⟩
    · have hunwilling : ¬GateAllows host moment surface b req caller req.method := by
        intro hallows
        obtain ⟨a, hallowed⟩ := hallows bindings hgate
        exact hrefused a hallowed
      rcases AgentGate.evaluateStore_spends host.gate bindings.store
          (gateInputs b bindings moment surface req caller req.method) with
        ⟨-, ⟨a, hallowed⟩, -⟩ | ⟨hfree, hsame⟩
      · exact absurd hallowed (hrefused a)
      · constructor
        · intro _
          refine ⟨fun bindings' hgate' hspends => ?_, fun _ hallows => absurd hallows hunwilling⟩
          have hbindings : bindings' = bindings := Option.some.inj (hgate'.symm.trans hgate)
          subst hbindings
          exact absurd hspends hfree
        · intro _ kind' cause' b' herror
          rw [hjudged] at herror
          cases herror
          have hwired : b.agentGate = some bindings := hgate
          refine ⟨fun key => ?_, fun id => ?_, fun agent => rfl⟩
          · show _ = b.spentToken key
            unfold DispatchBridge.spentToken
            rw [hwired]
            exact hsame.tokens key
          · show _ = b.standingUsage id
            unfold DispatchBridge.standingUsage
            rw [hwired]
            exact hsame.standing id
    · have hgated := gated_same host moment surface b req caller
      have hallows : GateAllows host moment surface b req caller req.method := hgate
      rcases hrest with ⟨hdenied, kind, cause, tenantPolicy, hjudged⟩ | ⟨⟨hfloor, hpolicy⟩, hrest⟩
      · rw [hjudged]
        constructor
        · intro h
          have hunspent := h kind cause _ rfl
          have hfree := hgated.mp ⟨hunspent.tokens, hunspent.standing⟩
          refine ⟨fun bindings hwired hspends => absurd hspends (hfree bindings hwired), ?_⟩
          intro _ _ hfloor hpolicy
          exact absurd ⟨hfloor, hpolicy⟩ hdenied
        · intro hfrugal kind' cause' b' herror
          cases herror
          have hsame := hgated.mpr (fun bindings hwired hspends =>
            hdenied ⟨(hfrugal.gate bindings hwired hspends).1,
              (hfrugal.gate bindings hwired hspends).2.1⟩)
          exact ⟨hsame.1, hsame.2, fun agent => rfl⟩
      · have hasked := asked_same moment b req caller
        rcases hrest with ⟨hdenied, kind, cause, tenantPolicy, hjudged⟩ |
          ⟨hadmitted, args, decision, tenantPolicy, hjudged⟩
        · rw [hjudged]
          constructor
          · intro h
            have hunspent := h kind cause _ rfl
            have hfree := hgated.mp ⟨hunspent.tokens, hunspent.standing⟩
            have hunrecorded := hasked.mp hunspent.calls
            refine ⟨fun bindings hwired hspends => absurd hspends (hfree bindings hwired), ?_⟩
            intro hwired _ _ _ hbroker
            exact absurd hbroker (hunrecorded hwired)
          · intro hfrugal kind' cause' b' herror
            cases herror
            have hsame := hgated.mpr (fun bindings hwired hspends =>
              hdenied (hfrugal.gate bindings hwired hspends).2.2)
            have hunrecorded := hasked.mpr (fun hwired hbroker =>
              hdenied ⟨hbroker, hfrugal.broker hwired hallows hfloor hpolicy hbroker⟩)
            exact ⟨hsame.1, hsame.2, hunrecorded⟩
        · rw [hjudged]
          constructor
          · intro _
            exact ⟨fun _ _ _ => ⟨hfloor, hpolicy, hadmitted⟩, fun _ _ _ _ _ => hadmitted.2⟩
          · intro _ kind' cause' b' herror
            cases herror
  · constructor
    · intro _ req caller hcomes hregistered
      exact absurd ⟨req, caller, hcomes, hregistered⟩ hnone
    · intro _ kind cause b' herror
      rw [hresult] at herror
      cases herror
      exact ⟨fun _ => rfl, fun _ => rfl, fun _ => rfl⟩

theorem unary_unspent_iff (host : BridgeHost F) (moment : Moment) (b : DispatchBridge F)
    (encoded : List UInt8) (surface : Option String) :
    (∀ kind cause,
        (handleInboundWithSurface host moment b encoded surface).answer = .refused kind cause →
        Unspent b (handleInboundWithSurface host moment b encoded surface).bridge) ↔
      ∀ req caller, Comes host moment b encoded req caller →
        (b.handlers.get? req.method).isSome → Frugal host moment surface b req caller := by
  refine Iff.trans ?_ (unary.unspent_iff host moment encoded surface b)
  rw [← admitInbound_eq]
  unfold handleInboundWithSurface
  cases admitInbound host moment encoded surface b with
  | ok a b' =>
    refine ⟨fun _ kind cause b' h => (by cases h), fun _ kind cause h => ?_⟩
    cases h
  | error exit b' =>
    constructor
    · intro h kind cause b'' herror
      cases herror
      exact h kind cause rfl
    · intro h kind cause hanswer
      cases exit with
      | panicked => cases hanswer
      | refused kind' cause' => exact h kind' cause' b' rfl

theorem streaming_unspent_iff (host : BridgeHost F) (moment : Moment) (b : DispatchBridge F)
    (encoded : List UInt8) (surface : Option String) (writes : Nat → Bool) :
    (∀ kind cause,
        (handleInboundStreamWithSurface host moment writes b encoded surface).answer =
          [.err kind cause] →
        Unspent b (handleInboundStreamWithSurface host moment writes b encoded surface).bridge) ↔
      ∀ req caller, Comes host moment b encoded req caller →
        (b.streamingHandlers.get? req.method).isSome →
        Frugal host moment surface b req caller := by
  refine Iff.trans ?_ (streaming.unspent_iff host moment encoded surface b)
  rw [← admitInboundStream_eq]
  unfold handleInboundStreamWithSurface
  cases admitInboundStream host moment encoded surface b with
  | ok a b' =>
    refine ⟨fun _ kind cause b' h => (by cases h), fun _ kind cause h => ?_⟩
    dsimp only at h
    split at h
    · cases h
    · cases h
  | error exit b' =>
    cases exit with
    | panicked =>
      refine ⟨fun _ kind cause b'' h => (by cases h), fun _ kind cause h => ?_⟩
      cases h
    | refused kind' cause' =>
      constructor
      · intro h kind cause b'' herror
        cases herror
        exact h kind' cause' rfl
      · intro h kind cause _
        exact h kind' cause' b' rfl

/-- A refused call has spent nothing exactly when the gate and the broker spend only on calls that
the later steps do not refuse. -/
theorem refused_call_unspent_iff (host : BridgeHost F) (moment : Moment) (b : DispatchBridge F)
    (encoded : List UInt8) (surface : Option String) (writes : Nat → Bool) :
    ((∀ kind cause,
          (handleInboundWithSurface host moment b encoded surface).answer = .refused kind cause →
          Unspent b (handleInboundWithSurface host moment b encoded surface).bridge) ↔
        ∀ req caller, Comes host moment b encoded req caller →
          (b.handlers.get? req.method).isSome → Frugal host moment surface b req caller) ∧
      ((∀ kind cause,
          (handleInboundStreamWithSurface host moment writes b encoded surface).answer =
            [.err kind cause] →
          Unspent b (handleInboundStreamWithSurface host moment writes b encoded surface).bridge) ↔
        ∀ req caller, Comes host moment b encoded req caller →
          (b.streamingHandlers.get? req.method).isSome →
          Frugal host moment surface b req caller) :=
  ⟨unary_unspent_iff host moment b encoded surface,
    streaming_unspent_iff host moment b encoded surface writes⟩

def payEnvelope : Envelope where
  toRequestEnvelope := (payCall (some sampleWire)).envelope
  rid := List.replicate 16 1
  issuedAtMs := 1700000100000
  deadline := 1700000130
  identityBundle := []
  sessionToken := none
  args := []

def sampleScores : ScoreOps Nat where
  le := fun a b => decide (a ≤ b)
  lt := fun a b => decide (a < b)
  zero := 0
  half := 500
  atLeastOne := max 1000

def payHost : BridgeHost Nat where
  gate := sampleHost
  policy := ⟨fun _ => none, sampleHost.debugStrings⟩
  scores := sampleScores
  decode := fun _ => .ok payEnvelope
  validateIdentityBundle := fun _ _ => .ok (payCall none).identity

def payMoment : Moment where
  now := 1700000100
  nowMs := 1700000100000
  gateNowMs := 1700000100000
  approvalNow := 1700000100
  approvalId := "apr_0000000000000001"
  files := HashMap.empty
  policyNow := 0
  brokerNow := 1700000100
  retryNow := fun _ => 1700000100

def payBridge (policy : PolicyFile) : DispatchBridge Nat where
  overflowChecks := true
  replay := ReplayGate.configure 300000 60000 10000
  verifyOnDispatchEnabled := false
  sessionService := none
  handlers := HashMap.empty.insert "tool.pay" (fun _ _ => .ok [])
  streamingHandlers := HashMap.empty
  agentGate := some ⟨suspendedStore, fun _ => some payCapability⟩
  approvalKeyset := sampleKeyset
  alwaysRequireMethods := []
  tenantPolicy := none
  policy
  accessBroker := none
  piiGate := none
  budgetEnforcer := none
  confidenceScorer := none
  fallbackEngine := none

theorem pay_comes (policy : PolicyFile) :
    Comes payHost payMoment (payBridge policy) [] payEnvelope (payCall none).identity := by
  have hage : ageMs true payMoment.nowMs payEnvelope.issuedAtMs = some 0 := by decide
  have hskew : -(ReplayGate.configure 300000 60000 10000).maxClockSkewMs ≤ 0 := by decide
  have hwindow : 0 ≤ (ReplayGate.configure 300000 60000 10000).freshnessWindowMs := by decide
  exact ⟨rfl, rfl, ⟨by decide, ⟨0, hage, hskew, hwindow⟩, rfl⟩, fun h => by cases h⟩

theorem pay_spends (policy : PolicyFile) :
    AgentGate.Spends sampleHost suspendedStore
      (gateInputs (payBridge policy) ⟨suspendedStore, fun _ => some payCapability⟩ payMoment none
        payEnvelope (payCall none).identity payEnvelope.method) :=
  .inl ⟨sampleWire, sampleToken, rfl, sampleWire_checked, ⟨approvedRecord, rfl, rfl⟩, rfl⟩

/-- The token is spent, and the policy has no rule that allows the call. -/
theorem refused_payment_spends_token :
    ∃ kind cause,
      (handleInboundWithSurface payHost payMoment (payBridge ⟨[], []⟩) [] none).answer =
          .refused kind cause ∧
        ¬Unspent (payBridge ⟨[], []⟩)
          (handleInboundWithSurface payHost payMoment (payBridge ⟨[], []⟩) [] none).bridge := by
  have hspent : ¬∀ kind cause,
      (handleInboundWithSurface payHost payMoment (payBridge ⟨[], []⟩) [] none).answer =
          .refused kind cause →
        Unspent (payBridge ⟨[], []⟩)
          (handleInboundWithSurface payHost payMoment (payBridge ⟨[], []⟩) [] none).bridge := by
    rw [unary_unspent_iff]
    intro hfrugal
    have hcall := hfrugal payEnvelope (payCall none).identity (pay_comes _) rfl
    obtain ⟨-, ⟨rule, hallowed⟩, -⟩ := hcall.gate _ rfl (pay_spends _)
    cases hallowed
  simpa using hspent

end Bridge

end Admission

end Relux
