import Relux.Admission.RefusedCalls

/-! Every call of a handler stands behind the checks of the bridge for the method it was asked
for, and the two entry points decide alike. -/

namespace Relux

namespace Admission

namespace Bridge

variable {F α β γ δ : Type}

structure Passed (host : BridgeHost F) (moment : Moment) (surface : Option String)
    (b : DispatchBridge F) (req : Envelope) (caller : VerifiedIdentity) (method : String) : Prop where
  identity : host.validateIdentityBundle req.identityBundle moment.now = .ok caller
  fresh : Fresh moment b req caller
  session : SessionCovers b req method
  gate : GateAllows host moment surface b req caller method
  floor : FloorAllows b req method
  policy : PolicyAllows host moment b req caller method
  broker : BrokerAllows moment b caller method

def Mediated (host : BridgeHost F) (moment : Moment) (surface : Option String)
    (b : DispatchBridge F) (encoded : List UInt8) (inv : Invocation) : Prop :=
  ∃ req, host.decode encoded = .ok req ∧ Passed host moment surface b req inv.caller inv.method

inductive Agrees (R : α → β → Prop) : EStateM.Result Exit (DispatchBridge F) α →
    EStateM.Result Exit (DispatchBridge F) β → Prop
  | ok {a : α} {a' : β} {b : DispatchBridge F} (h : R a a') : Agrees R (.ok a b) (.ok a' b)
  | error {exit exit' : Exit} {b : DispatchBridge F} (h : exit.kind = exit'.kind) :
      Agrees R (.error exit b) (.error exit' b)

def SameCall {H H' : Type} (a : Admitted H) (a' : Admitted H') : Prop :=
  a.req = a'.req ∧ a.caller = a'.caller ∧ a.args = a'.args ∧ a.policyDecision = a'.policyDecision

theorem Agrees.refl (r : EStateM.Result Exit (DispatchBridge F) α) : Agrees (· = ·) r r := by
  cases r with
  | ok a b => exact .ok rfl
  | error exit b => exact .error rfl

variable {S : γ → δ → Prop} {x : Admit F α} {f : α → Admit F γ}

theorem Agrees.bind {R : α → β → Prop} {y : Admit F β}
    {g : β → Admit F δ} {b : DispatchBridge F} (h : Agrees R (x b) (y b))
    (hrest : ∀ a a' b', x b = .ok a b' → R a a' → Agrees S (f a b') (g a' b')) :
    Agrees S ((x >>= f) b) ((y >>= g) b) := by
  cases hx : x b with
  | ok a b' =>
    rw [hx] at h
    cases hy : y b with
    | ok a' b'' =>
      rw [hy] at h
      cases h with
      | ok hR =>
        rw [bind_ok hx, bind_ok hy]
        exact hrest a a' b' hx hR
    | error exit b'' =>
      rw [hy] at h
      cases h
  | error exit b' =>
    rw [hx] at h
    cases hy : y b with
    | ok a' b'' =>
      rw [hy] at h
      cases h
    | error exit' b'' =>
      rw [hy] at h
      cases h with
      | error hkind =>
        rw [bind_error hx, bind_error hy]
        exact .error hkind

theorem Agrees.step {g : α → Admit F δ}
    {b : DispatchBridge F} (hrest : ∀ a b', x b = .ok a b' → Agrees S (f a b') (g a b')) :
    Agrees S ((x >>= f) b) ((x >>= g) b) := by
  refine (Agrees.refl (x b)).bind fun a a' b' hx heq => ?_
  cases heq
  exact hrest a b' hx

variable {H : Type} {H' : Type}

theorem judge_agrees (e : EntryPoint F H) (e' : EntryPoint F H') (host : BridgeHost F)
    (moment : Moment) (surface : Option String) (req : Envelope) (caller : VerifiedIdentity)
    (handler : H) (handler' : H') (b : DispatchBridge F) :
    Agrees SameCall (e.judge host moment surface req caller handler b)
      (e'.judge host moment surface req caller handler' b) := by
  refine Agrees.step fun _ b _ => ?_
  have hfloor : Agrees (· = ·) (requireApproval e.unverifiable req b)
      (requireApproval e'.unverifiable req b) := by
    unfold requireApproval
    split
    · split
      · exact .error rfl
      · split
        · exact .error rfl
        · exact .ok rfl
    · exact .ok rfl
  refine hfloor.bind fun _ _ b _ _ => ?_
  refine Agrees.step fun decision b _ => ?_
  refine Agrees.step fun _ b _ => ?_
  refine Agrees.step fun args b _ => ?_
  refine Agrees.step fun _ b _ => ?_
  exact .ok ⟨rfl, rfl, rfl, rfl⟩

theorem same_of_cases {x : Admit F Unit} {b : DispatchBridge F} {P Q : Prop}
    (h : P ∧ x b = .ok () b ∨ Q ∧ ∃ exit, x b = .error exit b) {a : Unit} {b' : DispatchBridge F}
    (hx : x b = .ok a b') : b' = b := by
  rcases h with ⟨-, hok⟩ | ⟨-, exit, herror⟩
  · rw [hok] at hx
    cases hx
    rfl
  · rw [herror] at hx
    cases hx

theorem pipeline_agrees (e : EntryPoint F H) (e' : EntryPoint F H')
    (host : BridgeHost F) (moment : Moment) (encoded : List UInt8) (surface : Option String)
    (b : DispatchBridge F) (hregistered : ∀ req, host.decode encoded = .ok req →
      (((e.table b).get? req.method).isSome ↔ ((e'.table b).get? req.method).isSome)) :
    Agrees SameCall (e.pipeline host moment encoded surface b)
      (e'.pipeline host moment encoded surface b) := by
  have hdecoding : Agrees (· = ·) (decodeEnvelope host e.decodeCause encoded b)
      (decodeEnvelope host e'.decodeCause encoded b) := by
    unfold decodeEnvelope
    cases host.decode encoded with
    | error err => exact .error rfl
    | ok req => exact .ok rfl
  refine hdecoding.bind fun req req' b₁ hreq heq => ?_
  cases heq
  obtain ⟨hdecoded, hb₁⟩ : host.decode encoded = .ok req ∧ b₁ = b := by
    unfold decodeEnvelope at hreq
    cases hdecode : host.decode encoded with
    | error err =>
      rw [hdecode] at hreq
      cases hreq
    | ok req' =>
      rw [hdecode] at hreq
      cases hreq
      exact ⟨rfl, rfl⟩
  subst hb₁
  refine Agrees.step fun _ b₂ hdeadline => ?_
  cases same_of_cases (checkDeadline_cases moment req b₁) hdeadline
  refine Agrees.step fun _ b₃ hfresh => ?_
  cases same_of_cases (checkFreshness_cases moment req b₁) hfresh
  refine Agrees.step fun caller b₄ hidentity => ?_
  have hb₄ : b₄ = b₁ := by
    unfold verifyIdentity at hidentity
    split at hidentity
    · cases hidentity
    · cases hidentity
      rfl
  subst hb₄
  refine Agrees.step fun _ b₅ hreplay => ?_
  have hb₅ : b₅ = b₄.noting moment req caller := by
    rcases checkReplay_cases moment req caller b₄ with ⟨-, hok⟩ | ⟨-, exit, herror⟩
    · rw [hok] at hreplay
      cases hreplay
      rfl
    · rw [herror] at hreplay
      cases hreplay
  subst hb₅
  refine Agrees.step fun _ b₆ hsession => ?_
  cases same_of_cases (verifySession_cases host req (b₄.noting moment req caller)) hsession
  have hlookup : Agrees (fun _ _ => True) (e.lookup req (b₄.noting moment req caller))
      (e'.lookup req (b₄.noting moment req caller)) := by
    have htable : e.table (b₄.noting moment req caller) = e.table b₄ := e.table_replay b₄ _
    have htable' : e'.table (b₄.noting moment req caller) = e'.table b₄ := e'.table_replay b₄ _
    have hboth := hregistered req hdecoded
    unfold EntryPoint.lookup
    rw [htable, htable']
    cases hhandler : (e.table b₄).get? req.method with
    | none =>
      cases hhandler' : (e'.table b₄).get? req.method with
      | none => exact .error rfl
      | some handler' =>
        rw [hhandler, hhandler'] at hboth
        cases hboth.mpr rfl
    | some handler =>
      cases hhandler' : (e'.table b₄).get? req.method with
      | none =>
        rw [hhandler, hhandler'] at hboth
        cases hboth.mp rfl
      | some handler' => exact .ok trivial
  refine hlookup.bind fun handler handler' b₇ _ _ => ?_
  exact judge_agrees e e' host moment surface req caller handler handler' b₇

variable {host : BridgeHost F} {moment : Moment} {b b' : DispatchBridge F} {encoded : List UInt8}
  {surface : Option String}

theorem EntryPoint.admitted_passed {e : EntryPoint F H} {a : Admitted H}
    (h : e.pipeline host moment encoded surface b = .ok a b') :
    host.decode encoded = .ok a.req ∧ Passed host moment surface b a.req a.caller a.req.method := by
  rcases e.pipeline_cases host moment encoded surface b with
    ⟨req, caller, handler, hcomes, hhandler, hresult⟩ | ⟨-, exit, replay, hresult⟩
  · rw [hresult] at h
    rcases e.judge_cases host moment surface req caller handler (b.noting moment req caller) with
      ⟨bindings, kind, cause, approvals, -, -, hjudged⟩ |
      ⟨hgate, ⟨-, kind, cause, tenantPolicy, hjudged⟩ |
        ⟨⟨hfloor, hpolicy⟩, ⟨-, kind, cause, tenantPolicy, hjudged⟩ |
          ⟨⟨hbroker, -, -⟩, args, decision, tenantPolicy, hjudged⟩⟩⟩
    · rw [hjudged] at h
      cases h
    · rw [hjudged] at h
      cases h
    · rw [hjudged] at h
      cases h
    · rw [hjudged] at h
      cases h
      exact ⟨hcomes.decoded, hcomes.identity, hcomes.fresh, hcomes.session, hgate, hfloor, hpolicy,
        hbroker⟩
  · rw [hresult] at h
    cases h

variable {inv : Invocation}

theorem retryLoop_invoked (ops : ScoreOps F) (moment : Moment) (score : HandlerOutcome → Nat → F)
    (a : Admitted Handler) (threshold : F) (attempt : Nat) (outcome : HandlerOutcome) (best : F)
    (left : Nat)
    (h : inv ∈ (retryLoop ops moment score a threshold attempt outcome best left).invoked) :
    inv = ⟨a.req.method, a.caller, .retry⟩ := by
  induction left generalizing attempt outcome best with
  | zero =>
    unfold retryLoop at h
    cases h
  | succ left ih =>
    unfold retryLoop at h
    by_cases hlate : a.req.deadline < moment.retryNow attempt
    · rw [if_pos hlate] at h
      cases h
    · rw [if_neg hlate] at h
      rcases List.mem_cons.mp h with rfl | hrest
      · rfl
      · by_cases hdone : ops.lt threshold (score (a.handler a.ctx (attempt + 1)) (attempt + 1)) = true
        · rw [if_pos hdone] at hrest
          cases hrest
        · rw [if_neg hdone] at hrest
          exact ih _ _ _ hrest

theorem applyConfidence_invoked (host : BridgeHost F) (moment : Moment) (b : DispatchBridge F)
    (a : Admitted Handler) (outcome : HandlerOutcome)
    (h : inv ∈ (applyConfidence host moment b a outcome).invoked)
    (hown : inv.occasion ≠ .escalation) : inv = ⟨a.req.method, a.caller, .retry⟩ := by
  unfold applyConfidence at h
  split at h
  · dsimp only at h
    split at h
    · cases h
    · unfold applyFallback at h
      split at h
      · cases h
      · exact retryLoop_invoked _ _ _ _ _ _ _ _ _ h
      · split at h
        · cases h
        · rw [List.mem_singleton] at h
          rw [h] at hown
          exact absurd rfl hown
      · cases h
      · cases h
      · cases h
  · cases h

theorem unary_mediated (h : inv ∈ (handleInboundWithSurface host moment b encoded surface).invoked)
    (hown : inv.occasion ≠ .escalation) : Mediated host moment surface b encoded inv := by
  unfold handleInboundWithSurface at h
  cases hresult : admitInbound host moment encoded surface b with
  | error exit b' =>
    rw [hresult] at h
    cases h
  | ok a b' =>
    rw [hresult] at h
    rw [admitInbound_eq] at hresult
    obtain ⟨hdecoded, hpassed⟩ := EntryPoint.admitted_passed hresult
    rcases List.mem_cons.mp h with rfl | hfallback
    · exact ⟨a.req, hdecoded, hpassed⟩
    · rw [applyConfidence_invoked host moment b' a _ hfallback hown]
      exact ⟨a.req, hdecoded, hpassed⟩

theorem streaming_mediated {writes : Nat → Bool}
    (h : inv ∈ (handleInboundStreamWithSurface host moment writes b encoded surface).invoked) :
    Mediated host moment surface b encoded inv := by
  unfold handleInboundStreamWithSurface at h
  cases hresult : admitInboundStream host moment encoded surface b with
  | error exit b' =>
    rw [hresult] at h
    cases exit <;> cases h
  | ok a b' =>
    rw [hresult] at h
    rw [admitInboundStream_eq] at hresult
    obtain ⟨hdecoded, hpassed⟩ := EntryPoint.admitted_passed hresult
    dsimp only at h
    split at h
    · rw [List.mem_singleton] at h
      rw [h]
      exact ⟨a.req, hdecoded, hpassed⟩
    · cases h

/-- Calls of handlers other than escalations are mediated, and the entry points agree on a method
that is registered for both or for neither. -/
theorem dispatch_mediated (host : BridgeHost F) (moment : Moment) (b : DispatchBridge F)
    (encoded : List UInt8) (surface : Option String) (writes : Nat → Bool) :
    (∀ inv ∈ (handleInboundWithSurface host moment b encoded surface).invoked,
        inv.occasion ≠ .escalation → Mediated host moment surface b encoded inv) ∧
      (∀ inv ∈ (handleInboundStreamWithSurface host moment writes b encoded surface).invoked,
        Mediated host moment surface b encoded inv) ∧
      ((∀ req, host.decode encoded = .ok req →
          ((b.handlers.get? req.method).isSome ↔ (b.streamingHandlers.get? req.method).isSome)) →
        Agrees SameCall (admitInbound host moment encoded surface b)
          (admitInboundStream host moment encoded surface b)) := by
  refine ⟨fun inv h hown => unary_mediated h hown, fun inv h => streaming_mediated h, ?_⟩
  intro hregistered
  rw [admitInbound_eq, admitInboundStream_eq]
  exact pipeline_agrees unary streaming host moment encoded surface b hregistered

def healthEnvelope : Envelope := { payEnvelope with method := "node.health", approvalToken := none }

def healthHost : BridgeHost Nat := { payHost with decode := fun _ => .ok healthEnvelope }

/-- The policy lets the payer ask for the health of a node, and no more; a reply of low confidence
escalates to the payments. -/
def healthBridge : DispatchBridge Nat :=
  { payBridge ⟨[], [⟨"health", "node.health", []⟩]⟩ with
    handlers := (HashMap.empty.insert "tool.pay" (fun _ _ => .ok [])).insert "node.health"
      (fun _ _ => .ok [])
    agentGate := none
    confidenceScorer := some (fun _ _ _ _ => 0)
    fallbackEngine := some [⟨"node.health", 500, 300, .pass, .escalate "tool.pay"⟩] }

/-- The payments are called without a policy decision for them, and the streaming entry point does
not know the method. -/
theorem escalated_payment_unmediated :
    (∃ inv ∈ (handleInboundWithSurface healthHost payMoment healthBridge [] none).invoked,
        inv.method = "tool.pay" ∧ ¬Mediated healthHost payMoment none healthBridge [] inv) ∧
      ¬Agrees SameCall (admitInbound healthHost payMoment [] none healthBridge)
        (admitInboundStream healthHost payMoment [] none healthBridge) := by
  have hinvoked : (handleInboundWithSurface healthHost payMoment healthBridge [] none).invoked =
      [⟨"node.health", (payCall none).identity, .dispatch⟩,
        ⟨"tool.pay", (payCall none).identity, .escalation⟩] := rfl
  have hunknown : ∃ b', admitInboundStream healthHost payMoment [] none healthBridge =
      .error (.refused 4 "unknown streaming method: node.health") b' := ⟨_, rfl⟩
  constructor
  · refine ⟨⟨"tool.pay", (payCall none).identity, .escalation⟩, ?_, rfl, ?_⟩
    · rw [hinvoked]
      exact List.mem_cons_of_mem _ List.mem_cons_self
    · rintro ⟨req, hdecoded, hpassed⟩
      obtain ⟨rule, hallowed⟩ := hpassed.policy
      cases hallowed
  · obtain ⟨b', hunknown⟩ := hunknown
    intro hagrees
    cases hagrees

end Bridge

end Admission

end Relux
