import Relux.Admission.AgentGate

/-! What the gate lets an agent do against the restrictions of its profile. -/

namespace Relux

namespace Admission

/-- An active agent, on a surface it may use; and the capability, where the call has one, within
its ceiling and off its deny lists. -/
structure Permitted (view : AgentGateView) (callerSurface : Option String)
    (capability : Option CapabilityDescriptor) : Prop where
  active : view.status = "active"
  surface : view.surfaceAllowlist = [] ∨ ∃ s ∈ view.surfaceAllowlist, callerSurface = some s
  risk : ∀ cap, capability = some cap →
    ∃ l c, AgentGate.riskRank cap.riskLevel.label = some l ∧
      AgentGate.riskRank view.riskCeiling = some c ∧ l ≤ c
  categories : ∀ cap, capability = some cap → ∀ c ∈ cap.categories, c ∉ view.denyCategories
  tags : ∀ cap, capability = some cap → ∀ t ∈ cap.sensitivityTags, t ∉ view.denySensitivityTags

/-- A token that is signed, for this method and caller and in time, of a row that is approved,
and not yet spent. -/
structure Spendable (host : TokenHost) (store : AgentStore) (inputs : GateInputs) (wire : String)
    (tok : ApprovalToken) : Prop where
  checked : AgentGate.checkToken host wire inputs.envelope.method inputs.identity.subjectId
    inputs.keyset inputs.nowMs = .ok tok
  approved : ∃ r, store.getApproval tok.approvalId = some r ∧ r.status = .approved
  unspent : store.blocklist.get? (tok.blocklistKey host) = none

namespace AgentGate

variable {host : GateHost} {store : AgentStore} {view : AgentGateView} {inputs : GateInputs}

theorem checkToken_ok_iff {host : TokenHost} {wire method subject : String} {keyset : ApprovalKeySet}
    {nowMs : Int} {tok : ApprovalToken} :
    checkToken host wire method subject keyset nowMs = .ok tok ↔
      ApprovalToken.parse host wire = .ok tok ∧ tok.verifySignature host keyset = .ok () ∧
        tok.method = method ∧ tok.subjectId = subject ∧ nowMs < tok.expiresAtMs := by
  unfold checkToken
  cases hp : ApprovalToken.parse host wire with
  | error e => simp [bind, Except.bind]
  | ok t =>
    simp only [bind, Except.bind, pure, Except.pure, ApprovalToken.checkMethod,
      ApprovalToken.checkSubject, ApprovalToken.checkNotExpired, Except.ok.injEq]
    cases hv : t.verifySignature host keyset with
    | error e =>
      constructor
      · intro h
        cases h
      · rintro ⟨rfl, h, -⟩
        rw [hv] at h
        cases h
    | ok _ =>
      by_cases hm : t.method = method
      · by_cases hs : t.subjectId = subject
        · by_cases hx : nowMs < t.expiresAtMs
          · simp only [hm, hs, hx, if_true, Except.ok.injEq]
            constructor
            · rintro rfl
              exact ⟨rfl, hv, hm, hs, hx⟩
            · exact fun h => h.1
          · simp only [hm, hs, hx, if_true, if_false]
            constructor
            · intro h
              cases h
            · rintro ⟨rfl, -, -, -, h⟩
              exact absurd h hx
        · simp only [hm, hs, if_true, if_false]
          constructor
          · intro h
            cases h
          · rintro ⟨rfl, -, -, h, -⟩
            exact absurd h hs
      · simp only [hm, if_false]
        constructor
        · intro h
          cases h
        · rintro ⟨rfl, -, h, -⟩
          exact absurd h hm

theorem evaluateToken_cases (wire : String) :
    (∃ tok, Spendable host.toTokenHost store inputs wire tok ∧
      evaluateToken host.toTokenHost store wire inputs.envelope.method inputs.identity.subjectId
        inputs.keyset inputs.nowMs =
        (.allow ⟨"approval_token", some tok.approvalId⟩,
          { store with
            blocklist := store.blocklist.insert (tok.blocklistKey host.toTokenHost)
              (tok.approvalId, inputs.nowMs) })) ∨
      ((∀ a, (evaluateToken host.toTokenHost store wire inputs.envelope.method
          inputs.identity.subjectId inputs.keyset inputs.nowMs).1 ≠ .allow a) ∧
        (evaluateToken host.toTokenHost store wire inputs.envelope.method inputs.identity.subjectId
          inputs.keyset inputs.nowMs).2 = store ∧
        ¬∃ tok, Spendable host.toTokenHost store inputs wire tok) := by
  unfold evaluateToken
  cases hc : checkToken host.toTokenHost wire inputs.envelope.method inputs.identity.subjectId
      inputs.keyset inputs.nowMs with
  | error e =>
    refine .inr ⟨fun a => GateDecision.noConfusion, rfl, ?_⟩
    rintro ⟨tok, h⟩
    have := h.checked
    rw [hc] at this
    cases this
  | ok tok =>
    have honly : ∀ tok', Spendable host.toTokenHost store inputs wire tok' → tok' = tok := by
      intro tok' h
      have := h.checked
      rw [hc] at this
      exact (Except.ok.inj this).symm
    dsimp only
    cases hr : store.getApproval tok.approvalId with
    | none =>
      refine .inr ⟨fun a => GateDecision.noConfusion, rfl, ?_⟩
      rintro ⟨tok', h⟩
      obtain ⟨r, hr', -⟩ := h.approved
      rw [honly tok' h, hr] at hr'
      cases hr'
    | some record =>
      dsimp only
      by_cases hs : record.status = .approved
      · rw [if_neg (not_not_intro hs)]
        unfold AgentStore.tryConsumeTokenAtomic
        cases hb : store.blocklist.get? (tok.blocklistKey host.toTokenHost) with
        | none => exact .inl ⟨tok, ⟨hc, ⟨record, hr, hs⟩, hb⟩, rfl⟩
        | some _ =>
          refine .inr ⟨fun a => GateDecision.noConfusion, rfl, ?_⟩
          rintro ⟨tok', h⟩
          have hu := h.unspent
          rw [honly tok' h, hb] at hu
          cases hu
      · rw [if_pos hs]
        refine .inr ⟨fun a => GateDecision.noConfusion, rfl, ?_⟩
        rintro ⟨tok', h⟩
        obtain ⟨r, hr', ha⟩ := h.approved
        rw [honly tok' h, hr] at hr'
        cases hr'
        exact hs ha

theorem spendable_admitted {wire : String} {tok : ApprovalToken}
    (hwire : inputs.envelope.approvalToken = some wire)
    (h : Spendable host.toTokenHost store inputs wire tok) :
    (evaluateStore host store inputs).1 = .allow ⟨"approval_token", some tok.approvalId⟩ := by
  unfold evaluateStore
  rw [hwire]
  obtain ⟨tok', h', heq⟩ | ⟨-, -, hnone⟩ := @evaluateToken_cases host store inputs wire
  · obtain rfl := Except.ok.inj (h'.checked.symm.trans h.checked)
    exact congrArg Prod.fst heq
  · exact absurd ⟨tok, h⟩ hnone

theorem evaluate_some :
    (evaluate host (some store) inputs).1 = (evaluateStore host store inputs).1 := rfl

theorem evaluateToken_allow_iff (wire : String) :
    (∃ a, (evaluateToken host.toTokenHost store wire inputs.envelope.method inputs.identity.subjectId
      inputs.keyset inputs.nowMs).1 = .allow a) ↔
      ∃ tok, Spendable host.toTokenHost store inputs wire tok := by
  rcases @evaluateToken_cases host store inputs wire with ⟨tok, h, heq⟩ | ⟨hdenied, -, hnone⟩
  · rw [heq]
    exact ⟨fun _ => ⟨tok, h⟩, fun _ => ⟨_, rfl⟩⟩
  · constructor
    · rintro ⟨a, ha⟩
      exact absurd ha (hdenied a)
    · intro h
      exact absurd h hnone

theorem riskWithinCeiling_iff {level ceiling : String} :
    riskWithinCeiling level ceiling = true ↔
      ∃ l c, riskRank level = some l ∧ riskRank ceiling = some c ∧ l ≤ c := by
  unfold riskWithinCeiling
  cases riskRank level <;> cases riskRank ceiling <;> simp

theorem evaluateAgainstView_allow (hprofile : view.profile ≠ some PROFILE_ALLOW_ALL) {a : GateAllow}
    (h : (evaluateAgainstView host store view inputs).1 = .allow a) :
    Permitted view inputs.callerSurface inputs.capability := by
  rcases evaluateAgainstView_cases host store inputs hprofile with
    ⟨-, denied, heval⟩ | ⟨hp, ⟨hcap, -⟩ | ⟨cap, hcap, hd, -⟩⟩
  · rw [heval] at h
    cases h
  · obtain ⟨hactive, hsurface⟩ := deniedByProfile_none.mp hp
    rw [hcap]
    exact ⟨hactive, hsurface, fun cap hc => absurd hc (by simp), fun cap hc => absurd hc (by simp),
      fun cap hc => absurd hc (by simp)⟩
  · obtain ⟨hactive, hsurface⟩ := deniedByProfile_none.mp hp
    obtain ⟨hrisk, hcategories, htags, -⟩ := deniedByCapability_none.mp hd
    rw [hcap]
    constructor
    · exact hactive
    · exact hsurface
    · intro cap' hc
      cases hc
      exact riskWithinCeiling_iff.mp hrisk
    · intro cap' hc
      cases hc
      exact hcategories
    · intro cap' hc
      cases hc
      exact htags

/-- A restricted agent is held to its profile exactly where it brings no token that is good, or
the profile lets the call through anyway. -/
theorem restricted_iff (host : GateHost) (store : AgentStore) (view : AgentGateView)
    (inputs : GateInputs) (hview : store.getBySubject inputs.identity.subjectId = some view)
    (hprofile : view.profile ≠ some PROFILE_ALLOW_ALL) :
    (∀ a, (evaluate host (some store) inputs).1 = .allow a →
        Permitted view inputs.callerSurface inputs.capability) ↔
      (∀ wire, inputs.envelope.approvalToken = some wire →
          ¬∃ tok, Spendable host.toTokenHost store inputs wire tok) ∨
        Permitted view inputs.callerSurface inputs.capability := by
  have heval : (evaluate host (some store) inputs).1 = (evaluateStore host store inputs).1 := rfl
  rw [heval]
  cases htoken : inputs.envelope.approvalToken with
  | none =>
    have hpath : evaluateStore host store inputs = evaluateAgainstView host store view inputs := by
      unfold evaluateStore
      rw [htoken, hview]
    rw [hpath]
    constructor
    · intro _
      left
      intro wire hw
      cases hw
    · intro _ a ha
      exact evaluateAgainstView_allow hprofile ha
  | some wire =>
    have hpath : evaluateStore host store inputs =
        evaluateToken host.toTokenHost store wire inputs.envelope.method inputs.identity.subjectId
          inputs.keyset inputs.nowMs := by
      unfold evaluateStore
      rw [htoken]
    rw [hpath]
    have hallow := @evaluateToken_allow_iff host store inputs wire
    constructor
    · intro h
      by_cases hgood : ∃ tok, Spendable host.toTokenHost store inputs wire tok
      · obtain ⟨a, ha⟩ := hallow.mpr hgood
        exact .inr (h a ha)
      · left
        intro wire' hw
        cases hw
        exact hgood
    · rintro (h | h) a ha
      · exact absurd (hallow.mp ⟨a, ha⟩) (h wire rfl)
      · exact h

end AgentGate

def sampleKey : List UInt8 :=
  [234, 74, 108, 99, 226, 156, 82, 10, 190, 245, 80, 123, 19, 46, 197, 249, 149, 71, 118, 174,
  190, 190, 123, 146, 66, 30, 234, 105, 20, 70, 210, 44]

def sampleSignature : List UInt8 :=
  [4, 60, 105, 90, 6, 157, 226, 16, 55, 6, 115, 186, 98, 127, 129, 199, 69, 14, 218, 150, 224,
  54, 225, 22, 86, 8, 254, 191, 232, 136, 29, 173, 118, 243, 60, 9, 118, 51, 175, 144, 199, 83,
  237, 81, 43, 17, 232, 152, 83, 206, 140, 112, 233, 75, 2, 240, 132, 255, 32, 51, 150, 202,
  105, 12]

def sampleToken : ApprovalToken where
  version := 2
  approvalId := "apr_0011223344556677"
  method := "tool.pay"
  subjectId := "subject-abc"
  sessionId := ""
  issuedAtMs := 1700000000000
  expiresAtMs := 1700000300000
  nonce := "1111111111111111111111111111111111111111111111111111111111111111"
  signingKeyFingerprint := "0871f3aabc26e4582c508af5c03884e6"
  signature := "BDxpWgad4hA3BnO6Yn-Bx0UO2pbgNuEWVgj-v-iIHa128zwJdjOvkMdT7VErEeiYU86McOlLAvCE_yAzlsppDA"

def sampleJson : String :=
    "\x7b\"version\":2,\"approval_id\":\"apr_0011223344556677\",\"method\":\"" ++
    "tool.pay\",\"subject_id\":\"subject-abc\",\"session_id\":\"\",\"issued" ++
    "_at_ms\":1700000000000,\"expires_at_ms\":1700000300000,\"nonce\":" ++
    "\"11111111111111111111111111111111111111111111111111111111111" ++
    "11111\",\"signing_key_fingerprint\":\"0871f3aabc26e4582c508af5c0" ++
    "3884e6\",\"signature\":\"BDxpWgad4hA3BnO6Yn-Bx0UO2pbgNuEWVgj-v-i" ++
    "IHa128zwJdjOvkMdT7VErEeiYU86McOlLAvCE_yAzlsppDA\"\x7d"

def sampleWire : String :=
    "eyJ2ZXJzaW9uIjoyLCJhcHByb3ZhbF9pZCI6ImFwcl8wMDExMjIzMzQ0NTU2Njc3IiwibWV0aG9kIjoi" ++
    "dG9vbC5wYXkiLCJzdWJqZWN0X2lkIjoic3ViamVjdC1hYmMiLCJzZXNzaW9uX2lkIjoiIiwiaXNzdWVk" ++
    "X2F0X21zIjoxNzAwMDAwMDAwMDAwLCJleHBpcmVzX2F0X21zIjoxNzAwMDAwMzAwMDAwLCJub25jZSI6" ++
    "IjExMTExMTExMTExMTExMTExMTExMTExMTExMTExMTExMTExMTExMTExMTExMTExMTExMTExMTExMTEx" ++
    "MTExMTEiLCJzaWduaW5nX2tleV9maW5nZXJwcmludCI6IjA4NzFmM2FhYmMyNmU0NTgyYzUwOGFmNWMw" ++
    "Mzg4NGU2Iiwic2lnbmF0dXJlIjoiQkR4cFdnYWQ0aEEzQm5PNlluLUJ4MFVPMnBiZ051RVdWZ2otdi1p" ++
    "SUhhMTI4endKZGpPdmtNZFQ3VkVyRWVpWVU4Nk1jT2xMQXZDRV95QXpsc3BwREEifQ"

def sampleHost : GateHost where
  encode64 := fun b => if b = sampleSignature then sampleToken.signature else sampleWire
  decode64 := fun s =>
    if s = sampleToken.signature then .ok sampleSignature
    else if s = sampleWire then .ok (utf8 sampleJson)
    else .error "Invalid padding"
  toJson := fun _ => utf8 sampleJson
  ofJson := fun b => if b = utf8 sampleJson then .ok sampleToken else .error "expected value"
  verifyingKey := fun _ => sampleKey
  sign := fun _ _ => sampleSignature
  verifyStrict := fun key msg sig =>
    decide (key = sampleKey ∧ msg = utf8 sampleToken.canonical ∧ sig = sampleSignature)
  blake3 := fun b =>
    if b = sampleKey then
      [8, 113, 243, 170, 188, 38, 228, 88, 44, 80, 138, 245, 192, 56, 132, 230, 169, 111, 9,
      137, 209, 221, 140, 251, 73, 205, 23, 237, 37, 121, 36, 51]
    else if b = utf8 (sampleToken.nonce ++ "|" ++ sampleToken.approvalId) then
      [85, 129, 105, 211, 82, 114, 153, 160, 82, 3, 82, 33, 35, 146, 127, 63, 133, 106, 2, 239,
      165, 41, 203, 190, 250, 209, 92, 188, 117, 40, 180, 234]
    else List.replicate 33 0 ++ b
  debugStrings := fun l => "[" ++ String.intercalate ", " (l.map (fun s => "\"" ++ s ++ "\"")) ++ "]"

def sampleKeyset : ApprovalKeySet := ⟨HashMap.empty.insert sampleToken.signingKeyFingerprint sampleKey⟩

def suspendedView : AgentGateView where
  agentId := "agt_payer_00000001"
  subjectId := sampleToken.subjectId
  status := "suspended"
  surfaceAllowlist := []
  riskCeiling := "medium"
  allowCategories := []
  denyCategories := ["payments"]
  allowSensitivityTags := []
  denySensitivityTags := []
  approvalRequiredCategories := ["payments"]
  authorizedApprovers := []
  approvalTimeoutSecs := 86400
  profile := none

def approvedRecord : ApprovalRecord where
  approvalId := sampleToken.approvalId
  agentId := "agt_payer_00000001"
  subjectId := sampleToken.subjectId
  method := sampleToken.method
  capabilityCategory := "payments"
  argsRedactedHash := ""
  reason := "agent agt_payer_00000001 attempted tool.pay (category=payments)"
  approverGroups := ["ops", "admin"]
  requestedAt := 1699999000
  expiresAt := 1700085400
  status := .approved
  decidedAt := some 1700000000
  decidedBy := some "olivia"
  decisionNote := some ""
  taskId := none
  authorizedApprovers := []
  tenantId := "default"

def suspendedStore : AgentStore where
  profiles := HashMap.empty.insert suspendedView.subjectId suspendedView
  approvals := HashMap.empty.insert approvedRecord.approvalId approvedRecord
  standing := HashMap.empty
  blocklist := HashMap.empty

def payCapability : CapabilityDescriptor := ⟨"tool.pay", .externalPaid, [], ["payments"], .high⟩

def payCall (token : Option String) : GateInputs where
  identity := ⟨sampleToken.subjectId, "payer", [], ""⟩
  envelope := ⟨sampleToken.method, token, none, none, none, none⟩
  capability := some payCapability
  now := 1700000100
  nowMs := 1700000100000
  keyset := sampleKeyset
  callerSurface := none

theorem sampleWire_checked :
    AgentGate.checkToken sampleHost.toTokenHost sampleWire sampleToken.method sampleToken.subjectId
      sampleKeyset 1700000100000 = .ok sampleToken := by
  have hwire : sampleHost.decode64 sampleWire = .ok (utf8 sampleJson) := by
    have hne : sampleWire ≠ sampleToken.signature := by decide +kernel
    simp only [sampleHost, if_neg hne, if_true]
  have hjson : sampleHost.ofJson (utf8 sampleJson) = .ok sampleToken := by
    simp only [sampleHost, if_true]
  have hparse : ApprovalToken.parse sampleHost.toTokenHost sampleWire = .ok sampleToken :=
    ApprovalToken.parse_ok hwire hjson rfl
  have hverified : sampleHost.verifyStrict sampleKey (utf8 sampleToken.canonical) sampleSignature = true := by
    simp only [sampleHost, and_self, decide_true]
  have hkey : sampleKeyset.keys.get? sampleToken.signingKeyFingerprint = some sampleKey := by
    simp [sampleKeyset]
  have hsigned : sampleToken.verifySignature sampleHost.toTokenHost sampleKeyset = .ok () := by
    unfold ApprovalToken.verifySignature
    rw [if_neg (by decide), hkey]
    exact if_pos ⟨rfl, hverified⟩
  exact AgentGate.checkToken_ok_iff.mpr ⟨hparse, hsigned, rfl, rfl, by decide⟩

/-- Without a token the suspended agent is refused. -/
theorem suspended_agent_refused :
    AgentGate.evaluate sampleHost (some suspendedStore) (payCall none) =
        (AgentGate.deny "agent_suspended" "agent status=suspended" suspendedView, some suspendedStore) ∧
      ∀ a, (AgentGate.evaluate sampleHost (some suspendedStore) (payCall none)).1 = .allow a →
        Permitted suspendedView none (some payCapability) :=
  ⟨rfl, (AgentGate.restricted_iff sampleHost suspendedStore suspendedView (payCall none) rfl
    (by decide)).mpr (.inl (fun wire hw => by cases hw))⟩

/-- With the token of the approved row it is admitted. -/
theorem suspended_agent_admitted :
    suspendedStore.getBySubject (payCall (some sampleWire)).identity.subjectId = some suspendedView ∧
      suspendedView.profile ≠ some PROFILE_ALLOW_ALL ∧
      (AgentGate.evaluate sampleHost (some suspendedStore) (payCall (some sampleWire))).1 =
        .allow ⟨"approval_token", some sampleToken.approvalId⟩ ∧
      ¬Permitted suspendedView (payCall (some sampleWire)).callerSurface
        (payCall (some sampleWire)).capability := by
  refine ⟨rfl, by decide, ?_, fun h => absurd h.active (by decide)⟩
  rw [AgentGate.evaluate_some]
  exact AgentGate.spendable_admitted rfl ⟨sampleWire_checked, ⟨approvedRecord, rfl, rfl⟩, rfl⟩

end Admission

end Relux
