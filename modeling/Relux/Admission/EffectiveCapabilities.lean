import Mathlib.Data.List.Dedup
import Mathlib.Data.List.Sort
import Relux.Admission.RestrictedAgent

/-! The methods that `agent.effective_capabilities` lists for an agent, and which of them the gate
does not deny to it. -/

namespace Relux

namespace Admission

structure PeerMethod where
  method : String
  categories : List String
  sensitivityTags : List String
  riskLevel : String

def CapabilityDescriptor.peerMethod (cap : CapabilityDescriptor) : PeerMethod :=
  ⟨cap.methodName, cap.categories, cap.sensitivityTags, cap.riskLevel.label⟩

def AgentStore.getAgent (store : AgentStore) (agentId : String) : Option AgentGateView :=
  store.profiles.values.find? (fun agent => agent.agentId = agentId)

namespace AgentHandlers

def riskRank (s : String) : Option Int :=
  if s = "safe" then some 0
  else if s = "low" then some 1
  else if s = "medium" then some 2
  else if s = "high" then some 3
  else if s = "critical" then some 4
  else none

def riskWithinCeiling (level ceiling : String) : Bool :=
  match riskRank level, riskRank ceiling with
  | some l, some c => decide (l ≤ c)
  | _, _ => false

def permits (agent : AgentGateView) (m : PeerMethod) : Bool :=
  if !riskWithinCeiling m.riskLevel agent.riskCeiling then false
  else if m.categories.any agent.denyCategories.contains then false
  else if m.sensitivityTags.any agent.denySensitivityTags.contains then false
  else if !agent.allowCategories.isEmpty && !m.categories.any agent.allowCategories.contains then
    false
  else true

def allowedMethods (agent : AgentGateView) (caps : List PeerMethod) : List String :=
  if agent.status ≠ "active" then []
  else (((caps.filter (permits agent)).map PeerMethod.method).insertionSort (· ≤ ·)).dedup

def listing (agent : AgentGateView) (allowed : List String) : String :=
  if agent.status ≠ "active" then s!"count=0\nreason=agent_{agent.status}\n"
  else String.join (allowed.map (· ++ "\n")) ++ s!"count={allowed.length}\n"

/-- `handle_effective_capabilities`, from the decoded argument on. -/
def effectiveCapabilities (store : AgentStore) (fetchPeerMethods : String → List PeerMethod)
    (args : String) : Except String String :=
  match splitOnce '|' args.toList with
  | none => .error "agent.effective_capabilities: expected \x60agent_id|peer_alias\x60"
  | some (agentId, peerAlias) =>
    let agentId := String.ofList (trimChars agentId)
    match store.getAgent agentId with
    | none => .error s!"agent.effective_capabilities: not found: {agentId}"
    | some agent =>
      .ok (listing agent
        (allowedMethods agent (fetchPeerMethods (String.ofList (trimChars peerAlias)))))

end AgentHandlers

/-- What the listing and the gate both ask of the profile and the capability, but for the risk. -/
structure InProfile (view : AgentGateView) (cap : CapabilityDescriptor) : Prop where
  active : view.status = "active"
  categories : ∀ c ∈ cap.categories, c ∉ view.denyCategories
  tags : ∀ t ∈ cap.sensitivityTags, t ∉ view.denySensitivityTags
  allowed : view.allowCategories = [] ∨ ∃ c ∈ cap.categories, c ∈ view.allowCategories

def Listed (view : AgentGateView) (cap : CapabilityDescriptor) : Prop :=
  InProfile view cap ∧ AgentHandlers.riskWithinCeiling cap.riskLevel.label view.riskCeiling = true

def TagsAllowed (view : AgentGateView) (cap : CapabilityDescriptor) : Prop :=
  view.allowSensitivityTags = [] ∨ ∀ t ∈ cap.sensitivityTags, t ∈ view.allowSensitivityTags

def Admissible (view : AgentGateView) (cap : CapabilityDescriptor) : Prop :=
  view.profile = some PROFILE_ALLOW_ALL ∨ InProfile view cap ∧
    AgentGate.riskWithinCeiling cap.riskLevel.label view.riskCeiling = true ∧ TagsAllowed view cap

/-- The gate ranks the label `unknown` with `critical`, the listing does not rank it. -/
def UnratedRisk (view : AgentGateView) (cap : CapabilityDescriptor) : Prop :=
  view.riskCeiling = "unknown" ∨ cap.riskLevel = .unknown ∧ view.riskCeiling = "critical"

def Overlisted (view : AgentGateView) (cap : CapabilityDescriptor) : Prop :=
  view.profile ≠ some PROFILE_ALLOW_ALL ∧ Listed view cap ∧ ¬TagsAllowed view cap

def Underlisted (view : AgentGateView) (cap : CapabilityDescriptor) : Prop :=
  view.profile = some PROFILE_ALLOW_ALL ∧ ¬Listed view cap ∨
    InProfile view cap ∧ UnratedRisk view cap ∧ TagsAllowed view cap

variable {view : AgentGateView} {cap : CapabilityDescriptor}

theorem riskRank_rated {s : String} (h : s ≠ "unknown") :
    AgentGate.riskRank s = AgentHandlers.riskRank s := by
  simp only [AgentGate.riskRank, AgentHandlers.riskRank, if_neg h]

theorem riskWithinCeiling_rated {level ceiling : String} (hlevel : level ≠ "unknown")
    (hceiling : ceiling ≠ "unknown") : AgentGate.riskWithinCeiling level ceiling =
      AgentHandlers.riskWithinCeiling level ceiling := by
  rw [AgentGate.riskWithinCeiling, riskRank_rated hlevel, riskRank_rated hceiling]
  rfl

theorem listing_unrated (h : UnratedRisk view cap) :
    AgentHandlers.riskWithinCeiling cap.riskLevel.label view.riskCeiling = false := by
  rcases h with hceiling | ⟨hrisk, -⟩
  · rw [hceiling]
    cases cap.riskLevel <;> rfl
  · rw [hrisk]
    rfl

theorem risk_iff : AgentGate.riskWithinCeiling cap.riskLevel.label view.riskCeiling = true ↔
    AgentHandlers.riskWithinCeiling cap.riskLevel.label view.riskCeiling = true ∨
      UnratedRisk view cap := by
  by_cases hceiling : view.riskCeiling = "unknown"
  · have hgate : AgentGate.riskWithinCeiling cap.riskLevel.label "unknown" = true := by
      cases cap.riskLevel <;> rfl
    rw [hceiling]
    exact ⟨fun _ => .inr (.inl hceiling), fun _ => hgate⟩
  by_cases hrisk : cap.riskLevel = .unknown
  · by_cases hcritical : view.riskCeiling = "critical"
    · rw [hrisk, hcritical]
      exact ⟨fun _ => .inr (.inr ⟨hrisk, hcritical⟩), fun _ => rfl⟩
    · have hgate : AgentGate.riskWithinCeiling "unknown" view.riskCeiling = false := by
        rw [AgentGate.riskWithinCeiling,
          show AgentGate.riskRank "unknown" = some 4 from rfl, AgentGate.riskRank,
          if_neg hceiling, if_neg hcritical]
        split_ifs <;> rfl
      have hlisting : AgentHandlers.riskWithinCeiling "unknown" view.riskCeiling = false := rfl
      simp [hrisk, RiskLevel.label, hgate, hlisting, UnratedRisk, hceiling, hcritical]
  · have hlevel : cap.riskLevel.label ≠ "unknown" := by
      cases hlabel : cap.riskLevel with
      | unknown => exact absurd hlabel hrisk
      | _ => decide
    rw [riskWithinCeiling_rated hlevel hceiling]
    simp [UnratedRisk, hceiling, hrisk]

theorem overlisted_iff : Overlisted view cap ↔ Listed view cap ∧ ¬Admissible view cap := by
  constructor
  · rintro ⟨hprofile, hlisted, htags⟩
    refine ⟨hlisted, ?_⟩
    rintro (hall | ⟨-, -, hallowed⟩)
    · exact hprofile hall
    · exact htags hallowed
  · rintro ⟨hlisted, hnot⟩
    refine ⟨fun hall => hnot (.inl hall), hlisted, fun hallowed => hnot (.inr ?_)⟩
    exact ⟨hlisted.1, Iff.mpr risk_iff (.inl hlisted.2), hallowed⟩

theorem underlisted_iff : Underlisted view cap ↔ Admissible view cap ∧ ¬Listed view cap := by
  constructor
  · rintro (⟨hall, hnot⟩ | ⟨hin, hrisk, hallowed⟩)
    · exact ⟨.inl hall, hnot⟩
    · refine ⟨.inr ⟨hin, Iff.mpr risk_iff (.inr hrisk), hallowed⟩, ?_⟩
      rintro ⟨-, hlisted⟩
      rw [listing_unrated hrisk] at hlisted
      cases hlisted
  · rintro ⟨hall | ⟨hin, hrisk, hallowed⟩, hnot⟩
    · exact .inl ⟨hall, hnot⟩
    · refine .inr ⟨hin, ?_, hallowed⟩
      exact (Iff.mp risk_iff hrisk).resolve_left (fun hlisted => hnot ⟨hin, hlisted⟩)

theorem permits_iff : view.status = "active" ∧ AgentHandlers.permits view cap.peerMethod = true ↔
    Listed view cap := by
  simp only [AgentHandlers.permits, CapabilityDescriptor.peerMethod]
  constructor
  · rintro ⟨hactive, h⟩
    simp at h
    exact ⟨⟨hactive, h.2.1, h.2.2.1, h.2.2.2⟩, h.1⟩
  · rintro ⟨⟨hactive, hcategories, htags, hallowed⟩, hrisk⟩
    refine ⟨hactive, ?_⟩
    simp [hrisk]
    exact ⟨hcategories, htags, hallowed⟩

theorem mem_allowedMethods {caps : List CapabilityDescriptor} {m : String} :
    m ∈ AgentHandlers.allowedMethods view (caps.map CapabilityDescriptor.peerMethod) ↔
      ∃ cap ∈ caps, cap.methodName = m ∧ Listed view cap := by
  unfold AgentHandlers.allowedMethods
  by_cases hactive : view.status = "active"
  · simp only [hactive, ne_eq, not_true, if_false, List.mem_dedup, List.mem_insertionSort,
      List.mem_map, List.mem_filter]
    constructor
    · rintro ⟨_, ⟨⟨cap, hcap, rfl⟩, hpermits⟩, rfl⟩
      exact ⟨cap, hcap, rfl, permits_iff.mp ⟨hactive, hpermits⟩⟩
    · rintro ⟨cap, hcap, rfl, hlisted⟩
      exact ⟨_, ⟨⟨cap, hcap, rfl⟩, (permits_iff.mpr hlisted).2⟩, rfl⟩
  · rw [if_pos hactive]
    refine ⟨fun h => absurd h List.not_mem_nil, ?_⟩
    rintro ⟨cap, -, -, hlisted⟩
    exact absurd hlisted.1.active hactive

variable {host : GateHost} {store : AgentStore} {inputs : GateInputs}

theorem not_denied_iff (hview : store.getBySubject inputs.identity.subjectId = some view)
    (htoken : inputs.envelope.approvalToken = none)
    (hsurface : view.surfaceAllowlist = [] ∨
      ∃ s ∈ view.surfaceAllowlist, inputs.callerSurface = some s) :
    (∀ denied, (AgentGate.evaluate host (some store)
      { inputs with capability := some cap }).1 ≠ .deny denied) ↔ Admissible view cap := by
  have heval : (AgentGate.evaluate host (some store) { inputs with capability := some cap }).1 =
      (AgentGate.evaluateAgainstView host store view
        { inputs with capability := some cap }).1 := by
    unfold AgentGate.evaluate AgentGate.evaluateStore
    rw [htoken]
    dsimp only
    rw [hview]
  rw [heval]
  by_cases hall : view.profile = some PROFILE_ALLOW_ALL
  · refine ⟨fun _ => .inl hall, fun _ denied => ?_⟩
    rw [AgentGate.evaluateAgainstView, if_pos hall]
    exact GateDecision.noConfusion
  have hpasses : Admissible view cap ↔
      AgentGate.deniedByProfile host view inputs.callerSurface = none ∧
        AgentGate.deniedByCapability host view cap = none := by
    rw [AgentGate.deniedByProfile_none, AgentGate.deniedByCapability_none]
    constructor
    · rintro (h | ⟨⟨hactive, hcategories, htags, hallowed⟩, hrisk, htagged⟩)
      · exact absurd h hall
      · exact ⟨⟨hactive, hsurface⟩, hrisk, hcategories, htags, hallowed, htagged⟩
    · rintro ⟨⟨hactive, -⟩, hrisk, hcategories, htags, hallowed, htagged⟩
      exact .inr ⟨⟨hactive, hcategories, htags, hallowed⟩, hrisk, htagged⟩
  rw [hpasses]
  rcases AgentGate.evaluateAgainstView_cases host store { inputs with capability := some cap } hall
    with ⟨hdenied, denied, hdeny⟩ | ⟨hprofile, ⟨hcap, -⟩ | ⟨cap', hcap, hcapability, happroval⟩⟩
  · rw [hdeny]
    refine ⟨fun h => absurd rfl (h denied), ?_⟩
    rintro ⟨hprofile, hcapability⟩
    rcases hdenied with h | ⟨cap', hcap, h⟩
    · exact absurd hprofile h
    · cases hcap
      exact absurd hcapability h
  · cases hcap
  · cases hcap
    refine ⟨fun _ => ⟨hprofile, hcapability⟩, fun _ denied => ?_⟩
    rw [happroval]
    unfold AgentGate.checkApproval
    split
    · exact GateDecision.noConfusion
    · split <;> exact GateDecision.noConfusion

/-- The listing agrees with the gate exactly where each method that only one of them lets through
has a namesake that the other lets through. -/
theorem effective_capabilities_agree_iff (host : GateHost) (store : AgentStore)
    (view : AgentGateView) (inputs : GateInputs) (caps : List CapabilityDescriptor)
    (fetchPeerMethods : String → List PeerMethod) (args : String) (agentId peer : List Char)
    (hargs : splitOnce '|' args.toList = some (agentId, peer))
    (hagent : store.getAgent (String.ofList (trimChars agentId)) = some view)
    (hpeer : fetchPeerMethods (String.ofList (trimChars peer)) =
      caps.map CapabilityDescriptor.peerMethod)
    (hview : store.getBySubject inputs.identity.subjectId = some view)
    (htoken : inputs.envelope.approvalToken = none)
    (hsurface : view.surfaceAllowlist = [] ∨
      ∃ s ∈ view.surfaceAllowlist, inputs.callerSurface = some s) :
    let reported := AgentHandlers.allowedMethods view (caps.map CapabilityDescriptor.peerMethod)
    AgentHandlers.effectiveCapabilities store fetchPeerMethods args =
        .ok (AgentHandlers.listing view reported) ∧
      ((∀ m, m ∈ reported ↔
          ∃ cap ∈ caps, cap.methodName = m ∧ ∀ denied, (AgentGate.evaluate host (some store)
            { inputs with capability := some cap }).1 ≠ .deny denied) ↔
        ∀ cap ∈ caps,
          (Overlisted view cap →
            ∃ cap' ∈ caps, cap'.methodName = cap.methodName ∧ Admissible view cap') ∧
          (Underlisted view cap →
            ∃ cap' ∈ caps, cap'.methodName = cap.methodName ∧ Listed view cap')) := by
  intro reported
  refine ⟨?_, ?_⟩
  · simp only [AgentHandlers.effectiveCapabilities, hargs, hagent, hpeer, reported]
  simp only [reported, mem_allowedMethods, not_denied_iff hview htoken hsurface]
  constructor
  · intro h cap hcap
    refine ⟨fun hover => ?_, fun hunder => ?_⟩
    · exact (h cap.methodName).mp ⟨cap, hcap, rfl, hover.2.1⟩
    · exact (h cap.methodName).mpr ⟨cap, hcap, rfl, (underlisted_iff.mp hunder).1⟩
  · intro h m
    constructor
    · rintro ⟨cap, hcap, rfl, hlisted⟩
      by_cases hpasses : Admissible view cap
      · exact ⟨cap, hcap, rfl, hpasses⟩
      · exact (h cap hcap).1 (overlisted_iff.mpr ⟨hlisted, hpasses⟩)
    · rintro ⟨cap, hcap, rfl, hpasses⟩
      by_cases hlisted : Listed view cap
      · exact ⟨cap, hcap, rfl, hlisted⟩
      · exact (h cap hcap).2 (underlisted_iff.mpr ⟨hpasses, hlisted⟩)

def publicView : AgentGateView :=
  { suspendedView with status := "active", allowSensitivityTags := ["public"] }

def publicStore : AgentStore :=
  { suspendedStore with profiles := HashMap.empty.insert publicView.subjectId publicView }

def payrollRead : CapabilityDescriptor := ⟨"payroll.read", .cheap, ["pii"], ["payroll"], .safe⟩

theorem effective_capabilities_agree_iff_public :
    ¬∀ m, m ∈ AgentHandlers.allowedMethods publicView [payrollRead.peerMethod] ↔
      ∃ cap ∈ [payrollRead], cap.methodName = m ∧
        ∀ denied, (AgentGate.evaluate sampleHost (some publicStore)
          { payCall none with capability := some cap }).1 ≠ .deny denied := by
  have hagree := (effective_capabilities_agree_iff sampleHost publicStore publicView (payCall none)
    [payrollRead] (fun _ => [payrollRead.peerMethod]) "agt_payer_00000001|ledger"
    "agt_payer_00000001".toList "ledger".toList rfl rfl rfl rfl rfl (.inl rfl)).2
  intro h
  have hlisted : Listed publicView payrollRead := permits_iff.mp ⟨rfl, by decide⟩
  have htags : ¬TagsAllowed publicView payrollRead := by
    rintro (hempty | hall)
    · cases hempty
    · exact absurd (hall "pii" (by simp [payrollRead])) (by decide)
  obtain ⟨cap, hcap, -, hpasses⟩ := (hagree.mp h payrollRead (by simp)).1
    ⟨by decide, hlisted, htags⟩
  rw [List.mem_singleton.mp hcap] at hpasses
  exact (overlisted_iff.mp ⟨by decide, hlisted, htags⟩).2 hpasses

end Admission

end Relux
