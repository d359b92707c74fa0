import Relux.HashMap

/-! The access broker: allow and deny lists of agents, and a limit on their calls in a minute. -/

namespace Relux

namespace Admission

structure AccessPolicy where
  agent : String
  allowedCapabilities : List String
  deniedCapabilities : List String
  maxCallsPerMinute : Nat
  deriving DecidableEq

inductive AccessDecision where
  | allow
  | deny (reason : String)
  | rateLimited (retryAfterSecs : Int)
  deriving DecidableEq

structure AgentAccessBroker where
  policies : HashMap String AccessPolicy
  callCounts : HashMap String (List Int)

namespace AgentAccessBroker

def new (policies : List AccessPolicy) : AgentAccessBroker :=
  ⟨HashMap.collect (policies.map (fun p => (p.agent, p))), HashMap.empty⟩

def recent (calls : List Int) (now : Int) : List Int :=
  calls.filter (fun ts => decide (now - 60 ≤ ts))

def recordCallLocked (counts : HashMap String (List Int)) (agent : String) (now : Int) :
    HashMap String (List Int) :=
  counts.insert agent (recent ((counts.get? agent).getD [] ++ [now]) now)

/-- The seconds until an agent at its limit has room again. The count is cast to 32 bits. -/
def rateLimitRetrySecs (counts : HashMap String (List Int)) (agent : String) (maxPerMinute : Nat)
    (now : Int) : Option Int :=
  if maxPerMinute = 0 then none
  else
    match counts.get? agent with
    | none => none
    | some entry =>
      if (recent entry now).length % 4294967296 < maxPerMinute then none
      else some (max (((recent entry now).min?).getD now + 60 - now) 1)

def denyListed (agent capability : String) : AccessDecision :=
  .deny s!"agent '{agent}' denied capability '{capability}' by deny list"

def notAllowListed (agent capability : String) : AccessDecision :=
  .deny s!"agent '{agent}' has an allow list and '{capability}' isn't on it"

def atomicCheckAndRecord (broker : AgentAccessBroker) (now : Int) (agent capability : String) :
    AccessDecision × AgentAccessBroker :=
  match broker.policies.get? agent with
  | none => (.allow, { broker with callCounts := recordCallLocked broker.callCounts agent now })
  | some policy =>
    if policy.deniedCapabilities.contains capability then (denyListed agent capability, broker)
    else if !policy.allowedCapabilities.isEmpty && !policy.allowedCapabilities.contains capability then
      (notAllowListed agent capability, broker)
    else
      match rateLimitRetrySecs broker.callCounts agent policy.maxCallsPerMinute now with
      | some retry => (.rateLimited retry, broker)
      | none => (.allow, { broker with callCounts := recordCallLocked broker.callCounts agent now })

theorem atomicCheckAndRecord_cases (broker : AgentAccessBroker) (now : Int)
    (agent capability : String) :
    broker.atomicCheckAndRecord now agent capability =
        (.allow, { broker with callCounts := recordCallLocked broker.callCounts agent now }) ∨
      (broker.atomicCheckAndRecord now agent capability).1 ≠ .allow ∧
        (broker.atomicCheckAndRecord now agent capability).2 = broker := by
  unfold atomicCheckAndRecord
  cases broker.policies.get? agent with
  | none => exact .inl rfl
  | some policy =>
    dsimp only
    by_cases hdenied : policy.deniedCapabilities.contains capability = true
    · rw [if_pos hdenied]
      exact .inr ⟨AccessDecision.noConfusion, rfl⟩
    · rw [if_neg hdenied]
      by_cases hlisted : (!policy.allowedCapabilities.isEmpty &&
          !policy.allowedCapabilities.contains capability) = true
      · rw [if_pos hlisted]
        exact .inr ⟨AccessDecision.noConfusion, rfl⟩
      · rw [if_neg hlisted]
        cases rateLimitRetrySecs broker.callCounts agent policy.maxCallsPerMinute now with
        | none => exact .inl rfl
        | some retry => exact .inr ⟨AccessDecision.noConfusion, rfl⟩

theorem count_recent (calls : List Int) (now : Int) :
    (recent calls now).count now = calls.count now := by
  have hnow : now - 60 ≤ now := by omega
  exact List.count_filter (by simpa using hnow)

theorem recordCallLocked_ne (counts : HashMap String (List Int)) (agent : String) (now : Int) :
    (recordCallLocked counts agent now).get? agent ≠ counts.get? agent := by
  unfold recordCallLocked
  rw [HashMap.get?_insert, if_pos rfl]
  intro heq
  have hcalls : recent ((counts.get? agent).getD [] ++ [now]) now = (counts.get? agent).getD [] :=
    congrArg (fun entry => entry.getD []) heq
  have hcount := congrArg (List.count now) hcalls
  rw [count_recent, List.count_append, List.count_singleton_self] at hcount
  omega

end AgentAccessBroker

end Admission

end Relux
