import Relux.Admission.AccessBroker
import Relux.Transition

/-! The calls of an agent in a minute. A caller reads the clock before it takes the lock of the
counts, so a call with a later reading may be counted first. -/

namespace Relux

namespace Admission

open Transition (run Guarded)
open AgentAccessBroker (recent recordCallLocked rateLimitRetrySecs)

structure Arrival where
  now : Int
  agent : String
  capability : String
  deriving DecidableEq

/-- The callers that wait have read the clock and are to take the lock. -/
structure Gateway where
  broker : AgentAccessBroker
  clock : Int
  waiting : List Arrival
  admitted : List Arrival

inductive Turn where
  | arrive (now : Int) (agent capability : String)
  | enter (i : Nat)

namespace Gateway

def start (policies : List AccessPolicy) (clock : Int) : Gateway := ⟨.new policies, clock, [], []⟩

def decision (g : Gateway) (c : Arrival) : AccessDecision :=
  (g.broker.atomicCheckAndRecord c.now c.agent c.capability).1

def enter (g : Gateway) (c : Arrival) : Gateway :=
  { g with
    broker := (g.broker.atomicCheckAndRecord c.now c.agent c.capability).2
    admitted := if g.decision c = .allow then g.admitted ++ [c] else g.admitted }

def exec (g : Gateway) : Turn → Gateway
  | .arrive now agent capability =>
    if now < g.clock then g
    else { g with clock := now, waiting := g.waiting ++ [⟨now, agent, capability⟩] }
  | .enter i =>
    match g.waiting[i]? with
    | none => g
    | some c => { g.enter c with waiting := g.waiting.eraseIdx i }

def callsOf (g : Gateway) (agent : String) : List Int :=
  (g.admitted.filter (fun c => c.agent == agent)).map (·.now)

def entry (g : Gateway) (agent : String) : List Int := (g.broker.callCounts.get? agent).getD []

/-- No call of the agent with a later reading was admitted before. -/
def InOrder (g : Gateway) (c : Arrival) : Prop := ∀ t ∈ g.callsOf c.agent, t ≤ c.now

def TurnInOrder (g : Gateway) : Turn → Prop
  | .arrive .. => True
  | .enter i => ∀ c, g.waiting[i]? = some c → g.InOrder c

def within (calls : List Int) (x : Int) : Nat :=
  calls.countP (fun t => decide (x ≤ t) && decide (t ≤ x + 60))

variable {g : Gateway} {c : Arrival} {agent : String}

theorem enter_cases (g : Gateway) (c : Arrival) :
    (g.decision c ≠ .allow ∧ g.enter c = g) ∨
      (g.decision c = .allow ∧ (g.enter c).admitted = g.admitted ++ [c] ∧
        (g.enter c).broker = { g.broker with
          callCounts := recordCallLocked g.broker.callCounts c.agent c.now }) := by
  rcases g.broker.atomicCheckAndRecord_cases c.now c.agent c.capability with h | ⟨hne, hsame⟩
  · have hallow : g.decision c = .allow := congrArg Prod.fst h
    refine .inr ⟨hallow, ?_, congrArg Prod.snd h⟩
    rw [enter, if_pos hallow]
  · refine .inl ⟨hne, ?_⟩
    have hnot : ¬g.decision c = .allow := hne
    rw [enter, if_neg hnot, hsame]

variable {calls : List Int} {now : Int}

theorem recent_recent {earlier : Int} (h : earlier ≤ now) :
    recent (recent calls earlier) now = recent calls now := by
  unfold recent
  rw [List.filter_filter]
  apply List.filter_congr
  intro t _
  by_cases hin : now - 60 ≤ t
  · have hearlier : earlier - 60 ≤ t := by omega
    simp [hin, hearlier]
  · simp [hin]

theorem length_recent (h : ∀ t ∈ calls, t ≤ now) :
    (recent calls now).length = within calls (now - 60) := by
  rw [within, recent, ← List.countP_eq_length_filter]
  apply List.countP_congr
  intro t ht
  have hle := h t ht
  rw [Bool.and_eq_true, decide_eq_true_eq, decide_eq_true_eq]
  omega

theorem retrySecs_eq (counts : HashMap String (List Int)) {limit : Nat} (hlimit : 0 < limit)
    (now : Int) : rateLimitRetrySecs counts agent limit now =
      if (recent ((counts.get? agent).getD []) now).length % 4294967296 < limit then none
      else
        some (max (((recent ((counts.get? agent).getD []) now).min?).getD now + 60 - now) 1) := by
  unfold rateLimitRetrySecs
  rw [if_neg (by omega)]
  cases counts.get? agent with
  | none =>
    have hempty : (recent [] now).length % 4294967296 < limit := hlimit
    exact (if_pos hempty).symm
  | some calls => rfl

variable {policy : AccessPolicy}

theorem room_of_allow (hpolicy : g.broker.policies.get? c.agent = some policy)
    (h : g.decision c = .allow) :
    rateLimitRetrySecs g.broker.callCounts c.agent policy.maxCallsPerMinute c.now = none := by
  unfold decision AgentAccessBroker.atomicCheckAndRecord at h
  rw [hpolicy] at h
  dsimp only at h
  split at h
  · cases h
  · split at h
    · cases h
    · split at h
      · cases h
      next hnone => exact hnone

theorem decision_limited (hpolicy : g.broker.policies.get? c.agent = some policy) {retry : Int}
    (h : g.decision c = .rateLimited retry) :
    rateLimitRetrySecs g.broker.callCounts c.agent policy.maxCallsPerMinute c.now = some retry ∧
      ∀ g' : Gateway, g'.broker.policies.get? c.agent = some policy → ∀ now',
        ((∃ retry', g'.decision { c with now := now' } = .rateLimited retry') ↔
          rateLimitRetrySecs g'.broker.callCounts c.agent policy.maxCallsPerMinute now' ≠
            none) := by
  unfold decision AgentAccessBroker.atomicCheckAndRecord at h ⊢
  rw [hpolicy] at h
  dsimp only at h
  split at h
  · cases h
  next hlisted =>
    split at h
    · cases h
    next hallowed =>
      split at h
      next hretry =>
        cases h
        refine ⟨hretry, fun g' hpolicy' now' => ?_⟩
        rw [hpolicy']
        dsimp only
        rw [if_neg hlisted, if_neg hallowed]
        cases rateLimitRetrySecs g'.broker.callCounts c.agent policy.maxCallsPerMinute now' with
        | none =>
          refine ⟨?_, fun hne => absurd rfl hne⟩
          rintro ⟨_, hcase⟩
          cases hcase
        | some retry' => exact ⟨fun _ hcase => (by cases hcase), fun _ => ⟨retry', rfl⟩⟩
      · cases h

/-- What the broker counts of the agent are its calls of the last minute, and of these there are no
more than its limit in any minute. -/
structure Kept (policies : HashMap String AccessPolicy) (agent : String) (limit : Nat)
    (g : Gateway) : Prop where
  policies : g.broker.policies = policies
  counted : ∀ now, (∀ t ∈ g.callsOf agent, t ≤ now) →
    recent (g.entry agent) now = recent (g.callsOf agent) now
  bounded : ∀ x, within (g.callsOf agent) x ≤ limit

variable {policies : HashMap String AccessPolicy} {limit : Nat}

theorem callsOf_enter (hallow : (g.enter c).admitted = g.admitted ++ [c]) :
    (g.enter c).callsOf agent = g.callsOf agent ++ if c.agent = agent then [c.now] else [] := by
  rw [callsOf, hallow, List.filter_append, List.map_append]
  congr 1
  by_cases h : c.agent = agent
  · simp [h]
  · simp [h]

theorem entry_enter (hbroker : (g.enter c).broker = { g.broker with
      callCounts := recordCallLocked g.broker.callCounts c.agent c.now }) :
    (g.enter c).entry agent = if agent = c.agent then recent (g.entry c.agent ++ [c.now]) c.now
      else g.entry agent := by
  unfold entry
  rw [hbroker]
  simp only [recordCallLocked, HashMap.get?_insert]
  split <;> rfl

theorem Kept.room (h : Kept policies agent limit g) (hlimit : 0 < limit)
    (hsmall : limit < 4294967296) (horder : ∀ t ∈ g.callsOf agent, t ≤ now) :
    rateLimitRetrySecs g.broker.callCounts agent limit now =
      if within (g.callsOf agent) (now - 60) < limit then none
      else some (max (((recent (g.callsOf agent) now).min?).getD now + 60 - now) 1) := by
  have hcounted := h.counted now horder
  have hlength := length_recent horder
  have hbound := h.bounded (now - 60)
  unfold entry at hcounted
  rw [retrySecs_eq _ hlimit, hcounted, hlength, Nat.mod_eq_of_lt (by omega)]

theorem Kept.enter (h : Kept policies agent policy.maxCallsPerMinute g)
    (hpolicy : policies.get? agent = some policy) (hlimit : 0 < policy.maxCallsPerMinute)
    (hsmall : policy.maxCallsPerMinute < 4294967296) (horder : g.InOrder c) :
    Kept policies agent policy.maxCallsPerMinute (g.enter c) := by
  rcases enter_cases g c with ⟨-, hsame⟩ | ⟨hallow, hadmitted, hbroker⟩
  · rw [hsame]
    exact h
  · have hcalls := @callsOf_enter g c agent hadmitted
    have hentry := @entry_enter g c agent hbroker
    by_cases hmine : c.agent = agent
    · rw [if_pos hmine] at hcalls
      rw [if_pos hmine.symm, hmine] at hentry
      have hbefore : ∀ t ∈ g.callsOf agent, t ≤ c.now := hmine ▸ horder
      have hroom := room_of_allow (h.policies ▸ hmine ▸ hpolicy) hallow
      rw [hmine, h.room hlimit hsmall hbefore] at hroom
      have hfew : within (g.callsOf agent) (c.now - 60) < policy.maxCallsPerMinute := by
        by_contra hfull
        rw [if_neg hfull] at hroom
        cases hroom
      refine ⟨by rw [hbroker]; exact h.policies, fun now hnow => ?_, fun x => ?_⟩
      · rw [hcalls] at hnow ⊢
        have hlast : c.now ≤ now := hnow c.now (by simp)
        have hothers : ∀ t ∈ g.callsOf agent, t ≤ now := fun t ht => hnow t (by simp [ht])
        have hcounted := h.counted now hothers
        rw [hentry, recent_recent hlast]
        unfold recent at hcounted ⊢
        rw [List.filter_append, List.filter_append, hcounted]
      · have hold := h.bounded x
        have hsplit : within ((Gateway.enter g c).callsOf agent) x =
            within (g.callsOf agent) x + within [c.now] x := by
          rw [hcalls]
          exact List.countP_append ..
        rw [hsplit]
        by_cases hin : x ≤ c.now ∧ c.now ≤ x + 60
        · -- The calls of the window that were there are calls of the minute before this one.
          have hsub : within (g.callsOf agent) x ≤ within (g.callsOf agent) (c.now - 60) := by
            apply List.countP_mono_left
            intro t ht hwindow
            have hle := hbefore t ht
            simp only [Bool.and_eq_true, decide_eq_true_eq] at hwindow ⊢
            omega
          have hone : within [c.now] x ≤ 1 := List.countP_le_length
          omega
        · have hnone : within [c.now] x = 0 := by
            apply List.countP_eq_zero.mpr
            intro t ht hwindow
            rw [List.mem_singleton.mp ht] at hwindow
            simp only [Bool.and_eq_true, decide_eq_true_eq] at hwindow
            exact hin hwindow
          omega
    · rw [if_neg hmine, List.append_nil] at hcalls
      have hother : ¬agent = c.agent := fun he => hmine he.symm
      rw [if_neg hother] at hentry
      refine ⟨by rw [hbroker]; exact h.policies, ?_, ?_⟩
      · rw [hcalls, hentry]
        exact h.counted
      · rw [hcalls]
        exact h.bounded

theorem exec_cases (g : Gateway) (turn : Turn) :
    ((g.exec turn).broker = g.broker ∧ (g.exec turn).admitted = g.admitted) ∨
      ∃ i c, turn = .enter i ∧ g.waiting[i]? = some c ∧
        (g.exec turn).broker = (g.enter c).broker ∧
        (g.exec turn).admitted = (g.enter c).admitted := by
  cases turn with
  | arrive now agent capability =>
    left
    by_cases hpast : now < g.clock
    · have hexec : g.exec (.arrive now agent capability) = g := if_pos hpast
      rw [hexec]
      exact ⟨rfl, rfl⟩
    · have hexec : g.exec (.arrive now agent capability) =
          { g with clock := now, waiting := g.waiting ++ [⟨now, agent, capability⟩] } :=
        if_neg hpast
      rw [hexec]
      exact ⟨rfl, rfl⟩
  | enter i =>
    cases hwaiting : g.waiting[i]? with
    | none =>
      left
      have hexec : g.exec (.enter i) = g := by
        rw [exec, hwaiting]
      rw [hexec]
      exact ⟨rfl, rfl⟩
    | some c =>
      right
      have hexec : g.exec (.enter i) = { g.enter c with waiting := g.waiting.eraseIdx i } := by
        rw [exec, hwaiting]
      rw [hexec]
      exact ⟨i, c, rfl, hwaiting, rfl, rfl⟩

theorem Kept.congr {g' : Gateway} (h : Kept policies agent limit g) (hbroker : g'.broker = g.broker)
    (hadmitted : g'.admitted = g.admitted) : Kept policies agent limit g' := by
  have hcalls : g'.callsOf agent = g.callsOf agent := by
    rw [callsOf, callsOf, hadmitted]
  have hentry : g'.entry agent = g.entry agent := by
    rw [entry, entry, hbroker]
  exact ⟨hbroker ▸ h.policies, by rw [hcalls, hentry]; exact h.counted,
    by rw [hcalls]; exact h.bounded⟩

theorem Kept.exec (hpolicy : policies.get? agent = some policy)
    (hlimit : 0 < policy.maxCallsPerMinute) (hsmall : policy.maxCallsPerMinute < 4294967296)
    (g : Gateway) (turn : Turn) (h : Kept policies agent policy.maxCallsPerMinute g)
    (horder : g.TurnInOrder turn) :
    Kept policies agent policy.maxCallsPerMinute (g.exec turn) := by
  rcases exec_cases g turn with ⟨hbroker, hadmitted⟩ | ⟨i, c, rfl, hc, hbroker, hadmitted⟩
  · exact h.congr hbroker hadmitted
  · exact (h.enter hpolicy hlimit hsmall (horder c hc)).congr hbroker hadmitted

theorem kept_start (policies : List AccessPolicy) (clock : Int) (agent : String) (limit : Nat) :
    Kept (start policies clock).broker.policies agent limit (start policies clock) :=
  ⟨rfl, fun _ _ => rfl, fun _ => Nat.zero_le limit⟩

theorem broker_of_admitted (g : Gateway) (turns : List Turn) :
    g.admitted <+: (run exec g turns).admitted ∧
      ((run exec g turns).admitted = g.admitted → (run exec g turns).broker = g.broker) := by
  induction turns generalizing g with
  | nil => exact ⟨List.prefix_rfl, fun _ => rfl⟩
  | cons turn turns ih =>
    obtain ⟨hgrown, hsame⟩ := ih (g.exec turn)
    rw [Transition.run_cons]
    have hstep : ((g.exec turn).admitted = g.admitted ∧ (g.exec turn).broker = g.broker) ∨
        ∃ c, (g.exec turn).admitted = g.admitted ++ [c] := by
      rcases exec_cases g turn with ⟨hbroker, hadmitted⟩ | ⟨_, c, -, -, hbroker, hadmitted⟩
      · exact .inl ⟨hadmitted, hbroker⟩
      · rcases enter_cases g c with ⟨-, hrefused⟩ | ⟨-, hone, -⟩
        · rw [hrefused] at hbroker hadmitted
          exact .inl ⟨hadmitted, hbroker⟩
        · exact .inr ⟨c, hadmitted.trans hone⟩
    rcases hstep with ⟨hadmitted, hbroker⟩ | ⟨c, hadmitted⟩
    · rw [hadmitted] at hgrown hsame
      exact ⟨hgrown, fun h => (hsame h).trans hbroker⟩
    · rw [hadmitted] at hgrown
      refine ⟨(List.prefix_append _ _).trans hgrown, fun h => ?_⟩
      have hlength := hgrown.length_le
      rw [h, List.length_append, List.length_singleton] at hlength
      omega

/-- The hint is the second at which the oldest call counted is still counted, unless that call is a
full minute old already. -/
theorem Kept.hint (h : Kept policies agent limit g) (hlimit : 0 < limit)
    (hsmall : limit < 4294967296) {retry : Int} (horder : ∀ t ∈ g.callsOf agent, t ≤ now)
    (hretry : rateLimitRetrySecs g.broker.callCounts agent limit now = some retry) :
    rateLimitRetrySecs g.broker.callCounts agent limit (now + retry) = none ↔
      now - 60 ∈ g.callsOf agent := by
  have hfull : ¬within (g.callsOf agent) (now - 60) < limit := by
    intro hfew
    rw [h.room hlimit hsmall horder, if_pos hfew] at hretry
    cases hretry
  rw [h.room hlimit hsmall horder, if_neg hfull, Option.some.injEq] at hretry
  have hcount := length_recent horder
  obtain ⟨oldest, holdest⟩ : ∃ oldest, (recent (g.callsOf agent) now).min? = some oldest := by
    cases hmin : (recent (g.callsOf agent) now).min? with
    | none =>
      rw [List.min?_eq_none_iff] at hmin
      rw [hmin, List.length_nil] at hcount
      omega
    | some oldest => exact ⟨oldest, rfl⟩
  obtain ⟨hmem, hleast⟩ := List.min?_eq_some_iff.mp holdest
  obtain ⟨hcalled, hrecent⟩ := List.mem_filter.mp hmem
  rw [decide_eq_true_eq] at hrecent
  have hpast := horder oldest hcalled
  rw [holdest, Option.getD_some] at hretry
  have hlater : ∀ t ∈ g.callsOf agent, t ≤ now + retry := fun t ht => by
    have hle := horder t ht
    omega
  rw [h.room hlimit hsmall hlater]
  by_cases hminute : oldest = now - 60
  · have hone : retry = 1 := by omega
    rw [hminute] at hcalled
    refine iff_of_true (if_pos ?_) hcalled
    have hrest := (List.perm_cons_erase hcalled).countP_eq
    have hbound := h.bounded (now - 60)
    have hsub : within (g.callsOf agent) (now + retry - 60) <
        within (g.callsOf agent) (now - 60) := by
      unfold within
      rw [hrest, hrest, List.countP_cons_of_neg, List.countP_cons_of_pos]
      · apply Nat.lt_succ_of_le
        apply List.countP_mono_left
        intro t ht hwindow
        have hle := horder t (List.mem_of_mem_erase ht)
        simp only [Bool.and_eq_true, decide_eq_true_eq] at hwindow ⊢
        omega
      · simp only [Bool.and_eq_true, decide_eq_true_eq]
        omega
      · simp only [Bool.and_eq_true, decide_eq_true_eq]
        omega
    omega
  · have hret : now + retry - 60 = oldest := by omega
    have hnot : now - 60 ∉ g.callsOf agent := fun hin => by
      have hcase := hleast (now - 60) (List.mem_filter.mpr ⟨hin, by simp⟩)
      omega
    refine iff_of_false ?_ hnot
    have hstill : within (g.callsOf agent) (now - 60) ≤
        within (g.callsOf agent) (now + retry - 60) := by
      apply List.countP_mono_left
      intro t ht hwindow
      simp only [Bool.and_eq_true, decide_eq_true_eq] at hwindow ⊢
      have hrec : t ∈ recent (g.callsOf agent) now :=
        List.mem_filter.mpr ⟨ht, decide_eq_true_eq.mpr hwindow.1⟩
      have hcase := hleast t hrec
      have hle := horder t ht
      omega
    rw [if_neg (by omega)]
    exact Option.some_ne_none _

theorem minute_limit_in_order (policies : List AccessPolicy) (clock : Int) {agent : String}
    {policy : AccessPolicy}
    (hpolicy : (start policies clock).broker.policies.get? agent = some policy)
    (hlimit : 0 < policy.maxCallsPerMinute) (hsmall : policy.maxCallsPerMinute < 4294967296)
    (turns : List Turn) (horder : Guarded exec TurnInOrder (start policies clock) turns) :
    (∀ x, within ((run exec (start policies clock) turns).callsOf agent) x ≤
      policy.maxCallsPerMinute) ∧
      ∀ c : Arrival, c.agent = agent → (run exec (start policies clock) turns).InOrder c →
        ((run exec (start policies clock) turns).decision c ≠ .allow →
          (run exec (start policies clock) turns).enter c = run exec (start policies clock) turns) ∧
        ∀ retry, (run exec (start policies clock) turns).decision c = .rateLimited retry →
          ∀ more, (run exec (start policies clock) (turns ++ more)).admitted =
              (run exec (start policies clock) turns).admitted →
            ((¬∃ again, (run exec (start policies clock) (turns ++ more)).decision
                { c with now := c.now + retry } = .rateLimited again) ↔
              c.now - 60 ∈ (run exec (start policies clock) turns).callsOf agent) := by
  have hkept := Transition.invariant_run (Kept.exec hpolicy hlimit hsmall)
    (kept_start policies clock agent policy.maxCallsPerMinute) horder
  refine ⟨hkept.bounded,
    fun c hagent hin => ⟨fun hrefused => ?_, fun retry hretry more hsame => ?_⟩⟩
  · rcases enter_cases (run exec (start policies clock) turns) c with ⟨-, hunchanged⟩ | ⟨hallow, -⟩
    · exact hunchanged
    · exact absurd hallow hrefused
  · subst hagent
    rw [Transition.run_append] at hsame ⊢
    have hbroker := (broker_of_admitted (run exec (start policies clock) turns) more).2 hsame
    have hmine := hkept.policies ▸ hpolicy
    obtain ⟨hsecs, hlater⟩ := decision_limited hmine hretry
    rw [hlater _ (by rw [hbroker]; exact hmine), not_not, hbroker]
    exact hkept.hint hlimit hsmall hin hsecs

def onePerMinute : AccessPolicy := ⟨"kai", [], [], 1⟩

theorem minute_limit_in_order_full_minute :
    (¬∃ again, (run exec (start [onePerMinute] 0)
        ([.arrive 100 "kai" "tool.run", .enter 0] ++ [])).decision
          ⟨161, "kai", "tool.run"⟩ = .rateLimited again) ↔
      (100 : Int) ∈ (run exec (start [onePerMinute] 0)
        [.arrive 100 "kai" "tool.run", .enter 0]).callsOf "kai" :=
  ((minute_limit_in_order [onePerMinute] 0 (by decide +kernel : _ = some onePerMinute)
    (by decide) (by decide) [.arrive 100 "kai" "tool.run", .enter 0]
    ⟨trivial, fun c hc => (by
      cases hc
      intro t ht
      cases ht), trivial⟩).2 ⟨160, "kai", "tool.run"⟩ rfl
      (by
        intro t ht
        have hone : t ∈ [(100 : Int)] := ht
        rw [List.mem_singleton.mp hone]
        decide)).2 1 (by decide +kernel) [] rfl

/-- A call at the second of the hint is refused again, and a call that is overtaken is the third in
a minute. -/
theorem not_minute_limit :
    ((run exec (start [onePerMinute] 0) [.arrive 100 "kai" "tool.run", .enter 0]).decision
        ⟨110, "kai", "tool.run"⟩ = .rateLimited 50 ∧
      (run exec (start [onePerMinute] 0) [.arrive 100 "kai" "tool.run", .enter 0]).decision
        ⟨160, "kai", "tool.run"⟩ = .rateLimited 1) ∧
      within ((run exec (start [⟨"kai", [], [], 2⟩] 0)
        [.arrive 60 "kai" "tool.run", .enter 0, .arrive 60 "kai" "tool.run", .enter 0,
          .arrive 100 "kai" "tool.run", .arrive 150 "kai" "tool.run", .enter 1,
          .enter 0]).callsOf "kai") 60 = 3 := by
  decide +kernel

end Gateway

end Admission

end Relux
