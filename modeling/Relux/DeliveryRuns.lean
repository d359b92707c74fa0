import Relux.ApprovalDelivery

/-! What one step of the delivery service does, which runs are orderly, and what holds of
every run: a dispatch is escalated at most once. -/

namespace Relux.Delivery

inductive Stepped (cfg : ApprovalDeliveryConfig) (s : Shared) :
    Task → Shared → Task → Option Task → Prop
  | refuse {call} (h : cfg.channelEnabled call.resolved.channel = false) :
      Stepped cfg s (.starting call) s (.returned call
        (.error (.channelDisabled call.resolved.channel.asStr))) none
  | queue {call} (h : cfg.channelEnabled call.resolved.channel = true) :
      Stepped cfg s (.starting call) (s.upsert call.row) (.queued call) none
  | send {call} : Stepped cfg s (.queued call)
      (s.beginSend call call.resolved.channel false s.now) (.sending call) none
  | sendOk {call} : Stepped cfg s (.sending call) s (.delivered call) none
  | sendErr {call} (e : DeliveryError) : Stepped cfg s (.sending call) s (.failed call e) none
  | deliver {call} (h : call.escalationScheduled = false) : Stepped cfg s (.delivered call)
      (s.markDelivered call.id s.now) (.returned call (.ok (call.outcome s.now))) none
  | deliverArm {call} (h : call.escalationScheduled = true) : Stepped cfg s (.delivered call)
      (s.markDelivered call.id s.now) (.arming call s.now) none
  | fail {call e} : Stepped cfg s (.failed call e)
      (s.markDeliveryFailed call.id e.display s.now) (.returned call (.error e)) none
  | arm {call deliveredAtMs} : Stepped cfg s (.arming call deliveredAtMs)
      (s.insertSender call.id call.n) (.returned call (.ok (call.outcome deliveredAtMs)))
      (call.resolved.escalationChannel.map (.armed call))
  | sleep {call channel} : Stepped cfg s (.armed call channel) s
      (.waiting call channel (s.now + call.resolved.escalationTimeoutSecs * 1000)) none
  | wake {call channel dueMs} (h : call.n ∈ s.closed) :
      Stepped cfg s (.waiting call channel dueMs) s (.cleaning call channel false) none
  | fire {call channel dueMs} (h : dueMs ≤ s.now) :
      Stepped cfg s (.waiting call channel dueMs) s (.fired call channel dueMs) none
  | skip {call channel dueMs}
      (h : ∀ row, s.rows.get? call.id = some row → row.status = .pending →
        row.escalated = false → cfg.channelEnabled channel = false) :
      Stepped cfg s (.fired call channel dueMs) s (.cleaning call channel false) none
  | escalate {call channel dueMs row} (hrow : s.rows.get? call.id = some row)
      (hpending : row.status = .pending) (hescalated : row.escalated = false) :
      Stepped cfg s (.fired call channel dueMs) s (.escalating call channel dueMs) none
  | sendEscalation {call channel dueMs} : Stepped cfg s (.escalating call channel dueMs)
      (s.beginSend call channel true dueMs) (.escalationSending call channel) none
  | escalationErr {call channel} : Stepped cfg s (.escalationSending call channel) s
      (.cleaning call channel true) none
  | escalationOk {call channel} : Stepped cfg s (.escalationSending call channel) s
      (.escalationSent call channel) none
  | mark {call channel} : Stepped cfg s (.escalationSent call channel)
      (s.markEscalated call.id channel s.now) (.cleaning call channel true) none
  | clean {call channel sent} : Stepped cfg s (.cleaning call channel sent)
      (s.dropSender call.id) (.finished call channel sent) none
  | tooLate {id decision note} (h : s.recordDecision id decision note s.now = none) :
      Stepped cfg s (.deciding id decision note) s
        (.answered id (.error (.alreadyDecided id))) none
  | decide {id decision note s'} (h : s.recordDecision id decision note s.now = some s') :
      Stepped cfg s (.deciding id decision note) s' (.cancelling id) none
  | cancel {id} : Stepped cfg s (.cancelling id) (s.dropSender id) (.answered id (.ok ())) none

variable {cfg : ApprovalDeliveryConfig} {s' s : Shared}

theorem step_cases {choice : Choice} {t t' : Task} {fork : Option Task}
    (h : step cfg s choice t = some (s', t', fork)) : Stepped cfg s t s' t' fork := by
  cases t with
  | starting call =>
    simp only [step, stepDispatch, stepTimer, stepDecision] at h
    split at h
    · next hon => cases h; exact .queue hon
    · next hoff => cases h; exact .refuse (Bool.eq_false_iff.mpr hoff)
  | queued call => cases h; exact .send
  | sending call =>
    cases choice with
    | go => cases h; exact .sendOk
    | cancelled => cases h; exact .sendOk
    | sendFails e => cases h; exact .sendErr e
  | delivered call =>
    simp only [step, stepDispatch, stepTimer, stepDecision] at h
    split at h
    · next hon => cases h; exact .deliverArm hon
    · next hoff => cases h; exact .deliver (Bool.eq_false_iff.mpr hoff)
  | failed call e => cases h; exact .fail
  | arming call deliveredAtMs => cases h; exact .arm
  | returned call result => cases h
  | armed call channel => cases h; exact .sleep
  | waiting call channel dueMs =>
    have hfire : (if dueMs ≤ s.now then some (s, Task.fired call channel dueMs, none) else none) =
        some (s', t', fork) → Stepped cfg s (.waiting call channel dueMs) s' t' fork := by
      intro h
      split at h
      · next hdue => cases h; exact .fire hdue
      · cases h
    cases choice with
    | go | sendFails e =>
      exact hfire (by simpa [step, stepDispatch, stepTimer, stepDecision] using h)
    | cancelled =>
      simp only [step, stepDispatch, stepTimer, stepDecision] at h
      split at h
      · next hclosed => cases h; exact .wake hclosed
      · cases h
  | fired call channel dueMs =>
    cases hrow : s.rows.get? call.id with
    | none =>
      simp only [step, stepDispatch, stepTimer, stepDecision, hrow] at h
      cases h
      refine .skip (fun row hsome => ?_)
      rw [hrow] at hsome
      cases hsome
    | some row =>
      simp only [step, stepDispatch, stepTimer, stepDecision, hrow] at h
      split at h
      · next hover =>
        cases h
        refine .skip (fun row' hsome hpending hescalated => ?_)
        rw [hrow] at hsome
        cases hsome
        rcases hover with hover | hover
        · exact absurd hpending hover
        · rw [hescalated] at hover
          cases hover
      · next hopen =>
        have hpending : row.status = .pending := Decidable.not_not.mp (fun hne => hopen (.inl hne))
        have hescalated : row.escalated = false :=
          Bool.eq_false_iff.mpr (fun heq => hopen (.inr heq))
        split at h
        · cases h
          exact .escalate hrow hpending hescalated
        · next hoff =>
          cases h
          exact .skip (fun _ _ _ _ => Bool.eq_false_iff.mpr hoff)
  | escalating call channel dueMs => cases h; exact .sendEscalation
  | escalationSending call channel =>
    cases choice with
    | go => cases h; exact .escalationOk
    | cancelled => cases h; exact .escalationOk
    | sendFails e => cases h; exact .escalationErr
  | escalationSent call channel => cases h; exact .mark
  | cleaning call channel sent => cases h; exact .clean
  | finished call channel sent => cases h
  | deciding id decision note =>
    cases hrecord : s.recordDecision id decision note s.now with
    | none =>
      simp only [step, stepDispatch, stepTimer, stepDecision, hrecord] at h
      cases h
      exact .tooLate hrecord
    | some mid =>
      simp only [step, stepDispatch, stepTimer, stepDecision, hrecord] at h
      cases h
      exact .decide hrecord
  | cancelling id => cases h; exact .cancel
  | answered id result => cases h

theorem service_exec {t t' : Task} {fork : Option Task} (h : (service cfg).exec s t s' t' fork) :
    Stepped cfg s t s' t' fork := by
  obtain ⟨choice, hstep⟩ := h
  exact step_cases hstep

def Task.carries : Task → Option Nat
  | .starting call => some call.n
  | .queued call => some call.n
  | .sending call => some call.n
  | .delivered call => some call.n
  | .failed call _ => some call.n
  | .arming call _ => some call.n
  | .armed call _ => some call.n
  | .waiting call _ _ => some call.n
  | .fired call _ _ => some call.n
  | .escalating call _ _ => some call.n
  | _ => none

section
variable {cfg : ApprovalDeliveryConfig} {s s' : Shared} {t t' : Task} {fork : Option Task}

theorem Stepped.carries (h : Stepped cfg s t s' t' fork) :
    (∀ n, t'.carries = some n → t.carries = some n) ∧
      ∀ f n, fork = some f → f.carries = some n → t.carries = some n ∧ t'.carries = none := by
  refine ⟨?_, ?_⟩
  · intro n hn
    cases h <;> first | exact hn | cases hn
  · intro f n hf hn
    cases h with
    | @arm call deliveredAtMs =>
      obtain ⟨channel, -, rfl⟩ := Option.map_eq_some_iff.mp hf
      exact ⟨hn, rfl⟩
    | _ => cases hf

theorem recordDecision_some {id : String} {decision : Decision} {note : Option String}
    {now : Int} (h : s.recordDecision id decision note now = some s') :
    ∃ row, s.rows.get? id = some row ∧ row.status = .pending ∧
      s' = { s with
        rows := s.rows.insert id { row with
          status := .decided decision
          decision := some decision
          decisionNote := note
          decidedAtMs := some now }
        decided := row.dispatch :: s.decided } := by
  unfold Shared.recordDecision at h
  split at h
  · cases h
  next row hrow =>
  split at h
  · next hpending =>
    cases h
    exact ⟨row, hrow, hpending, rfl⟩
  · cases h

theorem Stepped.frame (h : Stepped cfg s t s' t' fork) :
    s'.now = s.now ∧ s'.nextDispatch = s.nextDispatch ∧
      (s'.sends = s.sends ∨ ∃ e, s'.sends = e :: s.sends ∧
        (e.isEscalation = true → t.carries = some e.dispatch ∧ t'.carries = none)) := by
  cases h with
  | send => exact ⟨rfl, rfl, .inr ⟨_, rfl, fun he => by cases he⟩⟩
  | sendEscalation => exact ⟨rfl, rfl, .inr ⟨_, rfl, fun _ => ⟨rfl, rfl⟩⟩⟩
  | decide h =>
    obtain ⟨row, -, -, rfl⟩ := recordDecision_some h
    exact ⟨rfl, rfl, .inl rfl⟩
  | _ => exact ⟨rfl, rfl, .inl rfl⟩

end

end Relux.Delivery
