import Relux.DeliveryRuns

/-! Orderly runs of the delivery service: a decision stays, and a request that is never
decided is escalated. -/

namespace Relux.Delivery

/-- The approval id a dispatch or its timer is at work on, from the row's write until the
timer is gone. -/
def Task.holds : Task → Option String
  | .queued call => some call.id
  | .sending call => some call.id
  | .delivered call => some call.id
  | .failed call _ => some call.id
  | .arming call _ => some call.id
  | .armed call _ => some call.id
  | .waiting call _ _ => some call.id
  | .fired call _ _ => some call.id
  | .escalating call _ _ => some call.id
  | .escalationSending call _ => some call.id
  | .escalationSent call _ => some call.id
  | .cleaning call _ _ => some call.id
  | _ => none

/-- A dispatch writes its row only when no earlier dispatch of the id, no timer of it and no
recorded decision is still at work, and no approval or rejection would be overwritten; a decision is
not written between a timer's reading of the row and its escalation. -/
def Orderly (cfg : ApprovalDeliveryConfig) (c : Crowd Shared Task) : Crowd.Label Task → Prop
  | .run i =>
    (∀ call, c.tasks[i]? = some (.starting call) →
      cfg.channelEnabled call.resolved.channel = true →
      (∀ (j : Nat) (u : Task), j ≠ i → c.tasks[j]? = some u →
        u.holds ≠ some call.id ∧ u ≠ .cancelling call.id) ∧
      (∀ row decision, c.shared.rows.get? call.id = some row →
        row.status = .decided decision → decision = .expired)) ∧
    (∀ id decision note, c.tasks[i]? = some (.deciding id decision note) →
      ∀ (j : Nat) (call : Call) (channel : ChannelKind) (dueMs : Int),
        c.tasks[j]? = some (.escalating call channel dueMs) → call.id ≠ id)
  | _ => True

section
variable {s : Shared}

theorem get?_upsert (row : ApprovalDeliveryRow) (id : String) :
    (s.upsert row).rows.get? id =
      if id = row.approvalId then some { row with tenantId := "default" } else s.rows.get? id := by
  have htenant : (if (trimChars "default".toList).isEmpty then "default" else "default") =
      "default" := by split <;> rfl
  simp only [Shared.upsert, Shared.upsertForTenant, HashMap.get?_insert]
  rw [htenant]

theorem get?_updatePending (id id' : String) (f : ApprovalDeliveryRow → ApprovalDeliveryRow) :
    (s.updatePending id f).rows.get? id' =
      if id' = id then (s.rows.get? id).map (fun row =>
        if row.status = .pending then f row else row) else s.rows.get? id' := by
  simp only [Shared.updatePending, HashMap.get?_modify]

end

variable {id : String}

section
variable {cfg : ApprovalDeliveryConfig} {s s' : Shared} {t t' : Task} {fork : Option Task}

theorem Stepped.holds (h : Stepped cfg s t s' t' fork) :
    (∀ id, t'.holds = some id → t.holds = some id ∨ ∃ call, t = .starting call ∧ call.id = id ∧
      cfg.channelEnabled call.resolved.channel = true) ∧
    ∀ f id, fork = some f → f.holds = some id → t.holds = some id ∧ t'.holds = none := by
  refine ⟨?_, ?_⟩
  · intro id hid
    cases h with
    | @queue call hon =>
      cases hid
      exact .inr ⟨call, rfl, rfl, hon⟩
    | _ => first | exact .inl hid | cases hid
  · intro f id hf hid
    cases h with
    | @arm call deliveredAtMs =>
      obtain ⟨channel, -, rfl⟩ := Option.map_eq_some_iff.mp hf
      exact ⟨hid, rfl⟩
    | _ => cases hf

theorem Stepped.row (h : Stepped cfg s t s' t' fork) (id : String) (hid : t.holds ≠ some id)
    (hstart : ∀ call, t = .starting call → call.id = id →
      cfg.channelEnabled call.resolved.channel = false) :
    (s'.rows.get? id = s.rows.get? id) ∨
      ∃ decision note row, t = .deciding id decision note ∧ s.rows.get? id = some row ∧
        row.status = .pending ∧ s'.decided = row.dispatch :: s.decided ∧
        s'.rows.get? id = some { row with
          status := .decided decision
          decision := some decision
          decisionNote := note
          decidedAtMs := some s.now } := by
  have hne : ∀ {call : Call}, some call.id ≠ some id → ¬ id = call.id :=
    fun h heq => h (congrArg some heq.symm)
  cases h with
  | @queue call hon =>
    have hother : ¬ id = call.id := by
      intro heq
      rw [hstart call rfl heq.symm] at hon
      cases hon
    rw [get?_upsert]
    exact .inl (if_neg hother)
  | deliver | deliverArm =>
    unfold Shared.markDelivered
    rw [get?_updatePending]
    exact .inl (if_neg (hne hid))
  | fail =>
    unfold Shared.markDeliveryFailed
    rw [get?_updatePending]
    exact .inl (if_neg (hne hid))
  | mark =>
    unfold Shared.markEscalated
    rw [get?_updatePending]
    exact .inl (if_neg (hne hid))
  | @decide id' decision note _ hrecord =>
    obtain ⟨row, hrow, hpending, rfl⟩ := recordDecision_some hrecord
    by_cases heq : id = id'
    · subst heq
      refine .inr ⟨decision, note, row, rfl, hrow, hpending, rfl, ?_⟩
      simp only [HashMap.get?_insert, if_pos]
    · refine .inl ?_
      simp only [HashMap.get?_insert, if_neg heq]
  | _ => exact .inl rfl

theorem Stepped.rowDispatch (h : Stepped cfg s t s' t' fork)
    (hstart : ∀ call, t = .starting call → call.id = id →
      cfg.channelEnabled call.resolved.channel = false) {row : ApprovalDeliveryRow}
    (hrow : s.rows.get? id = some row) :
    ∃ row', s'.rows.get? id = some row' ∧ row'.dispatch = row.dispatch := by
  have hupdate : ∀ (id' : String) (f : ApprovalDeliveryRow → ApprovalDeliveryRow),
      (∀ r, (f r).dispatch = r.dispatch) →
      ∃ row', (s.updatePending id' f).rows.get? id = some row' ∧ row'.dispatch = row.dispatch := by
    intro id' f hf
    rw [get?_updatePending]
    by_cases heq : id = id'
    · subst heq
      rw [if_pos rfl, hrow, Option.map_some]
      refine ⟨_, rfl, ?_⟩
      split
      · exact hf row
      · rfl
    · rw [if_neg heq]
      exact ⟨row, hrow, rfl⟩
  by_cases hid : t.holds = some id
  · cases h with
    | deliver | deliverArm | fail | mark => exact hupdate _ _ (fun _ => rfl)
    | queue | decide | refuse | cancel | tooLate => cases hid
    | _ => exact ⟨row, hrow, rfl⟩
  · rcases h.row id hid hstart with hsame | ⟨decision, note, row', -, hrow', -, -, hafter⟩
    · exact ⟨row, hsame.trans hrow, rfl⟩
    · have heq : row = row' := Option.some.inj (hrow.symm.trans hrow')
      exact ⟨_, hafter, by rw [heq]⟩

theorem Stepped.decided (h : Stepped cfg s t s' t' fork) {n : Nat} (hn : n ∈ s.decided) :
    n ∈ s'.decided := by
  cases h with
  | decide hrecord =>
    obtain ⟨row, -, -, rfl⟩ := recordDecision_some hrecord
    exact List.mem_cons_of_mem _ hn
  | _ => exact hn

theorem Stepped.sent (h : Stepped cfg s t s' t' fork) {e : Sent} (he : e ∈ s.sends) :
    e ∈ s'.sends := by
  obtain ⟨-, -, hsame | ⟨e', hcons, -⟩⟩ := h.frame
  · rw [hsame]
    exact he
  · rw [hcons]
    exact List.mem_cons_of_mem _ he

theorem Stepped.senders (h : Stepped cfg s t s' t' fork) :
    (∀ id m, s'.cancels.get? id = some m → s.cancels.get? id = some m ∨
      ∃ call deliveredAtMs, t = .arming call deliveredAtMs ∧ call.n = m ∧ call.id = id) ∧
    (∀ m ∈ s'.closed, m ∈ s.closed ∨ ∃ id, s.cancels.get? id = some m ∧
      (t.holds = some id ∨ t = .cancelling id)) := by
  have hdrop : ∀ id, (∀ id' m, (s.dropSender id).cancels.get? id' = some m →
      s.cancels.get? id' = some m) ∧
      (∀ m ∈ (s.dropSender id).closed, m ∈ s.closed ∨ s.cancels.get? id = some m) := by
    intro id
    refine ⟨?_, ?_⟩
    · intro id' m hm
      simp only [Shared.dropSender, HashMap.get?_remove] at hm
      split at hm
      · cases hm
      · exact hm
    · intro m hm
      rcases List.mem_append.mp hm with hold | hkept
      · exact .inr (Option.mem_toList.mp hold)
      · exact .inl hkept
  cases h with
  | @arm call deliveredAtMs =>
    refine ⟨?_, ?_⟩
    · intro id m hm
      simp only [Shared.insertSender, HashMap.get?_insert] at hm
      split at hm
      · next heq =>
        cases hm
        exact .inr ⟨call, deliveredAtMs, rfl, rfl, heq.symm⟩
      · exact .inl hm
    · intro m hm
      rcases List.mem_append.mp hm with hold | hkept
      · exact .inr ⟨call.id, Option.mem_toList.mp hold, .inl rfl⟩
      · exact .inl hkept
  | @clean call channel sent =>
    obtain ⟨hcancels, hclosed⟩ := hdrop call.id
    refine ⟨fun id m hm => .inl (hcancels id m hm), fun m hm => ?_⟩
    rcases hclosed m hm with hkept | hold
    · exact .inl hkept
    · exact .inr ⟨call.id, hold, .inl rfl⟩
  | @cancel id =>
    obtain ⟨hcancels, hclosed⟩ := hdrop id
    refine ⟨fun id m hm => .inl (hcancels id m hm), fun m hm => ?_⟩
    rcases hclosed m hm with hkept | hold
    · exact .inl hkept
    · exact .inr ⟨id, hold, .inr rfl⟩
  | decide hrecord =>
    obtain ⟨row, -, -, rfl⟩ := recordDecision_some hrecord
    exact ⟨fun id m hm => .inl hm, fun m hm => .inl hm⟩
  | _ => exact ⟨fun id m hm => .inl hm, fun m hm => .inl hm⟩

end

/-- The row of the dispatch's id is the one it wrote, not yet marked escalated, and pending
unless an operator has decided it. -/
def Owned (s : Shared) (call : Call) : Prop :=
  ∃ row, s.rows.get? call.id = some row ∧ row.dispatch = call.n ∧ row.escalated = false ∧
    (row.status = .pending ∨ call.n ∈ s.decided)

def Unarmed (s : Shared) (n : Nat) : Prop :=
  n < s.nextDispatch ∧ n ∉ s.closed ∧ ∀ id, s.cancels.get? id ≠ some n

/-- The sender of the timer is under its own id only, and is gone only after a decision. -/
def Armed (s : Shared) (call : Call) : Prop :=
  (call.n ∈ s.closed → call.n ∈ s.decided) ∧ ∀ id, s.cancels.get? id = some call.n → id = call.id

def Escalated (s : Shared) (call : Call) (channel : ChannelKind) : Prop :=
  ∃ e ∈ s.sends, e.isEscalation = true ∧ e.dispatch = call.n ∧ e.channel = channel

def Settled (cfg : ApprovalDeliveryConfig) (s : Shared) (call : Call) (channel : ChannelKind)
    (sent : Bool) : Prop :=
  (sent = true → Escalated s call channel) ∧
    (sent = false → call.n ∈ s.decided ∨ cfg.channelEnabled channel = false)

def Task.Sound (cfg : ApprovalDeliveryConfig) (s : Shared) : Task → Prop
  | .starting call => Unarmed s call.n
  | .queued call => Unarmed s call.n ∧ Owned s call
  | .sending call => Unarmed s call.n ∧ Owned s call
  | .delivered call => Unarmed s call.n ∧ Owned s call
  | .failed call _ => Unarmed s call.n ∧ Owned s call
  | .arming call _ => Unarmed s call.n ∧ Owned s call
  | .armed call _ => Armed s call ∧ Owned s call
  | .waiting call _ _ => Armed s call ∧ Owned s call
  | .fired call _ dueMs => Owned s call ∧ dueMs ≤ s.now
  | .escalating call _ dueMs => Owned s call ∧ dueMs ≤ s.now ∧
      ∀ row, s.rows.get? call.id = some row → row.status = .pending
  | .escalationSending call channel => Escalated s call channel
  | .escalationSent call channel => Escalated s call channel
  | .cleaning call channel sent => Settled cfg s call channel sent
  | .finished call channel sent => Settled cfg s call channel sent
  | .cancelling id => ∃ row, s.rows.get? id = some row ∧ row.dispatch ∈ s.decided
  | _ => True

structure Shared.Sound (s : Shared) : Prop where
  closed : ∀ n ∈ s.closed, n < s.nextDispatch
  cancels : ∀ id n, s.cancels.get? id = some n → n < s.nextDispatch
  sends : ∀ e ∈ s.sends, e.isEscalation = true → e.status = some .pending ∧ e.dueMs ≤ e.sentAtMs

def Task.Apart (t u : Task) : Prop :=
  (∀ n, t.carries = some n → u.carries ≠ some n) ∧ ∀ id, t.holds = some id → u.holds ≠ some id

variable {u : Task}

theorem Task.Apart.symm {t : Task} (h : t.Apart u) : u.Apart t :=
  ⟨fun n hn hn' => h.1 n hn' hn, fun id hid hid' => h.2 id hid' hid⟩

def Clear (cfg : ApprovalDeliveryConfig) (t : Task) (id : String) : Prop :=
  ∀ call, t = .starting call → call.id = id → cfg.channelEnabled call.resolved.channel = false

section
variable {cfg : ApprovalDeliveryConfig} {s s' : Shared} {t t' : Task} {fork : Option Task}
  {call : Call}

theorem Owned.other (h : Owned s call) (hstep : Stepped cfg s t s' t' fork)
    (hid : t.holds ≠ some call.id) (hclear : Clear cfg t call.id) : Owned s' call := by
  obtain ⟨row, hrow, hn, hescalated, hstatus⟩ := h
  rcases hstep.row call.id hid hclear with
    hsame | ⟨decision, note, row', -, hrow', -, hd, hafter⟩
  · refine ⟨row, hsame.trans hrow, hn, hescalated, ?_⟩
    exact hstatus.imp_right hstep.decided
  · have heq : row = row' := Option.some.inj (hrow.symm.trans hrow')
    subst heq
    refine ⟨_, hafter, hn, hescalated, .inr ?_⟩
    rw [hd, hn]
    exact List.mem_cons_self

theorem Unarmed.other {n : Nat} (h : Unarmed s n) (hstep : Stepped cfg s t s' t' fork)
    (hn : t.carries ≠ some n) : Unarmed s' n := by
  obtain ⟨hlt, hclosed, hcancels⟩ := h
  obtain ⟨hput, hgone⟩ := hstep.senders
  refine ⟨?_, ?_, ?_⟩
  · rw [hstep.frame.2.1]
    exact hlt
  · intro hmem
    rcases hgone n hmem with hold | ⟨id, hold, -⟩
    · exact hclosed hold
    · exact hcancels id hold
  · intro id hmem
    rcases hput id n hmem with hold | ⟨call, deliveredAtMs, rfl, rfl, -⟩
    · exact hcancels id hold
    · exact hn rfl

theorem Armed.other (h : Armed s call) (howned : Owned s call)
    (hstep : Stepped cfg s t s' t' fork) (hn : t.carries ≠ some call.n)
    (hid : t.holds ≠ some call.id) (ht : t.Sound cfg s) : Armed s' call := by
  obtain ⟨hclosed, hcancels⟩ := h
  obtain ⟨hput, hgone⟩ := hstep.senders
  refine ⟨?_, ?_⟩
  · intro hmem
    rcases hgone call.n hmem with hold | ⟨id, hold, hwho⟩
    · exact hstep.decided (hclosed hold)
    · have heq := hcancels id hold
      subst heq
      rcases hwho with hholds | hcancel
      · exact absurd hholds hid
      · -- the decision that drops the sender is one of this row
        rw [hcancel] at ht
        obtain ⟨row, hrow, hd⟩ := ht
        obtain ⟨row', hrow', hn', -⟩ := howned
        have heq : row = row' := Option.some.inj (hrow.symm.trans hrow')
        rw [heq, hn'] at hd
        exact hstep.decided hd
  · intro id hmem
    rcases hput id call.n hmem with hold | ⟨call', deliveredAtMs, rfl, hcarry, -⟩
    · exact hcancels id hold
    · exact absurd (congrArg some hcarry) hn

theorem Escalated.other {channel : ChannelKind} (h : Escalated s call channel)
    (hstep : Stepped cfg s t s' t' fork) : Escalated s' call channel := by
  obtain ⟨e, he, hrest⟩ := h
  exact ⟨e, hstep.sent he, hrest⟩

theorem Settled.other {channel : ChannelKind} {sent : Bool} (h : Settled cfg s call channel sent)
    (hstep : Stepped cfg s t s' t' fork) : Settled cfg s' call channel sent :=
  ⟨fun hs => (h.1 hs).other hstep, fun hs => (h.2 hs).imp_left hstep.decided⟩

theorem Task.Sound.other (hu : u.Sound cfg s) (hstep : Stepped cfg s t s' t' fork)
    (ht : t.Sound cfg s) (hapart : t.Apart u)
    (hclear : ∀ id, u.holds = some id ∨ u = .cancelling id → Clear cfg t id)
    (hescalating : ∀ call channel dueMs, u = .escalating call channel dueMs →
      ∀ decision note, t ≠ .deciding call.id decision note) : u.Sound cfg s' := by
  have hown : ∀ call : Call, u.holds = some call.id → Owned s call → Owned s' call := by
    intro call hid h
    exact h.other hstep (fun heq => hapart.2 _ heq hid) (hclear _ (.inl hid))
  have hnum : ∀ n, u.carries = some n → t.carries ≠ some n := fun n hn hn' => hapart.1 n hn' hn
  have hholds : ∀ id, u.holds = some id → t.holds ≠ some id := fun id hn hn' => hapart.2 id hn' hn
  have hnow := hstep.frame.1
  cases u with
  | starting call => exact Unarmed.other hu hstep (hnum _ rfl)
  | queued call | sending call | delivered call | failed call e | arming call deliveredAtMs =>
    exact ⟨hu.1.other hstep (hnum _ rfl), hown call rfl hu.2⟩
  | armed call channel | waiting call channel dueMs =>
    exact ⟨hu.1.other hu.2 hstep (hnum _ rfl) (hholds _ rfl) ht, hown call rfl hu.2⟩
  | fired call channel dueMs =>
    refine ⟨hown call rfl hu.1, ?_⟩
    rw [hnow]
    exact hu.2
  | escalating call channel dueMs =>
    obtain ⟨howned, hdue, hpending⟩ := hu
    refine ⟨hown call rfl howned, by rw [hnow]; exact hdue, ?_⟩
    intro row hrow
    rcases hstep.row call.id (hholds _ rfl) (hclear _ (.inl rfl)) with
      hsame | ⟨decision, note, -, hdeciding, -⟩
    · exact hpending row (hsame ▸ hrow)
    · exact absurd hdeciding (hescalating call channel dueMs rfl decision note)
  | escalationSending call channel | escalationSent call channel =>
    exact Escalated.other hu hstep
  | cleaning call channel sent | finished call channel sent => exact Settled.other hu hstep
  | cancelling id =>
    obtain ⟨row, hrow, hd⟩ := hu
    obtain ⟨row', hrow', heq⟩ := hstep.rowDispatch (hclear id (.inr rfl)) hrow
    exact ⟨row', hrow', heq ▸ hstep.decided hd⟩
  | returned | deciding | answered => trivial

theorem Task.Sound.after (ht : t.Sound cfg s) (hstep : Stepped cfg s t s' t' fork) :
    t'.Sound cfg s' ∧ ∀ f, fork = some f → f.Sound cfg s' := by
  have hupdate : ∀ {call : Call} (f : ApprovalDeliveryRow → ApprovalDeliveryRow),
      (∀ r, (f r).dispatch = r.dispatch ∧ (f r).escalated = r.escalated ∧
        ((f r).status = r.status)) → Owned s call → Owned (s.updatePending call.id f) call := by
    intro call f hf ⟨row, hrow, hn, hescalated, hstatus⟩
    refine ⟨if row.status = .pending then f row else row, ?_, ?_⟩
    · rw [get?_updatePending, if_pos rfl, hrow]
      rfl
    · obtain ⟨hd, he, hst⟩ := hf row
      split
      · exact ⟨hd.trans hn, he.trans hescalated, by rw [hst]; exact hstatus⟩
      · exact ⟨hn, hescalated, hstatus⟩
  cases hstep with
  | refuse h => exact ⟨trivial, fun f hf => by cases hf⟩
  | @queue call h =>
    refine ⟨⟨ht, ⟨{ call.row with tenantId := "default" }, ?_, rfl, rfl, .inl rfl⟩⟩,
      fun f hf => by cases hf⟩
    rw [get?_upsert]
    exact if_pos rfl
  | send | sendOk | sendErr e => exact ⟨ht, fun f hf => by cases hf⟩
  | deliver h => exact ⟨trivial, fun f hf => by cases hf⟩
  | deliverArm h =>
    refine ⟨⟨ht.1, hupdate _ ?_ ht.2⟩, fun f hf => by cases hf⟩
    exact fun r => ⟨rfl, rfl, rfl⟩
  | fail => exact ⟨trivial, fun f hf => by cases hf⟩
  | @arm call deliveredAtMs =>
    obtain ⟨⟨hlt, hclosed, hcancels⟩, howned⟩ := ht
    refine ⟨trivial, fun f hf => ?_⟩
    obtain ⟨channel, -, rfl⟩ := Option.map_eq_some_iff.mp hf
    refine ⟨⟨fun hmem => ?_, fun id hid => ?_⟩, howned⟩
    · rcases List.mem_append.mp hmem with hold | hkept
      · exact absurd (Option.mem_toList.mp hold) (hcancels call.id)
      · exact absurd hkept hclosed
    · simp only [Shared.insertSender, HashMap.get?_insert] at hid
      split at hid
      · next heq => exact heq
      · exact absurd hid (hcancels id)
  | sleep => exact ⟨ht, fun f hf => by cases hf⟩
  | wake h =>
    exact ⟨⟨fun hs => (by cases hs), fun _ => .inl (ht.1.1 h)⟩, fun f hf => by cases hf⟩
  | fire h => exact ⟨⟨ht.2, h⟩, fun f hf => by cases hf⟩
  | skip h =>
    obtain ⟨⟨row, hrow, hn, hescalated, hstatus⟩, -⟩ := ht
    refine ⟨⟨fun hs => (by cases hs), fun _ => ?_⟩, fun f hf => by cases hf⟩
    rcases hstatus with hpending | hdecided
    · exact .inr (h row hrow hpending hescalated)
    · exact .inl hdecided
  | @escalate call channel dueMs row hrow hpending hescalated =>
    refine ⟨⟨ht.1, ht.2, fun row' hrow' => ?_⟩, fun f hf => by cases hf⟩
    have heq : row = row' := Option.some.inj (hrow.symm.trans hrow')
    exact heq ▸ hpending
  | sendEscalation =>
    exact ⟨⟨_, List.mem_cons_self, rfl, rfl, rfl⟩, fun f hf => by cases hf⟩
  | escalationErr => exact ⟨⟨fun _ => ht, fun hs => (by cases hs)⟩, fun f hf => by cases hf⟩
  | escalationOk => exact ⟨ht, fun f hf => by cases hf⟩
  | mark => exact ⟨⟨fun _ => ht, fun hs => (by cases hs)⟩, fun f hf => by cases hf⟩
  | clean => exact ⟨ht, fun f hf => by cases hf⟩
  | tooLate h => exact ⟨trivial, fun f hf => by cases hf⟩
  | @decide id decision note _ h =>
    obtain ⟨row, hrow, -, rfl⟩ := recordDecision_some h
    refine ⟨⟨{ row with
      status := .decided decision
      decision := some decision
      decisionNote := note
      decidedAtMs := some s.now }, ?_, List.mem_cons_self⟩, fun f hf => by cases hf⟩
    simp only [HashMap.get?_insert, if_pos]
  | cancel => exact ⟨trivial, fun f hf => by cases hf⟩

theorem Shared.Sound.after (hs : s.Sound) (ht : t.Sound cfg s)
    (hstep : Stepped cfg s t s' t' fork) : s'.Sound := by
  obtain ⟨hput, hgone⟩ := hstep.senders
  obtain ⟨-, hnext, -⟩ := hstep.frame
  refine ⟨?_, ?_, ?_⟩
  · intro n hn
    rw [hnext]
    rcases hgone n hn with hold | ⟨id, hold, -⟩
    · exact hs.closed n hold
    · exact hs.cancels id n hold
  · intro id n hn
    rw [hnext]
    rcases hput id n hn with hold | ⟨call, deliveredAtMs, rfl, rfl, -⟩
    · exact hs.cancels id n hold
    · exact ht.1.1
  · cases hstep with
    | @send call =>
      intro e he hesc
      rcases List.mem_cons.mp he with rfl | hold
      · cases hesc
      · exact hs.sends e hold hesc
    | @sendEscalation call channel dueMs =>
      obtain ⟨⟨row, hrow, -⟩, hdue, hpending⟩ := ht
      intro e he hesc
      rcases List.mem_cons.mp he with rfl | hold
      · refine ⟨?_, hdue⟩
        show (s.rows.get? call.id).map (·.status) = some .pending
        rw [hrow, Option.map_some, hpending row hrow]
      · exact hs.sends e hold hesc
    | decide h =>
      obtain ⟨row, -, -, rfl⟩ := recordDecision_some h
      exact hs.sends
    | _ => exact hs.sends

end

theorem Task.Sound.numbered {cfg : ApprovalDeliveryConfig} {s : Shared} (hu : u.Sound cfg s) :
    u.Sound cfg { s with nextDispatch := s.nextDispatch + 1 } := by
  have hunarmed : ∀ {n}, Unarmed s n → Unarmed { s with nextDispatch := s.nextDispatch + 1 } n :=
    fun h => ⟨Nat.lt_succ_of_lt h.1, h.2⟩
  cases u with
  | starting call => exact hunarmed hu
  | queued call | sending call | delivered call | failed call e | arming call deliveredAtMs =>
    exact ⟨hunarmed hu.1, hu.2⟩
  | _ => exact hu

section
variable {cfg : ApprovalDeliveryConfig} {c c' : Crowd Shared Task}

theorem Orderly.clear {i j : Nat} {t : Task} (h : Orderly cfg c (.run i))
    (hi : c.tasks[i]? = some t) (hj : c.tasks[j]? = some u) (hji : j ≠ i)
    (hu : u.holds = some id ∨ u = .cancelling id) : Clear cfg t id := by
  intro call ht hid
  subst ht
  cases henabled : cfg.channelEnabled call.resolved.channel with
  | false => rfl
  | true =>
    have hapart := (h.1 call hi henabled).1 j u hji hj
    rw [hid] at hapart
    rcases hu with hholds | hcancel
    · exact absurd hholds hapart.1
    · exact absurd hcancel hapart.2

variable {row : ApprovalDeliveryRow}

end

def Task.timer : Task → Option (Call × ChannelKind)
  | .armed call channel => some (call, channel)
  | .waiting call channel _ => some (call, channel)
  | .fired call channel _ => some (call, channel)
  | .escalating call channel _ => some (call, channel)
  | .escalationSending call channel => some (call, channel)
  | .escalationSent call channel => some (call, channel)
  | .cleaning call channel _ => some (call, channel)
  | .finished call channel _ => some (call, channel)
  | _ => none

def Alone (cfg : ApprovalDeliveryConfig) (i : Nat) (c : Crowd Shared Task)
    (l : Crowd.Label Task) : Prop := (l = .env ∨ l = .run i) ∧ Orderly cfg c l

section
variable {cfg : ApprovalDeliveryConfig} {c c' : Crowd Shared Task} {i : Nat} {call : Call}
  {channel : ChannelKind}

/-- From the pool the timer at `i` can be run to its end, and no decision is recorded. -/
def Ends (cfg : ApprovalDeliveryConfig) (i : Nat) (call : Call) (channel : ChannelKind)
    (c : Crowd Shared Task) : Prop :=
  ∃ c' sent, Crowd.Runs (service cfg) (Alone cfg i) c c' ∧
    c'.tasks[i]? = some (.finished call channel sent) ∧ c'.shared.decided = c.shared.decided

theorem Ends.step (choice : Choice) {t : Task} (t' : Task) {s' : Shared}
    (hi : c.tasks[i]? = some t) (htimer : t.timer = some (call, channel))
    (hstep : step cfg c.shared choice t = some (s', t', none))
    (hdecided : s'.decided = c.shared.decided)
    (hends : ∀ c', c'.shared = s' → c'.tasks[i]? = some t' → Ends cfg i call channel c') :
    Ends cfg i call channel c := by
  obtain ⟨s, ts⟩ := c
  have hlt : i < ts.length := (List.getElem?_eq_some_iff.mp hi).1
  have horderly : Orderly cfg ⟨s, ts⟩ (.run i) := by
    refine ⟨fun call' hcall' => ?_, fun id decision note hdec => ?_⟩
    · have heq : t = .starting call' := Option.some.inj (hi.symm.trans hcall')
      rw [heq] at htimer
      cases htimer
    · have heq : t = .deciding id decision note := Option.some.inj (hi.symm.trans hdec)
      rw [heq] at htimer
      cases htimer
  have hrun : Crowd.Step (service cfg) ⟨s, ts⟩ (.run i) ⟨s', ts.set i t' ++ []⟩ :=
    @Crowd.Step.run _ _ (service cfg) s s' ts i t t' none hi ⟨choice, hstep⟩
  rw [List.append_nil] at hrun
  obtain ⟨c'', sent, hruns, hfin, hd⟩ := hends ⟨s', ts.set i t'⟩ rfl (List.getElem?_set_self hlt)
  exact ⟨c'', sent, .head ⟨.run i, ⟨.inr rfl, horderly⟩, hrun⟩ hruns, hfin, hd.trans hdecided⟩

theorem Stepped.timer {s s' : Shared} {t t' : Task} {fork : Option Task}
    (h : Stepped cfg s t s' t' fork) (ht : t.timer = some (call, channel)) :
    t'.timer = some (call, channel) := by
  cases h <;> exact ht

end

inductive Move
  | call (request : ApprovalRequest)
  | decide (approvalId : String) (decision : Decision)
  | run (i : Nat) (choice : Choice)

def move (cfg : ApprovalDeliveryConfig) (c : Crowd Shared Task) : Move → Option (Crowd Shared Task)
  | .call request =>
    some ⟨(newCall cfg c.shared request).1, c.tasks ++ [(newCall cfg c.shared request).2]⟩
  | .decide id decision => some ⟨c.shared, c.tasks ++ [.deciding id decision none]⟩
  | .run i choice => (c.tasks[i]?).bind (fun t => (step cfg c.shared choice t).map (fun r =>
      ⟨r.1, c.tasks.set i r.2.1 ++ r.2.2.toList⟩))

def play (cfg : ApprovalDeliveryConfig) (c : Crowd Shared Task) (moves : List Move) :
    Option (Crowd Shared Task) := moves.foldlM (move cfg) c

theorem play_runs {cfg : ApprovalDeliveryConfig} {moves : List Move} {c c' : Crowd Shared Task}
    (h : play cfg c moves = some c') :
    Crowd.Runs (service cfg) (fun _ _ => True) c c' := by
  refine Crowd.runs_of_plays (fun c m c' hmid => ?_) h
  cases m with
  | call request =>
    cases hmid
    exact ⟨_, trivial, .spawn (.inl ⟨request, rfl⟩)⟩
  | decide id decision =>
    cases hmid
    exact ⟨_, trivial, .spawn (.inr ⟨rfl, id, decision, none, rfl⟩)⟩
  | run i choice =>
    obtain ⟨t, hi, hstep⟩ := Option.bind_eq_some_iff.mp hmid
    obtain ⟨⟨s', t', fork⟩, hexec, rfl⟩ := Option.map_eq_some_iff.mp hstep
    exact ⟨_, trivial, .run hi ⟨choice, hexec⟩⟩

def dispatched (i : Nat) : List Move := [.run i .go, .run i .go, .run i .go, .run i .go, .run i .go]

end Relux.Delivery
