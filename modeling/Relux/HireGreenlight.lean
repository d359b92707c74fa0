import Relux.HireMoves

/-! When a hire acts only after it is greenlit: which steps of the calls keep to it, and that it
holds along every run of steps that do. -/

namespace Relux.Roster

open Admission (ApprovalRecord InvocationCtx VerifiedIdentity DecideArgs TokenHost
  OPERATOR_ROLES SPAWN_CLEARANCE_METHOD decideApproval_ok)
open Probation (Standing Ledger Move put)
open Crowd (Step Runs Meets Label)

namespace Shared

variable (s : Shared)

/-- Who greenlights a hire: an operator, or a clearance of its own that stands approved. -/
def Counts (hireId : String) : Activator → Prop
  | .caller who => OPERATOR_ROLES.contains who.role = true
  | .clearance approvalId => ∃ r, s.approvals.get? approvalId = some r ∧
      r.method = SPAWN_CLEARANCE_METHOD ∧ r.agentId = hireId ∧ r.status = .approved

def Greenlit (hireId : String) : Prop := s.ledger.Greenlit s.Counts hireId

structure Inert (hireId : String) : Prop where
  active : s.standing hireId = some .active → s.Greenlit hireId
  rejected : hireId ∈ s.rejections → s.standing hireId ≠ some .active

/-- A step that makes a hire active whose request is through is one of an operator, or comes
after a greenlight; and no update makes a rejected one active. -/
def Gated : Task → Prop
  | .writing ctx edit => edit.field = ("status", "active") → edit.agentId ∈ s.minted →
      edit.agentId ∉ s.due → edit.agentId ∉ s.rejections ∧
        (callerIsOperator ctx = true ∨ s.Greenlit edit.agentId)
  | .approving ctx agentId _ => agentId ∈ s.minted →
      (s.profiles.getAgentForTenant agentId ctx.tenantIdOrDefault).any
        (fun p => p.status == "pending") = true →
      callerIsOperator ctx = true ∨ s.Greenlit agentId
  | _ => True

def ApprovalsKept (s' : Shared) : Prop :=
  ∀ id r, s.approvals.get? id = some r → ∃ r', s'.approvals.get? id = some r' ∧
    r'.method = r.method ∧ r'.agentId = r.agentId ∧ (r.status = .approved → r'.status = .approved)

def Filed (approvalId : String) (record : ApprovalRecord) : Prop :=
  ∃ r, s.approvals.get? approvalId = some r ∧ r.method = record.method ∧ r.agentId = record.agentId

def Sound : Task → Prop
  | .settingPending _ _ _ hireId => hireId ∈ s.due
  | .deciding _ args record => s.Filed args.approvalId record
  | .hopping args record _ => record.method = SPAWN_CLEARANCE_METHOD →
      args.decision = .approved → s.Counts record.agentId (.clearance args.approvalId)
  | .greenlighting _ approvalId _ record =>
    s.Filed approvalId record ∧ record.method = SPAWN_CLEARANCE_METHOD
  | .hiring _ approvalId _ hireId => s.Counts hireId (.clearance approvalId)
  | _ => True

end Shared

def Task.settling : Task → Option String
  | .settingPending _ _ _ hireId => some hireId
  | _ => none

def Apart (t u : Task) : Prop := ∀ hireId, t.settling = some hireId → u.settling ≠ some hireId

section
variable {s s' : Shared}

theorem approvalsKept_of_eq (h : s'.approvals = s.approvals) : s.ApprovalsKept s' := by
  intro id r hr
  exact ⟨r, h ▸ hr, rfl, rfl, fun hs => hs⟩

theorem Shared.ApprovalsKept.counts (h : s.ApprovalsKept s') (hireId : String) (a : Activator)
    (hc : s.Counts hireId a) : s'.Counts hireId a := by
  cases a with
  | caller who => exact hc
  | clearance approvalId =>
    obtain ⟨r, hr, hmethod, hagent, hstatus⟩ := hc
    obtain ⟨r', hr', hmethod', hagent', hstatus'⟩ := h approvalId r hr
    exact ⟨r', hr', hmethod'.trans hmethod, hagent'.trans hagent, hstatus' hstatus⟩

variable {record : ApprovalRecord} {approvalId : String}

theorem Shared.ApprovalsKept.filed (h : s.ApprovalsKept s') (hf : s.Filed approvalId record) :
    s'.Filed approvalId record := by
  obtain ⟨r, hr, hmethod, hagent⟩ := hf
  obtain ⟨r', hr', hmethod', hagent', -⟩ := h approvalId r hr
  exact ⟨r', hr', hmethod'.trans hmethod, hagent'.trans hagent⟩

variable {t : Task}

theorem Shared.Sound.kept (happrovals : s.ApprovalsKept s')
    (hdue : ∀ hireId, t.settling = some hireId → hireId ∈ s.due → hireId ∈ s'.due) (h : s.Sound t) :
    s'.Sound t := by
  cases t with
  | settingPending ctx input gate hireId => exact hdue hireId rfl h
  | deciding ctx args record => exact happrovals.filed h
  | hopping args record metadata =>
    intro hmethod hdecision
    exact happrovals.counts _ _ (h hmethod hdecision)
  | greenlighting tenant approvalId rig record => exact ⟨happrovals.filed h.1, h.2⟩
  | hiring tenant approvalId rig hireId =>
    exact happrovals.counts hireId (.clearance approvalId) h
  | _ => trivial

variable {desk : Admission.AgentStore} {id : String}

theorem createApproval_kept {input : Admission.AgentStore.ApprovalCreate}
    (h : s.desk.createApproval s.now id input = .ok desk) : s.ApprovalsKept (s.withDesk desk) := by
  unfold Admission.AgentStore.createApproval at h
  cases hget : s.desk.approvals.get? id with
  | some r =>
    rw [hget] at h
    cases h
  | none =>
    rw [hget] at h
    cases h
    intro id' r hr
    exact ⟨r, HashMap.insert_of_some hr hget _, rfl, rfl, fun hs => hs⟩

theorem approvalsKept_insert {r t : ApprovalRecord} (hr : s.approvals.get? id = some r)
    (hpending : r.status = .pending) (hmethod : t.method = r.method)
    (hagent : t.agentId = r.agentId) (hdesk : desk.approvals = s.approvals.insert id t) :
    s.ApprovalsKept (s.withDesk desk) := by
  intro id' q hq
  change ∃ q', desk.approvals.get? id' = some q' ∧ _
  rw [hdesk, HashMap.get?_insert]
  by_cases hid : id' = id
  · subst hid
    have heq : q = r := Option.some.inj (hq.symm.trans hr)
    subst heq
    rw [if_pos rfl]
    refine ⟨t, rfl, hmethod, hagent, ?_⟩
    intro happroved
    rw [hpending] at happroved
    cases happroved
  · rw [if_neg hid]
    exact ⟨q, hq, rfl, rfl, fun hs => hs⟩

theorem markExpired_kept (h : s.desk.markExpired s.now id = .ok desk) :
    s.ApprovalsKept (s.withDesk desk) := by
  unfold Admission.AgentStore.markExpired at h
  cases hget : s.desk.approvals.get? id with
  | none =>
    rw [hget] at h
    cases h
  | some r =>
    rw [hget] at h
    dsimp only at h
    by_cases hpending : r.status = .pending
    · rw [if_neg (not_not_intro hpending)] at h
      cases h
      exact approvalsKept_insert (t := { r with status := .expired, decidedAt := some s.now })
        hget hpending rfl rfl rfl
    · rw [if_pos hpending] at h
      cases h

variable {metadata : Option Admission.AgentStore.DecidedApprovalMetadata}

theorem decideApproval_kept {by' note : String} {decision : Admission.ApprovalStatus}
    
    (h : s.desk.decideApproval s.now id decision by' note = .ok (metadata, desk)) :
    s.ApprovalsKept (s.withDesk desk) ∧ ∀ record, s.Filed id record →
      record.method = SPAWN_CLEARANCE_METHOD → decision = .approved →
        (s.withDesk desk).Counts record.agentId (.clearance id) := by
  obtain ⟨r, hr, hpending, -, rfl⟩ := decideApproval_ok h
  refine ⟨approvalsKept_insert hr hpending
    (t := Admission.AgentStore.decided decision s.now by' note r) rfl rfl rfl, ?_⟩
  rintro record ⟨q, hq, hmethod, hagent⟩ hspawn hdecision
  have heq : q = r := Option.some.inj (hq.symm.trans hr)
  subst heq
  refine ⟨Admission.AgentStore.decided decision s.now by' note q, ?_, hmethod.trans hspawn,
    hagent, hdecision⟩
  change (s.approvals.insert id _).get? id = some _
  rw [HashMap.get?_insert, if_pos rfl]

variable {tenant hireId : String} {reason : String} {approvers : List String}

theorem createSpawnClearance_kept {subject : String}
    (h : s.createSpawnClearance approvalId hireId subject reason approvers tenant = .ok s') :
    s'.ledger = s.ledger ∧ s.ApprovalsKept s' := by
  unfold Shared.createSpawnClearance at h
  cases hcreate : s.desk.createApproval s.now approvalId {
    agentId := hireId
    subjectId := subject
    method := SPAWN_CLEARANCE_METHOD
    capabilityCategory := "agents:create"
    argsRedactedHash := "spawn"
    reason := reason
    approverGroups := []
    taskId := none
    expiresAt := s.now + Shared.SPAWN_CLEARANCE_TTL_SECS
    authorizedApprovers := approvers
    tenantId := tenant } with
  | error e =>
    rw [hcreate] at h
    cases h
  | ok desk =>
    rw [hcreate] at h
    cases h
    exact ⟨rfl, createApproval_kept hcreate⟩

theorem getApprovalRecord_filed (h : s.desk.getApprovalRecordForTenant id tenant = some record) :
    s.Filed id record := by
  exact ⟨record, (Option.filter_eq_some_iff.mp h).1, rfl, rfl⟩

def Task.Plain : Task → Prop
  | .settingPending _ _ _ _ => False
  | .deciding _ _ _ => False
  | .hopping _ _ _ => False
  | .greenlighting _ _ _ _ => False
  | .hiring _ _ _ _ => False
  | _ => True

theorem Task.Plain.sound (h : t.Plain) : s.Sound t ∧ t.settling = none := by
  cases t with
  | settingPending ctx input gate hireId | deciding ctx args record
  | hopping args record metadata | greenlighting tenant approvalId rig record
  | hiring tenant approvalId rig hireId =>
    exact False.elim h
  | _ => exact ⟨trivial, rfl⟩

theorem parsed_plain {α : Type} {r : Except Admission.HandlerOutcome α} {next : α → Task}
    (h : ∀ a, (next a).Plain) : (parsed r next).Plain := by
  cases r with
  | error outcome => trivial
  | ok a => exact h a

theorem gated_plain (ctx : InvocationCtx) (edit : Edit) : (gated ctx edit).Plain := by
  unfold gated
  split <;> trivial

theorem stepAsked_plain (ctx : InvocationCtx) (method : Method) :
    (stepAsked ctx method).Plain := by
  cases method with
  | requestHire =>
    refine parsed_plain (fun input => ?_)
    split <;> trivial
  | update => exact parsed_plain (gated_plain ctx)
  | delete => exact parsed_plain (fun agentId => gated_plain ctx (.delete agentId))
  | approveHire | rejectHire | decide => exact parsed_plain (fun _ => trivial)

theorem stepSpawning_plain (ctx : InvocationCtx) (input : NewAgent) :
    (stepSpawning s ctx input).Plain := by
  unfold stepSpawning
  split
  · trivial
  · split
    · trivial
    · trivial
    · split <;> trivial

theorem stepConfiguring_plain (ctx : InvocationCtx) (edit : Edit) :
    (stepConfiguring s ctx edit).Plain := by
  unfold stepConfiguring
  split
  · trivial
  · split <;> trivial

theorem stepTargeting_plain (ctx : InvocationCtx) (edit : Edit) (actor : AgentProfile) :
    (stepTargeting s ctx edit actor).Plain := by
  unfold stepTargeting
  split <;> trivial

theorem stepScoping_plain (ctx : InvocationCtx) (edit : Edit) (actor : AgentProfile) :
    (stepScoping s ctx edit actor).Plain := by
  unfold stepScoping
  dsimp only
  split <;> trivial

theorem stepOwning_plain (ctx : InvocationCtx) (edit : Edit) :
    (stepOwning s ctx edit).Plain := by
  unfold stepOwning
  split <;> trivial

structure Made (s : Shared) (t : Task) (s' : Shared) (t' : Task)
    (m : Move String Activator) : Prop where
  ledger : s'.ledger = s.ledger.move m
  enabled : s.ledger.Enabled m
  approvals : s.ApprovalsKept s'
  governed : s.Gated t → s.ledger.Governed s.Counts m
  sound : s'.Sound t'
  settling : ∀ hireId, t'.settling = some hireId → m = .mint hireId
  settled : ∀ hireId, m = .settle hireId → t.settling = some hireId

variable {t' : Task}

theorem made_quiet (h : s.Sound t' ∧ t'.settling = none) : Made s t s t' .quiet where
  ledger := rfl
  enabled := trivial
  approvals := approvalsKept_of_eq rfl
  governed := by
    intro _
    trivial
  sound := h.1
  settling := by
    intro hireId hset
    rw [h.2] at hset
    cases hset
  settled := by
    intro hireId hm
    cases hm

theorem made_pure {u : Task} (h : (s, u) = (s', t')) (hu : s.Sound u ∧ u.settling = none) :
    ∃ m, Made s t s' t' m := by
  obtain ⟨rfl, rfl⟩ := Prod.mk.inj h
  exact ⟨.quiet, made_quiet hu⟩

theorem made_idle {u : Task} (h : (s, u) = (s', t')) (hu : u.Plain) : ∃ m, Made s t s' t' m :=
  made_pure h hu.sound

theorem made_plain {m : Move String Activator} (h : s.Makes m s') (ht' : t'.Plain)
    (hgov : s.Gated t → s.ledger.Governed s.Counts m)
    (hset : ∀ hireId, m = .settle hireId → t.settling = some hireId) : Made s t s' t' m where
  ledger := h.ledger
  enabled := h.enabled
  approvals := approvalsKept_of_eq h.approvals
  governed := hgov
  sound := ht'.sound.1
  settling := by
    intro hireId heq
    rw [(ht'.sound (s := s')).2] at heq
    cases heq
  settled := hset

theorem made_approvals (hledger : s'.ledger = s.ledger) (happrovals : s.ApprovalsKept s')
    (h : s'.Sound t' ∧ t'.settling = none) : Made s t s' t' .quiet where
  ledger := hledger
  enabled := trivial
  approvals := happrovals
  governed := by
    intro _
    trivial
  sound := h.1
  settling := by
    intro hireId hset
    rw [h.2] at hset
    cases hset
  settled := by
    intro hireId hm
    cases hm

variable {ctx : InvocationCtx} {draw : Draw} {input : NewAgent} {gate : SpawnGate}

theorem stepMinting_made (h : stepMinting s draw ctx input gate = (s', t')) :
    ∃ m, Made s (.minting ctx input gate) s' t' m := by
  unfold stepMinting at h
  split at h
  · exact made_idle h trivial
  next hireId s₁ hcreate =>
    obtain ⟨rfl, rfl⟩ := Prod.mk.inj h
    have hmakes := Shared.createHire_makes hcreate
    have hdue : s₁.due = hireId :: s.due := congrArg Ledger.due hmakes.ledger
    refine ⟨.mint hireId, hmakes.ledger, hmakes.enabled, approvalsKept_of_eq hmakes.approvals,
      fun _ => trivial, ?_, ?_, ?_⟩
    · change hireId ∈ s₁.due
      rw [hdue]
      exact List.mem_cons_self
    · intro hire heq
      rw [Option.some.inj heq]
    · intro hire heq
      cases heq

theorem stepSettingPending_made (hkept : s.ledger.Kept s.Counts)
    (hdue : hireId ∈ s.due) (h : stepSettingPending s ctx input gate hireId = (s', t')) :
    ∃ m, Made s (.settingPending ctx input gate hireId) s' t' m := by
  obtain ⟨rfl, rfl⟩ := Prod.mk.inj h
  have hrow : s.standing hireId ≠ none := hkept.minted hireId (hkept.due hireId hdue).1
  refine ⟨.settle hireId, made_plain (Shared.setPending_makes hdue hrow) ?_ (fun _ => trivial) ?_⟩
  · cases gate <;> trivial
  · intro hire heq
    cases heq
    rfl

variable {parseJson : String → Except String (List String)}

theorem stepWriting_made {edit : Edit} (h : stepWriting parseJson s ctx edit = (s', t')) :
    ∃ m, Made s (.writing ctx edit) s' t' m := by
  unfold stepWriting at h
  split at h
  · exact made_idle h trivial
  next s₁ hwrite =>
    obtain ⟨rfl, rfl⟩ := Prod.mk.inj h
    refine ⟨_, made_plain (Shared.writeField_makes hwrite) trivial ?_ ?_⟩
    · intro hgate
      unfold Shared.writeMove
      by_cases hfield : edit.field.1 = "status"
      · rw [if_pos hfield]
        intro hactive hminted hdue
        have hvalue : edit.field.2 = "active" := by
          unfold standingOf at hactive
          by_contra hne
          split at hactive <;> cases hactive
        have hpair : edit.field = ("status", "active") := by
          rw [← hfield, ← hvalue]
        exact hgate hpair hminted hdue
      · rw [if_neg hfield]
        trivial
    · intro hireId heq
      unfold Shared.writeMove at heq
      split at heq <;> cases heq

variable {rig : Option String} {agentId : String}

theorem approveHireWithRig_pending {by' : Activator} {r : Profiles.ApproveHireOutcome × Shared}
    (h : s.approveHireWithRig agentId rig tenant by' = .ok r) :
    (s.profiles.getAgentForTenant agentId tenant).any (fun p => p.status == "pending") = true := by
  unfold Shared.approveHireWithRig at h
  split at h
  · cases h
  next outcome profiles happrove =>
    unfold Profiles.approveHireWithRig at happrove
    cases hrow : s.profiles.getAgentForTenant agentId tenant with
    | none =>
      rw [hrow] at happrove
      cases happrove
    | some row =>
      rw [hrow] at happrove
      dsimp only at happrove
      by_cases hstatus : row.status = "pending"
      · simp [hstatus]
      · rw [if_pos hstatus] at happrove
        cases happrove

theorem stepApproving_made (h : stepApproving s ctx agentId rig = (s', t')) :
    ∃ m, Made s (.approving ctx agentId rig) s' t' m := by
  unfold stepApproving at h
  split at h
  · exact made_idle h trivial
  next outcome s₁ happrove =>
    obtain ⟨rfl, rfl⟩ := Prod.mk.inj h
    refine ⟨_, made_plain (Shared.approveHireWithRig_makes happrove) trivial ?_ ?_⟩
    · intro hgate hminted
      exact hgate hminted (approveHireWithRig_pending happrove)
    · intro hireId heq
      cases heq

theorem stepRejecting_made (h : stepRejecting s agentId = (s', t')) :
    ∃ m, Made s (.rejecting ctx agentId) s' t' m := by
  unfold stepRejecting at h
  split at h
  · exact made_idle h trivial
  next s₁ hreject =>
    obtain ⟨rfl, rfl⟩ := Prod.mk.inj h
    refine ⟨_, made_plain (Shared.rejectHire_makes hreject) trivial (fun _ => trivial) ?_⟩
    intro hireId heq
    cases heq

theorem stepClearing_made (h : stepClearing s draw ctx input reason approvers hireId = (s', t')) :
    ∃ m, Made s (.clearing ctx input reason approvers hireId) s' t' m := by
  unfold stepClearing at h
  split at h
  · exact made_idle h trivial
  next s₁ hcreate =>
    obtain ⟨rfl, rfl⟩ := Prod.mk.inj h
    obtain ⟨hledger, hkept⟩ := createSpawnClearance_kept hcreate
    exact ⟨.quiet, made_approvals hledger hkept ⟨trivial, rfl⟩⟩

variable {args : DecideArgs}

theorem stepLoading_sound :
    s.Sound (stepLoading s ctx args) ∧ (stepLoading s ctx args).settling = none := by
  unfold stepLoading
  split
  · exact ⟨trivial, rfl⟩
  next record hrecord =>
    split
    · exact ⟨trivial, rfl⟩
    · exact ⟨getApprovalRecord_filed hrecord, rfl⟩

theorem stepAutonomous_sound :
    s.Sound (stepAutonomous s tenant approvalId rig) ∧
      (stepAutonomous s tenant approvalId rig).settling = none := by
  unfold stepAutonomous
  split
  · exact ⟨trivial, rfl⟩
  next record hrecord =>
    split
    · exact ⟨trivial, rfl⟩
    next hmethod =>
      split
      · exact ⟨trivial, rfl⟩
      · exact ⟨⟨getApprovalRecord_filed hrecord, not_not.mp hmethod⟩, rfl⟩

theorem stepDeciding_made (hfiled : s.Filed args.approvalId record)
    (h : stepDeciding s args record = (s', t')) :
    ∃ m, Made s (.deciding ctx args record) s' t' m := by
  unfold stepDeciding at h
  split at h
  · exact made_idle h trivial
  next metadata desk hdecide =>
    obtain ⟨rfl, rfl⟩ := Prod.mk.inj h
    obtain ⟨hkept, hcounts⟩ := decideApproval_kept hdecide
    exact ⟨.quiet, made_approvals rfl hkept
      ⟨fun hmethod hdecision => hcounts record hfiled hmethod hdecision, rfl⟩⟩

theorem stepGreenlighting_made (hfiled : s.Filed approvalId record)
    (hmethod : record.method = SPAWN_CLEARANCE_METHOD)
    (h : stepGreenlighting s tenant approvalId rig record = (s', t')) :
    ∃ m, Made s (.greenlighting tenant approvalId rig record) s' t' m := by
  unfold stepGreenlighting at h
  split at h
  · exact made_idle h trivial
  next metadata desk hdecide =>
    obtain ⟨rfl, rfl⟩ := Prod.mk.inj h
    obtain ⟨hkept, hcounts⟩ := decideApproval_kept hdecide
    exact ⟨.quiet, made_approvals rfl hkept ⟨hcounts record hfiled hmethod rfl, rfl⟩⟩

theorem stepHiring_made (hcounts : s.Counts hireId (.clearance approvalId))
    (h : stepHiring s tenant approvalId rig hireId = (s', t')) :
    ∃ m, Made s (.hiring tenant approvalId rig hireId) s' t' m := by
  unfold stepHiring at h
  split at h
  · exact made_idle h trivial
  · exact made_idle h trivial
  next outcome s₁ happrove =>
    obtain ⟨rfl, rfl⟩ := Prod.mk.inj h
    refine ⟨_, made_plain (Shared.approveHireWithRig_makes happrove) trivial
      (fun _ _ => .inl hcounts) ?_⟩
    intro hire heq
    cases heq

variable {host : TokenHost}

theorem stepHopping_made
    
    (hsound : s.Sound (.hopping args record metadata))
    (h : stepHopping host s draw args record metadata = (s', t')) :
    ∃ m, Made s (.hopping args record metadata) s' t' m := by
  unfold stepHopping at h
  by_cases hmethod : record.method = SPAWN_CLEARANCE_METHOD
  · rw [if_pos hmethod] at h
    by_cases hdecision : args.decision = .approved
    · rw [if_pos hdecision] at h
      split at h
      next s₁ happrove =>
        obtain ⟨rfl, rfl⟩ := Prod.mk.inj h
        refine ⟨_, made_plain (Shared.approveHire_makes happrove) trivial
          (fun _ _ => .inl (hsound hmethod hdecision)) ?_⟩
        intro hire heq
        cases heq
      · exact made_idle h trivial
    · rw [if_neg hdecision] at h
      split at h
      next s₁ hreject =>
        obtain ⟨rfl, rfl⟩ := Prod.mk.inj h
        refine ⟨_, made_plain (Shared.rejectHire_makes hreject) trivial (fun _ => trivial) ?_⟩
        intro hire heq
        cases heq
      · exact made_idle h trivial
  · rw [if_neg hmethod] at h
    exact made_idle h trivial

theorem step_made (hkept : s.ledger.Kept s.Counts) (hsound : s.Sound t)
    (h : step parseJson host s draw t = some (s', t')) : ∃ m, Made s t s' t' m := by
  cases t with
  | asked method ctx => exact made_idle (Option.some.inj h) (stepAsked_plain ctx method)
  | autonomous tenant approvalId rig => exact made_pure (Option.some.inj h) stepAutonomous_sound
  | spawning ctx input => exact made_idle (Option.some.inj h) (stepSpawning_plain ctx input)
  | leading ctx input reason leadId =>
    exact made_idle (Option.some.inj h) trivial
  | minting ctx input gate => exact stepMinting_made (Option.some.inj h)
  | settingPending ctx input gate hireId =>
    exact stepSettingPending_made hkept hsound (Option.some.inj h)
  | clearing ctx input reason approvers hireId => exact stepClearing_made (Option.some.inj h)
  | configuring ctx edit => exact made_idle (Option.some.inj h) (stepConfiguring_plain ctx edit)
  | targeting ctx edit actor =>
    exact made_idle (Option.some.inj h) (stepTargeting_plain ctx edit actor)
  | scoping ctx edit actor =>
    exact made_idle (Option.some.inj h) (stepScoping_plain ctx edit actor)
  | owning ctx edit => exact made_idle (Option.some.inj h) (stepOwning_plain ctx edit)
  | writing ctx edit => exact stepWriting_made (Option.some.inj h)
  | approving ctx agentId rig => exact stepApproving_made (Option.some.inj h)
  | rejecting ctx agentId => exact stepRejecting_made (Option.some.inj h)
  | loading ctx args => exact made_pure (Option.some.inj h) stepLoading_sound
  | deciding ctx args record => exact stepDeciding_made hsound (Option.some.inj h)
  | hopping args record metadata => exact stepHopping_made hsound (Option.some.inj h)
  | greenlighting tenant approvalId rig record =>
    exact stepGreenlighting_made hsound.1 hsound.2 (Option.some.inj h)
  | hiring tenant approvalId rig hireId => exact stepHiring_made hsound (Option.some.inj h)
  | answered outcome => cases h
  | returned result => cases h

end

end Relux.Roster
