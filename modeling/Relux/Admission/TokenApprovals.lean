import Relux.Admission.ApprovalDecide
import Relux.Admission.RestrictedAgent

/-! One approval and the calls its token admits, over any run of requests, decisions, sweeps and
calls. -/

namespace Relux

namespace Admission

open AgentStore (ApprovalCreate)

structure TokenCall where
  approvalId : String
  method : String
  subjectId : String
  nowMs : Int

inductive ApprovalEvent where
  | created (r : ApprovalRecord)
  | approved (r : ApprovalRecord) (caller : VerifiedIdentity) (now : Int)
  | minted (tok : ApprovalToken)
  | admitted (call : TokenCall)

structure Desk where
  store : AgentStore
  due : List String

inductive ApprovalOp where
  | create (now : Int) (approvalId : String) (input : ApprovalCreate)
  | decide (now : Int) (mint : Mint) (ctx : InvocationCtx)
  | greenlight (now : Int) (tenant approvalId : String)
  | list (now : Int)
  | mark (now : Int)
  | call (inputs : GateInputs)
  | others (profiles : HashMap String AgentGateView) (standing : HashMap String StandingApproval)

def Mint.token (host : TokenHost) (mint : Mint)
    (metadata : Option AgentStore.DecidedApprovalMetadata) : Option ApprovalToken :=
  match metadata, mint.signer with
  | some decided, some signer =>
    match mint.issue host signer decided with
    | .ok _ =>
      some (ApprovalToken.minted host signer mint.nonce decided.approvalId decided.method
        decided.subjectId (decided.taskId.getD "") mint.nowMs mint.ttlMs)
    | .error _ => none
  | _, _ => none

def decideEvents (host : TokenHost) (store : AgentStore) (now : Int) (mint : Mint)
    (ctx : InvocationCtx) : List ApprovalEvent :=
  match decideStep store now ctx with
  | .ok ((record, args, metadata), _) =>
    if args.decision = .approved then
      ((mint.token host metadata).map .minted).toList ++ [.approved record ctx.caller now]
    else []
  | .error _ => []

def callEvents (inputs : GateInputs) : GateDecision → List ApprovalEvent
  | .allow ⟨_, some approvalId⟩ =>
    [.admitted ⟨approvalId, inputs.envelope.method, inputs.identity.subjectId, inputs.nowMs⟩]
  | _ => []

def ApprovalOp.run (host : GateHost) (desk : Desk) : ApprovalOp → List ApprovalEvent × Desk
  | create now approvalId input =>
    match desk.store.createApproval now approvalId input with
    | .ok store => ([.created (AgentStore.pendingRecord now approvalId input)], { desk with store })
    | .error _ => ([], desk)
  | decide now mint ctx =>
    (decideEvents host.toTokenHost desk.store now mint ctx,
      { desk with store := (handleApprovalDecide host.toTokenHost mint desk.store now ctx).2 })
  | greenlight now tenant approvalId =>
    match autonomousApproveSpawnClearance desk.store now tenant approvalId with
    | .ok store => ([], { desk with store })
    | .error _ => ([], desk)
  | list now => ([], { desk with due := desk.store.listExpiredPending now })
  | mark now =>
    match desk.due with
    | approvalId :: due => ([], { store := markNext desk.store now approvalId, due })
    | [] => ([], desk)
  | call inputs =>
    (callEvents inputs (AgentGate.evaluateStore host desk.store inputs).1,
      { desk with store := (AgentGate.evaluateStore host desk.store inputs).2 })
  | others profiles standing => ([], { desk with store := { desk.store with profiles, standing } })

/-- Signatures are not forged: a token that verifies has the pre-image of one that was minted. -/
def Unforged (host : TokenHost) (log : List ApprovalEvent) : ApprovalOp → Prop
  | .call inputs => ∀ wire tok, inputs.envelope.approvalToken = some wire →
      ApprovalToken.parse host wire = .ok tok → tok.verifySignature host inputs.keyset = .ok () →
      ∃ t, .minted t ∈ log ∧ t.canonical = tok.canonical
  | _ => True

/-- A run from a store without approvals, over operations that `allowed` takes; the newest event
is first. -/
inductive ApprovalRun (host : GateHost) (allowed : Desk → ApprovalOp → Prop) :
    List ApprovalEvent → Desk → Prop where
  | start (desk : Desk) (h : desk.store.approvals = HashMap.empty) : ApprovalRun host allowed [] desk
  | step {log : List ApprovalEvent} {desk : Desk} (run : ApprovalRun host allowed log desk)
      (op : ApprovalOp) (hallowed : allowed desk op) (hunforged : Unforged host.toTokenHost log op) :
      ApprovalRun host allowed ((op.run host desk).1 ++ log) (op.run host desk).2

def ApprovalOp.Timely (desk : Desk) : ApprovalOp → Prop
  | .decide now _ ctx => ∀ record args metadata store,
      decideStep desk.store now ctx = .ok ((record, args, metadata), store) →
      args.decision = .approved → now < record.expiresAt
  | _ => True

def ApprovalRecord.terms (r : ApprovalRecord) : String × String × String × Int × List String :=
  (r.approvalId, r.method, r.subjectId, r.expiresAt, r.authorizedApprovers)

structure Advances (store store' : AgentStore) (created : List ApprovalRecord) : Prop where
  kept : ∀ id r, store.approvals.get? id = some r →
    ∃ r', store'.approvals.get? id = some r' ∧ (r.status ≠ .pending → r' = r)
  rows : ∀ id r', store'.approvals.get? id = some r' →
    (∃ r, store.approvals.get? id = some r ∧ r'.terms = r.terms) ∨ (r' ∈ created ∧ r'.approvalId = id)
  spent : ∀ key, (store.blocklist.get? key).isSome → (store'.blocklist.get? key).isSome

variable {store store' : AgentStore} {id : String} {now : Int}

namespace Advances

theorem of_tables (happrovals : store'.approvals = store.approvals)
    (hspent : ∀ key, (store.blocklist.get? key).isSome → (store'.blocklist.get? key).isSome) :
    Advances store store' [] := by
  refine ⟨fun id r h => ⟨r, happrovals ▸ h, fun _ => rfl⟩, fun id r' h => ?_, hspent⟩
  rw [happrovals] at h
  exact .inl ⟨r', h, rfl⟩

theorem refl (store : AgentStore) : Advances store store [] := of_tables rfl (fun _ h => h)

theorem of_insert {r r' : ApprovalRecord} (hget : store.approvals.get? id = some r)
    (hpending : r.status = .pending) (hterms : r'.terms = r.terms) :
    Advances store { store with approvals := store.approvals.insert id r' } [] := by
  constructor
  · intro id' r₀ h
    by_cases hid : id' = id
    · subst hid
      rw [hget] at h
      cases h
      refine ⟨r', ?_, fun hsettled => absurd hpending hsettled⟩
      simp
    · refine ⟨r₀, ?_, fun _ => rfl⟩
      simpa [hid] using h
  · intro id' r₀ h
    have h' : (store.approvals.insert id r').get? id' = some r₀ := h
    rw [HashMap.get?_insert] at h'
    by_cases hid : id' = id
    · subst hid
      rw [if_pos rfl] at h'
      cases h'
      exact .inl ⟨r, hget, hterms⟩
    · rw [if_neg hid] at h'
      exact .inl ⟨r₀, h', rfl⟩
  · exact fun _ h => h

theorem createApproval {input : ApprovalCreate}
    (h : store.createApproval now id input = .ok store') :
    Advances store store' [AgentStore.pendingRecord now id input] := by
  unfold AgentStore.createApproval at h
  cases hget : store.approvals.get? id with
  | some r =>
    rw [hget] at h
    cases h
  | none =>
    rw [hget] at h
    cases h
    constructor
    · intro id' r hr
      have hne : id' ≠ id := by
        intro hid
        rw [hid, hget] at hr
        cases hr
      refine ⟨r, ?_, fun _ => rfl⟩
      simpa [hne] using hr
    · intro id' r hr
      have hr' : (store.approvals.insert id (AgentStore.pendingRecord now id input)).get? id' = some r := hr
      rw [HashMap.get?_insert] at hr'
      by_cases hid : id' = id
      · rw [if_pos hid] at hr'
        cases hr'
        exact .inr ⟨List.mem_singleton.mpr rfl, hid.symm⟩
      · rw [if_neg hid] at hr'
        exact .inl ⟨r, hr', rfl⟩
    · exact fun _ h => h

end Advances

variable {ctx : InvocationCtx}

theorem decideStep_ok {record : ApprovalRecord} {args : DecideArgs}
    {metadata : Option AgentStore.DecidedApprovalMetadata}
    (h : decideStep store now ctx = .ok ((record, args, metadata), store')) :
    store.approvals.get? args.approvalId = some record ∧ mayDecide record ctx.caller = true ∧
      record.status = .pending ∧
      metadata = (if args.decision = .approved then
        some ⟨args.approvalId, record.subjectId, record.method, record.taskId⟩ else none) ∧
      store' = { store with
        approvals := store.approvals.insert args.approvalId (AgentStore.decided args.decision now
          args.decidedBy args.note record) } := by
  unfold decideStep at h
  cases hargs : parseDecideArgs ctx.args with
  | error outcome =>
    rw [hargs] at h
    cases h
  | ok args' =>
    rw [hargs] at h
    dsimp only at h
    cases hrecord : store.getApprovalRecordForTenant args'.approvalId ctx.tenantIdOrDefault with
    | none =>
      rw [hrecord] at h
      cases h
    | some record' =>
      rw [hrecord] at h
      dsimp only at h
      have hrow : store.approvals.get? args'.approvalId = some record' := by
        exact (Option.filter_eq_some_iff.mp hrecord).1
      by_cases hmay : mayDecide record' ctx.caller = true
      · rw [if_neg (by simp [hmay])] at h
        cases hdecide : store.decideApproval now args'.approvalId args'.decision args'.decidedBy
            args'.note with
        | error e =>
          rw [hdecide] at h
          cases e <;> cases h
        | ok result =>
          obtain ⟨metadata', store''⟩ := result
          rw [hdecide] at h
          cases h
          obtain ⟨r, hr, hpending, hmeta, hstore⟩ := decideApproval_ok hdecide
          rw [hrow] at hr
          cases hr
          exact ⟨hrow, hmay, hpending, hmeta, hstore⟩
      · rw [if_pos (by simpa using hmay)] at h
        cases h

/-- An operator who may decide the row approved it while it was pending and in time, and the row
was created with the token's method and subject. -/
structure Warrant (log : List ApprovalEvent) (tok : ApprovalToken) : Prop where
  plain : tok.Plain
  approved : ∃ r caller now, .approved r caller now ∈ log ∧ mayDecide r caller = true ∧
    r.status = .pending ∧ now < r.expiresAt ∧ tok.approvalId = r.approvalId ∧
    tok.method = r.method ∧ tok.subjectId = r.subjectId ∧ ∃ c, .created c ∈ log ∧ r.terms = c.terms

structure Traced (host : TokenHost) (log : List ApprovalEvent) (store : AgentStore) : Prop where
  rows : ∀ id r, store.approvals.get? id = some r →
    r.approvalId = id ∧ ∃ c, .created c ∈ log ∧ r.terms = c.terms
  minted : ∀ tok, .minted tok ∈ log → Warrant log tok ∧
    ∃ r, store.approvals.get? tok.approvalId = some r ∧ r.status = .approved
  once : ∀ tok tok', .minted tok ∈ log → .minted tok' ∈ log → tok.approvalId = tok'.approvalId →
    tok = tok'
  spent : ∀ call, .admitted call ∈ log → ∃ tok, .minted tok ∈ log ∧
    tok.approvalId = call.approvalId ∧ (store.blocklist.get? (tok.blocklistKey host)).isSome

variable {tok : ApprovalToken}

theorem Warrant.append {log : List ApprovalEvent} (h : Warrant log tok)
    (newer : List ApprovalEvent) : Warrant (newer ++ log) tok := by
  obtain ⟨r, caller, now, hlog, hmay, hpending, htime, hid, hmethod, hsubject, c, hc, hterms⟩ := h.approved
  exact ⟨h.plain, r, caller, now, List.mem_append_right _ hlog, hmay, hpending, htime, hid, hmethod,
    hsubject, c, List.mem_append_right _ hc, hterms⟩

def ApprovalEvent.Quiet : ApprovalEvent → Prop
  | .created _ => True
  | .approved _ _ _ => True
  | .minted _ => False
  | .admitted _ => False

variable {log : List ApprovalEvent} {host : TokenHost}

theorem Traced.advance {newer : List ApprovalEvent} {created : List ApprovalRecord}
    (h : Traced host log store) (hadvances : Advances store store' created)
    (hquiet : ∀ e ∈ newer, e.Quiet) (hcreated : ∀ c ∈ created, .created c ∈ newer) :
    Traced host (newer ++ log) store' := by
  have hold_minted : ∀ tok, ApprovalEvent.minted tok ∈ newer ++ log → .minted tok ∈ log := by
    intro tok htok
    rcases List.mem_append.mp htok with hnew | hold
    · exact absurd (hquiet _ hnew) id
    · exact hold
  have hold_admitted : ∀ call, ApprovalEvent.admitted call ∈ newer ++ log → .admitted call ∈ log := by
    intro call hcall
    rcases List.mem_append.mp hcall with hnew | hold
    · exact absurd (hquiet _ hnew) id
    · exact hold
  constructor
  · intro id r' hr'
    rcases hadvances.rows id r' hr' with ⟨r, hr, hterms⟩ | ⟨hc, hid⟩
    · obtain ⟨hid, c, hc, hrc⟩ := h.rows id r hr
      have hsame : r'.approvalId = r.approvalId := congrArg (fun t => t.1) hterms
      exact ⟨hsame.trans hid, c, List.mem_append_right _ hc, hterms.trans hrc⟩
    · exact ⟨hid, r', List.mem_append_left _ (hcreated r' hc), rfl⟩
  · intro tok htok
    obtain ⟨hwarrant, r, hr, hstatus⟩ := h.minted tok (hold_minted tok htok)
    obtain ⟨r', hr', hsettled⟩ := hadvances.kept _ r hr
    have hsame : r' = r := hsettled (by simp [hstatus])
    exact ⟨hwarrant.append newer, r', hr', hsame ▸ hstatus⟩
  · intro tok tok' htok htok' hid
    exact h.once tok tok' (hold_minted tok htok) (hold_minted tok' htok') hid
  · intro call hcall
    obtain ⟨tok, htok, hid, hspent⟩ := h.spent call (hold_admitted call hcall)
    exact ⟨tok, List.mem_append_right _ htok, hid, hadvances.spent _ hspent⟩

theorem Traced.unnoticed (h : Traced host log store) (hadvances : Advances store store' []) :
    Traced host log store' := by
  have hnewer : ∀ e ∈ ([] : List ApprovalEvent), e.Quiet := fun e he => absurd he List.not_mem_nil
  exact h.advance hadvances hnewer (fun c hc => absurd hc List.not_mem_nil)

theorem Traced.mint {r : ApprovalRecord} (h : Traced host log store)
    (hwarrant : Warrant log tok) (hrow : store.approvals.get? tok.approvalId = some r)
    (hstatus : r.status = .approved)
    (hnew : ∀ tok', .minted tok' ∈ log → tok'.approvalId ≠ tok.approvalId) :
    Traced host (.minted tok :: log) store := by
  constructor
  · intro id r' hr'
    obtain ⟨hid, c, hc, hterms⟩ := h.rows id r' hr'
    exact ⟨hid, c, List.mem_cons_of_mem _ hc, hterms⟩
  · intro tok' htok'
    rcases List.mem_cons.mp htok' with heq | hold
    · cases heq
      exact ⟨hwarrant.append [.minted tok], r, hrow, hstatus⟩
    · obtain ⟨hw, hr'⟩ := h.minted tok' hold
      exact ⟨hw.append [.minted tok], hr'⟩
  · intro t t' ht ht' hid
    rcases List.mem_cons.mp ht with heq | hold
    · cases heq
      rcases List.mem_cons.mp ht' with heq' | hold'
      · cases heq'
        rfl
      · exact absurd hid.symm (hnew t' hold')
    · rcases List.mem_cons.mp ht' with heq' | hold'
      · cases heq'
        exact absurd hid (hnew t hold)
      · exact h.once t t' hold hold' hid
  · intro call hcall
    rcases List.mem_cons.mp hcall with heq | hold
    · cases heq
    · obtain ⟨t, ht, hid, hspent⟩ := h.spent call hold
      exact ⟨t, List.mem_cons_of_mem _ ht, hid, hspent⟩

theorem hireHop_advances (store : AgentStore) (record : ApprovalRecord) (decision : ApprovalStatus) :
    Advances store (hireHop store record decision) [] := by
  have hsettle : ∀ (agentId status : String) (s : AgentStore),
      store.settleHire agentId status = .ok s → Advances store s [] := by
    intro agentId status s hs
    unfold AgentStore.settleHire at hs
    split at hs
    · cases hs
    · cases hs
      exact .of_tables rfl (fun _ h => h)
  unfold hireHop
  split
  · split
    · rename_i s hs
      split at hs
      · exact hsettle _ _ _ hs
      · exact hsettle _ _ _ hs
    · exact .refl store
  · exact .refl store

theorem Traced.decide {host : TokenHost} {log : List ApprovalEvent} {store : AgentStore} {now : Int}
    {mint : Mint} (h : Traced host log store)
    (htimely : ∀ record args metadata store',
      decideStep store now ctx = .ok ((record, args, metadata), store') →
      args.decision = .approved → now < record.expiresAt) :
    Traced host (decideEvents host store now mint ctx ++ log)
      (handleApprovalDecide host mint store now ctx).2 := by
  unfold decideEvents handleApprovalDecide
  cases hstep : decideStep store now ctx with
  | error outcome => exact h
  | ok result =>
    obtain ⟨⟨record, args, metadata⟩, store'⟩ := result
    obtain ⟨hrow, hmay, hpending, hmeta, hstore⟩ := decideStep_ok hstep
    have hadvances : Advances store store' [] := by
      rw [hstore]
      exact .of_insert hrow hpending rfl
    dsimp only
    by_cases happrove : args.decision = .approved
    · rw [if_pos happrove, List.append_assoc]
      have happroved :
          Traced host ([ApprovalEvent.approved record ctx.caller now] ++ log) store' := by
        refine h.advance hadvances (fun e he => ?_) (fun c hc => absurd hc List.not_mem_nil)
        rw [List.mem_singleton] at he
        subst he
        trivial
      have hminted : Traced host
          (((mint.token host metadata).map .minted).toList ++
            ([ApprovalEvent.approved record ctx.caller now] ++ log)) store' := by
        cases htok : mint.token host metadata with
        | none => exact happroved
        | some tok =>
          obtain ⟨hid, c, hc, hterms⟩ := h.rows _ record hrow
          rw [hmeta, if_pos happrove] at htok
          unfold Mint.token at htok
          cases hsigner : mint.signer with
          | none =>
            rw [hsigner] at htok
            cases htok
          | some signer =>
            rw [hsigner] at htok
            dsimp only at htok
            cases hissue : mint.issue host signer
                ⟨args.approvalId, record.subjectId, record.method, record.taskId⟩ with
            | error e =>
              rw [hissue] at htok
              cases htok
            | ok wire =>
              rw [hissue] at htok
              cases htok
              have hplain := ApprovalToken.issue_plain hissue
              refine happroved.mint (r := AgentStore.decided args.decision now args.decidedBy args.note
                record) ⟨hplain, record, ctx.caller, now, ?_, hmay, hpending,
                  htimely _ _ _ _ hstep happrove, hid.symm, rfl, rfl, c, ?_, hterms⟩ ?_ happrove ?_
              · exact List.mem_cons_self
              · exact List.mem_cons_of_mem _ hc
              · rw [hstore]
                exact (HashMap.get?_insert _ _ _ _).trans (if_pos rfl)
              · intro tok' htok' hsame
                have hold : .minted tok' ∈ log := by
                  rcases List.mem_cons.mp htok' with heq | hold
                  · cases heq
                  · exact hold
                obtain ⟨-, r, hr, hstatus⟩ := h.minted tok' hold
                have hidtok : tok'.approvalId = args.approvalId := hsame
                rw [hidtok, hrow] at hr
                cases hr
                rw [hpending] at hstatus
                cases hstatus
      exact hminted.unnoticed (hireHop_advances store' record args.decision)
    · rw [if_neg happrove]
      exact (h.unnoticed hadvances).unnoticed (hireHop_advances store' record args.decision)

/-- What stands behind a call that was admitted on a token: a token of the row for its method and
caller, in time, with its warrant; and no call of the row before. -/
structure Backed (older : List ApprovalEvent) (call : TokenCall) : Prop where
  token : ∃ tok, .minted tok ∈ older ∧ Warrant older tok ∧ tok.approvalId = call.approvalId ∧
    tok.method = call.method ∧ tok.subjectId = call.subjectId ∧ call.nowMs < tok.expiresAtMs
  first : ∀ earlier, .admitted earlier ∈ older → earlier.approvalId ≠ call.approvalId

variable {inputs : GateInputs} {view : AgentGateView} {a : GateAllow}

theorem checkApproval_consumed {cap : CapabilityDescriptor}
    (h : (AgentGate.checkApproval store view inputs cap).1 = .allow a) :
    a.consumedApprovalId = none := by
  unfold AgentGate.checkApproval at h
  split at h
  · cases h
    rfl
  · split at h
    · cases h
      rfl
    · cases h

theorem evaluateAgainstView_consumed {host : GateHost}
    (h : (AgentGate.evaluateAgainstView host store view inputs).1 = .allow a) :
    a.consumedApprovalId = none := by
  by_cases hall : view.profile = some PROFILE_ALLOW_ALL
  · rw [AgentGate.evaluateAgainstView, if_pos hall] at h
    cases h
    rfl
  rcases AgentGate.evaluateAgainstView_cases host store inputs hall with
    ⟨-, denied, heval⟩ | ⟨-, ⟨-, heval⟩ | ⟨cap, -, -, heval⟩⟩
  · rw [heval] at h
    cases h
  · rw [heval] at h
    cases h
    rfl
  · rw [heval] at h
    exact checkApproval_consumed h

theorem callEvents_of_consumed_none {decision : GateDecision}
    (h : ∀ a, decision = .allow a → a.consumedApprovalId = none) :
    callEvents inputs decision = [] := by
  cases decision with
  | deny d => rfl
  | requireApproval r => rfl
  | allow a =>
    obtain ⟨rule, consumed⟩ := a
    have hnone : consumed = none := h _ rfl
    rw [hnone]
    rfl

theorem chargeStanding_tables {cost : Int} (h : store.chargeStanding id cost = some store') :
    store'.approvals = store.approvals ∧ store'.blocklist = store.blocklist := by
  unfold AgentStore.chargeStanding at h
  split at h
  · cases h
  · split at h
    · cases h
      exact ⟨rfl, rfl⟩
    · cases h

theorem consumeFirst_tables (store : AgentStore) (call : AgentStore.StandingApprovalMatch)
    (rows : List StandingApproval) :
    (store.consumeFirst call rows).2.approvals = store.approvals ∧
      (store.consumeFirst call rows).2.blocklist = store.blocklist := by
  induction rows with
  | nil => exact ⟨rfl, rfl⟩
  | cons row rest ih =>
    unfold AgentStore.consumeFirst
    split
    · exact ih
    · split
      · exact ⟨rfl, rfl⟩
      · split
        · rename_i store' hcharge
          exact chargeStanding_tables hcharge
        · exact ih

theorem checkApproval_tables (store : AgentStore) (view : AgentGateView) (inputs : GateInputs)
    (cap : CapabilityDescriptor) :
    (AgentGate.checkApproval store view inputs cap).2.approvals = store.approvals ∧
      (AgentGate.checkApproval store view inputs cap).2.blocklist = store.blocklist := by
  unfold AgentGate.checkApproval
  cases AgentGate.matchedCategory view cap with
  | none => exact ⟨rfl, rfl⟩
  | some category =>
    dsimp only
    have h := consumeFirst_tables store (AgentGate.standingMatch view inputs cap category)
      (store.candidates (AgentGate.standingMatch view inputs cap category))
    unfold AgentStore.consumeActiveStandingFor
    cases hres : store.consumeFirst (AgentGate.standingMatch view inputs cap category)
        (store.candidates (AgentGate.standingMatch view inputs cap category)) with
    | mk used store' =>
      rw [hres] at h
      cases used with
      | none => exact h
      | some id => exact h

theorem evaluateAgainstView_tables (host : GateHost) (store : AgentStore) (view : AgentGateView)
    (inputs : GateInputs) :
    (AgentGate.evaluateAgainstView host store view inputs).2.approvals = store.approvals ∧
      (AgentGate.evaluateAgainstView host store view inputs).2.blocklist = store.blocklist := by
  unfold AgentGate.evaluateAgainstView
  split
  · exact ⟨rfl, rfl⟩
  split
  · exact ⟨rfl, rfl⟩
  split
  · exact ⟨rfl, rfl⟩
  split
  · exact ⟨rfl, rfl⟩
  · exact checkApproval_tables store view inputs _

theorem Traced.call {host : GateHost} {log : List ApprovalEvent} {store : AgentStore}
    {inputs : GateInputs} (h : Traced host.toTokenHost log store)
    (hunforged : Unforged host.toTokenHost log (.call inputs)) :
    Traced host.toTokenHost (callEvents inputs (AgentGate.evaluateStore host store inputs).1 ++ log)
        (AgentGate.evaluateStore host store inputs).2 ∧
      ∀ call, .admitted call ∈ callEvents inputs (AgentGate.evaluateStore host store inputs).1 →
        Backed log call := by
  cases htoken : inputs.envelope.approvalToken with
  | none =>
    have hquiet : callEvents inputs (AgentGate.evaluateStore host store inputs).1 = [] := by
      apply callEvents_of_consumed_none
      intro a ha
      unfold AgentGate.evaluateStore at ha
      rw [htoken] at ha
      dsimp only at ha
      split at ha
      · cases ha
      · exact evaluateAgainstView_consumed ha
    have hadvances : Advances store (AgentGate.evaluateStore host store inputs).2 [] := by
      unfold AgentGate.evaluateStore
      rw [htoken]
      dsimp only
      split
      · exact .refl store
      · rename_i view hview
        obtain ⟨happrovals, hblocklist⟩ := evaluateAgainstView_tables host store view inputs
        exact .of_tables happrovals (fun key hkey => hblocklist ▸ hkey)
    rw [hquiet]
    exact ⟨h.unnoticed hadvances, fun call hcall => absurd hcall List.not_mem_nil⟩
  | some wire =>
    have hpath : AgentGate.evaluateStore host store inputs =
        AgentGate.evaluateToken host.toTokenHost store wire inputs.envelope.method
          inputs.identity.subjectId inputs.keyset inputs.nowMs := by
      unfold AgentGate.evaluateStore
      rw [htoken]
    rw [hpath]
    rcases @AgentGate.evaluateToken_cases host store inputs wire with
      ⟨tok, hspendable, heq⟩ | ⟨hdenied, hsame, -⟩
    · rw [heq]
      obtain ⟨hparse, hverify, hmethod, hsubject, htime⟩ :=
        AgentGate.checkToken_ok_iff.mp hspendable.checked
      obtain ⟨t, ht, hcanonical⟩ := hunforged wire tok htoken hparse hverify
      obtain ⟨hwarrant, r, hr, hstatus⟩ := h.minted t ht
      have hsame : t.Same tok := ApprovalToken.same_of_canonical hwarrant.plain hcanonical
      have hkey : t.blocklistKey host.toTokenHost = tok.blocklistKey host.toTokenHost := by
        unfold ApprovalToken.blocklistKey
        rw [hsame.nonce, hsame.approvalId]
      have hfirst : ∀ earlier, .admitted earlier ∈ log → earlier.approvalId ≠ tok.approvalId := by
        intro earlier hearlier hid
        obtain ⟨t', ht', hid', hspent⟩ := h.spent earlier hearlier
        have hsame' : t' = t := h.once t' t ht' ht (by rw [hid', hid, hsame.approvalId])
        rw [hsame', hkey, hspendable.unspent] at hspent
        cases hspent
      have hevents : callEvents inputs (.allow ⟨"approval_token", some tok.approvalId⟩) =
          [.admitted ⟨tok.approvalId, inputs.envelope.method, inputs.identity.subjectId,
            inputs.nowMs⟩] := rfl
      rw [hevents]
      have hgrows : Advances store { store with
          blocklist := store.blocklist.insert (tok.blocklistKey host.toTokenHost)
            (tok.approvalId, inputs.nowMs) } [] := by
        refine Advances.of_tables ?_ ?_
        · rfl
        intro key hkey'
        rw [HashMap.get?_insert]
        split
        · rfl
        · exact hkey'
      have hkept := h.unnoticed hgrows
      constructor
      · constructor
        · intro id r' hr'
          obtain ⟨hid, c, hc, hterms⟩ := hkept.rows id r' hr'
          exact ⟨hid, c, List.mem_cons_of_mem _ hc, hterms⟩
        · intro tok' htok'
          rcases List.mem_cons.mp htok' with heq' | hold
          · cases heq'
          · obtain ⟨hw, hr'⟩ := hkept.minted tok' hold
            exact ⟨hw.append [_], hr'⟩
        · intro t₁ t₂ h₁ h₂ hid
          rcases List.mem_cons.mp h₁ with heq' | hold₁
          · cases heq'
          rcases List.mem_cons.mp h₂ with heq' | hold₂
          · cases heq'
          exact h.once t₁ t₂ hold₁ hold₂ hid
        · intro call hcall
          rcases List.mem_cons.mp hcall with heq' | hold
          · cases heq'
            refine ⟨t, List.mem_cons_of_mem _ ht, hsame.approvalId, ?_⟩
            rw [hkey]
            rw [HashMap.get?_insert, if_pos rfl]
            rfl
          · obtain ⟨t', ht', hid', hspent⟩ := hkept.spent call hold
            exact ⟨t', List.mem_cons_of_mem _ ht', hid', hspent⟩
      · intro call hcall
        rw [List.mem_singleton] at hcall
        cases hcall
        exact ⟨⟨t, ht, hwarrant, hsame.approvalId, hsame.method.trans hmethod,
          hsame.subjectId.trans hsubject, hsame.expiresAtMs ▸ htime⟩, hfirst⟩
    · rw [callEvents_of_consumed_none (fun a ha => absurd ha (hdenied a)), hsame]
      exact ⟨h, fun call hcall => absurd hcall List.not_mem_nil⟩

def AllBacked (log : List ApprovalEvent) : Prop :=
  ∀ newer call older, log = newer ++ .admitted call :: older → Backed older call

theorem AllBacked.cons {log : List ApprovalEvent} (h : AllBacked log) {e : ApprovalEvent}
    (he : ∀ call, e = .admitted call → Backed log call) : AllBacked (e :: log) := by
  intro newer call older hlog
  cases newer with
  | nil =>
    cases hlog
    exact he call rfl
  | cons e' newer =>
    rw [List.cons_append, List.cons.injEq] at hlog
    exact h newer call older hlog.2

theorem AllBacked.append {log evs : List ApprovalEvent} (h : AllBacked log)
    (hquiet : ∀ e ∈ evs, ∀ call, e ≠ .admitted call) : AllBacked (evs ++ log) := by
  induction evs with
  | nil => exact h
  | cons e evs ih =>
    refine (ih (fun e' he' => hquiet e' (List.mem_cons_of_mem _ he'))).cons (fun call he => ?_)
    exact absurd he (hquiet e List.mem_cons_self call)

theorem callEvents_cases (inputs : GateInputs) (decision : GateDecision) :
    callEvents inputs decision = [] ∨ ∃ call, callEvents inputs decision = [.admitted call] := by
  cases decision with
  | deny d => exact .inl rfl
  | requireApproval r => exact .inl rfl
  | allow a =>
    obtain ⟨rule, consumed⟩ := a
    cases consumed with
    | none => exact .inl rfl
    | some id => exact .inr ⟨_, rfl⟩

theorem decideEvents_quiet (host : TokenHost) (store : AgentStore) (now : Int) (mint : Mint)
    (ctx : InvocationCtx) :
    ∀ e ∈ decideEvents host store now mint ctx, ∀ call, e ≠ .admitted call := by
  intro e he call hcall
  subst hcall
  unfold decideEvents at he
  split at he
  · split at he
    · simp at he
    · cases he
  · cases he

theorem markExpired_advances (h : store.markExpired now id = .ok store') :
    Advances store store' [] := by
  unfold AgentStore.markExpired at h
  cases hrow : store.approvals.get? id with
  | none =>
    rw [hrow] at h
    cases h
  | some r =>
    rw [hrow] at h
    dsimp only at h
    by_cases hpending : r.status = .pending
    · rw [if_neg (not_not_intro hpending)] at h
      cases h
      exact .of_insert hrow hpending rfl
    · rw [if_pos hpending] at h
      cases h

theorem greenlight_advances {tenant : String}
    (h : autonomousApproveSpawnClearance store now tenant id = .ok store') :
    Advances store store' [] := by
  unfold autonomousApproveSpawnClearance at h
  split at h
  · cases h
  split at h
  · cases h
  split at h
  · cases h
  split at h
  · cases h
  · rename_i metadata s hdecide
    cases h
    obtain ⟨r, hrow, hpending, -, hstore⟩ := decideApproval_ok hdecide
    rw [hstore]
    exact .of_insert hrow hpending rfl

theorem ApprovalOp.traced {host : GateHost} {desk : Desk}
    (h : Traced host.toTokenHost log desk.store) (hbacked : AllBacked log) (op : ApprovalOp)
    (htimely : op.Timely desk) (hunforged : Unforged host.toTokenHost log op) :
    Traced host.toTokenHost ((op.run host desk).1 ++ log) (op.run host desk).2.store ∧
      AllBacked ((op.run host desk).1 ++ log) := by
  cases op with
  | create now id input =>
    unfold ApprovalOp.run
    dsimp only
    cases hcreate : desk.store.createApproval now id input with
    | error e => exact ⟨h, hbacked⟩
    | ok store =>
      constructor
      · refine h.advance (Advances.createApproval hcreate) (fun e he => ?_) (fun c hc => ?_)
        · rw [List.mem_singleton] at he
          subst he
          trivial
        · rw [List.mem_singleton] at hc ⊢
          rw [hc]
      · exact hbacked.cons (fun call he => by cases he)
  | decide now mint ctx =>
    exact ⟨h.decide htimely, hbacked.append (decideEvents_quiet _ _ _ _ _)⟩
  | greenlight now tenant id =>
    unfold ApprovalOp.run
    dsimp only
    cases hgreen : autonomousApproveSpawnClearance desk.store now tenant id with
    | error e => exact ⟨h, hbacked⟩
    | ok store => exact ⟨h.unnoticed (greenlight_advances hgreen), hbacked⟩
  | list now => exact ⟨h, hbacked⟩
  | mark now =>
    unfold ApprovalOp.run
    cases desk.due with
    | nil => exact ⟨h, hbacked⟩
    | cons id due =>
      refine ⟨?_, hbacked⟩
      dsimp only
      unfold markNext
      cases hmark : desk.store.markExpired now id with
      | error e => exact h
      | ok store => exact h.unnoticed (markExpired_advances hmark)
  | call inputs =>
    obtain ⟨htraced, hcalls⟩ := h.call hunforged
    refine ⟨htraced, ?_⟩
    have hrun : (ApprovalOp.run host desk (.call inputs)).1 =
        callEvents inputs (AgentGate.evaluateStore host desk.store inputs).1 := rfl
    rw [hrun]
    rcases callEvents_cases inputs (AgentGate.evaluateStore host desk.store inputs).1 with
      hnone | ⟨call, hcall⟩
    · rw [hnone]
      exact hbacked
    · rw [hcall] at hcalls ⊢
      refine hbacked.cons (fun call' he => ?_)
      cases he
      exact hcalls call (List.mem_singleton.mpr rfl)
  | others profiles standing =>
    exact ⟨h.unnoticed (Advances.of_tables rfl (fun _ hkey => hkey)), hbacked⟩

theorem ApprovalRun.traced {host : GateHost} {desk : Desk}
    (run : ApprovalRun host (fun desk op => op.Timely desk) log desk) :
    Traced host.toTokenHost log desk.store ∧ AllBacked log := by
  induction run with
  | start desk h =>
    constructor
    · constructor
      · intro id r hr
        rw [h, HashMap.get?_empty] at hr
        cases hr
      · exact fun tok htok => absurd htok List.not_mem_nil
      · exact fun tok _ htok => absurd htok List.not_mem_nil
      · exact fun call hcall => absurd hcall List.not_mem_nil
    · intro newer call older hlog
      cases newer <;> cases hlog
  | step run op htimely hunforged ih => exact ApprovalOp.traced ih.1 ih.2 op htimely hunforged

/-- In every run whose approvals come in time, a call admitted on an approval is the first of its
row, for the row's method and subject, before the token's expiry and after an operator approved the
pending row; and a row that is not approved admits none. -/
theorem one_approval_one_call (host : GateHost) (log : List ApprovalEvent) (desk : Desk)
    (run : ApprovalRun host (fun desk op => op.Timely desk) log desk) :
    AllBacked log ∧
      ∀ id r, desk.store.approvals.get? id = some r → r.status ≠ .approved →
        ∀ call, .admitted call ∈ log → call.approvalId ≠ id := by
  obtain ⟨htraced, hbacked⟩ := run.traced
  refine ⟨hbacked, ?_⟩
  intro id r hrow hstatus call hcall hid
  obtain ⟨tok, htok, htokid, -⟩ := htraced.spent call hcall
  obtain ⟨-, r', hrow', happroved⟩ := htraced.minted tok htok
  rw [htokid, hid, hrow] at hrow'
  cases hrow'
  exact hstatus happroved

def payRequest (expiresAt : Int) : ApprovalCreate where
  agentId := "agt_payer_00000001"
  subjectId := sampleToken.subjectId
  method := sampleToken.method
  capabilityCategory := "payments"
  argsRedactedHash := ""
  reason := "agent agt_payer_00000001 attempted tool.pay (category=payments)"
  approverGroups := ["ops", "admin"]
  taskId := none
  expiresAt
  authorizedApprovers := []
  tenantId := "default"

def payRecord (expiresAt : Int) : ApprovalRecord :=
  AgentStore.pendingRecord 1699999000 sampleToken.approvalId (payRequest expiresAt)

def olivia : VerifiedIdentity := ⟨"subject-olivia", "olivia", [], "operator"⟩

def approval : InvocationCtx := ⟨olivia, none, .ok "apr_0011223344556677|approved|olivia"⟩

def sampleMint : Mint := ⟨some ⟨List.replicate 32 7⟩, 300000, List.replicate 32 0x11, 1700000000000⟩

def emptyDesk : Desk := ⟨⟨HashMap.empty, HashMap.empty, HashMap.empty, HashMap.empty⟩, []⟩

def askedDesk (expiresAt : Int) : Desk :=
  { emptyDesk with
    store := { emptyDesk.store with
      approvals := HashMap.empty.insert sampleToken.approvalId (payRecord expiresAt) } }

def approvedDesk (expiresAt : Int) : Desk :=
  { emptyDesk with
    store := { emptyDesk.store with
      approvals := (HashMap.empty.insert sampleToken.approvalId (payRecord expiresAt)).insert
        sampleToken.approvalId (AgentStore.decided .approved 1700000000 "olivia" "" (payRecord expiresAt)) } }

def approvedLog (expiresAt : Int) : List ApprovalEvent :=
  [.minted sampleToken, .approved (payRecord expiresAt) olivia 1700000000, .created (payRecord expiresAt)]

/-- What is evaluated of the token and of the call that approves it. -/
theorem sampleToken_plain :
    ApprovalToken.delimited sampleToken.approvalId sampleToken.method sampleToken.subjectId "" =
        none ∧
      utf8 sampleJson ≠ sampleSignature ∧ sampleToken.method ≠ SPAWN_CLEARANCE_METHOD ∧
      "default" = normTenant approval.tenantIdOrDefault := by
  decide +kernel

theorem sampleMint_issue (taskId : Option String) (htask : taskId = none) :
    sampleMint.issue sampleHost.toTokenHost ⟨List.replicate 32 7⟩
        ⟨sampleToken.approvalId, sampleToken.subjectId, sampleToken.method, taskId⟩ = .ok sampleWire ∧
      ApprovalToken.minted sampleHost.toTokenHost ⟨List.replicate 32 7⟩ sampleMint.nonce
        sampleToken.approvalId sampleToken.method sampleToken.subjectId (taskId.getD "")
        sampleMint.nowMs sampleMint.ttlMs = sampleToken := by
  subst htask
  have hminted : ApprovalToken.minted sampleHost.toTokenHost ⟨List.replicate 32 7⟩ sampleMint.nonce
      sampleToken.approvalId sampleToken.method sampleToken.subjectId "" sampleMint.nowMs
      sampleMint.ttlMs = sampleToken := by
    simp only [ApprovalToken.minted, ApprovalSigner.fingerprint, computeFingerprint, hexEncode,
      String.toList_ofList, sampleHost, if_true]
    rfl
  refine ⟨?_, hminted⟩
  obtain ⟨hplain, hne, -⟩ := sampleToken_plain
  unfold Mint.issue ApprovalToken.issue
  rw [if_neg (by decide)]
  dsimp only [Option.getD]
  rw [hplain]
  unfold ApprovalToken.toWire
  simp only [sampleHost, if_neg hne]

theorem approval_parsed :
    parseDecideArgs approval.args = .ok ⟨sampleToken.approvalId, .approved, "olivia", ""⟩ := by
  rfl

variable (expiresAt : Int)

theorem approval_decided :
    decideStep (askedDesk expiresAt).store 1700000000 approval =
      .ok ((payRecord expiresAt, ⟨sampleToken.approvalId, .approved, "olivia", ""⟩,
        some ⟨sampleToken.approvalId, sampleToken.subjectId, sampleToken.method, none⟩),
        (approvedDesk expiresAt).store) := by
  have hrow : (askedDesk expiresAt).store.getApprovalRecordForTenant sampleToken.approvalId
      approval.tenantIdOrDefault = some (payRecord expiresAt) := by
    have htenant : (payRecord expiresAt).tenantId = normTenant approval.tenantIdOrDefault := by
      have hdefault : (payRequest expiresAt).tenantId = "default" := rfl
      unfold payRecord AgentStore.pendingRecord
      dsimp only
      rw [hdefault]
      exact sampleToken_plain.2.2.2
    exact Option.filter_eq_some_iff.mpr ⟨rfl, beq_iff_eq.mpr htenant⟩
  unfold decideStep
  rw [approval_parsed]
  dsimp only
  rw [hrow]
  rfl

theorem approved_step :
    (ApprovalOp.decide 1700000000 sampleMint approval).run sampleHost (askedDesk expiresAt) =
      ([.minted sampleToken, .approved (payRecord expiresAt) olivia 1700000000],
        approvedDesk expiresAt) := by
  have htoken : sampleMint.token sampleHost.toTokenHost
      (some ⟨sampleToken.approvalId, sampleToken.subjectId, sampleToken.method, none⟩) =
        some sampleToken := by
    obtain ⟨hissue, hminted⟩ := sampleMint_issue none rfl
    have hsigner : sampleMint.signer = some ⟨List.replicate 32 7⟩ := rfl
    simp only [Mint.token, hsigner, hissue, hminted]
  have hevents : decideEvents sampleHost.toTokenHost (askedDesk expiresAt).store 1700000000 sampleMint
      approval = [.minted sampleToken, .approved (payRecord expiresAt) olivia 1700000000] := by
    unfold decideEvents
    rw [approval_decided]
    dsimp only
    rw [htoken]
    rfl
  have hstore : (handleApprovalDecide sampleHost.toTokenHost sampleMint (askedDesk expiresAt).store
      1700000000 approval).2 = (approvedDesk expiresAt).store := by
    unfold handleApprovalDecide
    rw [approval_decided]
    dsimp only
    have hmethod : (payRecord expiresAt).method ≠ SPAWN_CLEARANCE_METHOD := by
      change sampleToken.method ≠ SPAWN_CLEARANCE_METHOD
      exact sampleToken_plain.2.2.1
    exact if_neg hmethod
  unfold ApprovalOp.run
  dsimp only
  rw [hevents, hstore]
  rfl

theorem asked_step :
    (ApprovalOp.create 1699999000 sampleToken.approvalId (payRequest expiresAt)).run sampleHost
      emptyDesk = ([.created (payRecord expiresAt)], askedDesk expiresAt) := rfl

theorem approved_run {allowed : Desk → ApprovalOp → Prop} (hcreate : allowed emptyDesk
      (.create 1699999000 sampleToken.approvalId (payRequest expiresAt)))
    (hdecide : allowed (askedDesk expiresAt) (.decide 1700000000 sampleMint approval)) :
    ApprovalRun sampleHost allowed (approvedLog expiresAt) (approvedDesk expiresAt) := by
  have hstart : ApprovalRun sampleHost allowed [] emptyDesk := .start emptyDesk rfl
  have hasked := hstart.step _ hcreate trivial
  rw [asked_step] at hasked
  have happroved := hasked.step _ hdecide trivial
  rw [approved_step] at happroved
  exact happroved

theorem paid_step :
    ((ApprovalOp.call (payCall (some sampleWire))).run sampleHost (approvedDesk expiresAt)).1 =
      [.admitted ⟨sampleToken.approvalId, sampleToken.method, sampleToken.subjectId, 1700000100000⟩] := by
  have hrow : ∃ r, (approvedDesk expiresAt).store.getApproval sampleToken.approvalId = some r ∧
      r.status = .approved := ⟨_, (HashMap.get?_insert ..).trans (if_pos rfl), rfl⟩
  have hgate : (AgentGate.evaluateStore sampleHost (approvedDesk expiresAt).store
      (payCall (some sampleWire))).1 = .allow ⟨"approval_token", some sampleToken.approvalId⟩ :=
    AgentGate.spendable_admitted rfl ⟨sampleWire_checked, hrow, HashMap.get?_empty _⟩
  unfold ApprovalOp.run
  dsimp only
  rw [hgate]
  rfl

theorem paid_unforged :
    Unforged sampleHost.toTokenHost (approvedLog expiresAt) (.call (payCall (some sampleWire))) := by
  intro wire tok hwire hparse hverify
  have hsame : wire = sampleWire := by
    have hw : some sampleWire = some wire := hwire
    exact (Option.some.inj hw).symm
  subst hsame
  obtain ⟨hparsed, -⟩ := AgentGate.checkToken_ok_iff.mp sampleWire_checked
  rw [hparsed] at hparse
  cases hparse
  exact ⟨sampleToken, List.mem_cons_self, rfl⟩

/-- The payment is approved in time and made. -/
theorem payment_approved :
    AllBacked (.admitted ⟨sampleToken.approvalId, sampleToken.method, sampleToken.subjectId,
      1700000100000⟩ :: approvedLog 1700085400) := by
  have hdecide : ApprovalOp.Timely (askedDesk 1700085400) (.decide 1700000000 sampleMint approval) := by
    intro record args metadata store hstep _
    cases hstep
    decide
  have hrun := (approved_run 1700085400 trivial hdecide).step (.call (payCall (some sampleWire)))
    trivial (paid_unforged 1700085400)
  have hbacked := (one_approval_one_call sampleHost _ _ hrun).1
  rw [paid_step] at hbacked
  exact hbacked

/-- Decided after its time and before the sweep, the row admits the call all the same. -/
theorem late_approval_admitted :
    ApprovalRun sampleHost (fun _ _ => True)
        (.admitted ⟨sampleToken.approvalId, sampleToken.method, sampleToken.subjectId, 1700000100000⟩ ::
          approvedLog 1699999600)
        ((ApprovalOp.call (payCall (some sampleWire))).run sampleHost (approvedDesk 1699999600)).2 ∧
      (∀ r caller now, .approved r caller now ∈ approvedLog 1699999600 → r.expiresAt < now) := by
  constructor
  · have happroved : ApprovalRun sampleHost (fun _ _ => True) (approvedLog 1699999600)
        (approvedDesk 1699999600) := approved_run 1699999600 trivial trivial
    have hrun := happroved.step (.call (payCall (some sampleWire))) trivial (paid_unforged 1699999600)
    rw [paid_step] at hrun
    exact hrun
  · intro r caller now happroved
    unfold approvedLog at happroved
    simp only [List.mem_cons, List.not_mem_nil, or_false] at happroved
    rcases happroved with h | h | h
    · cases h
    · cases h
      decide
    · cases h

end Admission

end Relux
