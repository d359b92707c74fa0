import Relux.ApprovalFinality

/-! The calls that approvals stand for, from request to dispatch, with snapshots of the
kernel taken and restored between the operations. A call that was dispatched is consumed in
the kernel; a restore may bring back a snapshot in which it is not. -/

namespace Relux

open Transition (Guarded)

structure ApprovedCall where
  pluginId : PluginId
  toolName : String
  agentId : AgentId
  input : Json

def PendingToolInvocation.call (b : PendingToolInvocation) : ApprovedCall :=
  ⟨b.pluginId, b.toolName, b.agentId, b.input⟩

/-- What a tool requires and runs: its permission for the agent, its risk, and the recipe
recorded for it. -/
structure ToolTerms where
  permission : Option String
  risk : RiskLevel
  recipe : Option CommandToolConfig

def permissionText : Except KernelError Permission → Option String
  | .error _ => none
  | .ok required => some required.asStr

def KernelState.toolTerms (s : KernelState) (agentId : AgentId) (pluginId : PluginId)
    (toolName : String) : ToolTerms where
  permission := permissionText (resolveToolPermission s agentId pluginId toolName)
  risk := toolRiskFor s pluginId toolName
  recipe := s.commandToolConfigs.get? (pluginId, toolName)

def KernelState.termsOf (s : KernelState) (b : PendingToolInvocation) : ToolTerms :=
  s.toolTerms b.agentId b.pluginId b.toolName

inductive CallEvent where
  | requested (id : ApprovalId) (call : ApprovedCall) (terms : ToolTerms)
  | rejected (id : ApprovalId)
  | dispatched (id : ApprovalId) (call : ApprovedCall) (status : Option ApprovalStatus)
      (terms : ToolTerms)

def CallEvent.id : CallEvent → ApprovalId
  | .requested id _ _ => id
  | .rejected id => id
  | .dispatched id _ _ _ => id

def ApprovalOp.callEvents (w : World) (s : KernelState) : ApprovalOp → List CallEvent
  | .requestToolInvocationApproval requestedBy agentId pluginId toolName input =>
    match (Relux.requestToolInvocationApproval w s requestedBy agentId pluginId toolName
        input).1 with
    | .error _ => []
    | .ok id =>
      [.requested id ⟨pluginId, toolName, agentId, input⟩ (s.toolTerms agentId pluginId toolName)]
  | .resolveApproval id false approver note =>
    match (Relux.resolveApproval s id false approver note).1 with
    | .error _ => []
    | .ok _ => [.rejected id]
  | .executeApprovedToolInvocation id executedBy =>
    match (executeApprovedAdmit w s id executedBy).1 with
    | .error _ => []
    | .ok (b, _) =>
      [.dispatched id b.call ((s.approvals.get? id).map (·.status)) (s.termsOf b)]
  | _ => []

def KernelOp.callEvents (w : World) (s : KernelState) : KernelOp → List CallEvent
  | .approval op => op.callEvents w s
  | _ => []

structure Store where
  plane : ControlPlane
  saved : KernelState
  history : List CallEvent

inductive StoreOp where
  | kernel (op : KernelOp)
  | snapshot
  | restore

def Store.step (st : Store) : World × StoreOp → Store
  | (w, .kernel op) =>
    ⟨op.exec w st.plane, st.saved, st.history ++ op.callEvents w st.plane.kernel⟩
  | (_, .snapshot) => { st with saved := st.plane.kernel }
  | (_, .restore) => { st with plane := st.plane.withKernel st.saved }

def Store.new : Store := ⟨.of .new, .new, []⟩

/-- Each dispatch is of an approval that is approved, with the call of its one request,
and the first of its approval; none comes after a rejection. -/
def DispatchedOnce (history : List CallEvent) : Prop :=
  ∀ pre id call status terms post,
    history = pre ++ CallEvent.dispatched id call status terms :: post →
    status = some .approved ∧ (∃ terms, .requested id call terms ∈ pre) ∧
      (∀ call' terms', .requested id call' terms' ∈ pre → call' = call) ∧
      (∀ call' status' terms', .dispatched id call' status' terms' ∉ pre) ∧
      .rejected id ∉ pre

inductive DocketStep (d : Docket) (terms : PendingToolInvocation → ToolTerms) :
    List CallEvent → Docket → Prop
  | still : DocketStep d terms [] d
  | file (a : Approval) : DocketStep d terms [] (d.move (.file a))
  | bind (a : Approval) (b : PendingToolInvocation) (hopen : b.consumed = false)
      (hpermission : (terms b).permission = some b.permission)
      (hrisk : (terms b).risk = b.risk) :
      DocketStep d terms [.requested d.fresh b.call (terms b)] (d.move (.bind a b))
  | approve (id : ApprovalId) (f : Approval → Approval) :
      DocketStep d terms [] (d.move (.decide id true f))
  | reject (id : ApprovalId) (f : Approval → Approval)
      (hknown : (d.approvals.get? id).isSome = true) :
      DocketStep d terms [.rejected id] (d.move (.decide id false f))
  | consume (id : ApprovalId) (b : PendingToolInvocation)
      (hb : d.pendingToolInvocations.get? id = some b) (hopen : b.consumed = false) :
      DocketStep d terms [.dispatched id b.call (some .approved) (terms b)]
        (d.move (.consume id))

variable {terms : PendingToolInvocation → ToolTerms}

theorem DocketStep.of_eq {d d' : Docket} (h : d' = d) : DocketStep d terms [] d' := h ▸ .still

theorem ApprovalOp.exec_docketStep (w : World) (s : KernelState) (op : ApprovalOp) :
    DocketStep s.docket s.termsOf (op.callEvents w s) (op.exec w s).docket := by
  cases op with
  | requestApproval requestedBy action reason risk =>
    obtain ⟨a, -, h⟩ := requestApproval_docket s requestedBy action reason risk
    exact h ▸ .file a
  | requestToolInvocationApproval requestedBy agentId pluginId toolName input =>
    simp only [ApprovalOp.callEvents, ApprovalOp.exec]
    cases hrequest : Relux.requestToolInvocationApproval w s requestedBy agentId pluginId
        toolName input with
    | mk result s' =>
      rcases requestToolInvocationApproval_docket w s hrequest with
        ⟨⟨e, rfl⟩, h⟩ | ⟨rfl, a, b, -, hb, h⟩
      · exact .of_eq h
      · obtain ⟨hagent, hplugin, htool, hinput, ⟨required, hrequired, hpermission⟩, hrisk,
          hopen⟩ := hb
        have hpermission' : (s.termsOf b).permission = some b.permission := by
          simp only [KernelState.termsOf, KernelState.toolTerms, hagent, hplugin, htool,
            hrequired, hpermission, permissionText]
        have hrisk' : (s.termsOf b).risk = b.risk := by
          simp only [KernelState.termsOf, KernelState.toolTerms, hplugin, htool, hrisk]
        have hstep : DocketStep s.docket s.termsOf [.requested s.docket.fresh b.call (s.termsOf b)]
            (s.docket.move (.bind a b)) := .bind a b hopen hpermission' hrisk'
        rw [h]
        simpa only [PendingToolInvocation.call, KernelState.termsOf, hagent, hplugin, htool,
          hinput] using hstep
  | resolveApproval id approve approver note =>
    simp only [ApprovalOp.exec]
    cases hresolve : Relux.resolveApproval s id approve approver note with
    | mk result s' =>
      rcases resolveApproval_docket s hresolve with ⟨⟨e, rfl⟩, h, -⟩ | ⟨rfl, hknown, f, -, h⟩
      · cases approve <;> simp only [ApprovalOp.callEvents, hresolve] <;> exact .of_eq h
      · cases approve with
        | true =>
          simp only [ApprovalOp.callEvents]
          exact h ▸ .approve id f
        | false =>
          simp only [ApprovalOp.callEvents, hresolve]
          exact h ▸ .reject id f hknown
  | executeApprovedToolInvocation id executedBy =>
    simp only [ApprovalOp.callEvents, ApprovalOp.exec]
    rw [executeApprovedToolInvocation_docket w s id executedBy]
    cases hgate : executeApprovedAdmit w s id executedBy with
    | mk result s' =>
      rcases executeApprovedAdmit_docket w s hgate with
        ⟨⟨e, rfl⟩, h⟩ | ⟨a, b, required, rfl, ha, happroved, hb, hopen, -, -, h, -⟩
      · exact .of_eq h
      · simp only [ha, Option.map_some, happroved]
        exact h ▸ .consume id b hb hopen
  | allowAlwaysFromApproval id approver =>
    rcases allowAlwaysFromApproval_docket s with h | ⟨-, -, f, -, h⟩
    · exact .of_eq h
    · exact h ▸ .approve id f
  | grantPersistentToolInvocation createdBy subject pluginId toolName =>
    exact .of_eq (grantPersistentToolInvocation_docket s createdBy subject pluginId toolName)
  | revokePersistentGrant id revokedBy => exact .of_eq (revokePersistentGrant_docket s id revokedBy)
  | callTool runId agentId pluginId toolName input =>
    exact .of_eq (callTool_trace w s runId agentId pluginId toolName input).docket
  | invokeTool agentId pluginId toolName input =>
    exact .of_eq (invokeTool_docket w s agentId pluginId toolName input)

theorem KernelOp.exec_docketStep (w : World) (p : ControlPlane) (op : KernelOp)
    (hk : p.kernel.Keyed) :
    DocketStep p.kernel.docket p.kernel.termsOf (op.callEvents w p.kernel)
      (op.exec w p).kernel.docket := by
  cases op with
  | run op =>
    obtain ⟨moves, h⟩ := op.exec_trace w p hk
    exact .of_eq h.docket
  | background op =>
    obtain ⟨moves, h⟩ := op.exec_trace w p.kernel hk
    exact .of_eq h.docket
  | config op => exact .of_eq (op.exec_configures w p.kernel).docket
  | approval op => exact op.exec_docketStep w p.kernel
  | manager call => exact .of_eq (call.exec_directs p.kernel).docket
  | rehash runs tasks grants => exact .of_eq (rehash_trace p.kernel runs tasks grants).docket

/-- The call was requested, under no other terms of its own approval, and neither
dispatched nor rejected. -/
structure Awaits (history : List CallEvent) (id : ApprovalId) (call : ApprovedCall) :
    Prop where
  requested : ∃ terms, .requested id call terms ∈ history
  only : ∀ call' terms, .requested id call' terms ∈ history → call' = call
  undispatched : ∀ call' status terms, .dispatched id call' status terms ∉ history
  unrejected : .rejected id ∉ history

variable {history : List CallEvent} {e : CallEvent}

theorem Awaits.append {id : ApprovalId} {call : ApprovedCall}
    (h : Awaits history id call) (he : e.id ≠ id) :
    Awaits (history ++ [e]) id call := by
  have hmem : ∀ e' : CallEvent, e'.id = id → e' ∈ history ++ [e] → e' ∈ history := by
    intro e' hid hmem
    rw [List.mem_append, List.mem_singleton] at hmem
    rcases hmem with hmem | rfl
    · exact hmem
    · exact absurd hid he
  obtain ⟨terms, hrequested⟩ := h.requested
  exact ⟨⟨terms, List.mem_append_left _ hrequested⟩,
    fun call' terms' hm => h.only call' terms' (hmem _ rfl hm),
    fun call' status terms' hm => h.undispatched call' status terms' (hmem _ rfl hm),
    fun hm => h.unrejected (hmem _ rfl hm)⟩

structure Ledger (d : Docket) (history : List CallEvent) : Prop where
  once : DispatchedOnce history
  awaits : ∀ id b, d.pendingToolInvocations.get? id = some b → b.consumed = false →
    Awaits history id b.call
  minted : ∀ n, d.nextApproval < n → ∀ e ∈ history, e.id ≠ approvalIdOf n

theorem DispatchedOnce.append (h : DispatchedOnce history)
    (he : ∀ id call status terms, e = .dispatched id call status terms →
      status = some .approved ∧ Awaits history id call) : DispatchedOnce (history ++ [e]) := by
  intro pre id call status terms post hsplit
  rcases List.eq_nil_or_concat post with rfl | ⟨post', last, rfl⟩
  · obtain ⟨rfl, hlast⟩ := List.append_inj' hsplit rfl
    rw [List.cons.injEq] at hlast
    obtain ⟨hs, hawaits⟩ := he id call status terms hlast.1
    exact ⟨hs, hawaits.requested, hawaits.only, hawaits.undispatched, hawaits.unrejected⟩
  · rw [List.concat_eq_append, ← List.cons_append, ← List.append_assoc] at hsplit
    exact h pre id call status terms post' (List.append_inj' hsplit rfl).1

theorem DocketStep.ledger {d d' : Docket}
    {events : List CallEvent} (h : DocketStep d terms events d')
    (hm : d.Minted) (hl : Ledger d history) : Ledger d' (history ++ events) := by
  cases h with
  | still => rwa [List.append_nil]
  | file a =>
    rw [List.append_nil]
    exact ⟨hl.once, hl.awaits, fun n hn => hl.minted n (Nat.lt_of_succ_lt hn)⟩
  | bind a b hopen hpermission hrisk =>
    have hfresh : ∀ e ∈ history, e.id ≠ d.fresh := hl.minted _ (Nat.lt_succ_self _)
    refine ⟨hl.once.append (fun _ _ _ _ he => by cases he), fun id b' hb' ho => ?_, fun n hn e he => ?_⟩
    · change (d.pendingToolInvocations.insert d.fresh b).get? id = some b' at hb'
      rw [HashMap.get?_insert] at hb'
      split at hb'
      next hid =>
        cases hb'
        subst hid
        refine ⟨⟨terms b, List.mem_append_right _ (List.mem_singleton_self _)⟩,
          fun call' terms' hmem => ?_, fun call' status terms' hmem => ?_, fun hmem => ?_⟩
        all_goals
          rw [List.mem_append, List.mem_singleton] at hmem
          rcases hmem with hmem | hmem
        · exact absurd rfl (hfresh _ hmem)
        · cases hmem
          rfl
        · exact hfresh _ hmem rfl
        · cases hmem
        · exact hfresh _ hmem rfl
        · cases hmem
      next hne => exact (hl.awaits id b' hb' ho).append (fun he => hne he.symm)
    · rw [List.mem_append, List.mem_singleton] at he
      rcases he with he | rfl
      · exact hl.minted n (Nat.lt_of_succ_lt hn) e he
      · exact (Docket.approvalIdOf_ne hn).symm
  | approve id f =>
    rw [List.append_nil]
    exact ⟨hl.once, hl.awaits, hl.minted⟩
  | reject id f hknown =>
    refine ⟨hl.once.append (fun _ _ _ _ he => by cases he), fun id' b' hb' ho => ?_, fun n hn e he => ?_⟩
    · change (d.pendingToolInvocations.remove id).get? id' = some b' at hb'
      rw [HashMap.get?_remove] at hb'
      split at hb'
      · cases hb'
      next hne => exact (hl.awaits id' b' hb' ho).append (fun he => hne he.symm)
    · rw [List.mem_append, List.mem_singleton] at he
      rcases he with he | rfl
      · exact hl.minted n hn e he
      · rintro rfl
        rw [hm.approval n hn] at hknown
        cases hknown
  | consume id b hb hopen =>
    have hawaits := hl.awaits id b hb hopen
    refine ⟨hl.once.append ?_, fun id' b' hb' ho => ?_, fun n hn e he => ?_⟩
    · intro id' call status terms' he
      cases he
      exact ⟨rfl, hawaits⟩
    · change (d.pendingToolInvocations.modify id _).get? id' = some b' at hb'
      rw [HashMap.get?_modify] at hb'
      split at hb'
      · -- The consumed binding is no longer open.
        rw [Option.map_eq_some_iff] at hb'
        obtain ⟨old, -, rfl⟩ := hb'
        cases ho
      next hne => exact (hl.awaits id' b' hb' ho).append (fun he => hne he.symm)
    · rw [List.mem_append, List.mem_singleton] at he
      rcases he with he | rfl
      · exact hl.minted n hn e he
      · rintro rfl
        rw [hm.binding n hn] at hb
        cases hb

/-- A restore brings back no open binding that the kernel has consumed or dropped, and no
smaller approval counter. -/
def StoreOp.Resumes (st : Store) : StoreOp → Prop
  | .restore => st.plane.kernel.nextApproval ≤ st.saved.nextApproval ∧
      ∀ id b, st.saved.pendingToolInvocations.get? id = some b → b.consumed = false →
        st.plane.kernel.pendingToolInvocations.get? id = some b
  | _ => True

structure Store.Sound (st : Store) : Prop where
  kernel : st.plane.kernel.WellKept
  saved : st.saved.WellKept
  ledger : Ledger st.plane.kernel.docket st.history

theorem Store.step_sound (st : Store) (e : World × StoreOp) (h : st.Sound)
    (he : e.2.Resumes st) : (st.step e).Sound := by
  obtain ⟨w, op⟩ := e
  cases op with
  | kernel op =>
    have hstep := op.exec_docketStep w st.plane h.kernel.keyed
    exact ⟨op.exec_wellKept w st.plane h.kernel, h.saved, hstep.ledger h.kernel.docket h.ledger⟩
  | snapshot => exact ⟨h.kernel, h.kernel, h.ledger⟩
  | restore =>
    refine ⟨h.saved, h.saved, h.ledger.once, fun id b hb ho => ?_, fun n hn => ?_⟩
    · exact h.ledger.awaits id b (he.2 id b hb ho) ho
    · exact h.ledger.minted n (Nat.lt_of_le_of_lt he.1 hn)

theorem Store.new_sound : Store.new.Sound where
  kernel := KernelState.new_wellKept
  saved := KernelState.new_wellKept
  ledger :=
    { once := fun pre id call status terms post h => by
        have hlen := congrArg List.length h
        simp only [Store.new, List.length_nil, List.length_append, List.length_cons] at hlen
        omega
      awaits := fun id b hb => by
        have hnone : HashMap.empty.get? id = some b := hb
        cases hnone
      minted := fun _ _ _ he => by cases he }

/-- In every run whose restores bring back no call that was dispatched or rejected since,
the call of an approval is dispatched at most once, while the approval is approved, exactly
as it was requested, and never after a rejection. -/
theorem approved_calls_once (ops : List (World × StoreOp))
    (hguard : Guarded Store.step (fun st e => e.2.Resumes st) Store.new ops) :
    DispatchedOnce (Transition.run Store.step Store.new ops).history :=
  (Transition.invariant_run (fun st e h he => st.step_sound e h he) Store.new_sound
    hguard).ledger.once

def callSetup : List KernelOp :=
  [ .config (.registerPlugin ⟨localPrimeAdapterId, "Local Prime", "1.0.0", .adapter, "", "",
      .official, [], [], .healthy⟩),
    .config (.createAgent "prime" "Prime" localPrimeAdapterId none [⟨"tool:mcp-m:x"⟩]),
    .config (.registerMcpServer "m" "http://127.0.0.1:7000" true none) ]

def askOp : KernelOp :=
  .approval (.requestToolInvocationApproval "founder" "prime" "mcp:m" "x" .null)

def executeOp : KernelOp := .approval (.executeApprovedToolInvocation "appr_0001" "founder")

def sampleCall : ApprovedCall := ⟨"mcp:m", "x", "prime", .null⟩

def sampleTerms : ToolTerms := ⟨some "tool:mcp-m:x", .medium, none⟩

def storeOps (ops : List StoreOp) : List (World × StoreOp) :=
  ((callSetup ++ [askOp, resolveOp true]).map StoreOp.kernel ++ StoreOp.snapshot :: ops).map
    (fun op => (World.silent, op))

def storeAfter (ops : List StoreOp) : Store := Transition.run Store.step Store.new (storeOps ops)

/-- The kernel is saved after the call, and the restore brings the consumed binding back. -/
theorem approved_calls_once_sample :
    DispatchedOnce (storeAfter
      [.kernel executeOp, .snapshot, .restore, .kernel executeOp]).history ∧
    (storeAfter [.kernel executeOp, .snapshot, .restore, .kernel executeOp]).history =
      [.requested "appr_0001" sampleCall sampleTerms,
        .dispatched "appr_0001" sampleCall (some .approved) sampleTerms] := by
  have hresumes : StoreOp.Resumes (storeAfter [.kernel executeOp, .snapshot]) .restore :=
    ⟨Nat.le_refl _, fun _ _ h _ => h⟩
  exact ⟨approved_calls_once (storeOps _) (.intro trivial (.intro trivial (.intro trivial (.intro trivial
    (.intro trivial (.intro trivial (.intro trivial (.intro trivial (.intro hresumes
      (.intro trivial trivial)))))))))), rfl⟩

/-- A call whose runtime fails is not saved. The restore brings its binding back as it was,
and the call is dispatched again. -/
theorem approved_call_dispatched_twice :
    ¬ DispatchedOnce (storeAfter [.kernel executeOp, .restore, .kernel executeOp]).history := by
  intro h
  have hsplit : (storeAfter [.kernel executeOp, .restore, .kernel executeOp]).history =
      [.requested "appr_0001" sampleCall sampleTerms,
        .dispatched "appr_0001" sampleCall (some .approved) sampleTerms] ++
      .dispatched "appr_0001" sampleCall (some .approved) sampleTerms :: [] := rfl
  obtain ⟨-, -, -, hfirst, -⟩ := h _ _ _ _ _ _ hsplit
  exact hfirst _ _ _ (List.mem_cons_of_mem _ (List.mem_singleton_self _))

end Relux
