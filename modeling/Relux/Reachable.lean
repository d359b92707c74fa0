import Relux.KernelFrames
import Relux.TickTrace

/-! The docket: approvals that are filed, decided, and bound to one call each, which is
consumed when it runs. Each operation makes at most one move on it. -/

variable {s' : KernelState}

namespace Relux

inductive DocketMove where
  | file (a : Approval)
  | bind (a : Approval) (b : PendingToolInvocation)
  | decide (id : ApprovalId) (approve : Bool) (f : Approval → Approval)
  | consume (id : ApprovalId)

namespace Docket

def fresh (d : Docket) : ApprovalId := approvalIdOf (d.nextApproval + 1)

def move (d : Docket) : DocketMove → Docket
  | .file a => { d with
      approvals := d.approvals.insert d.fresh a
      nextApproval := d.nextApproval + 1 }
  | .bind a b =>
    ⟨d.approvals.insert d.fresh a, d.pendingToolInvocations.insert d.fresh b, d.nextApproval + 1⟩
  | .decide id approve f => { d with
      approvals := d.approvals.modify id f
      pendingToolInvocations :=
        if approve then d.pendingToolInvocations else d.pendingToolInvocations.remove id }
  | .consume id => { d with
      pendingToolInvocations :=
        d.pendingToolInvocations.modify id (fun b => { b with consumed := true }) }

structure Minted (d : Docket) : Prop where
  approval : ∀ n, d.nextApproval < n → d.approvals.get? (approvalIdOf n) = none
  binding : ∀ n, d.nextApproval < n → d.pendingToolInvocations.get? (approvalIdOf n) = none

theorem approvalIdOf_ne {m n : Nat} (h : m < n) : approvalIdOf n ≠ approvalIdOf m := by
  intro he
  have heq : n = m := mintedId_inj he
  omega

theorem Minted.move {d : Docket} (h : d.Minted) (m : DocketMove) : (d.move m).Minted := by
  cases m with
  | file a =>
    refine ⟨fun n hn => ?_, fun n hn => h.binding n (Nat.lt_of_succ_lt hn)⟩
    have hne : approvalIdOf n ≠ d.fresh := approvalIdOf_ne hn
    change (d.approvals.insert d.fresh a).get? (approvalIdOf n) = none
    rw [HashMap.get?_insert, if_neg hne, h.approval n (Nat.lt_of_succ_lt hn)]
  | bind a b =>
    have hne : ∀ n, d.nextApproval + 1 < n → approvalIdOf n ≠ d.fresh :=
      fun n hn => approvalIdOf_ne hn
    refine ⟨fun n hn => ?_, fun n hn => ?_⟩
    · change (d.approvals.insert d.fresh a).get? (approvalIdOf n) = none
      rw [HashMap.get?_insert, if_neg (hne n hn), h.approval n (Nat.lt_of_succ_lt hn)]
    · change (d.pendingToolInvocations.insert d.fresh b).get? (approvalIdOf n) = none
      rw [HashMap.get?_insert, if_neg (hne n hn), h.binding n (Nat.lt_of_succ_lt hn)]
  | decide id approve f =>
    refine ⟨fun n hn => ?_, fun n hn => ?_⟩
    · change (d.approvals.modify id f).get? (approvalIdOf n) = none
      exact HashMap.modify_eq_none.mpr (h.approval n hn)
    · change (if approve then d.pendingToolInvocations
        else d.pendingToolInvocations.remove id).get? (approvalIdOf n) = none
      split
      · exact h.binding n hn
      · rw [HashMap.get?_remove]
        split
        · rfl
        · exact h.binding n hn
  | consume id =>
    refine ⟨h.approval, fun n hn => ?_⟩
    change (d.pendingToolInvocations.modify id _).get? (approvalIdOf n) = none
    exact HashMap.modify_eq_none.mpr (h.binding n hn)

end Docket

structure Binds (s : KernelState) (agentId : AgentId) (pluginId : PluginId)
    (toolName : String) (input : Json) (b : PendingToolInvocation) : Prop where
  agent : b.agentId = agentId
  plugin : b.pluginId = pluginId
  tool : b.toolName = toolName
  input : b.input = input
  permission : ∃ required, resolveToolPermission s agentId pluginId toolName = .ok required ∧
    b.permission = required.asStr
  risk : b.risk = toolRiskFor s pluginId toolName
  open' : b.consumed = false

section Moves

variable (w : World) (s : KernelState)

theorem requestApproval_docket (requestedBy action reason : String) (risk : RiskLevel) :
    ∃ a : Approval, a.status = .pending ∧
      (requestApproval s requestedBy action reason risk).2.docket = s.docket.move (.file a) :=
  ⟨_, rfl, rfl⟩

variable {pluginId : PluginId} {toolName : String}

theorem requestToolInvocationApproval_docket {requestedBy : String} {agentId : AgentId}
    {input : Json}
    {result : Except KernelError ApprovalId}
    (h : requestToolInvocationApproval w s requestedBy agentId pluginId toolName input =
      (result, s')) :
    (∃ e, result = .error e) ∧ s'.docket = s.docket ∨
      result = .ok s.docket.fresh ∧ ∃ (a : Approval) (b : PendingToolInvocation),
        a.status = .pending ∧ Binds s agentId pluginId toolName input b ∧
          s'.docket = s.docket.move (.bind a b) := by
  unfold requestToolInvocationApproval at h
  split at h
  · cases h
    exact .inl ⟨⟨_, rfl⟩, rfl⟩
  next required hrequired =>
    split at h
    · cases h
      exact .inl ⟨⟨_, rfl⟩, rfl⟩
    · split at h
      · cases h
        exact .inl ⟨⟨_, rfl⟩, rfl⟩
      · dsimp only at h
        split at h
        · cases h
          exact .inl ⟨⟨_, rfl⟩, rfl⟩
        · cases h
          exact .inr ⟨rfl, _, _, rfl,
            ⟨rfl, rfl, rfl, rfl, ⟨required, hrequired, rfl⟩, rfl, rfl⟩, rfl⟩

variable {id : ApprovalId} {approver : String}

theorem resolveApproval_docket {approve : Bool} {note : Option String}
    {result : Except KernelError Unit}
    (h : resolveApproval s id approve approver note = (result, s')) :
    (∃ e, result = .error e) ∧ s'.docket = s.docket ∧ s.approvals.get? id = none ∨
      result = .ok () ∧ (s.approvals.get? id).isSome = true ∧ ∃ f : Approval → Approval,
        (∀ a, (f a).status = if approve then .approved else .rejected) ∧
          s'.docket = s.docket.move (.decide id approve f) := by
  unfold resolveApproval at h
  split at h
  next hnone =>
    cases h
    exact .inl ⟨⟨_, rfl⟩, rfl, hnone⟩
  next a ha =>
    cases h
    refine .inr ⟨rfl, by rw [ha, Option.isSome_some], fun a => { a with
        status := if approve then .approved else .rejected
        approvedBy := some approver
        resolvedAt := some s.stamp
        note := note }, fun _ => rfl, ?_⟩
    cases approve <;> rfl

theorem executeApprovedAdmit_docket {executedBy : String}
    {result : Except KernelError (PendingToolInvocation × Permission)}
    (h : executeApprovedAdmit w s id executedBy = (result, s')) :
    (∃ e, result = .error e) ∧ s'.docket = s.docket ∨
      ∃ a b required, result = .ok (b, required) ∧ s.approvals.get? id = some a ∧
        a.status = .approved ∧ s.pendingToolInvocations.get? id = some b ∧
        b.consumed = false ∧
        resolveToolPermission s b.agentId b.pluginId b.toolName = .ok required ∧
        agentHoldsPermission s b.agentId required = true ∧
        s'.docket = s.docket.move (.consume id) ∧ s'.catalog = s.catalog := by
  unfold executeApprovedAdmit at h
  split at h
  · cases h
    exact .inl ⟨⟨_, rfl⟩, rfl⟩
  next a ha =>
    split at h
    · cases h
      exact .inl ⟨⟨_, rfl⟩, rfl⟩
    next happroved =>
      split at h
      · cases h
        exact .inl ⟨⟨_, rfl⟩, rfl⟩
      next b hb =>
        split at h
        · cases h
          exact .inl ⟨⟨_, rfl⟩, rfl⟩
        next hopen =>
          split at h
          · cases h
            exact .inl ⟨⟨_, rfl⟩, rfl⟩
          · split at h
            · cases h
              exact .inl ⟨⟨_, rfl⟩, rfl⟩
            next required hrequired =>
              split at h
              · cases h
                exact .inl ⟨⟨_, rfl⟩, rfl⟩
              next hholds =>
                cases h
                exact .inr ⟨a, b, required, rfl, ha, not_not.mp happroved, hb,
                  Bool.not_eq_true _ ▸ hopen, hrequired, not_not.mp hholds, rfl, rfl⟩

theorem executeApprovedToolInvocation_docket (id : ApprovalId) (executedBy : String) :
    (executeApprovedToolInvocation w s id executedBy).2.docket =
      (executeApprovedAdmit w s id executedBy).2.docket := by
  unfold executeApprovedToolInvocation
  split
  next h => rw [h]
  next h =>
    rw [h]
    split <;> rfl

theorem grantPersistentToolInvocation_docket (createdBy : String) (subject : AgentId)
    (pluginId : PluginId) (toolName : String) :
    (grantPersistentToolInvocation s createdBy subject pluginId toolName).2.docket = s.docket := by
  unfold grantPersistentToolInvocation
  dsimp only
  repeat' split
  all_goals rfl

def grantable (s : KernelState) (subject : AgentId) (pluginId : PluginId)
    (toolName : String) : Bool :=
  match resolveToolPermission s subject pluginId toolName with
  | .error _ => false
  | .ok required =>
    agentHoldsPermission s subject required && toolNeedsApproval s pluginId toolName

theorem grantPersistentToolInvocation_refused (createdBy : String) {subject : AgentId}
    
    (h : grantable s subject pluginId toolName = false) :
    ∃ e, (grantPersistentToolInvocation s createdBy subject pluginId toolName).1 = .error e := by
  unfold grantable at h
  unfold grantPersistentToolInvocation
  split
  next e he => exact ⟨e, rfl⟩
  next required hr =>
    rw [hr] at h
    simp only [Bool.and_eq_false_iff] at h
    split
    · exact ⟨_, rfl⟩
    next hholds =>
      split
      · exact ⟨_, rfl⟩
      next hneeds =>
        rcases h with h | h
        · exact absurd h (not_not.mp hholds ▸ by decide)
        · exact absurd h (not_not.mp hneeds ▸ by decide)

theorem allowAlwaysFromApproval_docket :
    (allowAlwaysFromApproval s id approver).2.docket = s.docket ∨
      (s.approvals.get? id).isSome = true ∧ (∃ b, s.pendingToolInvocations.get? id = some b ∧
        grantable s b.agentId b.pluginId b.toolName = true) ∧
      ∃ f : Approval → Approval, (∀ a, (f a).status = .approved) ∧
        (allowAlwaysFromApproval s id approver).2.docket = s.docket.move (.decide id true f) := by
  unfold allowAlwaysFromApproval
  split
  · exact .inl rfl
  next b hb =>
    have hdocket := grantPersistentToolInvocation_docket s approver b.agentId b.pluginId
      b.toolName
    split
    next h =>
      rw [h] at hdocket
      exact .inl hdocket
    next grant s₁ h =>
      rw [h] at hdocket
      have hgrantable : grantable s b.agentId b.pluginId b.toolName = true := by
        by_contra hno
        rw [Bool.not_eq_true] at hno
        obtain ⟨e, he⟩ := grantPersistentToolInvocation_refused s approver hno
        rw [h] at he
        cases he
      have happrovals : s₁.approvals = s.approvals := congrArg Docket.approvals hdocket
      cases hresolve : resolveApproval s₁ id true approver none with
      | mk result s₂ =>
        rcases resolveApproval_docket s₁ hresolve with
          ⟨⟨e, rfl⟩, hsame, -⟩ | ⟨rfl, hsome, f, hf, hmove⟩
        · exact .inl (hsame.trans hdocket)
        · refine .inr ⟨happrovals ▸ hsome, ⟨b, hb, hgrantable⟩, f, hf, ?_⟩
          exact hmove.trans (by rw [hdocket])

theorem revokePersistentGrant_docket (id revokedBy : String) :
    (revokePersistentGrant s id revokedBy).2.docket = s.docket := by
  unfold revokePersistentGrant
  split <;> rfl

theorem invokeTool_docket (agentId : AgentId) (pluginId : PluginId) (toolName : String)
    (input : Json) :
    (invokeTool w s agentId pluginId toolName input).2.docket = s.docket := by
  have hgate : (invokeToolAdmit s agentId pluginId toolName).2.docket = s.docket := by
    unfold invokeToolAdmit
    repeat' split
    all_goals rfl
  unfold invokeTool
  split
  next h =>
    rw [h] at hgate
    exact hgate
  next h =>
    rw [h] at hgate
    split <;> exact hgate

end Moves

end Relux

/-! What every operation keeps, so that it holds in every state the control plane can
reach. -/

namespace Relux

/-- An operation that starts a run of a task, or ends the task, finds no running run of it
(no other one, where it is the end of a process). -/
def RunOp.Unopposed (p : ControlPlane) : RunOp → Prop
  | .startRun t => p.kernel.board.Quiet t
  | .executeAssignedRun t => ∀ status, p.kernel.board.task t = some status →
      startsFresh status = true → p.kernel.board.Quiet t
  | .retryRun r => ∀ t status, p.kernel.board.run r = some (t, status) → p.kernel.board.Quiet t
  | .resumeRun r => ∀ t status, p.kernel.board.run r = some (t, status) → p.kernel.board.Quiet t
  | .setTaskStatus t target => target = .cancelled → p.kernel.board.Quiet t
  | .completeTask t => p.kernel.board.Quiet t
  | .failTask t => p.kernel.board.Quiet t
  | .finalizeCliRun i _ => ∀ plan, p.inFlight[i]? = some plan →
      ∀ r, p.kernel.board.run r = some (plan.taskId, .running) → r = plan.runId
  | _ => True

theorem settable_ends {status : TaskStatus} (hset : isSettableStatus status = true)
    (he : Board.endsTask status = true) : status = .cancelled := by
  cases status with
  | cancelled => rfl
  | _ => simp only [isSettableStatus, Board.endsTask, Bool.false_eq_true] at hset he


theorem RunOp.exec_moves (w : World) (p : ControlPlane) (op : RunOp) (hk : p.kernel.Keyed) :
    ∃ moves, Trace p.kernel (op.exec w p).kernel moves ∧
      (p.kernel.board.Orderly → op.Unopposed p → p.kernel.board.Along Board.Allowed moves) := by
  cases op with
  | createTask title input createdBy permissions =>
    exact ⟨_, createTask_trace p.kernel title input createdBy workspaceNs permissions,
      fun _ _ => ⟨trivial, trivial⟩⟩
  | createTaskWithParent title input createdBy namespaceId permissions parent =>
    obtain ⟨moves, htrace, rfl | rfl⟩ := createTaskWithParent_trace p.kernel title input
      createdBy namespaceId permissions parent
    · exact ⟨_, htrace, fun _ _ => trivial⟩
    · exact ⟨_, htrace, fun _ _ => ⟨trivial, trivial⟩⟩
  | reparentTask taskId newParent =>
    exact ⟨_, reparentTask_trace p.kernel taskId newParent, fun _ _ => trivial⟩
  | assignTask taskId agentId =>
    obtain ⟨moves, htrace, rfl | rfl⟩ := assignTask_trace p.kernel taskId agentId
    · exact ⟨_, htrace, fun _ _ => trivial⟩
    · exact ⟨_, htrace, fun _ _ => ⟨fun he => absurd he (by decide), trivial⟩⟩
  | startRun taskId =>
    rcases startRun_trace w p.kernel taskId rfl with ⟨-, htrace⟩ | ⟨-, htrace⟩
    · exact ⟨_, htrace, fun _ _ => trivial⟩
    · exact ⟨_, htrace, fun _ hop => ⟨hop, trivial⟩⟩
  | executeAssignedRun taskId =>
    obtain ⟨moves, htrace, hattempt⟩ := executeAssignedRun_trace w p.kernel hk taskId
    exact ⟨_, htrace, hattempt.allowed⟩
  | prepareCliRun taskId adapter =>
    simp only [RunOp.exec]
    cases hprep : Relux.prepareCliRun w p.kernel taskId adapter with
    | mk result s =>
      have hkernel : (p.prepared (result, s)).kernel = s := by cases result <;> rfl
      rw [hkernel]
      rcases prepareCliRun_trace w p.kernel hk hprep with ⟨htrace, -⟩ | ⟨-, -, r, hr, htrace⟩
      · exact ⟨_, htrace, fun _ _ => trivial⟩
      · have hfailed : RunStatus.failed ≠ .running := by decide
        refine ⟨_, htrace, fun hb _ => ⟨hfailed, fun _ => ?_, trivial⟩⟩
        exact Board.quiet_after_setRun hfailed (fun r' hr' => hb.single taskId r' r hr' hr)
  | finalizeCliRun i outcome =>
    simp only [RunOp.exec, ControlPlane.finalized]
    split
    · exact ⟨[], Trace.refl _, fun _ _ => trivial⟩
    next plan hplan =>
      obtain ⟨moves, htrace, hend⟩ := finalizeCliRun_trace w p.kernel plan outcome
      exact ⟨_, htrace, fun _ hop =>
        hend.allowed (finalStatus_ne_running w plan outcome) (hop plan hplan)⟩
  | setTaskStatus taskId target =>
    obtain ⟨moves, htrace, rfl | ⟨rfl, hset, -⟩⟩ := setTaskStatus_trace p.kernel taskId target
    · exact ⟨_, htrace, fun _ _ => trivial⟩
    · exact ⟨_, htrace, fun _ hop => ⟨fun he => hop (settable_ends hset he), trivial⟩⟩
  | reopenTask taskId =>
    obtain ⟨moves, htrace, rfl | ⟨rfl, -⟩⟩ := reopenTask_trace p.kernel taskId
    · exact ⟨_, htrace, fun _ _ => trivial⟩
    · exact ⟨_, htrace, fun _ _ => ⟨fun he => absurd he (by decide), trivial⟩⟩
  | retryRun runId =>
    obtain ⟨moves, htrace, rfl | ⟨t, hrun, hrestart⟩⟩ := retryRun_trace w p.kernel hk runId
    · exact ⟨_, htrace, fun _ _ => trivial⟩
    · exact ⟨_, htrace, fun hb hop => hrestart.allowed hb (hop t .failed hrun)⟩
  | resumeRun runId =>
    obtain ⟨moves, htrace, rfl | ⟨t, status, hrun, hrestart⟩⟩ := resumeRun_trace w p.kernel hk runId
    · exact ⟨_, htrace, fun _ _ => trivial⟩
    · exact ⟨_, htrace, fun hb hop => hrestart.allowed hb (hop t status hrun)⟩
  | completeRun runId summary =>
    exact ⟨_, Acts.trace (completeRun_acts w p.kernel trivial summary),
      fun _ _ => ⟨fun he => absurd he (by decide), trivial⟩⟩
  | failRun runId error =>
    exact ⟨_, Acts.trace (failRun_acts w p.kernel trivial error),
      fun _ _ => ⟨fun he => absurd he (by decide), trivial⟩⟩
  | completeTask taskId =>
    exact ⟨_, Acts.trace (completeTask_acts w p.kernel taskId),
      fun _ hop => ⟨fun _ => hop, trivial⟩⟩
  | failTask taskId =>
    exact ⟨_, Acts.trace (failTask_acts w p.kernel taskId), fun _ hop => ⟨fun _ => hop, trivial⟩⟩

theorem RunOp.exec_trace (w : World) (p : ControlPlane) (op : RunOp) (hk : p.kernel.Keyed) :
    ∃ moves, Trace p.kernel (op.exec w p).kernel moves := by
  obtain ⟨moves, h, -⟩ := op.exec_moves w p hk
  exact ⟨moves, h⟩

theorem BackgroundOp.exec_trace (w : World) (s : KernelState) (op : BackgroundOp)
    (hk : s.Keyed) : ∃ moves, Trace s (op.exec w s) moves := by
  cases op with
  | recoverStaleRuns nowSecs ids =>
    obtain ⟨moves, h, -⟩ := recoverStaleRuns_trace w s hk nowSecs ids
    exact ⟨moves, h⟩
  | oneAutonomyTick =>
    obtain ⟨moves, h, -⟩ := oneAutonomyTick_trace w s hk
    exact ⟨moves, h⟩
  | configureAutonomy config => exact ⟨[], rfl, rfl, fun h => ⟨h.task, h.run⟩, id⟩
  | setRunWatchdogConfig config =>
    have harchive : s.archive.Sound →
        (Relux.setRunWatchdogConfig s config).archive.Sound := fun h =>
      recordAudit_archive (s := { s with runWatchdog := config.clamped })
        { h with watchdog := config.clamped_idem } _ _ _ _ _ _
    exact ⟨[], rfl, rfl, fun h => ⟨h.task, h.run⟩, harchive⟩

def Docket.Open (d : Docket) : DocketMove → Prop
  | .decide id _ _ => ∀ a, d.approvals.get? id = some a → a.status = .pending
  | _ => True

/-- A decision, if the operation makes one, is of an approval that is open. An approval
that is always allowed may be decided where its call has no binding any more, or where no
standing grant can be made for it. -/
def KernelOp.DecidesOpen (p : ControlPlane) : KernelOp → Prop
  | .approval (.resolveApproval id _ _ _) => ∀ a, p.kernel.approvals.get? id = some a →
      a.status = .pending
  | .approval (.allowAlwaysFromApproval id _) => ∀ a, p.kernel.approvals.get? id = some a →
      a.status = .pending ∨ ∀ b, p.kernel.pendingToolInvocations.get? id = some b →
        grantable p.kernel b.agentId b.pluginId b.toolName = false
  | _ => True

theorem ApprovalOp.exec_docket (w : World) (p : ControlPlane) (op : ApprovalOp) :
    (op.exec w p.kernel).docket = p.kernel.docket ∨
      ∃ m, (op.exec w p.kernel).docket = p.kernel.docket.move m ∧
        ((KernelOp.approval op).DecidesOpen p → p.kernel.docket.Open m) := by
  cases op with
  | requestApproval requestedBy action reason risk =>
    obtain ⟨a, -, h⟩ := requestApproval_docket p.kernel requestedBy action reason risk
    exact .inr ⟨_, h, fun _ => trivial⟩
  | requestToolInvocationApproval requestedBy agentId pluginId toolName input =>
    rcases requestToolInvocationApproval_docket w p.kernel rfl with ⟨-, h⟩ | ⟨-, a, b, -, -, h⟩
    · exact .inl h
    · exact .inr ⟨_, h, fun _ => trivial⟩
  | resolveApproval id approve approver note =>
    rcases resolveApproval_docket p.kernel rfl with ⟨-, h, -⟩ | ⟨-, -, f, -, h⟩
    · exact .inl h
    · exact .inr ⟨_, h, fun hop => hop⟩
  | executeApprovedToolInvocation id executedBy =>
    have hafter := executeApprovedToolInvocation_docket w p.kernel id executedBy
    rcases executeApprovedAdmit_docket w p.kernel rfl with
      ⟨-, h⟩ | ⟨a, b, required, -, -, -, -, -, -, -, h, -⟩
    · exact .inl (hafter.trans h)
    · exact .inr ⟨_, hafter.trans h, fun _ => trivial⟩
  | allowAlwaysFromApproval id approver =>
    rcases allowAlwaysFromApproval_docket p.kernel with
      h | ⟨-, ⟨b, hb, hgrantable⟩, f, -, h⟩
    · exact .inl h
    · refine .inr ⟨_, h, fun hop a ha => ?_⟩
      rcases hop a ha with hopen | hno
      · exact hopen
      · rw [hno b hb] at hgrantable
        cases hgrantable
  | grantPersistentToolInvocation createdBy subject pluginId toolName =>
    exact .inl (grantPersistentToolInvocation_docket p.kernel createdBy subject pluginId toolName)
  | revokePersistentGrant id revokedBy =>
    exact .inl (revokePersistentGrant_docket p.kernel id revokedBy)
  | callTool runId agentId pluginId toolName input =>
    exact .inl (callTool_trace w p.kernel runId agentId pluginId toolName input).docket
  | invokeTool agentId pluginId toolName input =>
    exact .inl (invokeTool_docket w p.kernel agentId pluginId toolName input)

theorem KernelOp.exec_cases (w : World) (p : ControlPlane) (op : KernelOp) (hk : p.kernel.Keyed) :
    (∃ moves, Trace p.kernel (op.exec w p).kernel moves) ∨ (∃ op', op = .config op') ∨
      (∃ op', op = .approval op') ∨ ∃ call, op = .manager call := by
  cases op with
  | run op => exact .inl (op.exec_trace w p hk)
  | background op => exact .inl (op.exec_trace w p.kernel hk)
  | config op => exact .inr (.inl ⟨op, rfl⟩)
  | approval op => exact .inr (.inr (.inl ⟨op, rfl⟩))
  | manager call => exact .inr (.inr (.inr ⟨call, rfl⟩))
  | rehash runs tasks grants => exact .inl ⟨_, rehash_trace p.kernel runs tasks grants⟩

theorem KernelOp.exec_board (w : World) (p : ControlPlane) (op : KernelOp)
    (hk : p.kernel.Keyed) :
    ∃ moves, (op.exec w p).kernel.board = p.kernel.board.play moves := by
  rcases op.exec_cases w p hk with ⟨moves, h⟩ | ⟨op, rfl⟩ | ⟨op, rfl⟩ | ⟨call, rfl⟩
  · exact ⟨moves, h.board⟩
  · exact ⟨[], KernelState.board_of_work (op.exec_configures w p.kernel).work⟩
  · exact ⟨[], (op.exec_rules w p.kernel).board⟩
  · rcases (call.exec_directs p.kernel).board with h | ⟨t, status, -, -, h⟩
    · exact ⟨[], h⟩
    · exact ⟨[.task t .queued], h⟩

theorem KernelOp.exec_orchestrations (w : World) (p : ControlPlane) (op : KernelOp)
    (hk : p.kernel.Keyed) : (op.exec w p).kernel.Keyed ∧
      (op.exec w p).kernel.orchestrations = p.kernel.orchestrations := by
  rcases op.exec_cases w p hk with ⟨moves, h⟩ | ⟨op, rfl⟩ | ⟨op, rfl⟩ | ⟨call, rfl⟩
  · exact ⟨h.keyed hk, h.orchestrations⟩
  · have h := (op.exec_configures w p.kernel).work
    exact ⟨KernelState.keyed_of_work h hk, KernelState.orchestrations_of_work h⟩
  · have h := op.exec_rules w p.kernel
    exact ⟨h.keyed hk, h.orchestrations⟩
  · have h := call.exec_directs p.kernel
    exact ⟨h.keyed hk, h.orchestrations⟩

variable {p : ControlPlane}

theorem run_orchestrations (ops : List (World × KernelOp))
    (hk : p.kernel.Keyed) : (Transition.run ControlPlane.step p ops).kernel.Keyed ∧
      (Transition.run ControlPlane.step p ops).kernel.orchestrations = p.kernel.orchestrations := by
  have hstep : ∀ (q : ControlPlane) (e : World × KernelOp),
      (q.kernel.Keyed ∧ q.kernel.orchestrations = p.kernel.orchestrations) → True →
      (q.step e).kernel.Keyed ∧ (q.step e).kernel.orchestrations = p.kernel.orchestrations := by
    intro q e hq _
    obtain ⟨hkeyed, horch⟩ := e.2.exec_orchestrations e.1 q hq.1
    exact ⟨hkeyed, horch.trans hq.2⟩
  have hp : p.kernel.Keyed ∧ p.kernel.orchestrations = p.kernel.orchestrations := ⟨hk, rfl⟩
  exact Transition.invariant_run hstep hp (Transition.guarded_true _ p ops)

structure KernelState.WellKept (s : KernelState) : Prop where
  keyed : s.Keyed
  minted : s.board.Minted
  docket : s.docket.Minted

theorem Trace.wellKept {s : KernelState} {moves : List BoardMove} (h : Trace s s' moves)
    (hs : s.WellKept) : s'.WellKept :=
  ⟨h.keyed hs.keyed, h.board ▸ hs.minted.play moves, h.docket ▸ hs.docket⟩

theorem KernelOp.exec_wellKept (w : World) (p : ControlPlane) (op : KernelOp)
    (hp : p.kernel.WellKept) : (op.exec w p).kernel.WellKept := by
  rcases op.exec_cases w p hp.keyed with ⟨moves, h⟩ | ⟨op, rfl⟩ | ⟨op, rfl⟩ | ⟨call, rfl⟩
  · exact h.wellKept hp
  · have h := op.exec_configures w p.kernel
    exact ⟨KernelState.keyed_of_work h.work hp.keyed,
      KernelState.board_of_work h.work ▸ hp.minted, h.docket ▸ hp.docket⟩
  · have h := op.exec_rules w p.kernel
    refine ⟨h.keyed hp.keyed, h.board ▸ hp.minted, ?_⟩
    change (op.exec w p.kernel).docket.Minted
    rcases op.exec_docket w p with hd | ⟨m, hd, -⟩
    · rw [hd]
      exact hp.docket
    · rw [hd]
      exact hp.docket.move m
  · have h := call.exec_directs p.kernel
    refine ⟨h.keyed hp.keyed, ?_, h.docket ▸ hp.docket⟩
    change (call.exec p.kernel).2.board.Minted
    rcases h.board with hb | ⟨t, status, -, -, hb⟩ <;> rw [hb]
    · exact hp.minted
    · exact hp.minted.move _

theorem KernelState.new_keyed : KernelState.new.Keyed where
  task := fun t task h => by
    cases h
  run := fun r run h => by
    cases h

theorem KernelState.new_wellKept : KernelState.new.WellKept where
  keyed := KernelState.new_keyed
  minted := fun n _ => by
    simp only [KernelState.new, KernelState.board, HashMap.get?_empty, Option.map_none]
  docket := ⟨fun _ _ => HashMap.get?_empty _, fun _ _ => HashMap.get?_empty _⟩

theorem run_wellKept (ops : List (World × KernelOp))
    (hp : p.kernel.WellKept) : (Transition.run ControlPlane.step p ops).kernel.WellKept := by
  have hstep : ∀ (p : ControlPlane) (e : World × KernelOp), p.kernel.WellKept → True →
      (p.step e).kernel.WellKept := fun p e hp _ => e.2.exec_wellKept e.1 p hp
  exact Transition.invariant_run hstep hp (Transition.guarded_true _ p ops)

/-- No record goes away, and a run stays with its task. -/
structure Board.Keeps (b b' : Board) : Prop where
  task : ∀ t, b'.task t = none → b.task t = none
  run : ∀ r t, (∃ status, b.run r = some (t, status)) → ∃ status, b'.run r = some (t, status)

theorem Board.Keeps.move {b b' : Board} (h : b.Keeps b') (hm : b'.Minted) (m : BoardMove) :
    b.Keeps (b'.move m) := by
  refine ⟨fun t hnone => h.task t ?_, fun r t hr => ?_⟩
  · cases m with
    | create =>
      rw [create_task] at hnone
      split at hnone
      · cases hnone
      · exact hnone
    | run => exact hnone
    | task t' _ | start t' =>
      have hset := (b'.setTask_task t' t _).symm.trans hnone
      split at hset
      next heq => rw [heq, Option.map_eq_none_iff.mp hset]
      · exact hset
  · obtain ⟨status, hr'⟩ := h.run r t hr
    cases m with
    | create | task => exact ⟨status, hr'⟩
    | start t' =>
      have hne : r ≠ b'.freshRun := by
        rintro rfl
        cases hm.fresh.symm.trans hr'
      exact ⟨status, by rw [start_run, if_neg hne, hr']⟩
    | run r' status' =>
      refine ⟨if r = r' then status' else status, (setRun_run b' r' r status').trans ?_⟩
      split
      next heq => rw [← heq, hr', Option.map_some]
      · exact hr'

theorem Board.Keeps.play {b b' : Board} (h : b.Keeps b') (hm : b'.Minted) (moves : List BoardMove) :
    b.Keeps (b'.play moves) := by
  induction moves generalizing b' with
  | nil => exact h
  | cons m moves ih => exact ih (h.move hm m) (hm.move m)

/-- In every run of the control plane no task and no run that there was at any moment goes
away, no run changes its task, and the id of the next run names none. -/
theorem records_permanent (before after : List (World × KernelOp)) :
    let p := Transition.run ControlPlane.step (ControlPlane.of .new) before
    let b := (Transition.run ControlPlane.step p after).kernel.board
    p.kernel.board.Keeps b ∧ b.run b.freshRun = none := by
  intro p b
  have hstep : ∀ (q : ControlPlane) (e : World × KernelOp),
      q.kernel.WellKept ∧ p.kernel.board.Keeps q.kernel.board → True →
        (q.step e).kernel.WellKept ∧ p.kernel.board.Keeps (q.step e).kernel.board := by
    intro q e hq _
    obtain ⟨moves, hboard⟩ := e.2.exec_board e.1 q hq.1.keyed
    exact ⟨e.2.exec_wellKept e.1 q hq.1, hboard ▸ hq.2.play hq.1.minted moves⟩
  have hstart : p.kernel.WellKept ∧ p.kernel.board.Keeps p.kernel.board :=
    ⟨run_wellKept before KernelState.new_wellKept, fun _ h => h, fun _ _ h => h⟩
  have hend := Transition.invariant_run hstep hstart (Transition.guarded_true _ p after)
  exact ⟨hend.2, hend.1.minted.fresh⟩

end Relux
