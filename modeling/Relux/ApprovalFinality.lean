import Relux.Reachable

/-! A decided approval. A decision is written over whatever was decided before, so it is
final where every decision is of an approval that is still open. -/

namespace Relux

open Transition (Guarded)

namespace Docket

def Final (d d' : Docket) : Prop :=
  ∀ id a, d.approvals.get? id = some a → a.status ≠ .pending → d'.approvals.get? id = some a

theorem Final.refl (d : Docket) : d.Final d := fun _ _ h _ => h

variable {d : Docket}

theorem Final.trans {d' d'' : Docket} (h : d.Final d') (h' : d'.Final d'') : d.Final d'' :=
  fun id a ha hs => h' id a (h id a ha hs) hs

theorem insert_final (hm : d.Minted) (a : Approval) :
    ∀ id old, d.approvals.get? id = some old →
      (d.approvals.insert d.fresh a).get? id = some old := by
  intro id old hold
  exact HashMap.insert_of_some hold (hm.approval _ (Nat.lt_succ_self _)) a

theorem Open.final {m : DocketMove} (h : d.Open m) (hm : d.Minted) : d.Final (d.move m) := by
  cases m with
  | file a | bind a b => exact fun id old hold _ => insert_final hm a id old hold
  | decide id approve f =>
    intro id' old hold hs
    change (d.approvals.modify id f).get? id' = some old
    rw [HashMap.get?_modify]
    split
    next he =>
      subst he
      exact absurd (h old hold) hs
    · exact hold
  | consume id => exact fun id' old hold _ => hold

end Docket

theorem ApprovalOp.exec_final (w : World) (p : ControlPlane) (op : ApprovalOp)
    (hp : p.kernel.WellKept) (hop : (KernelOp.approval op).DecidesOpen p) :
    p.kernel.docket.Final (op.exec w p.kernel).docket := by
  rcases op.exec_docket w p with h | ⟨m, h, hopen⟩
  · rw [h]
    exact Docket.Final.refl _
  · rw [h]
    exact (hopen hop).final hp.docket

theorem KernelOp.exec_final (w : World) (p : ControlPlane) (op : KernelOp)
    (hp : p.kernel.WellKept) (hop : op.DecidesOpen p) :
    p.kernel.docket.Final (op.exec w p).kernel.docket := by
  have same : ∀ {s : KernelState}, s.docket = p.kernel.docket →
      p.kernel.docket.Final s.docket := by
    intro s h
    rw [h]
    exact Docket.Final.refl _
  rcases op.exec_cases w p hp.keyed with ⟨moves, h⟩ | ⟨op, rfl⟩ | ⟨op, rfl⟩ | ⟨call, rfl⟩
  · exact same h.docket
  · exact same (op.exec_configures w p.kernel).docket
  · exact op.exec_final w p hp hop
  · exact same (call.exec_directs p.kernel).docket

/-- From any reachable state on: while every decision is of an open approval, a decided
approval keeps its status, its approver and its resolution. -/
theorem approval_decision_final (setup ops : List (World × KernelOp))
    (hguard : Guarded ControlPlane.step (fun p e => e.2.DecidesOpen p)
      (Transition.run ControlPlane.step (ControlPlane.of KernelState.new) setup) ops) :
    let p := Transition.run ControlPlane.step (ControlPlane.of KernelState.new) setup
    ∀ id a, p.kernel.approvals.get? id = some a → a.status ≠ .pending →
      (Transition.run ControlPlane.step p ops).kernel.approvals.get? id = some a := by
  have hreach := run_wellKept setup
    (show (ControlPlane.of KernelState.new).kernel.WellKept from KernelState.new_wellKept)
  have hkept : ∀ (p : ControlPlane) (e : World × KernelOp), p.kernel.WellKept →
      e.2.DecidesOpen p → (p.step e).kernel.WellKept :=
    fun p e hp _ => e.2.exec_wellKept e.1 p hp
  have hstep : ∀ (p : ControlPlane) (e : World × KernelOp), p.kernel.WellKept →
      e.2.DecidesOpen p → p.kernel.docket.Final (p.step e).kernel.docket :=
    fun p e hp he => e.2.exec_final e.1 p hp he
  have htrans : ∀ p p' p'' : ControlPlane, p.kernel.docket.Final p'.kernel.docket →
      p'.kernel.docket.Final p''.kernel.docket → p.kernel.docket.Final p''.kernel.docket :=
    fun _ _ _ h h' => h.trans h'
  exact Transition.relation_run (fun p => Docket.Final.refl p.kernel.docket) htrans hkept
    hstep hreach hguard

def fileOp : KernelOp := .approval (.requestApproval "prime" "install" "wanted" .low)

def resolveOp (approve : Bool) : KernelOp :=
  .approval (.resolveApproval "appr_0001" approve "founder" none)

def docketPlane (ops : List KernelOp) : ControlPlane :=
  Transition.run ControlPlane.step (ControlPlane.of KernelState.new)
    (ops.map (fun op => (World.silent, op)))

/-- A second request, filed and decided, leaves the first decision alone. -/
theorem approval_decision_final_sample :
    ∃ a, (docketPlane [fileOp, resolveOp false]).kernel.approvals.get? "appr_0001" = some a ∧
      a.status = .rejected ∧
      (docketPlane [fileOp, resolveOp false, fileOp,
        .approval (.resolveApproval "appr_0002" true "founder" none)]).kernel.approvals.get?
          "appr_0001" = some a := by
  have hopen : KernelOp.DecidesOpen (docketPlane [fileOp, resolveOp false, fileOp])
      (.approval (.resolveApproval "appr_0002" true "founder" none)) := by
    intro a ha
    cases ha
    rfl
  refine ⟨_, rfl, rfl, ?_⟩
  exact approval_decision_final [(.silent, fileOp), (.silent, resolveOp false)]
    [(.silent, fileOp), (.silent, .approval (.resolveApproval "appr_0002" true "founder" none))]
    (.intro trivial (.intro hopen trivial)) "appr_0001" _ rfl (by decide)

/-- A rejected approval can be approved. -/
theorem approval_decision_overwritten :
    ¬ ∀ a, (docketPlane [fileOp, resolveOp false]).kernel.approvals.get? "appr_0001" = some a →
      a.status ≠ .pending →
      (docketPlane [fileOp, resolveOp false, resolveOp true]).kernel.approvals.get?
        "appr_0001" = some a := by
  intro h
  have hsome := h _ rfl (by decide)
  have hstatus := congrArg (Option.map (·.status)) hsome
  cases hstatus

end Relux
