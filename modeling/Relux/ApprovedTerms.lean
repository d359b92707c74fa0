import Relux.ApprovedCalls

/-! The terms of an approved call. The binding records the permission and the risk its tool
had when the call was requested; the execution compares neither, nor the recipe. They are
the ones recorded where no step in between gives the tool of an open binding other terms. -/

namespace Relux

open Transition (Guarded)

theorem resolveToolPermission_matches {s s' : KernelState} (h : s.catalog.Matches s'.catalog)
    (agentId : AgentId) (pluginId : PluginId) (toolName : String) :
    resolveToolPermission s' agentId pluginId toolName =
      resolveToolPermission s agentId pluginId toolName := by
  have hknown : (s'.agents.get? agentId).isNone = (s.agents.get? agentId).isNone := h.known agentId
  have hrest := h.rest
  simp only [KernelState.catalog, Catalog.mk.injEq] at hrest
  obtain ⟨hplugins, hinstalled, -, -, -, hservers, -⟩ := hrest
  have hmcp : mcpServerForPlugin s' pluginId = mcpServerForPlugin s pluginId := by
    simp only [mcpServerForPlugin, hservers]
  have hlens : isPluginLens s' pluginId toolName = isPluginLens s pluginId toolName := by
    simp only [isPluginLens, hinstalled]
  unfold resolveToolPermission
  rw [hmcp, hlens, hplugins]
  cases ha : s.agents.get? agentId with
  | none =>
    rw [ha, Option.isNone_none, Option.isNone_iff_eq_none] at hknown
    rw [hknown]
  | some a =>
    rw [ha, Option.isNone_some] at hknown
    cases ha' : s'.agents.get? agentId with
    | none =>
      rw [ha'] at hknown
      cases hknown
    | some a' => rfl

theorem termsOf_catalog {s s' : KernelState} (h : s.catalog.Matches s'.catalog)
    (b : PendingToolInvocation) : s'.termsOf b = s.termsOf b := by
  have hpermission := resolveToolPermission_matches h b.agentId b.pluginId b.toolName
  have hrest := h.rest
  simp only [KernelState.termsOf, KernelState.toolTerms, hpermission]
  obtain ⟨⟩ := s
  obtain ⟨rfl, rfl, rfl, rfl, rfl, rfl, -⟩ := hrest
  rfl

/-- Every open binding was requested under the terms its tool has now, and records them. -/
def TermsHold (d : Docket) (terms : PendingToolInvocation → ToolTerms)
    (history : List CallEvent) : Prop :=
  ∀ id b, d.pendingToolInvocations.get? id = some b → b.consumed = false →
    .requested id b.call (terms b) ∈ history ∧ (terms b).permission = some b.permission ∧
      (terms b).risk = b.risk

theorem TermsHold.congr {d : Docket} {terms terms' : PendingToolInvocation → ToolTerms}
    {history : List CallEvent} (h : TermsHold d terms history)
    (heq : ∀ id b, d.pendingToolInvocations.get? id = some b → b.consumed = false →
      terms' b = terms b) : TermsHold d terms' history := by
  intro id b hb ho
  rw [heq id b hb ho]
  exact h id b hb ho

theorem DocketStep.termsHold {d d' : Docket} {terms : PendingToolInvocation → ToolTerms}
    {events history : List CallEvent} (h : DocketStep d terms events d')
    (hl : TermsHold d terms history) : TermsHold d' terms (history ++ events) := by
  have keep : ∀ id b, d.pendingToolInvocations.get? id = some b → b.consumed = false →
      CallEvent.requested id b.call (terms b) ∈ history ++ events ∧
        (terms b).permission = some b.permission ∧ (terms b).risk = b.risk := by
    intro id b hb ho
    obtain ⟨hmem, hterms⟩ := hl id b hb ho
    exact ⟨List.mem_append_left _ hmem, hterms⟩
  cases h with
  | still => exact keep
  | file a => exact keep
  | bind a b hopen hpermission hrisk =>
    intro id b' hb' ho
    change (d.pendingToolInvocations.insert d.fresh b).get? id = some b' at hb'
    rcases HashMap.insert_some hb' with ⟨rfl, rfl⟩ | ⟨-, hold⟩
    · exact ⟨List.mem_append_right _ (List.mem_singleton_self _), hpermission, hrisk⟩
    · exact keep id b' hold ho
  | approve id f => exact keep
  | reject id f hknown =>
    intro id' b' hb' ho
    change (d.pendingToolInvocations.remove id).get? id' = some b' at hb'
    rw [HashMap.get?_remove] at hb'
    split at hb'
    · cases hb'
    · exact keep id' b' hb' ho
  | consume id b hb hopen =>
    intro id' b' hb' ho
    change (d.pendingToolInvocations.modify id _).get? id' = some b' at hb'
    rcases HashMap.modify_some hb' with ⟨-, old, -, rfl⟩ | ⟨-, hold⟩
    · cases ho
    · exact keep id' b' hold ho

/-- A configuration step gives the tool of no open binding other terms, and a restore
brings back only open bindings the kernel has too, under the same terms. -/
def StoreOp.KeepsTerms (w : World) (st : Store) : StoreOp → Prop
  | .kernel (.config op) => ∀ id b,
      st.plane.kernel.pendingToolInvocations.get? id = some b → b.consumed = false →
      (op.exec w st.plane.kernel).termsOf b = st.plane.kernel.termsOf b
  | .restore => ∀ id b, st.saved.pendingToolInvocations.get? id = some b →
      b.consumed = false → st.plane.kernel.pendingToolInvocations.get? id = some b ∧
        st.saved.termsOf b = st.plane.kernel.termsOf b
  | _ => True

structure Store.TermsSound (st : Store) : Prop where
  kernel : st.plane.kernel.WellKept
  saved : st.saved.WellKept
  terms : TermsHold st.plane.kernel.docket st.plane.kernel.termsOf st.history

theorem KernelOp.exec_catalog (w : World) (p : ControlPlane) (op : KernelOp)
    (hk : p.kernel.Keyed) (hop : ∀ op', op ≠ .config op') :
    p.kernel.catalog.Matches (op.exec w p).kernel.catalog := by
  rcases op.exec_cases w p hk with ⟨moves, h⟩ | ⟨op, rfl⟩ | ⟨op, rfl⟩ | ⟨call, rfl⟩
  · exact .of_eq h.catalog
  · exact absurd rfl (hop op)
  · exact .of_eq (op.exec_rules w p.kernel).catalog
  · exact (call.exec_directs p.kernel).catalog

theorem Store.step_termsSound (st : Store) (e : World × StoreOp) (h : st.TermsSound)
    (he : e.2.KeepsTerms e.1 st) : (st.step e).TermsSound := by
  obtain ⟨w, op⟩ := e
  cases op with
  | kernel op =>
    have hstep := (op.exec_docketStep w st.plane h.kernel.keyed).termsHold h.terms
    refine ⟨op.exec_wellKept w st.plane h.kernel, h.saved, hstep.congr ?_⟩
    by_cases hconfig : ∃ op', op = .config op'
    · obtain ⟨op', rfl⟩ := hconfig
      intro id b hb ho
      have hdocket := (op'.exec_configures w st.plane.kernel).docket
      have hpending : (op'.exec w st.plane.kernel).pendingToolInvocations =
          st.plane.kernel.pendingToolInvocations :=
        congrArg Docket.pendingToolInvocations hdocket
      change (op'.exec w st.plane.kernel).pendingToolInvocations.get? id = some b at hb
      rw [hpending] at hb
      exact he id b hb ho
    · have hcatalog := op.exec_catalog w st.plane h.kernel.keyed
        (fun op' heq => hconfig ⟨op', heq⟩)
      exact fun id b _ _ => termsOf_catalog hcatalog b
  | snapshot => exact ⟨h.kernel, h.kernel, h.terms⟩
  | restore =>
    have hkernel : TermsHold st.saved.docket st.plane.kernel.termsOf st.history :=
      fun id b hb ho => h.terms id b (he id b hb ho).1 ho
    exact ⟨h.saved, h.saved, hkernel.congr (fun id b hb ho => (he id b hb ho).2)⟩

theorem Store.new_termsSound : Store.new.TermsSound where
  kernel := KernelState.new_wellKept
  saved := KernelState.new_wellKept
  terms := fun id b hb => by
    have hnone : HashMap.empty.get? id = some b := hb
    cases hnone

/-- The permission, the risk and the recipe of the tool an execution dispatches are the
ones its binding was requested under. -/
def DispatchesAsRecorded (w : World) (st : Store) (id : ApprovalId) (executedBy : String) :
    Prop :=
  ∀ b required s', executeApprovedAdmit w st.plane.kernel id executedBy =
      (.ok (b, required), s') →
    required.asStr = b.permission ∧
    toolRiskFor st.plane.kernel b.pluginId b.toolName = b.risk ∧
    ∃ terms, .requested id b.call terms ∈ st.history ∧ terms.permission = some b.permission ∧
      terms.risk = b.risk ∧
      terms.recipe = st.plane.kernel.commandToolConfigs.get? (b.pluginId, b.toolName)

/-- After every run whose steps keep the terms of the open bindings, an approved call that
is dispatched is dispatched as recorded. -/
theorem approved_call_as_recorded (ops : List (World × StoreOp))
    (hguard : Guarded Store.step (fun st e => e.2.KeepsTerms e.1 st) Store.new ops)
    (w : World) (id : ApprovalId) (executedBy : String) :
    DispatchesAsRecorded w (Transition.run Store.step Store.new ops) id executedBy := by
  have hsound := Transition.invariant_run (fun st e h he => st.step_termsSound e h he)
    Store.new_termsSound hguard
  intro b required s' hgate
  rcases executeApprovedAdmit_docket w _ hgate with
    ⟨⟨e, he⟩, -⟩ | ⟨a, b', required', hok, -, -, hb, hopen, hrequired, -⟩
  · cases he
  · cases hok
    obtain ⟨hmem, hpermission, hrisk⟩ := hsound.terms id b hb hopen
    have hasStr : required.asStr = b.permission := by
      simp only [KernelState.termsOf, KernelState.toolTerms, hrequired, permissionText,
        Option.some.injEq] at hpermission
      exact hpermission
    exact ⟨hasStr, hrisk, _, hmem, hpermission, hrisk, rfl⟩

def classifyOp (tool : String) (risk : RiskLevel) : StoreOp :=
  .kernel (.config (.setMcpToolClassification "m" tool risk .required))

/-- Another tool of the server is classified between approval and execution. -/
theorem approved_call_as_recorded_sample :
    DispatchesAsRecorded .silent (storeAfter [classifyOp "y" .high]) "appr_0001" "founder" := by
  have hkeeps : StoreOp.KeepsTerms .silent (storeAfter []) (classifyOp "y" .high) := by
    intro id b hb _
    have hone : id = "appr_0001" ∧ b.agentId = "prime" ∧ b.pluginId = "mcp:m" ∧
        b.toolName = "x" := by
      change (HashMap.empty.insert "appr_0001" _).get? id = some b at hb
      rw [HashMap.get?_insert] at hb
      split at hb
      next hid =>
        cases hb
        exact ⟨hid, rfl, rfl, rfl⟩
      · cases hb
    obtain ⟨-, hagent, hplugin, htool⟩ := hone
    simp only [KernelState.termsOf, hagent, hplugin, htool]
    rfl
  have hempty : ∀ s : KernelState, s.pendingToolInvocations = .empty → ∀ op : ConfigOp, ∀ id b,
      s.pendingToolInvocations.get? id = some b → b.consumed = false →
      (op.exec .silent s).termsOf b = s.termsOf b := by
    intro s hs op id b hb
    rw [hs, HashMap.get?_empty] at hb
    cases hb
  exact approved_call_as_recorded (storeOps [classifyOp "y" .high])
    (.intro (hempty _ rfl _) (.intro (hempty _ rfl _) (.intro (hempty _ rfl _) (.intro trivial
      (.intro trivial (.intro trivial (.intro hkeeps trivial))))))) .silent "appr_0001" "founder"

/-- The tool is classified as riskier after the approval, and the call still runs. -/
theorem approved_call_not_as_recorded :
    ¬ DispatchesAsRecorded .silent (storeAfter [classifyOp "x" .critical]) "appr_0001"
      "founder" := by
  intro h
  obtain ⟨-, hrisk, -⟩ := h _ _ _ rfl
  cases hrisk

end Relux
