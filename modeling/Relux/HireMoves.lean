import Relux.HireDesk
import Relux.OrgForest

/-! What one access of the hire flow does to the standing of the agents: each is one move of the
ledger of probation. -/

namespace Relux.Roster

open Admission (ApprovalRecord InvocationCtx VerifiedIdentity AgentStoreError
  OPERATOR_ROLES SPAWN_CLEARANCE_METHOD normTenant decideApproval_ok)
open Probation (Standing Ledger Move put)

variable {agentId field value : String} {parseJson : String → Except String (List String)}

section
variable {profiles : Profiles}

def KeepsStatus (r : Except AgentStoreError (AgentProfile → AgentProfile)) : Prop :=
  ∀ set, r = .ok set → ∀ p, (set p).status = p.status

theorem keepsStatus_error (e : AgentStoreError) : KeepsStatus (.error e) := by
  intro set h
  cases h

theorem keepsStatus_ok {set : AgentProfile → AgentProfile}
    (h : ∀ p, (set p).status = p.status) : KeepsStatus (.ok set) := by
  intro set' heq
  cases heq
  exact h

theorem keepsStatus_ite {c : Prop} [Decidable c]
    {a b : Except AgentStoreError (AgentProfile → AgentProfile)} (ha : KeepsStatus a)
    (hb : KeepsStatus b) : KeepsStatus (if c then a else b) := by
  by_cases hc : c
  · rw [if_pos hc]
    exact ha
  · rw [if_neg hc]
    exact hb

theorem timeoutEdit_keeps (value : String) : KeepsStatus (Profiles.timeoutEdit value) := by
  unfold Profiles.timeoutEdit
  split
  · exact keepsStatus_error _
  · exact keepsStatus_ite (keepsStatus_error _) (keepsStatus_ok (fun _ => rfl))

theorem reportsToEdit_keeps (agentId value : String) :
    KeepsStatus (profiles.reportsToEdit agentId value) := by
  exact keepsStatus_ite (keepsStatus_ok (fun _ => rfl)) (keepsStatus_ite (keepsStatus_error _)
    (keepsStatus_ite (keepsStatus_error _)
      (keepsStatus_ite (keepsStatus_error _) (keepsStatus_ok (fun _ => rfl)))))

theorem allowanceEdit_keeps (value : String) : KeepsStatus (Profiles.allowanceEdit value) := by
  refine keepsStatus_ite (keepsStatus_ok (fun _ => rfl)) ?_
  split
  · exact keepsStatus_error _
  · exact keepsStatus_ite (keepsStatus_error _) (keepsStatus_ok (fun _ => rfl))

theorem concurrencyEdit_keeps (value : String) :
    KeepsStatus (Profiles.concurrencyEdit value) := by
  unfold Profiles.concurrencyEdit
  dsimp only
  split
  · exact keepsStatus_error _
  · exact keepsStatus_ite (keepsStatus_error _) (keepsStatus_ok (fun _ => rfl))

theorem bundleEdit_keeps (value : String) : KeepsStatus (Profiles.bundleEdit value) :=
  keepsStatus_ite (keepsStatus_error _) (keepsStatus_ok (fun _ => rfl))

theorem modelEdit_keeps (value : String) : KeepsStatus (Profiles.modelEdit value) :=
  keepsStatus_ite (keepsStatus_error _)
    (keepsStatus_ite (keepsStatus_error _) (keepsStatus_ok (fun _ => rfl)))

theorem effortEdit_keeps (value : String) :
    KeepsStatus (Profiles.soleField.effortEdit value) :=
  keepsStatus_ite (keepsStatus_ok (fun _ => rfl))
    (keepsStatus_ite (keepsStatus_ok (fun _ => rfl)) (keepsStatus_error _))

variable {r : Except AgentStoreError (AgentProfile → AgentProfile)}

theorem soleField_keeps
    (h : profiles.soleField agentId field value = some r) (hfield : field ≠ "status") :
    KeepsStatus r := by
  unfold Profiles.soleField at h
  split at h
  · exact absurd rfl hfield
  · rw [← Option.some.inj h]
    exact keepsStatus_ite (keepsStatus_ok (fun _ => rfl)) (keepsStatus_error _)
  · rw [← Option.some.inj h]
    exact timeoutEdit_keeps value
  · rw [← Option.some.inj h]
    exact keepsStatus_ite (keepsStatus_ok (fun _ => rfl))
      (keepsStatus_ite (keepsStatus_ok (fun _ => rfl)) (keepsStatus_error _))
  · rw [← Option.some.inj h]
    exact reportsToEdit_keeps agentId value
  · rw [← Option.some.inj h]
    exact keepsStatus_ok (fun _ => rfl)
  · rw [← Option.some.inj h]
    exact allowanceEdit_keeps value
  · rw [← Option.some.inj h]
    exact concurrencyEdit_keeps value
  · rw [← Option.some.inj h]
    exact concurrencyEdit_keeps value
  · rw [← Option.some.inj h]
    exact bundleEdit_keeps value
  · rw [← Option.some.inj h]
    exact bundleEdit_keeps value
  · rw [← Option.some.inj h]
    exact modelEdit_keeps value
  · rw [← Option.some.inj h]
    exact modelEdit_keeps value
  · rw [← Option.some.inj h]
    exact effortEdit_keeps value
  · rw [← Option.some.inj h]
    exact effortEdit_keeps value
  · cases h

theorem textField_keeps {set : String → AgentProfile → AgentProfile}
    (h : Profiles.textField field = some set) (v : String) (p : AgentProfile) :
    (set v p).status = p.status := by
  unfold Profiles.textField at h
  split at h
  all_goals cases h
  all_goals rfl

theorem listField_keeps {set : List String → AgentProfile → AgentProfile}
    (h : Profiles.listField field = some set) (v : List String) (p : AgentProfile) :
    (set v p).status = p.status := by
  unfold Profiles.listField at h
  split at h
  all_goals cases h
  all_goals rfl

theorem boolField_keeps {f : String × (Bool → AgentProfile → AgentProfile)}
    (h : Profiles.boolField field = some f) (v : Bool) (p : AgentProfile) :
    (f.2 v p).status = p.status := by
  unfold Profiles.boolField at h
  split at h
  all_goals cases h
  all_goals rfl

theorem choiceField_keeps {f : List String × (String → AgentProfile → AgentProfile)}
    (h : Profiles.choiceField field = some f) (v : String) (p : AgentProfile) :
    (f.2 v p).status = p.status := by
  unfold Profiles.choiceField at h
  split at h
  all_goals cases h
  all_goals rfl

theorem familyField_keeps
    (h : Profiles.familyField parseJson field value = some r) : KeepsStatus r := by
  unfold Profiles.familyField at h
  simp only [Option.or_eq_some_iff, Option.map_eq_some_iff] at h
  rcases h with ((⟨set, hset, rfl⟩ | ⟨-, set, hset, rfl⟩) | ⟨-, f, hf, rfl⟩) | ⟨-, f, hf, rfl⟩
  · exact keepsStatus_ite (keepsStatus_error _) (keepsStatus_ok (textField_keeps hset value))
  · split
    · exact keepsStatus_error _
    · exact keepsStatus_ok (listField_keeps hset _)
  · intro set hset p
    cases hkey : Profiles.parseBoolKey value f.1 with
    | error e =>
      rw [hkey] at hset
      cases hset
    | ok v =>
      rw [hkey] at hset
      cases hset
      exact boolField_keeps hf v p
  · exact keepsStatus_ite (keepsStatus_ok (choiceField_keeps hf _)) (keepsStatus_error _)

theorem updateAgentField_ok {now : Int} {profiles' : Profiles}
    (h : profiles.updateAgentField parseJson now agentId field value = .ok profiles') :
    (profiles.get? agentId).isSome = true ∧ ∃ f : AgentProfile → AgentProfile,
      profiles' = profiles.modify agentId f ∧
      (field = "status" ∧ ["active", "suspended", "disabled"].contains value = true ∧
          (∀ p, (f p).status = value) ∨
        field ≠ "status" ∧ ∀ p, (f p).status = p.status) := by
  unfold Profiles.updateAgentField at h
  split at h
  · cases h
  · cases h
  next set hset =>
    split at h
    next hrow =>
      cases h
      refine ⟨hrow, _, rfl, ?_⟩
      by_cases hfield : field = "status"
      · subst hfield
        left
        have hsole : profiles.soleField agentId "status" value = some (
            if ["active", "suspended", "disabled"].contains value then
              .ok (fun p => { p with status := value })
            else .error (.badInput s!"status '{value}' not in active/suspended/disabled")) := rfl
        rw [hsole, Option.some_or] at hset
        by_cases hvalue : ["active", "suspended", "disabled"].contains value = true
        · rw [if_pos hvalue] at hset
          cases hset
          exact ⟨rfl, hvalue, fun _ => rfl⟩
        · rw [if_neg hvalue] at hset
          cases hset
      · right
        refine ⟨hfield, ?_⟩
        rcases Option.or_eq_some_iff.mp hset with hsole | ⟨-, hfamily⟩
        · exact soleField_keeps hsole hfield set rfl
        · exact familyField_keeps hfamily set rfl
    · cases h

end

namespace Shared

variable {s s' : Shared} {t : Shared} {i : String}

theorem standing_insert {profiles : Profiles} {row : AgentProfile}
    (hprofiles : t.profiles = profiles.insert i row) (h : profiles = s.profiles) :
    t.standing = put i (standingOf row.status) s.standing := by
  subst h
  funext j
  unfold standing put
  rw [hprofiles, HashMap.get?_insert]
  by_cases hj : j = i
  · rw [if_pos hj, if_pos hj, Option.map_some]
  · rw [if_neg hj, if_neg hj]

variable {f : AgentProfile → AgentProfile}

theorem standing_modify {v : String} (hprofiles : t.profiles = s.profiles.modify i f)
    (hf : ∀ p, (f p).status = v) (hrow : s.standing i ≠ none) :
    t.standing = put i (standingOf v) s.standing := by
  funext j
  unfold standing put at *
  rw [hprofiles, HashMap.get?_modify]
  by_cases hj : j = i
  · subst hj
    cases hget : s.profiles.get? j with
    | none =>
      rw [hget] at hrow
      exact absurd rfl hrow
    | some p => simp [hf p]
  · rw [if_neg hj, if_neg hj]

theorem standing_keep (hprofiles : t.profiles = s.profiles.modify i f)
    (hf : ∀ p, (f p).status = p.status) : t.standing = s.standing := by
  funext j
  unfold standing
  rw [hprofiles]
  exact HashMap.map_get?_modify (fun p => by rw [hf]) s.profiles i j

theorem standing_isSome {id : String} : s.standing id ≠ none ↔
    (s.profiles.get? id).isSome = true := by
  unfold standing
  cases s.profiles.get? id <;> simp

theorem standingOf_pending {status : String} : standingOf status = .pending ↔
    status = "pending" := by
  unfold standingOf
  by_cases hp : status = "pending"
  · simp [hp]
  · by_cases ha : status = "active"
    · simp [ha]
    · simp [hp, ha]

structure Makes (s : Shared) (m : Move String Activator) (s' : Shared) : Prop where
  ledger : s'.ledger = s.ledger.move m
  enabled : s.ledger.Enabled m
  approvals : s'.approvals = s.approvals

theorem ledger_of {l : Ledger String Activator} (hstanding : s.standing = l.standing)
    (hminted : s.minted = l.minted) (hdue : s.due = l.due)
    (hactivations : s.activations = l.activations) (hrejections : s.rejections = l.rejections) :
    s.ledger = l := by
  unfold ledger
  rw [hstanding, hminted, hdue, hactivations, hrejections]

theorem createHire_makes {suffix hireId : String} {input : NewAgent}
    (h : s.createHire suffix input = .ok (hireId, s')) : s.Makes (.mint hireId) s' := by
  unfold createHire at h
  split at h
  · cases h
  next id profiles hcreate =>
    obtain ⟨rfl, rfl⟩ := Prod.mk.inj (Except.ok.inj h)
    obtain ⟨hnew, hid, hrow⟩ := createAgent_ok hcreate
    have hstanding : s.standing id = none := by
      unfold standing
      rw [hnew, Option.map_none]
    refine ⟨?_, hstanding, rfl⟩
    have hput := standing_insert (s := s) (t := { s with
      profiles := profiles, minted := id :: s.minted, due := id :: s.due }) hrow rfl
    exact ledger_of hput rfl rfl rfl rfl

theorem setPending_makes {hireId : String} (hdue : hireId ∈ s.due)
    (hrow : s.standing hireId ≠ none) : s.Makes (.settle hireId) (s.setPending hireId) := by
  refine ⟨?_, hdue, rfl⟩
  have hput := standing_modify (s := s) (t := s.setPending hireId) (v := "pending")
    (i := hireId) (f := fun p => { p with status := "pending", updatedAt := s.now }) rfl
    (fun _ => rfl) hrow
  exact ledger_of hput rfl rfl rfl rfl

def writeMove (who : VerifiedIdentity) (agentId field value : String) : Move String Activator :=
  if field = "status" then .write agentId (standingOf value) (.caller who) else .quiet

theorem standingOf_written (h : ["active", "suspended", "disabled"].contains value = true) :
    standingOf value ≠ .pending ∧ (standingOf value = .active ↔ value = "active") := by
  simp only [List.contains_cons, List.contains_nil, Bool.or_false, Bool.or_eq_true, beq_iff_eq] at h
  rcases h with rfl | rfl | rfl <;> decide

theorem writeField_makes {who : VerifiedIdentity}
    (h : s.writeField parseJson who agentId field value = .ok s') :
    s.Makes (writeMove who agentId field value) s' := by
  unfold writeField at h
  split at h
  · cases h
  next profiles hupdate =>
    cases h
    obtain ⟨hrow, f, rfl, hcase⟩ := updateAgentField_ok hupdate
    rcases hcase with ⟨rfl, hvalue, hf⟩ | ⟨hfield, hf⟩
    · obtain ⟨hpending, hactive⟩ := standingOf_written hvalue
      unfold writeMove
      refine ⟨?_, ⟨standing_isSome.mpr hrow, hpending⟩, rfl⟩
      have hput := standing_modify (s := s) (t := { s with
        profiles := s.profiles.modify agentId f
        activations := if "status" = "status" ∧ value = "active" then
          (agentId, .caller who) :: s.activations else s.activations }) rfl hf
        (standing_isSome.mpr hrow)
      refine ledger_of hput rfl rfl ?_ rfl
      by_cases hv : value = "active"
      · simp [Ledger.move, ledger, hv, standingOf]
      · have hst : standingOf value ≠ .active := fun heq => hv (hactive.mp heq)
        simp [Ledger.move, ledger, hv, hst]
    · unfold writeMove
      rw [if_neg hfield]
      refine ⟨?_, trivial, rfl⟩
      have hput := standing_keep (s := s) (t := { s with
        profiles := s.profiles.modify agentId f
        activations := if field = "status" ∧ value = "active" then
          (agentId, .caller who) :: s.activations else s.activations }) rfl hf
      exact ledger_of hput rfl rfl (by simp [Ledger.move, ledger, hfield]) rfl

theorem settleHire_ok {now : Int} {profiles profiles' : Profiles}
    (h : profiles.settleHire now agentId f = .ok profiles') :
    (profiles.get? agentId).any (fun p => p.status == "pending") = true ∧
      profiles' = profiles.modify agentId (fun p => { f p with updatedAt := now }) := by
  unfold Profiles.settleHire at h
  split at h
  next hpending =>
    cases h
    exact ⟨hpending, rfl⟩
  · cases h

theorem standing_pending
    (h : (s.profiles.get? agentId).any (fun p => p.status == "pending") = true) :
    s.standing agentId = some .pending := by
  unfold standing
  obtain ⟨p, hp, hstatus⟩ := Option.any_eq_true _ _ |>.mp h
  rw [hp, Option.map_some]
  exact congrArg some (standingOf_pending.mpr (beq_iff_eq.mp hstatus))

theorem standing_settled {v : String} (h : s.standing i = some .pending)
    (hprofiles : t.profiles = s.profiles.modify i f) (hf : ∀ p, (f p).status = v) :
    t.standing = put i (standingOf v) s.standing :=
  standing_modify hprofiles hf (by rw [h]; exact Option.some_ne_none _)

variable {by' : Activator}

theorem approveHire_makes (h : s.approveHire agentId by' = .ok s') :
    s.Makes (.activate agentId by') s' := by
  unfold approveHire at h
  split at h
  · cases h
  next profiles happrove =>
    cases h
    obtain ⟨hpending, rfl⟩ := settleHire_ok happrove
    have hstanding := standing_pending hpending
    exact ⟨ledger_of (standing_settled hstanding (v := "active") rfl (fun _ => rfl)) rfl rfl rfl
      rfl, hstanding, rfl⟩

theorem rejectHire_makes (h : s.rejectHire agentId = .ok s') : s.Makes (.reject agentId) s' := by
  unfold rejectHire at h
  split at h
  · cases h
  next profiles hreject =>
    cases h
    obtain ⟨hpending, rfl⟩ := settleHire_ok hreject
    have hstanding := standing_pending hpending
    exact ⟨ledger_of (standing_settled hstanding (v := "disabled") rfl (fun _ => rfl)) rfl rfl rfl
      rfl, hstanding, rfl⟩

theorem approveHireWithRig_makes {tenant : String} {rig : Option String}
    {outcome : Profiles.ApproveHireOutcome}
    (h : s.approveHireWithRig agentId rig tenant by' = .ok (outcome, s')) :
    s.Makes (.activate agentId by') s' := by
  unfold approveHireWithRig at h
  split at h
  · cases h
  next outcome' profiles happrove =>
    cases h
    unfold Profiles.approveHireWithRig at happrove
    split at happrove
    · cases happrove
    next row hrow =>
      split at happrove
      · cases happrove
      next hstatus =>
        have hget := (Option.filter_eq_some_iff.mp hrow).1
        have hpending : row.status = "pending" := not_not.mp hstatus
        have hstanding : s.standing agentId = some .pending := by
          unfold standing
          rw [hget, Option.map_some]
          exact congrArg some (standingOf_pending.mpr hpending)
        obtain ⟨-, hprofiles⟩ := Prod.mk.inj (Except.ok.inj happrove)
        exact ⟨ledger_of (standing_settled hstanding (v := "active") hprofiles.symm (fun _ => rfl))
          rfl rfl rfl rfl, hstanding, rfl⟩

end Shared

end Relux.Roster
