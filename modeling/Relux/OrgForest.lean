import Relux.AgentProfiles
import Relux.Transition

/-! The org tree along a run of hires and `reports_to` updates: when it stays a forest inside
each tenant, and that both walks of it agree. -/

namespace Relux.Roster

open Admission (AgentStoreError normTenant)
open Forest (upN Above Acyclic reaches)
open Transition (Guarded)

/-- A call that writes the org tree; with a tenant, the update is the tenant-scoped one. -/
inductive OrgOp
  | createAgent (now : Int) (suffix : String) (input : NewAgent)
  | requestHire (now : Int) (suffix : String) (input : NewAgent)
  | reportsTo (now : Int) (agentId : String) (tenant : Option String) (value : String)

section
variable (parseJson : String → Except String (List String)) (profiles : Profiles)

def OrgOp.exec : OrgOp → Except AgentStoreError Profiles
  | createAgent now suffix input => (profiles.createAgent now suffix input).map (·.2)
  | requestHire now suffix input => (profiles.requestHire now suffix input).map (·.2)
  | reportsTo now agentId none value =>
    profiles.updateAgentField parseJson now agentId "reports_to" value
  | reportsTo now agentId (some tenant) value =>
    profiles.updateAgentFieldForTenant parseJson now agentId tenant "reports_to" value

def OrgOp.step (op : OrgOp) : Profiles := (op.exec parseJson profiles).toOption.getD profiles

end

def Profiles.tenantOf (profiles : Profiles) (agentId : String) : Option String :=
  (profiles.get? agentId).map (·.tenantId)

structure Profiles.IsForest (profiles : Profiles) : Prop where
  acyclic : Acyclic profiles.bossOf
  tenants : ∀ a b, profiles.bossOf a = some b → profiles.tenantOf b = profiles.tenantOf a

/-- The update that names a boss is not refused: the agent and the boss are there, and the
agent is not among the first above the boss. -/
structure Profiles.SetsBoss (profiles : Profiles) (agentId : String) (tenant : Option String)
    (value : String) : Prop where
  agent : profiles.tenantOf agentId ≠ none
  owner : ∀ t, tenant = some t → profiles.tenantOf agentId = some (normTenant t)
  named : (trim value).isEmpty = false
  other : trim value ≠ agentId
  boss : profiles.tenantOf (trim value) ≠ none
  guard : ∀ k ≤ Profiles.maxChainDepth, upN profiles.bossOf k (trim value) ≠ some agentId

/-- An update that names a boss names one of the same tenant, with the agent not above it out
of the guard's reach. -/
def OrgOp.KeepsForest (profiles : Profiles) : OrgOp → Prop
  | reportsTo _ agentId tenant value => profiles.SetsBoss agentId tenant value →
      profiles.tenantOf (trim value) = profiles.tenantOf agentId ∧
        ∀ k, Profiles.maxChainDepth < k → upN profiles.bossOf k (trim value) ≠ some agentId
  | _ => True

section
variable {parseJson : String → Except String (List String)} {profiles profiles' : Profiles}
  {agentId : String}

variable {tenant : String}

theorem getAgentForTenant_isNone :
    (profiles.getAgentForTenant agentId tenant).isNone = true ↔
      profiles.tenantOf agentId ≠ some (normTenant tenant) := by
  unfold Profiles.getAgentForTenant Profiles.tenantOf
  cases profiles.get? agentId with
  | none => simp
  | some row =>
    rw [Option.map_some, Option.filter_some]
    by_cases htenant : row.tenantId = normTenant tenant
    · simp [htenant]
    · simp [htenant]

theorem get?_isSome_iff : (profiles.get? agentId).isSome = true ↔
    profiles.tenantOf agentId ≠ none := by
  unfold Profiles.tenantOf
  cases profiles.get? agentId <;> simp

theorem createAgent_ok {now : Int} {suffix id : String} {input : NewAgent}
    (h : profiles.createAgent now suffix input = .ok (id, profiles')) :
    profiles.get? id = none ∧ id = (input.row now suffix).agentId ∧
      profiles' = profiles.insert id (input.row now suffix) := by
  unfold Profiles.createAgent at h
  by_cases hfree : (profiles.get? (input.row now suffix).agentId).isSome = true
  · split at h
    · cases h
    dsimp only at h
    split at h <;> cases h
  · split at h
    · cases h
    dsimp only at h
    split at h
    · cases h
    split at h
    · cases h
    · cases h
      exact ⟨Option.not_isSome_iff_eq_none.mp hfree, rfl, rfl⟩

/-- A call that adds agents without a boss, and leaves the others as they are in the tree. -/
structure Adds (profiles profiles' : Profiles) : Prop where
  boss : profiles'.bossOf = profiles.bossOf
  tenant : ∀ id, profiles.tenantOf id ≠ none → profiles'.tenantOf id = profiles.tenantOf id
  keyed : profiles.KeyedBy (·.agentId) → profiles'.KeyedBy (·.agentId)

theorem adds_create {id : String} {row : AgentProfile} (hnew : profiles.get? id = none)
    (hid : id = row.agentId) (hboss : row.reportsTo = none) :
    Adds profiles (profiles.insert id row) := by
  refine ⟨?_, ?_, fun h => h.insert hid.symm⟩
  · funext a
    unfold Profiles.bossOf
    rw [HashMap.get?_insert]
    by_cases ha : a = id
    · rw [if_pos ha, ha, hnew, Option.bind_some, hboss, Option.bind_none]
    · rw [if_neg ha]
  · intro a ha
    unfold Profiles.tenantOf at ha ⊢
    rw [HashMap.get?_insert]
    by_cases heq : a = id
    · rw [heq, hnew] at ha
      exact absurd rfl ha
    · rw [if_neg heq]

variable {f : AgentProfile → AgentProfile}

theorem tree_modify (profiles : Profiles) (agentId : String)
    (hid : ∀ p, (f p).agentId = p.agentId) (htenant : ∀ p, (f p).tenantId = p.tenantId) :
    (∀ id, Profiles.tenantOf (profiles.modify agentId f) id = profiles.tenantOf id) ∧
      (profiles.KeyedBy (·.agentId) → (profiles.modify agentId f).KeyedBy (·.agentId)) := by
  exact ⟨HashMap.map_get?_modify htenant profiles agentId, fun h => h.modify agentId hid⟩

theorem bossOf_modify {boss : Option String}
    (hboss : ∀ p, (f p).reportsTo = boss) (hrow : profiles.tenantOf agentId ≠ none) :
    Profiles.bossOf (profiles.modify agentId f) = Function.update profiles.bossOf agentId boss := by
  funext a
  unfold Profiles.bossOf
  rw [HashMap.get?_modify, Function.update_apply]
  split
  · unfold Profiles.tenantOf at hrow
    cases hget : profiles.get? agentId with
    | none =>
      rw [hget] at hrow
      exact absurd rfl hrow
    | some row => exact hboss row
  · rfl

theorem setPending_adds {now : Int} (h : Adds profiles profiles') :
    Adds profiles (profiles'.setPending now agentId) := by
  obtain ⟨htenant, hkeyed⟩ := tree_modify profiles' agentId
    (f := fun p => { p with status := "pending", updatedAt := now }) (fun _ => rfl) (fun _ => rfl)
  refine ⟨?_, fun id hid => (htenant id).trans (h.tenant id hid), fun hk => hkeyed (h.keyed hk)⟩
  rw [← h.boss]
  funext a
  unfold Profiles.setPending Profiles.bossOf
  rw [HashMap.get?_modify]
  split
  · next heq =>
    rw [heq]
    cases profiles'.get? agentId <;> rfl
  · rfl

theorem Profiles.IsForest.adds (h : profiles.IsForest) (hadds : Adds profiles profiles') :
    profiles'.IsForest := by
  refine ⟨?_, ?_⟩
  · rw [hadds.boss]
    exact h.acyclic
  · intro a b hab
    rw [hadds.boss] at hab
    have ha : profiles.tenantOf a ≠ none := by
      unfold Profiles.bossOf at hab
      unfold Profiles.tenantOf
      cases hget : profiles.get? a with
      | none =>
        rw [hget] at hab
        cases hab
      | some row => simp
    have htenants := h.tenants a b hab
    have hb : profiles.tenantOf b ≠ none := by
      rw [htenants]
      exact ha
    rw [hadds.tenant a ha, hadds.tenant b hb]
    exact htenants

/-- The new table has the tree of the old one but for the boss of one agent, who is there. -/
structure Moves (profiles profiles' : Profiles) (agentId : String) (boss : Option String) :
    Prop where
  agent : profiles.tenantOf agentId ≠ none
  boss : profiles'.bossOf = Function.update profiles.bossOf agentId boss
  tenant : ∀ id, profiles'.tenantOf id = profiles.tenantOf id
  keyed : profiles.KeyedBy (·.agentId) → profiles'.KeyedBy (·.agentId)

theorem updateReportsTo_cases (now : Int) (agentId value : String) :
    (∃ e, profiles.updateAgentField parseJson now agentId "reports_to" value = .error e ∧
      ¬ profiles.SetsBoss agentId none value) ∨
    ∃ profiles', profiles.updateAgentField parseJson now agentId "reports_to" value =
        .ok profiles' ∧
      (((trim value).isEmpty = true ∧ Moves profiles profiles' agentId none) ∨
        (profiles.SetsBoss agentId none value ∧
          Moves profiles profiles' agentId (some (trim value)))) := by
  have hupdate : profiles.updateAgentField parseJson now agentId "reports_to" value =
      match profiles.reportsToEdit agentId value with
      | .error e => .error e
      | .ok set =>
        if (profiles.get? agentId).isSome then
          .ok (profiles.modify agentId (fun p => { set p with updatedAt := now }))
        else .error (.notFound agentId) := by
    unfold Profiles.updateAgentField Profiles.soleField
    cases profiles.reportsToEdit agentId value <;> rfl
  rw [hupdate]
  have hmoves : ∀ {f : AgentProfile → AgentProfile} {boss : Option String},
      (∀ p, (f p).reportsTo = boss) → (∀ p, (f p).agentId = p.agentId) →
      (∀ p, (f p).tenantId = p.tenantId) → (profiles.get? agentId).isSome = true →
      Moves profiles (profiles.modify agentId f) agentId boss := by
    intro f boss hboss hid htenant hsome
    have hrow := get?_isSome_iff.mp hsome
    obtain ⟨htenants, hkeyed⟩ := tree_modify profiles agentId hid htenant
    exact ⟨hrow, bossOf_modify hboss hrow, htenants, hkeyed⟩
  unfold Profiles.reportsToEdit
  by_cases hempty : (trim value).isEmpty = true
  · simp only [if_pos hempty]
    by_cases hsome : (profiles.get? agentId).isSome = true
    · rw [if_pos hsome]
      exact .inr ⟨_, rfl, .inl ⟨hempty, hmoves (fun _ => rfl) (fun _ => rfl) (fun _ => rfl) hsome⟩⟩
    · rw [if_neg hsome]
      refine .inl ⟨_, rfl, fun h => ?_⟩
      exact Bool.eq_false_iff.mp h.named hempty
  · simp only [if_neg hempty]
    by_cases hself : trim value = agentId
    · simp only [if_pos hself]
      exact .inl ⟨_, rfl, fun h => h.other hself⟩
    · simp only [if_neg hself]
      by_cases hboss : (profiles.get? (trim value)).isNone = true
      · simp only [if_pos hboss]
        refine .inl ⟨_, rfl, fun h => ?_⟩
        have hsome := get?_isSome_iff.mpr h.boss
        rw [Option.isNone_iff_eq_none.mp hboss] at hsome
        cases hsome
      · simp only [if_neg hboss]
        by_cases hreaches : reaches profiles.bossOf agentId Profiles.maxChainDepth (trim value) = true
        · simp only [if_pos hreaches]
          obtain ⟨k, hk, hup⟩ := Forest.reaches_iff.mp hreaches
          exact .inl ⟨_, rfl, fun h => h.guard k hk hup⟩
        · simp only [if_neg hreaches]
          by_cases hsome : (profiles.get? agentId).isSome = true
          · rw [if_pos hsome]
            refine .inr ⟨_, rfl, .inr ⟨?_, hmoves (fun _ => rfl) (fun _ => rfl) (fun _ => rfl)
              hsome⟩⟩
            refine ⟨get?_isSome_iff.mp hsome, fun t ht => (by cases ht),
              Bool.eq_false_iff.mpr hempty, hself, get?_isSome_iff.mp ?_, ?_⟩
            · rw [Option.isSome_iff_ne_none, ne_eq, ← Option.isNone_iff_eq_none]
              exact hboss
            · exact fun k hk hup => hreaches (Forest.reaches_iff.mpr ⟨k, hk, hup⟩)
          · rw [if_neg hsome]
            exact .inl ⟨_, rfl, fun h => hsome (get?_isSome_iff.mpr h.agent)⟩

theorem SetsBoss.of_tenant {value : String}
    (howner : profiles.tenantOf agentId = some (normTenant tenant)) :
    profiles.SetsBoss agentId (some tenant) value ↔ profiles.SetsBoss agentId none value := by
  constructor
  · exact fun h => ⟨h.agent, fun t ht => (by cases ht), h.named, h.other, h.boss, h.guard⟩
  · intro h
    refine ⟨h.agent, fun t ht => ?_, h.named, h.other, h.boss, h.guard⟩
    cases ht
    exact howner

inductive TreeStep (profiles : Profiles) : OrgOp → Profiles → Prop
  | kept {op} (h : op.KeepsForest profiles) : TreeStep profiles op profiles
  | added {op profiles'} (h : op.KeepsForest profiles) (hadds : Adds profiles profiles') :
      TreeStep profiles op profiles'
  | cleared {op profiles' agentId} (h : op.KeepsForest profiles)
      (hmoves : Moves profiles profiles' agentId none) : TreeStep profiles op profiles'
  | moved {now agentId tenant value profiles'} (h : profiles.SetsBoss agentId tenant value)
      (hmoves : Moves profiles profiles' agentId (some (trim value))) :
      TreeStep profiles (.reportsTo now agentId tenant value) profiles'

theorem OrgOp.treeStep (op : OrgOp) : TreeStep profiles op (op.step parseJson profiles) := by
  have hcreate : ∀ (now : Int) (suffix : String) (input : NewAgent),
      (∃ e, profiles.createAgent now suffix input = .error e) ∨
      ∃ r, profiles.createAgent now suffix input = .ok r ∧ Adds profiles r.2 := by
    intro now suffix input
    cases hr : profiles.createAgent now suffix input with
    | error e => exact .inl ⟨e, rfl⟩
    | ok r =>
      obtain ⟨hnew, hid, hrow⟩ := createAgent_ok hr
      refine .inr ⟨r, rfl, ?_⟩
      rw [hrow]
      exact adds_create hnew hid rfl
  have hreports : ∀ (now : Int) (agentId : String) (tenant : Option String) (value : String),
      (∀ t, tenant = some t → profiles.tenantOf agentId = some (normTenant t)) →
      (profiles.SetsBoss agentId tenant value ↔ profiles.SetsBoss agentId none value) →
      (OrgOp.reportsTo now agentId tenant value).exec parseJson profiles =
        profiles.updateAgentField parseJson now agentId "reports_to" value →
      TreeStep profiles (.reportsTo now agentId tenant value)
        ((OrgOp.reportsTo now agentId tenant value).step parseJson profiles) := by
    intro now agentId tenant value howner hiff hexec
    unfold OrgOp.step
    rw [hexec]
    rcases updateReportsTo_cases now agentId value with
      ⟨e, herror, hnot⟩ | ⟨profiles', hok, ⟨hempty, hmoves⟩ | ⟨hsets, hmoves⟩⟩
    · rw [herror]
      exact .kept (fun h => absurd (hiff.mp h) hnot)
    · rw [hok]
      refine .cleared (fun h => ?_) hmoves
      exact absurd hempty (Bool.eq_false_iff.mp h.named)
    · rw [hok]
      exact .moved (hiff.mpr hsets) hmoves
  cases op with
  | createAgent now suffix input =>
    rcases hcreate now suffix input with ⟨e, herror⟩ | ⟨r, hok, hadds⟩
    · simp only [OrgOp.step, OrgOp.exec, herror]
      exact .kept trivial
    · simp only [OrgOp.step, OrgOp.exec, hok]
      exact .added trivial hadds
  | requestHire now suffix input =>
    rcases hcreate now suffix input with ⟨e, herror⟩ | ⟨r, hok, hadds⟩
    · simp only [OrgOp.step, OrgOp.exec, Profiles.requestHire, herror]
      exact .kept trivial
    · simp only [OrgOp.step, OrgOp.exec, Profiles.requestHire, hok]
      exact .added trivial (setPending_adds hadds)
  | reportsTo now agentId tenant value =>
    cases tenant with
    | none => exact hreports now agentId none value (fun t ht => by cases ht) Iff.rfl rfl
    | some tenant =>
      by_cases howner : profiles.tenantOf agentId = some (normTenant tenant)
      · have hseen : ¬ (profiles.getAgentForTenant agentId tenant).isNone = true :=
          fun h => getAgentForTenant_isNone.mp h howner
        refine hreports now agentId (some tenant) value ?_ (SetsBoss.of_tenant howner) ?_
        · intro t ht
          cases ht
          exact howner
        · simp only [OrgOp.exec, Profiles.updateAgentFieldForTenant, if_neg hseen]
      · simp only [OrgOp.step, OrgOp.exec, Profiles.updateAgentFieldForTenant,
          if_pos (getAgentForTenant_isNone.mpr howner)]
        exact .kept (fun h => absurd (h.owner tenant rfl) howner)

theorem Profiles.IsForest.moved_iff (h : profiles.IsForest) {boss : String}
    (hmoves : Moves profiles profiles' agentId (some boss)) :
    profiles'.IsForest ↔ profiles.tenantOf boss = profiles.tenantOf agentId ∧
      ∀ k, upN profiles.bossOf k boss ≠ some agentId := by
  constructor
  · intro h'
    refine ⟨?_, fun k hk => ?_⟩
    · have hself : profiles'.bossOf agentId = some boss := by
        rw [hmoves.boss]
        exact Function.update_self agentId (some boss) profiles.bossOf
      have htenants := h'.tenants agentId boss hself
      rw [hmoves.tenant, hmoves.tenant] at htenants
      exact htenants
    · have hloop := h.acyclic.loop hk
      rw [← hmoves.boss] at hloop
      exact hloop h'.acyclic
  · rintro ⟨htenant, habove⟩
    refine ⟨?_, fun a b hab => ?_⟩
    · rw [hmoves.boss]
      exact h.acyclic.update habove
    · rw [hmoves.boss, Function.update_apply] at hab
      rw [hmoves.tenant, hmoves.tenant]
      split at hab
      · next heq =>
        cases hab
        rw [heq]
        exact htenant
      · exact h.tenants a b hab

theorem Profiles.IsForest.cleared (h : profiles.IsForest)
    (hmoves : Moves profiles profiles' agentId none) : profiles'.IsForest := by
  refine ⟨?_, fun a b hab => ?_⟩
  · rw [hmoves.boss]
    exact h.acyclic.clear agentId
  · rw [hmoves.boss, Function.update_apply] at hab
    rw [hmoves.tenant, hmoves.tenant]
    split at hab
    · cases hab
    · exact h.tenants a b hab

theorem OrgOp.keepsForest_iff (h : profiles.IsForest) (op : OrgOp) :
    (op.step parseJson profiles).IsForest ↔ op.KeepsForest profiles := by
  have hstep : TreeStep profiles op (op.step parseJson profiles) := op.treeStep
  generalize op.step parseJson profiles = profiles' at hstep ⊢
  cases hstep with
  | kept hkeeps => exact ⟨fun _ => hkeeps, fun _ => h⟩
  | added hkeeps hadds => exact ⟨fun _ => hkeeps, fun _ => h.adds hadds⟩
  | cleared hkeeps hmoves => exact ⟨fun _ => hkeeps, fun _ => h.cleared hmoves⟩
  | moved hsets hmoves =>
    rw [h.moved_iff hmoves]
    constructor
    · exact fun hboth _ => ⟨hboth.1, fun k _ => hboth.2 k⟩
    · intro hkeeps
      obtain ⟨htenant, hfar⟩ := hkeeps hsets
      refine ⟨htenant, fun k => ?_⟩
      by_cases hk : k ≤ Profiles.maxChainDepth
      · exact hsets.guard k hk
      · exact hfar k (Nat.lt_of_not_le hk)

theorem OrgOp.step_keyed (op : OrgOp) (h : profiles.KeyedBy (·.agentId)) :
    (op.step parseJson profiles).KeyedBy (·.agentId) := by
  have hstep : TreeStep profiles op (op.step parseJson profiles) := op.treeStep
  generalize op.step parseJson profiles = profiles' at hstep ⊢
  cases hstep with
  | kept _ => exact h
  | added _ hadds => exact hadds.keyed h
  | cleared _ hmoves => exact hmoves.keyed h
  | moved _ hmoves => exact hmoves.keyed h

theorem bossIn_bossOf {a b : String} (h : profiles.bossIn tenant a = some b) :
    profiles.bossOf a = some b := by
  unfold Profiles.bossIn Profiles.getAgentForTenant at h
  unfold Profiles.bossOf
  cases hget : profiles.get? a with
  | none =>
    rw [hget] at h
    cases h
  | some row =>
    rw [hget, Option.filter_some] at h
    split at h
    · exact h
    · cases h

theorem mem_reportsIn (hkeyed : profiles.KeyedBy (·.agentId)) {manager a : String} :
    a ∈ profiles.reportsIn tenant manager ↔ profiles.bossIn tenant a = some manager := by
  unfold Profiles.reportsIn Profiles.bossIn Profiles.getAgentForTenant
  rw [List.mem_map]
  constructor
  · rintro ⟨row, hrow, rfl⟩
    rw [List.mem_filter, HashMap.mem_values, Bool.and_eq_true, beq_iff_eq] at hrow
    obtain ⟨⟨id, hget⟩, hboss, htenant⟩ := hrow
    have hid : row.agentId = id := hkeyed id row hget
    rw [hid, hget, Option.filter_some, if_pos htenant]
    exact hboss
  · intro h
    obtain ⟨row, hrow, hboss⟩ := Option.bind_eq_some_iff.mp h
    obtain ⟨hget, htenant⟩ := Option.filter_eq_some_iff.mp hrow
    refine ⟨row, ?_, hkeyed a row hget⟩
    rw [List.mem_filter, HashMap.mem_values, Bool.and_eq_true, beq_iff_eq]
    exact ⟨⟨a, hget⟩, hboss, htenant⟩

def BranchesWithin (profiles : Profiles) (tenant : String) (cap : Nat) : Prop :=
  ∀ (manager : String) (l : List String), l.Nodup →
    (∀ a ∈ l, a ≠ manager ∧ Above (profiles.bossIn tenant) a manager) → l.length ≤ cap

theorem managesForTenant_iff (hkeyed : profiles.KeyedBy (·.agentId))
    (hwithin : BranchesWithin profiles tenant Profiles.maxNodes) (manager target : String) :
    profiles.managesForTenant manager target tenant = true ↔
      target ≠ manager ∧ Above (profiles.bossIn tenant) target manager := by
  have hmem : target ∈ profiles.managerSubtreeForTenant manager tenant ↔
      target ≠ manager ∧ Above (profiles.bossIn tenant) target manager :=
    Forest.mem_descend (fun a c => mem_reportsIn hkeyed) (hwithin manager)
  unfold Profiles.managesForTenant
  by_cases heq : manager = target
  · rw [if_pos heq]
    exact ⟨fun h => (by cases h), fun h => absurd heq.symm h.1⟩
  · rw [if_neg heq, List.any_beq', List.contains_iff_mem]
    exact hmem

theorem walks_agree_iff (hkeyed : profiles.KeyedBy (·.agentId)) (h : Acyclic profiles.bossOf)
    (hwithin : BranchesWithin profiles tenant Profiles.maxNodes) :
    (∀ manager target, profiles.managesForTenant manager target tenant = true ↔
      manager ∈ profiles.chainOfCommandForTenant target tenant) ↔
    Forest.Bounded Profiles.maxDepth (profiles.bossIn tenant) := by
  have hacyclic : Acyclic (profiles.bossIn tenant) := h.mono (fun a b => bossIn_bossOf)
  rw [← hacyclic.climb_eq_above_iff]
  have hmanages : ∀ manager target, profiles.managesForTenant manager target tenant = true ↔
      Above (profiles.bossIn tenant) target manager := by
    intro manager target
    rw [managesForTenant_iff hkeyed hwithin]
    refine ⟨fun hboth => hboth.2, fun habove => ⟨?_, habove⟩⟩
    rintro rfl
    exact hacyclic target habove
  constructor
  · intro hagree a b
    rw [← hmanages]
    exact (hagree b a).symm
  · intro hclimb manager target
    rw [hmanages]
    exact (hclimb target manager).symm

end

def OrgOp.run (parseJson : String → Except String (List String)) (ops : List OrgOp) : Profiles :=
  Transition.run (OrgOp.step parseJson) HashMap.empty ops

/-- All along a run the tree is a forest with every boss in its agent's tenant, exactly if every
update that sets a boss names one of the tenant and closes no loop out of the guard's reach; and
then, in a tenant without a Branch of more agents than the search finds, a manager is what the
agent's line of command has, exactly if no line is longer than the climb. -/
theorem org_tree_forest_iff (parseJson : String → Except String (List String))
    (ops : List OrgOp) :
    ((∀ pre, pre <+: ops → (OrgOp.run parseJson pre).IsForest) ↔
      Guarded (OrgOp.step parseJson) OrgOp.KeepsForest HashMap.empty ops) ∧
    (Guarded (OrgOp.step parseJson) OrgOp.KeepsForest HashMap.empty ops →
      ∀ pre, pre <+: ops → ∀ tenant : String,
        BranchesWithin (OrgOp.run parseJson pre) tenant Profiles.maxNodes →
        ((∀ manager target,
            (OrgOp.run parseJson pre).managesForTenant manager target tenant = true ↔
              manager ∈ (OrgOp.run parseJson pre).chainOfCommandForTenant target tenant) ↔
          Forest.Bounded Profiles.maxDepth ((OrgOp.run parseJson pre).bossIn tenant))) := by
  have hempty : HashMap.KeyedBy (HashMap.empty : Profiles) (·.agentId) := HashMap.KeyedBy.empty _
  have hforest : Profiles.IsForest HashMap.empty := by
    refine ⟨?_, fun a b hab => by cases hab⟩
    rw [Forest.acyclic_iff]
    intro a n hn
    cases hn
  have hkept : ∀ (p : Profiles) (op : OrgOp), p.KeyedBy (·.agentId) →
      (OrgOp.step parseJson p op).KeyedBy (·.agentId) := fun p op hp => op.step_keyed hp
  have hgood : ∀ (p : Profiles) (op : OrgOp), p.KeyedBy (·.agentId) → p.IsForest →
      ((OrgOp.step parseJson p op).IsForest ↔ op.KeepsForest p) :=
    fun p op _ hp => op.keepsForest_iff hp
  have hiff := Transition.prefixes_iff_guarded hkept hgood hempty hforest ops
  refine ⟨hiff, ?_⟩
  intro hguarded pre hpre tenant hwithin
  have hkeyed : HashMap.KeyedBy (OrgOp.run parseJson pre) (·.agentId) :=
    Transition.invariant_run (fun p op hp (_ : True) => hkept p op hp) hempty
      (Transition.guarded_true _ _ pre)
  exact walks_agree_iff hkeyed (hiff.mpr hguarded pre hpre).acyclic hwithin

def hire (subjectId tenantId : String) : NewAgent :=
  ⟨"Ada", "ic", "Engineer", "eng", "core", "board", subjectId, "low", tenantId⟩

/-- An agent is put under one of another tenant. -/
theorem boss_of_another_tenant :
    ¬ (OrgOp.run (fun _ => .ok [])
      [.createAgent 0 "00000001" (hire "subject-a" "tenant-a"),
        .createAgent 0 "00000002" (hire "subject-b" "tenant-b"),
        .reportsTo 0 "agt_ic_00000002" (some "tenant-b") "agt_ic_00000001"]).IsForest := by
  intro h
  have hboss : Profiles.bossOf (OrgOp.run (fun _ => .ok [])
      [.createAgent 0 "00000001" (hire "subject-a" "tenant-a"),
        .createAgent 0 "00000002" (hire "subject-b" "tenant-b"),
        .reportsTo 0 "agt_ic_00000002" (some "tenant-b") "agt_ic_00000001"])
      "agt_ic_00000002" = some "agt_ic_00000001" := by decide +kernel
  have htenant := h.tenants _ _ hboss
  revert htenant
  decide +kernel

end Relux.Roster
