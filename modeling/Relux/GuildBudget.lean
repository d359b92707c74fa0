import Mathlib.Data.List.Perm.Subperm
import Mathlib.Data.List.Sort
import Relux.AgentProfiles
import Relux.AllowanceWindow
import Relux.BriefGraph
import Relux.Transition

/-! What the autonomous dispatch may spend: the allowance of an Operative, the budget of its Guild
and the gate that holds both. -/

namespace Relux.Allowance

open Admission (normTenant AgentStoreError)
open BriefGraph (Guild)
open Roster (NewAgent Profiles AgentProfile)

def OPERATIVE_BUDGET_EVENT : String := "brief.budget_refused"
def OPERATIVE_BUDGET_STATUS : String := "over_allowance"
def GUILD_BUDGET_EVENT : String := "guild.budget_refused"
def GUILD_BUDGET_STATUS : String := "over_guild_budget"

def MICROS_PER_CENT : Nat := 10000
def u64Max : Nat := 18446744073709551615
def i64Max : Nat := 9223372036854775807

def saturatingAdd (a b : Nat) : Nat := min (a + b) u64Max
def saturatingMul (a b : Nat) : Nat := min (a * b) u64Max

inductive BudgetAdmission
  | allow
  | refuse (reason event status : String)
  deriving DecidableEq, Repr

def allowanceAdmits (allowanceCents : Option Int) (spendMicros : Nat) : BudgetAdmission :=
  match allowanceCents with
  | none => .allow
  | some c =>
    if c ≤ 0 then
      .refuse "allowance=0 (hard-stopped)" OPERATIVE_BUDGET_EVENT OPERATIVE_BUDGET_STATUS
    else
      let capMicros := saturatingMul c.toNat MICROS_PER_CENT
      if capMicros ≤ spendMicros then
        .refuse s!"over monthly allowance (used {spendMicros}u >= cap {capMicros}u)"
          OPERATIVE_BUDGET_EVENT OPERATIVE_BUDGET_STATUS
      else .allow

def guildAllowanceAdmits (budgetCents : Option Int) (guildSpendMicros : Nat) : BudgetAdmission :=
  match budgetCents with
  | none => .allow
  | some c =>
    if c ≤ 0 then .allow
    else
      let capMicros := saturatingMul c.toNat MICROS_PER_CENT
      if capMicros ≤ guildSpendMicros then
        .refuse s!"over Guild budget (Guild used {guildSpendMicros}u >= cap {capMicros}u)"
          GUILD_BUDGET_EVENT GUILD_BUDGET_STATUS
      else .allow

structure Cost where
  agentName : String
  timestampMs : Int
  costMicros : Nat
  deriving DecidableEq

def costOf (ledger : List Cost) (agent : String) (within : Int → Bool) : Nat :=
  (ledger.filter (fun row => row.agentName == agent && within row.timestampMs)).foldr
    (fun row n => row.costMicros + n) 0

/-- `SUM(cost_micros)`; the database fails on a sum that is no `i64`. -/
def costSince (ledger : List Cost) (agent : String) (sinceMs : Int) : Option Nat :=
  if costOf ledger agent (fun ts => sinceMs ≤ ts) ≤ i64Max then
    some (costOf ledger agent (fun ts => sinceMs ≤ ts))
  else none

def listActiveForTenant (profiles : Profiles) (tenant : String) : List (String × AgentProfile) :=
  (profiles.entries.filter
    (fun e => e.2.tenantId == normTenant tenant && e.2.status == "active")).insertionSort
      (fun a b => a.2.createdAt ≤ b.2.createdAt)

def guildSpendMicros (profiles : Profiles) (ledger : List Cost) (tenant : String)
    (sinceMs : Int) : Nat :=
  (listActiveForTenant profiles tenant).foldl
    (fun guildSpend e => saturatingAdd guildSpend ((costSince ledger e.1 sinceMs).getD 0)) 0

structure BriefCard where
  taskId : String
  assigneeAgentId : Option String
  deriving DecidableEq

/-- The stores: Briefs with the Guild stamped on them, agents, the budgets of the Guilds in
cents, the costs, and what the ticks started and refused. -/
structure Company where
  tasks : HashMap String (Option Guild)
  profiles : Profiles
  guilds : HashMap String (Option Int)
  ledger : List Cost
  started : List (String × String × Int)
  refused : List (String × String × String × String)

namespace Company

variable (s : Company)

def taskTenant (taskId : String) : Option String :=
  (s.tasks.get? taskId).map (fun tenant => (tenant.map (·.name)).getD "default")

/-- `normalize_tenant` of the Guilds' store, which does not trim. -/
def guildKey (tenant : String) : String := if (trim tenant).isEmpty then "default" else tenant

def operativeGate (assignee : String) (metrics : Option (List Cost)) (sinceMs : Int) :
    BudgetAdmission :=
  match (s.profiles.get? assignee).bind (·.monthlyAllowanceCents) with
  | none => .allow
  | some cap =>
    let spend := (metrics.bind (fun ledger => costSince ledger assignee sinceMs)).getD 0
    match allowanceAdmits (some cap) spend with
    | .allow => .allow
    | .refuse reason event status =>
      .refuse (s!"budget_refused: agent_id={assignee} allowance={cap}c used={spend}u " ++
        s!"reason={reason}") event status

def guildGate (taskId assignee : String) (spine : Option (HashMap String (Option Int)))
    (metrics : Option (List Cost)) (sinceMs : Int) : BudgetAdmission :=
  match spine, metrics with
  | some guilds, some ledger =>
    match s.taskTenant taskId with
    | none => .allow
    | some tenant =>
      match ((guilds.get? (guildKey tenant)).bind id).filter (fun b => 0 < b) with
      | none => .allow
      | some budget =>
        let guildSpend := guildSpendMicros s.profiles ledger tenant sinceMs
        match guildAllowanceAdmits (some budget) guildSpend with
        | .allow => .allow
        | .refuse reason event status =>
          .refuse (s!"guild_budget_refused: tenant={tenant} brief={taskId} assignee={assignee} " ++
            s!"budget={budget}c guild_used={guildSpend}u reason={reason}") event status
  | _, _ => .allow

def dispatchBudgetAdmits (card : BriefCard) (spine : Option (HashMap String (Option Int)))
    (metrics : Option (List Cost)) (nowMs : Int) : BudgetAdmission :=
  match card.assigneeAgentId with
  | none => .allow
  | some assignee =>
    let sinceMs := (allowanceWindow nowMs).startMs
    match s.operativeGate assignee metrics sinceMs with
    | .refuse reason event status => .refuse reason event status
    | .allow => s.guildGate card.taskId assignee spine metrics sinceMs

def admits (card : BriefCard) (nowMs : Int) : BudgetAdmission :=
  s.dispatchBudgetAdmits card (some s.guilds) (some s.ledger) nowMs

/-- What a heartbeat does with a Brief that it has claimed. `available` says whether the Rig of
the Operative is found and answers its probe. -/
def dispatchClaimed (card : BriefCard) (nowMs : Int) (available : Bool) : Company :=
  match s.admits card nowMs with
  | .refuse reason event status =>
    { s with refused := (card.taskId, event, status, reason) :: s.refused }
  | .allow =>
    let assignee := card.assigneeAgentId.getD ""
    if available && (s.profiles.get? assignee).any (fun p => p.status == "active") then
      { s with started := (card.taskId, assignee, nowMs) :: s.started }
    else s

def withProfiles (r : Except AgentStoreError Profiles) : Company :=
  { s with profiles := r.toOption.getD s.profiles }

def setGuildAllowance (tenant : String) (cents : Option Int) : Company :=
  if cents.any (fun c => decide (c < 0)) then s
  else { s with guilds := s.guilds.insert (guildKey tenant) cents }

end Company

/-- What happens to the stores: hires, edits and decisions of agents, budgets, Briefs, runs that
end with their cost, and the dispatch of claimed Briefs. -/
inductive CompanyOp
  | createAgent (now : Int) (suffix : String) (input : NewAgent)
  | requestHire (now : Int) (suffix : String) (input : NewAgent)
  | approveHire (now : Int) (agentId : String)
  | approveHireWithRig (now : Int) (agentId : String) (rig : Option String) (tenant : String)
  | rejectHire (now : Int) (agentId : String)
  | updateAgentField (now : Int) (agentId : String) (tenant : Option String)
      (field value : String)
  | setGuildAllowance (tenant : String) (cents : Option Int)
  | createBrief (taskId : String) (guild : Option Guild)
  | completeRun (cost : Cost)
  | heartbeat (card : BriefCard) (nowMs : Int) (available : Bool)

def CompanyOp.step (parseJson : String → Except String (List String)) (s : Company) :
    CompanyOp → Company
  | createAgent now suffix input =>
    s.withProfiles ((s.profiles.createAgent now suffix input).map (·.2))
  | requestHire now suffix input =>
    s.withProfiles ((s.profiles.requestHire now suffix input).map (·.2))
  | approveHire now agentId => s.withProfiles (s.profiles.approveHire now agentId)
  | approveHireWithRig now agentId rig tenant =>
    s.withProfiles ((s.profiles.approveHireWithRig now agentId rig tenant).map (·.2))
  | rejectHire now agentId => s.withProfiles (s.profiles.rejectHire now agentId)
  | updateAgentField now agentId none field value =>
    s.withProfiles (s.profiles.updateAgentField parseJson now agentId field value)
  | updateAgentField now agentId (some tenant) field value =>
    s.withProfiles (s.profiles.updateAgentFieldForTenant parseJson now agentId tenant field value)
  | setGuildAllowance tenant cents => s.setGuildAllowance tenant cents
  | createBrief taskId guild =>
    if (s.tasks.get? taskId).isSome then s else { s with tasks := s.tasks.insert taskId guild }
  | completeRun cost => { s with ledger := s.ledger ++ [cost] }
  | heartbeat card nowMs available => s.dispatchClaimed card nowMs available

def Company.initial : Company := ⟨.empty, .empty, .empty, [], [], []⟩

end Relux.Allowance

/-! How long a spent Guild budget holds the autonomous dispatch, and that a spent allowance always
does. -/

namespace Relux.Allowance

open Admission (normTenant)
open BriefGraph (Guild)
open Transition (run Guarded)

def sumOver (f : String → Nat) (ids : List String) : Nat := ids.foldr (fun i n => f i + n) 0

variable {f : String → Nat} {ids ids' : List String}

theorem sumOver_perm (h : ids.Perm ids') : sumOver f ids = sumOver f ids' := by
  induction h with
  | nil => rfl
  | cons i _ ih => exact congrArg (f i + ·) ih
  | swap i j l => exact Nat.add_left_comm _ _ _
  | trans _ _ ih ih' => exact ih.trans ih'

theorem sumOver_sublist (h : ids.Sublist ids') : sumOver f ids ≤ sumOver f ids' := by
  induction h with
  | slnil => exact Nat.le_refl _
  | cons i _ ih => exact Nat.le_trans ih (Nat.le_add_left _ _)
  | cons_cons i _ ih => exact Nat.add_le_add_left ih _

theorem sumOver_subset (hnodup : ids.Nodup) (h : ids ⊆ ids') : sumOver f ids ≤ sumOver f ids' := by
  obtain ⟨l, hperm, hsub⟩ := hnodup.subperm h
  rw [← sumOver_perm hperm]
  exact sumOver_sublist hsub

theorem sumOver_le {g : String → Nat} (h : ∀ i ∈ ids, f i ≤ g i) :
    sumOver f ids ≤ sumOver g ids := by
  induction ids with
  | nil => exact Nat.le_refl _
  | cons i ids ih =>
    have hhead := h i List.mem_cons_self
    have htail := ih (fun j hj => h j (List.mem_cons_of_mem _ hj))
    exact Nat.add_le_add hhead htail

section
variable {ledger : List Cost} {agent : String}

theorem costOf_cons (row : Cost) (within : Int → Bool) : costOf (row :: ledger) agent within =
    (if row.agentName == agent && within row.timestampMs then row.costMicros else 0) +
      costOf ledger agent within := by
  by_cases hin : (row.agentName == agent && within row.timestampMs) = true
  · simp only [costOf, List.filter_cons, hin, if_true, List.foldr_cons]
  · simp only [costOf, List.filter_cons, hin, Bool.false_eq_true, if_false, Nat.zero_add]

theorem costOf_mono {p q : Int → Bool} (h : ∀ ts, p ts = true → q ts = true) :
    costOf ledger agent p ≤ costOf ledger agent q := by
  induction ledger with
  | nil => exact Nat.le_refl _
  | cons row ledger ih =>
    rw [costOf_cons, costOf_cons]
    by_cases hp : (row.agentName == agent && p row.timestampMs) = true
    · have hboth := Bool.and_eq_true_iff.mp hp
      have hq : (row.agentName == agent && q row.timestampMs) = true :=
        Bool.and_eq_true_iff.mpr ⟨hboth.1, h _ hboth.2⟩
      rw [if_pos hp, if_pos hq]
      omega
    · rw [if_neg hp]
      omega

theorem costOf_append (row : Cost) (within : Int → Bool) :
    costOf ledger agent within ≤ costOf (ledger ++ [row]) agent within := by
  induction ledger with
  | nil => exact Nat.zero_le _
  | cons first ledger ih =>
    rw [List.cons_append, costOf_cons, costOf_cons]
    omega

end

theorem foldl_saturating {β : Type} (f : String → Nat) (l : List (String × β)) (n : Nat)
    (hn : n ≤ u64Max) :
    l.foldl (fun n e => saturatingAdd n (f e.1)) n =
      min (n + sumOver f (l.map Prod.fst)) u64Max := by
  induction l generalizing n with
  | nil => exact (Nat.min_eq_left hn).symm
  | cons e l ih =>
    rw [List.foldl_cons, ih (saturatingAdd n (f e.1)) (Nat.min_le_right _ _)]
    simp only [saturatingAdd, List.map_cons, sumOver, List.foldr_cons]
    omega

variable {card : BriefCard} {nowMs : Int} {assignee : String}

namespace Company

variable {s : Company} {tenant : String}

def activeIds (s : Company) (tenant : String) : List String :=
  (listActiveForTenant s.profiles tenant).map Prod.fst

def activeSpend (s : Company) (tenant : String) (month : AllowanceWindow) : Nat :=
  sumOver (fun id => costOf s.ledger id
    (fun ts => month.startMs ≤ ts && ts < month.resetsAtMs)) (s.activeIds tenant)

def Summable (s : Company) (tenant : String) (sinceMs : Int) : Prop :=
  ∀ id ∈ s.activeIds tenant, costOf s.ledger id (fun ts => sinceMs ≤ ts) ≤ i64Max

theorem activeIds_nodup (s : Company) (tenant : String) : (s.activeIds tenant).Nodup := by
  have hperm := List.perm_insertionSort
    (fun a b : String × Roster.AgentProfile => a.2.createdAt ≤ b.2.createdAt)
    (s.profiles.entries.filter
      (fun e => e.2.tenantId == normTenant tenant && e.2.status == "active"))
  exact (hperm.map Prod.fst).nodup_iff.mpr
    (s.profiles.keys_nodup.sublist (List.filter_sublist.map _))

theorem guildSpendMicros_eq {sinceMs : Int} (h : s.Summable tenant sinceMs) :
    guildSpendMicros s.profiles s.ledger tenant sinceMs =
      min (sumOver (fun id => costOf s.ledger id (fun ts => sinceMs ≤ ts)) (s.activeIds tenant))
        u64Max := by
  have hfold := foldl_saturating (fun id => (costSince s.ledger id sinceMs).getD 0)
    (listActiveForTenant s.profiles tenant) 0 (Nat.zero_le _)
  rw [guildSpendMicros, hfold, Nat.zero_add]
  congr 1
  apply Nat.le_antisymm
  · apply sumOver_le
    intro id hid
    rw [costSince, if_pos (h id hid)]
    exact Nat.le_refl _
  · apply sumOver_le
    intro id hid
    rw [costSince, if_pos (h id hid)]
    exact Nat.le_refl _

theorem guildAllowanceAdmits_refuses {budget : Int} {spend : Nat} (hpos : 0 < budget)
    (hspent : saturatingMul budget.toNat MICROS_PER_CENT ≤ spend) :
    ∃ reason, guildAllowanceAdmits (some budget) spend =
      .refuse reason GUILD_BUDGET_EVENT GUILD_BUDGET_STATUS := by
  simp only [guildAllowanceAdmits]
  rw [if_neg (by omega), if_pos hspent]
  exact ⟨_, rfl⟩

theorem allowanceAdmits_refuses {cap : Int} {spend : Nat}
    (hspent : cap ≤ 0 ∨ saturatingMul cap.toNat MICROS_PER_CENT ≤ spend) :
    ∃ reason, allowanceAdmits (some cap) spend =
      .refuse reason OPERATIVE_BUDGET_EVENT OPERATIVE_BUDGET_STATUS := by
  simp only [allowanceAdmits]
  by_cases hzero : cap ≤ 0
  · rw [if_pos hzero]
    exact ⟨_, rfl⟩
  · rw [if_neg hzero]
    rcases hspent with hcap | hspent
    · exact absurd hcap hzero
    · rw [if_pos hspent]
      exact ⟨_, rfl⟩

theorem admits_refuses_operative (hcard : card.assigneeAgentId = some assignee) {cap : Int}
    (hcap : (s.profiles.get? assignee).bind (·.monthlyAllowanceCents) = some cap)
    (hspent : cap ≤ 0 ∨
      costOf s.ledger assignee (fun ts => (allowanceWindow nowMs).startMs ≤ ts) ≤ i64Max ∧
        cap.toNat * MICROS_PER_CENT ≤
          costOf s.ledger assignee (fun ts => (allowanceWindow nowMs).startMs ≤ ts)) :
    ∃ reason, s.admits card nowMs =
      .refuse reason OPERATIVE_BUDGET_EVENT OPERATIVE_BUDGET_STATUS := by
  have hspend : cap ≤ 0 ∨ saturatingMul cap.toNat MICROS_PER_CENT ≤
      (costSince s.ledger assignee (allowanceWindow nowMs).startMs).getD 0 := by
    rcases hspent with hzero | ⟨hfits, hover⟩
    · exact .inl hzero
    · right
      rw [costSince, if_pos hfits]
      exact Nat.le_trans (Nat.min_le_left _ _) hover
  obtain ⟨reason, hrefuse⟩ := allowanceAdmits_refuses hspend
  simp only [admits, dispatchBudgetAdmits, hcard, operativeGate, hcap, Option.bind_some, hrefuse]
  exact ⟨_, rfl⟩

theorem admits_refuses_guild (hcard : card.assigneeAgentId = some assignee)
    (htenant : s.taskTenant card.taskId = some tenant) {budget : Int}
    (hbudget : s.guilds.get? (guildKey tenant) = some (some budget)) (hpos : 0 < budget)
    (hsums : s.Summable tenant (allowanceWindow nowMs).startMs)
    (hspent : budget.toNat * MICROS_PER_CENT ≤ s.activeSpend tenant (allowanceWindow nowMs)) :
    ∃ reason event status, s.admits card nowMs = .refuse reason event status := by
  simp only [admits, dispatchBudgetAdmits, hcard]
  cases hown : s.operativeGate assignee (some s.ledger) (allowanceWindow nowMs).startMs with
  | refuse reason event status => exact ⟨reason, event, status, rfl⟩
  | allow =>
    have hmonth : s.activeSpend tenant (allowanceWindow nowMs) ≤
        sumOver (fun id => costOf s.ledger id (fun ts => (allowanceWindow nowMs).startMs ≤ ts))
          (s.activeIds tenant) := by
      apply sumOver_le
      intro id _
      apply costOf_mono
      intro ts hts
      exact (Bool.and_eq_true_iff.mp hts).1
    have hover : saturatingMul budget.toNat MICROS_PER_CENT ≤
        guildSpendMicros s.profiles s.ledger tenant (allowanceWindow nowMs).startMs := by
      rw [guildSpendMicros_eq hsums, saturatingMul]
      omega
    obtain ⟨reason, hrefuse⟩ := guildAllowanceAdmits_refuses hpos hover
    have hfilter : ((s.guilds.get? (guildKey tenant)).bind id).filter (fun b => decide (0 < b)) =
        some budget := by
      rw [hbudget]
      simp [hpos]
    simp only [guildGate, htenant, hfilter, hrefuse]
    exact ⟨_, _, _, rfl⟩

theorem dispatchClaimed_refused {reason event status : String}
    (h : s.admits card nowMs = .refuse reason event status) (available : Bool) :
    (s.dispatchClaimed card nowMs available).started = s.started := by
  simp only [dispatchClaimed, h]

end Company

open Company

section
variable {parseJson : String → Except String (List String)} {s : Company} {tenant : String}
  {budget : Int}

/-- No active Operative of the Guild leaves it, and its budget is neither raised nor taken
away. -/
def CompanyOp.KeepsCeiling (parseJson : String → Except String (List String)) (tenant : String)
    (budget : Int) (s : Company) (op : CompanyOp) : Prop :=
  (∀ id ∈ s.activeIds tenant, id ∈ (op.step parseJson s).activeIds tenant) ∧
    match op with
    | setGuildAllowance t cents =>
      guildKey t = guildKey tenant → ∃ c, cents = some c ∧ c ≠ 0 ∧ c ≤ budget
    | _ => True

@[simp] theorem withProfiles_ledger (s : Company)
    (r : Except Admission.AgentStoreError Roster.Profiles) :
    (s.withProfiles r).ledger = s.ledger := rfl

@[simp] theorem withProfiles_guilds (s : Company)
    (r : Except Admission.AgentStoreError Roster.Profiles) :
    (s.withProfiles r).guilds = s.guilds := rfl

theorem CompanyOp.step_ledger (op : CompanyOp) (agent : String) (within : Int → Bool) :
    costOf s.ledger agent within ≤ costOf (op.step parseJson s).ledger agent within := by
  cases op with
  | completeRun cost => exact costOf_append cost within
  | updateAgentField now agentId t field value =>
    cases t with
    | none | some t => simp only [CompanyOp.step, withProfiles_ledger, Nat.le_refl]
  | setGuildAllowance t cents =>
    simp only [CompanyOp.step, Company.setGuildAllowance]
    split
    · exact Nat.le_refl _
    · exact Nat.le_refl _
  | createBrief taskId guild =>
    simp only [CompanyOp.step]
    split
    · exact Nat.le_refl _
    · exact Nat.le_refl _
  | heartbeat card nowMs available =>
    simp only [CompanyOp.step, dispatchClaimed]
    split
    · exact Nat.le_refl _
    · split
      · exact Nat.le_refl _
      · exact Nat.le_refl _
  | createAgent | requestHire | approveHire | approveHireWithRig | rejectHire =>
    simp only [CompanyOp.step, withProfiles_ledger, Nat.le_refl]

theorem CompanyOp.step_guilds (op : CompanyOp)
    (hop : ∀ t cents, op ≠ .setGuildAllowance t cents) :
    (op.step parseJson s).guilds = s.guilds := by
  cases op with
  | setGuildAllowance t cents => exact absurd rfl (hop t cents)
  | updateAgentField now agentId t field value =>
    cases t with
    | none | some t => simp only [CompanyOp.step, withProfiles_guilds]
  | createBrief taskId guild =>
    simp only [CompanyOp.step]
    split
    · rfl
    · rfl
  | heartbeat card nowMs available =>
    simp only [CompanyOp.step, dispatchClaimed]
    split
    · rfl
    · split
      · rfl
      · rfl
  | completeRun => rfl
  | createAgent | requestHire | approveHire | approveHireWithRig | rejectHire =>
    simp only [CompanyOp.step, withProfiles_guilds]

/-- The Guild has a budget, of so much at the most, and its active Operatives have spent that. -/
structure Spent (tenant : String) (budget : Int) (month : AllowanceWindow) (s : Company) :
    Prop where
  capped : ∃ c, s.guilds.get? (guildKey tenant) = some (some c) ∧ 0 < c ∧ c ≤ budget
  spend : budget.toNat * MICROS_PER_CENT ≤ s.activeSpend tenant month

theorem Spent.step {month : AllowanceWindow} (h : Spent tenant budget month s) {op : CompanyOp}
    (hop : op.KeepsCeiling parseJson tenant budget s) :
    Spent tenant budget month (op.step parseJson s) := by
  constructor
  · by_cases hset : ∃ t cents, op = .setGuildAllowance t cents
    · obtain ⟨t, cents, rfl⟩ := hset
      simp only [CompanyOp.step, Company.setGuildAllowance]
      split
      · exact h.capped
      · next hnonneg =>
        simp only [HashMap.get?_insert]
        split
        · next hkey =>
          obtain ⟨c, rfl, hzero, hle⟩ := hop.2 hkey.symm
          simp only [Option.any_some, decide_eq_true_eq] at hnonneg
          exact ⟨c, rfl, by omega, hle⟩
        · exact h.capped
    · rw [op.step_guilds (fun t cents heq => hset ⟨t, cents, heq⟩)]
      exact h.capped
  · have hsubset := sumOver_subset (f := fun id => costOf s.ledger id
      (fun ts => month.startMs ≤ ts && ts < month.resetsAtMs)) (s.activeIds_nodup tenant) hop.1
    have hgrows : sumOver (fun id => costOf s.ledger id
        (fun ts => month.startMs ≤ ts && ts < month.resetsAtMs))
          ((op.step parseJson s).activeIds tenant) ≤
        (op.step parseJson s).activeSpend tenant month :=
      sumOver_le (fun id _ => op.step_ledger id _)
    exact Nat.le_trans h.spend (Nat.le_trans hsubset hgrows)

theorem Spent.refuses {laterMs : Int} (h : Spent tenant budget (allowanceWindow nowMs) s)
    (hstart : (allowanceWindow nowMs).startMs ≤ laterMs)
    (hreset : laterMs < (allowanceWindow nowMs).resetsAtMs)
    (hsums : s.Summable tenant (allowanceWindow nowMs).startMs)
    (hcard : card.assigneeAgentId = some assignee)
    (htenant : s.taskTenant card.taskId = some tenant) :
    ∃ reason event status, s.admits card laterMs = .refuse reason event status := by
  obtain ⟨hsame, hsame'⟩ := allowanceWindow_same hstart hreset
  obtain ⟨c, hbudget, hpos, hle⟩ := h.capped
  apply admits_refuses_guild hcard htenant hbudget hpos
  · rw [hsame]
    exact hsums
  · have hspend : s.activeSpend tenant (allowanceWindow laterMs) =
        s.activeSpend tenant (allowanceWindow nowMs) := by
      rw [activeSpend, activeSpend, hsame, hsame']
    rw [hspend]
    refine Nat.le_trans (Nat.mul_le_mul_right _ ?_) h.spend
    omega

end

/-- Once the Operatives active in a Guild have spent its budget in a month, every Brief of the Guild
is refused, not started, till the month ends, as long as none of them leaves and the budget is not
raised or taken away; and an Operative without allowance left is always refused. -/
theorem spent_budget_refuses (parseJson : String → Except String (List String)) (s : Company)
    (ops : List CompanyOp) :
    (∀ tenant budget nowMs, s.guilds.get? (guildKey tenant) = some (some budget) → 0 < budget →
      budget.toNat * MICROS_PER_CENT ≤ s.activeSpend tenant (allowanceWindow nowMs) →
      Guarded (CompanyOp.step parseJson) (CompanyOp.KeepsCeiling parseJson tenant budget) s ops →
      ∀ pre, pre <+: ops → ∀ card assignee laterMs,
        card.assigneeAgentId = some assignee →
        (run (CompanyOp.step parseJson) s pre).taskTenant card.taskId = some tenant →
        (allowanceWindow nowMs).startMs ≤ laterMs →
        laterMs < (allowanceWindow nowMs).resetsAtMs →
        (run (CompanyOp.step parseJson) s pre).Summable tenant (allowanceWindow nowMs).startMs →
        (∃ reason event status, (run (CompanyOp.step parseJson) s pre).admits card laterMs =
          .refuse reason event status) ∧
        ∀ available, (CompanyOp.step parseJson (run (CompanyOp.step parseJson) s pre)
            (.heartbeat card laterMs available)).started =
          (run (CompanyOp.step parseJson) s pre).started) ∧
    (∀ pre, pre <+: ops → ∀ card assignee cap nowMs,
      card.assigneeAgentId = some assignee →
      ((run (CompanyOp.step parseJson) s pre).profiles.get? assignee).bind
        (·.monthlyAllowanceCents) = some cap →
      (cap ≤ 0 ∨
        costOf (run (CompanyOp.step parseJson) s pre).ledger assignee
            (fun ts => (allowanceWindow nowMs).startMs ≤ ts) ≤ i64Max ∧
          cap.toNat * MICROS_PER_CENT ≤
            costOf (run (CompanyOp.step parseJson) s pre).ledger assignee
              (fun ts => (allowanceWindow nowMs).startMs ≤ ts)) →
      (∃ reason, (run (CompanyOp.step parseJson) s pre).admits card nowMs =
        .refuse reason OPERATIVE_BUDGET_EVENT OPERATIVE_BUDGET_STATUS) ∧
      ∀ available, (CompanyOp.step parseJson (run (CompanyOp.step parseJson) s pre)
          (.heartbeat card nowMs available)).started =
        (run (CompanyOp.step parseJson) s pre).started) := by
  constructor
  · intro tenant budget nowMs hbudget hpos hspent hguarded pre hpre card assignee laterMs hcard
      htenant hstart hreset hsums
    have hstep : ∀ (s : Company) (op : CompanyOp), Spent tenant budget (allowanceWindow nowMs) s →
        op.KeepsCeiling parseJson tenant budget s →
        Spent tenant budget (allowanceWindow nowMs) (op.step parseJson s) :=
      fun s op h hop => h.step hop
    have hspent' : Spent tenant budget (allowanceWindow nowMs)
        (run (CompanyOp.step parseJson) s pre) :=
      Transition.invariant_run hstep ⟨⟨budget, hbudget, hpos, Int.le_refl _⟩, hspent⟩
        (Guarded.of_prefix hguarded hpre)
    have hrefused := hspent'.refuses hstart hreset hsums hcard htenant
    refine ⟨hrefused, fun available => ?_⟩
    obtain ⟨reason, event, status, hrefuse⟩ := hrefused
    exact dispatchClaimed_refused hrefuse available
  · intro pre _ card assignee cap nowMs hcard hcap hspent
    have hrefused := admits_refuses_operative hcard hcap hspent
    refine ⟨hrefused, fun available => ?_⟩
    obtain ⟨reason, hrefuse⟩ := hrefused
    exact dispatchClaimed_refused hrefuse available

def Company.everSpend (s : Company) (tenant : String) (month : AllowanceWindow) : Nat :=
  sumOver (fun id => costOf s.ledger id
      (fun ts => month.startMs ≤ ts && ts < month.resetsAtMs))
    ((s.profiles.entries.filter (fun e => e.2.tenantId == normTenant tenant)).map Prod.fst)

def acme : Guild := ⟨"acme", by decide +kernel⟩

def engineer (name : String) : Roster.NewAgent :=
  ⟨name, "ic", "Engineer", "eng", "core", "board", name, "low", "acme"⟩

def suspended : List CompanyOp :=
  [.createAgent 0 "00000001" (engineer "Ada"), .createAgent 0 "00000002" (engineer "Bob"),
    .setGuildAllowance "acme" (some 1), .createBrief "brief-1" (some acme),
    .completeRun ⟨"agt_ic_00000001", 0, 10000⟩,
    .updateAgentField 0 "agt_ic_00000001" (some "acme") "status" "suspended"]

theorem suspended_reopens :
    let s := run (CompanyOp.step (fun _ => .ok [])) Company.initial suspended
    s.guilds.get? "acme" = some (some 1) ∧
      1 * MICROS_PER_CENT ≤ s.everSpend "acme" (allowanceWindow 0) ∧
      s.taskTenant "brief-1" = some "acme" ∧
      s.admits ⟨"brief-1", some "agt_ic_00000002"⟩ 0 = .allow := by
  decide +kernel

end Relux.Allowance
