import Relux.Admission.RestrictedAgent

/-! Standing approvals over any run of the store: how often one is used, and by which calls. -/

namespace Relux

namespace Admission

open AgentStore (StandingApprovalMatch StandingApprovalCreate)

def PathWithin (glob path : Option String) : Prop :=
  ∀ pattern, glob.bind nonEmptyOpt = some pattern → ∃ p, path.bind nonEmptyOpt = some p ∧
    (p = pattern ∨ ∃ pre, pattern.toList = pre ++ ['*'] ∧ pre <+: p.toList)

theorem workspaceMatches_iff {glob path : Option String} :
    AgentStore.workspaceMatches glob path = true ↔
      ∀ pattern, glob.bind nonEmptyOpt = some pattern → ∃ p, path.bind nonEmptyOpt = some p ∧
        (if pattern.toList.getLast? = some '*' then pattern.toList.dropLast <+: p.toList
          else p = pattern) := by
  unfold AgentStore.workspaceMatches
  cases hg : glob.bind nonEmptyOpt with
  | none => simp
  | some pattern =>
    dsimp only
    cases hp : path.bind nonEmptyOpt with
    | none => simp
    | some p =>
      by_cases hstar : pattern.toList.getLast? = some '*'
      · simp [hstar]
      · simp [hstar]

theorem pathWithin_of_matches {glob path : Option String}
    (h : AgentStore.workspaceMatches glob path = true) : PathWithin glob path := by
  intro pattern hpattern
  obtain ⟨p, hp, hin⟩ := workspaceMatches_iff.mp h pattern hpattern
  refine ⟨p, hp, ?_⟩
  by_cases hstar : pattern.toList.getLast? = some '*'
  · rw [if_pos hstar] at hin
    exact .inr ⟨_, (List.dropLast_append_getLast? _ hstar).symm, hin⟩
  · rw [if_neg hstar] at hin
    exact .inl hin

def StandingApproval.glob (row : StandingApproval) : Option String :=
  if row.scopeKind = "workspace_path" then row.workspacePathGlob.or row.matchPathGlob
  else row.matchPathGlob

/-- A call of the row's tenant, agent and category, in time, and inside the constraint its scope
kind names. -/
structure Within (row : StandingApproval) (call : StandingApprovalMatch) : Prop where
  tenant : row.tenantId = call.tenant
  agent : row.agentId = call.agentId
  category : row.matchCategory = call.category
  unexpired : call.now < row.expiresAt
  task : row.scopeKind = "task" → ∃ t, row.taskId = some t ∧ call.taskId = some t
  session : row.scopeKind = "session" → ∃ t, row.sessionId = some t ∧ call.sessionId = some t
  method : row.scopeKind = "method_prefix" →
    ∃ pre, row.methodPrefix = some pre ∧ pre.toList <+: call.method.toList
  workspace : PathWithin row.glob call.workspacePath

def costOf (calls : List StandingApprovalMatch) : Int := calls.foldr (fun call n => call.cost + n) 0

structure Honoured (row : StandingApproval) (calls : List StandingApprovalMatch) : Prop where
  number : ∀ n, row.maxCalls = some n → (calls.length : Int) ≤ n
  spend : ∀ n, row.maxCostMicros = some n → costOf calls ≤ n
  within : ∀ call ∈ calls, Within row call

inductive StandingEvent where
  | created (row : StandingApproval)
  | used (standingId : String) (call : StandingApprovalMatch)

/-- What happens to the store. A use outside the gate is the autonomous driver's; `others` is any
write to the other tables. -/
inductive StandingOp where
  | create (now : Int) (standingId : String) (input : StandingApprovalCreate)
  | revoke (standingId : String)
  | gate (inputs : GateInputs)
  | consume (input : StandingApprovalMatch)
  | others (profiles : HashMap String AgentGateView) (approvals : HashMap String ApprovalRecord)
      (blocklist : HashMap String (String × Int))

def AgentGate.asks (host : GateHost) (store : AgentStore) (inputs : GateInputs) :
    Option (AgentGateView × CapabilityDescriptor × String) :=
  if inputs.envelope.approvalToken.isSome then none
  else do
    let view ← store.getBySubject inputs.identity.subjectId
    if view.profile = some PROFILE_ALLOW_ALL then none
    if (AgentGate.deniedByProfile host view inputs.callerSurface).isSome then none
    let cap ← inputs.capability
    if (AgentGate.deniedByCapability host view cap).isSome then none
    let category ← AgentGate.matchedCategory view cap
    return (view, cap, category)

def usedBy (call : StandingApprovalMatch) : Option String → List StandingEvent
  | some standingId => [.used standingId call]
  | none => []

def StandingOp.run (host : GateHost) (store : AgentStore) : StandingOp → List StandingEvent × AgentStore
  | create now standingId input =>
    match store.createScopedStanding now standingId input with
    | .ok store' => ([.created (AgentStore.standingRow now standingId input)], store')
    | .error _ => ([], store)
  | revoke standingId =>
    match store.revokeStanding standingId with
    | .ok store' => ([], store')
    | .error _ => ([], store)
  | gate inputs =>
    (match AgentGate.asks host store inputs with
      | some (view, cap, category) =>
        usedBy (AgentGate.standingMatch view inputs cap category)
          (store.consumeActiveStandingFor (AgentGate.standingMatch view inputs cap category)).1
      | none => [],
      (AgentGate.evaluateStore host store inputs).2)
  | consume input =>
    (usedBy input (store.consumeActiveStandingFor input).1, (store.consumeActiveStandingFor input).2)
  | others profiles approvals blocklist => ([], { store with profiles, approvals, blocklist })

inductive StandingRun (host : GateHost) : List StandingEvent → AgentStore → Prop where
  | start (store : AgentStore) (h : store.standing = HashMap.empty) : StandingRun host [] store
  | step {log : List StandingEvent} {store : AgentStore} (run : StandingRun host log store)
      (op : StandingOp) : StandingRun host ((op.run host store).1 ++ log) (op.run host store).2

def lastCreated (standingId : String) : List StandingEvent → Option StandingApproval
  | [] => none
  | .created row :: rest => if row.standingId = standingId then some row else lastCreated standingId rest
  | .used _ _ :: rest => lastCreated standingId rest

def usesOf (standingId : String) : List StandingEvent → List StandingApprovalMatch
  | [] => []
  | .created row :: rest => if row.standingId = standingId then [] else usesOf standingId rest
  | .used used call :: rest =>
    if used = standingId then call :: usesOf standingId rest else usesOf standingId rest

variable {store' : AgentStore} {id : String} {row : StandingApproval}

namespace AgentStore

variable {store : AgentStore} {input : StandingApprovalMatch}

theorem mem_candidates (h : row ∈ store.candidates input) :
    (∃ id, store.standing.get? id = some row) ∧ isCandidate input row = true := by
  unfold candidates at h
  rw [List.mem_mergeSort, List.mem_filter] at h
  exact ⟨HashMap.mem_values.mp h.1, h.2⟩

theorem chargeStanding_some {cost : Int} (h : chargeStanding store id cost = some store') :
    ∃ row, store.standing.get? id = some row ∧ inBounds row cost = true ∧
      store' = { store with standing := store.standing.insert id (StandingApproval.charged row cost) } := by
  unfold chargeStanding at h
  cases hrow : store.standing.get? id with
  | none =>
    rw [hrow] at h
    cases h
  | some row =>
    rw [hrow] at h
    dsimp only at h
    by_cases hb : inBounds row cost = true
    · rw [if_pos hb] at h
      exact ⟨row, rfl, hb, (Option.some.inj h).symm⟩
    · rw [if_neg hb] at h
      cases h

variable {rows : List StandingApproval}

theorem consumeFirst_some (h : consumeFirst store input rows = (some id, store')) :
    ∃ row ∈ rows, row.standingId = id ∧ standingScopeMatches row input = true ∧
      ((row.maxCalls = none ∧ row.maxCostMicros = none ∧ store' = store) ∨
        chargeStanding store id input.cost = some store') := by
  induction rows with
  | nil =>
    unfold consumeFirst at h
    cases h
  | cons row rest ih =>
    have hlater : consumeFirst store input rest = (some id, store') →
        ∃ row' ∈ row :: rest, row'.standingId = id ∧ standingScopeMatches row' input = true ∧
          ((row'.maxCalls = none ∧ row'.maxCostMicros = none ∧ store' = store) ∨
            chargeStanding store id input.cost = some store') := by
      intro hrest
      obtain ⟨row', hmem, hrow'⟩ := ih hrest
      exact ⟨row', List.mem_cons_of_mem _ hmem, hrow'⟩
    unfold consumeFirst at h
    by_cases hscope : standingScopeMatches row input = true
    · rw [if_neg (not_not_intro hscope)] at h
      by_cases hfree : (row.maxCalls.isNone && row.maxCostMicros.isNone) = true
      · rw [if_pos hfree] at h
        rw [Bool.and_eq_true, Option.isNone_iff_eq_none, Option.isNone_iff_eq_none] at hfree
        have hid : row.standingId = id := by simpa using congrArg Prod.fst h
        have hstore : store = store' := congrArg Prod.snd h
        exact ⟨row, List.mem_cons_self, hid, hscope, .inl ⟨hfree.1, hfree.2, hstore.symm⟩⟩
      · rw [if_neg hfree] at h
        cases hcharge : chargeStanding store row.standingId input.cost with
        | none =>
          rw [hcharge] at h
          exact hlater h
        | some s =>
          rw [hcharge] at h
          have hid : row.standingId = id := by simpa using congrArg Prod.fst h
          have hstore : s = store' := congrArg Prod.snd h
          refine ⟨row, List.mem_cons_self, hid, hscope, .inr ?_⟩
          rw [← hid, hcharge, hstore]
    · rw [if_pos hscope] at h
      exact hlater h

theorem consumeFirst_none
    (h : consumeFirst store input rows = (none, store')) : store' = store := by
  induction rows with
  | nil => exact (congrArg Prod.snd h).symm
  | cons row rest ih =>
    unfold consumeFirst at h
    by_cases hscope : standingScopeMatches row input = true
    · rw [if_neg (not_not_intro hscope)] at h
      by_cases hfree : (row.maxCalls.isNone && row.maxCostMicros.isNone) = true
      · rw [if_pos hfree] at h
        cases h
      · rw [if_neg hfree] at h
        cases hcharge : chargeStanding store row.standingId input.cost with
        | none =>
          rw [hcharge] at h
          exact ih h
        | some s =>
          rw [hcharge] at h
          cases h
    · rw [if_pos hscope] at h
      exact ih h

theorem createScopedStanding_ok {now : Int} {create : StandingApprovalCreate}
    (h : createScopedStanding store now id create = .ok store') :
    store.standing.get? id = none ∧
      store' = { store with standing := store.standing.insert id (standingRow now id create) } ∧
      validateStandingScope (normalizeStandingScope create.scopeKind) create.taskId create.sessionId
        create.methodPrefix (create.matchPathGlob.or create.workspacePathGlob) = .ok () ∧
      (∀ n, create.maxCalls = some n → 0 < n) ∧ ∀ n, create.maxCostMicros = some n → 0 < n := by
  unfold createScopedStanding at h
  split at h
  · cases h
  cases hv : validateStandingScope (normalizeStandingScope create.scopeKind) create.taskId
      create.sessionId create.methodPrefix (create.matchPathGlob.or create.workspacePathGlob) with
  | error e =>
    rw [hv] at h
    cases h
  | ok u =>
    rw [hv] at h
    dsimp only at h
    split at h
    · cases h
    rename_i hcalls
    split at h
    · cases h
    rename_i hcost
    cases hid : store.standing.get? id with
    | some row =>
      rw [hid] at h
      cases h
    | none =>
      rw [hid] at h
      refine ⟨rfl, (Except.ok.inj h).symm, rfl, ?_, ?_⟩
      · intro n hn
        simpa [hn] using hcalls
      · intro n hn
        simpa [hn] using hcost

end AgentStore

/-- What the checks of its creation leave: the scope it names is there, and nothing is used. -/
structure Issued (row : StandingApproval) : Prop where
  task : row.scopeKind = "task" → row.taskId ≠ none
  session : row.scopeKind = "session" → row.sessionId ≠ none
  method : row.scopeKind = "method_prefix" → row.methodPrefix ≠ none
  number : ∀ n, row.maxCalls = some n → 0 < n
  spend : ∀ n, row.maxCostMicros = some n → 0 < n
  callsUsed : row.callsUsed = 0
  costUsed : row.costUsedMicros = 0

variable {store : AgentStore} {now : Int}

theorem Issued.standingRow {create : StandingApprovalCreate}
    (h : store.createScopedStanding now id create = .ok store') :
    Issued (AgentStore.standingRow now id create) := by
  obtain ⟨-, -, hscope, hnumber, hspend⟩ := AgentStore.createScopedStanding_ok h
  unfold AgentStore.validateStandingScope at hscope
  constructor
  · intro hkind
    have hkind' : AgentStore.normalizeStandingScope create.scopeKind = "task" := hkind
    rw [hkind', if_neg (by decide), if_pos rfl] at hscope
    intro hnone
    have hnone' : create.taskId.bind nonEmptyOpt = none := hnone
    rw [hnone'] at hscope
    cases hscope
  · intro hkind
    have hkind' : AgentStore.normalizeStandingScope create.scopeKind = "session" := hkind
    rw [hkind', if_neg (by decide), if_neg (by decide), if_pos rfl] at hscope
    intro hnone
    have hnone' : create.sessionId.bind nonEmptyOpt = none := hnone
    rw [hnone'] at hscope
    cases hscope
  · intro hkind
    have hkind' : AgentStore.normalizeStandingScope create.scopeKind = "method_prefix" := hkind
    rw [hkind', if_neg (by decide), if_neg (by decide), if_neg (by decide), if_pos rfl] at hscope
    intro hnone
    have hnone' : create.methodPrefix.bind nonEmptyOpt = none := hnone
    rw [hnone'] at hscope
    cases hscope
  · exact hnumber
  · exact hspend
  · rfl
  · rfl

def StandingApproval.counted (row : StandingApproval) (calls : List StandingApprovalMatch) :
    StandingApproval :=
  { row with
    callsUsed := if row.maxCalls.isNone then row.callsUsed else row.callsUsed + calls.length
    costUsedMicros :=
      if row.maxCostMicros.isNone then row.costUsedMicros else row.costUsedMicros + costOf calls }

theorem StandingApproval.counted_nil (row : StandingApproval) : row.counted [] = row := by
  cases row
  simp [StandingApproval.counted, costOf]

theorem StandingApproval.counted_cons (row : StandingApproval) (call : StandingApprovalMatch)
    (calls : List StandingApprovalMatch) :
    row.counted (call :: calls) = AgentStore.StandingApproval.charged (row.counted calls) call.cost := by
  unfold StandingApproval.counted AgentStore.StandingApproval.charged costOf
  cases hn : row.maxCalls <;> cases hc : row.maxCostMicros <;> simp [List.foldr_cons] <;> omega

theorem StandingApproval.counted_free (hn : row.maxCalls = none) (hc : row.maxCostMicros = none)
    (calls : List StandingApprovalMatch) : row.counted calls = row := by
  cases row
  subst hn hc
  rfl

variable {call : StandingApprovalMatch} {calls : List StandingApprovalMatch}

theorem within_of_selected {row' : StandingApproval}
    (hrow : row' = row.counted calls) (hissued : Issued row)
    (hcand : AgentStore.isCandidate call row' = true)
    (hscope : AgentStore.standingScopeMatches row' call = true) : Within row call := by
  subst hrow
  unfold AgentStore.isCandidate at hcand
  simp only [Bool.and_eq_true, beq_iff_eq, decide_eq_true_eq] at hcand
  obtain ⟨⟨⟨⟨htenant, hagent⟩, hcategory⟩, htime⟩, -⟩ := hcand
  have hscope' : AgentStore.standingScopeMatches row call = true := hscope
  unfold AgentStore.standingScopeMatches at hscope'
  constructor
  · exact htenant
  · exact hagent
  · exact hcategory
  · exact htime
  · intro hkind
    rw [hkind, if_neg (by decide), if_pos rfl, Bool.and_eq_true, beq_iff_eq] at hscope'
    obtain ⟨t, ht⟩ := Option.ne_none_iff_exists'.mp (hissued.task hkind)
    exact ⟨t, ht, hscope'.1.symm.trans ht⟩
  · intro hkind
    rw [hkind, if_neg (by decide), if_neg (by decide), if_pos rfl, Bool.and_eq_true,
      beq_iff_eq] at hscope'
    obtain ⟨t, ht⟩ := Option.ne_none_iff_exists'.mp (hissued.session hkind)
    exact ⟨t, ht, hscope'.1.symm.trans ht⟩
  · intro hkind
    rw [hkind, if_neg (by decide), if_neg (by decide), if_neg (by decide), if_pos rfl,
      Bool.and_eq_true] at hscope'
    obtain ⟨pre, hpre⟩ := Option.ne_none_iff_exists'.mp (hissued.method hkind)
    refine ⟨pre, hpre, ?_⟩
    have := hscope'.1
    rw [hpre] at this
    simpa using this
  · apply pathWithin_of_matches
    unfold StandingApproval.glob
    by_cases hw : row.scopeKind = "workspace_path"
    · rw [hw, if_neg (by decide), if_neg (by decide), if_neg (by decide), if_neg (by decide),
        if_pos rfl] at hscope'
      rw [if_pos hw]
      exact hscope'
    · rw [if_neg hw]
      split at hscope'
      · exact hscope'
      split at hscope'
      · exact (Bool.and_eq_true _ _ ▸ hscope').2
      split at hscope'
      · exact (Bool.and_eq_true _ _ ▸ hscope').2
      split at hscope'
      · exact (Bool.and_eq_true _ _ ▸ hscope').2
      · cases hscope'

theorem Honoured.cons {row : StandingApproval} {call : StandingApprovalMatch}
    (h : Honoured row calls) (hissued : Issued row)
    (hwithin : Within row call)
    (hbounds : AgentStore.inBounds (row.counted calls) call.cost = true ∨
      (row.maxCalls = none ∧ row.maxCostMicros = none)) : Honoured row (call :: calls) := by
  constructor
  · intro n hn
    rcases hbounds with hb | hfree
    · unfold AgentStore.inBounds at hb
      rw [Bool.and_eq_true] at hb
      have hcalls : (row.counted calls).maxCalls = some n := hn
      have hused : (row.counted calls).callsUsed = 0 + (calls.length : Int) := by
        simp [StandingApproval.counted, hn, hissued.callsUsed]
      have hlt : (row.counted calls).callsUsed < n := by simpa [hcalls] using hb.1
      rw [List.length_cons]
      omega
    · rw [hfree.1] at hn
      cases hn
  · intro n hn
    rcases hbounds with hb | hfree
    · unfold AgentStore.inBounds at hb
      rw [Bool.and_eq_true] at hb
      have hcost : (row.counted calls).maxCostMicros = some n := hn
      have hused : (row.counted calls).costUsedMicros = 0 + costOf calls := by
        simp [StandingApproval.counted, hn, hissued.costUsed]
      have hle : (row.counted calls).costUsedMicros + call.cost ≤ n := by simpa [hcost] using hb.2
      have hsum : costOf (call :: calls) = call.cost + costOf calls := rfl
      omega
    · rw [hfree.2] at hn
      cases hn
  · intro c hc
    rcases List.mem_cons.mp hc with rfl | hc
    · exact hwithin
    · exact h.within c hc

variable {log : List StandingEvent}

theorem lastCreated_standingId (h : lastCreated id log = some row) : row.standingId = id := by
  induction log with
  | nil => cases h
  | cons e rest ih =>
    cases e with
    | created r =>
      by_cases hid : r.standingId = id
      · have hr : (if r.standingId = id then some r else lastCreated id rest) = some row := h
        rw [if_pos hid] at hr
        exact Option.some.inj hr ▸ hid
      · have hr : (if r.standingId = id then some r else lastCreated id rest) = some row := h
        rw [if_neg hid] at hr
        exact ih hr
    | used _ _ => exact ih h

/-- The table against the log: each row counts the calls admitted on it, and every call admitted
was admitted on a row that is honoured. -/
structure Accounted (log : List StandingEvent) (store : AgentStore) : Prop where
  rows : ∀ id row, store.standing.get? id = some row →
    ∃ row₀, lastCreated id log = some row₀ ∧ row = row₀.counted (usesOf id log)
  honoured : ∀ id row₀, lastCreated id log = some row₀ → Issued row₀ ∧ Honoured row₀ (usesOf id log)
  unused : ∀ id, lastCreated id log = none → usesOf id log = []

theorem Accounted.of_standing (h : Accounted log store)
    (hstanding : store'.standing = store.standing) : Accounted log store' :=
  ⟨fun id row hrow => h.rows id row (hstanding ▸ hrow), h.honoured, h.unused⟩

theorem Accounted.create {log : List StandingEvent} {store store' : AgentStore}
    {id : String} {create : StandingApprovalCreate} (h : Accounted log store)
    (hcreate : store.createScopedStanding now id create = .ok store') :
    Accounted (.created (AgentStore.standingRow now id create) :: log) store' := by
  obtain ⟨-, hstore, -⟩ := AgentStore.createScopedStanding_ok hcreate
  have hissued := Issued.standingRow hcreate
  have hlast : ∀ id', lastCreated id' (.created (AgentStore.standingRow now id create) :: log) =
      if id = id' then some (AgentStore.standingRow now id create) else lastCreated id' log :=
    fun _ => rfl
  have huses : ∀ id', usesOf id' (.created (AgentStore.standingRow now id create) :: log) =
      if id = id' then [] else usesOf id' log := fun _ => rfl
  constructor
  · intro id' row hrow
    rw [hlast, huses]
    rw [hstore] at hrow
    have hget : (store.standing.insert id (AgentStore.standingRow now id create)).get? id' = some row :=
      hrow
    rw [HashMap.get?_insert] at hget
    by_cases hsame : id = id'
    · rw [if_pos hsame.symm] at hget
      rw [if_pos hsame, if_pos hsame]
      exact ⟨_, rfl, (Option.some.inj hget).symm.trans (StandingApproval.counted_nil _).symm⟩
    · rw [if_neg (Ne.symm hsame)] at hget
      rw [if_neg hsame, if_neg hsame]
      exact h.rows id' row hget
  · intro id' row₀ hrow
    rw [hlast] at hrow
    rw [huses]
    by_cases hsame : id = id'
    · rw [if_pos hsame] at hrow
      rw [if_pos hsame]
      cases hrow
      refine ⟨hissued, fun n hn => ?_, fun n hn => ?_, fun call hc => absurd hc List.not_mem_nil⟩
      · have := hissued.number n hn
        simp only [List.length_nil]
        omega
      · have := hissued.spend n hn
        simp only [costOf, List.foldr_nil]
        omega
    · rw [if_neg hsame] at hrow
      rw [if_neg hsame]
      exact h.honoured id' row₀ hrow
  · intro id' hnone
    rw [hlast] at hnone
    rw [huses]
    by_cases hsame : id = id'
    · rw [if_pos hsame]
    · rw [if_neg hsame] at hnone
      rw [if_neg hsame]
      exact h.unused id' hnone

theorem Accounted.revoke (h : Accounted log store)
    (hrevoke : store.revokeStanding id = .ok store') : Accounted log store' := by
  unfold AgentStore.revokeStanding at hrevoke
  cases hrow : store.standing.get? id with
  | none =>
    rw [hrow] at hrevoke
    cases hrevoke
  | some row =>
    rw [hrow] at hrevoke
    cases hrevoke
    refine ⟨fun id' row' hrow' => ?_, h.honoured, h.unused⟩
    have hget : (store.standing.remove id).get? id' = some row' := hrow'
    rw [HashMap.get?_remove] at hget
    by_cases hsame : id' = id
    · rw [if_pos hsame] at hget
      cases hget
    · rw [if_neg hsame] at hget
      exact h.rows id' row' hget

theorem Accounted.selected (h : Accounted log store)
    (hconsume : store.consumeActiveStandingFor call = (some id, store')) :
    ∃ row row₀, store.standing.get? id = some row ∧ lastCreated id log = some row₀ ∧
      row = row₀.counted (usesOf id log) ∧ AgentStore.isCandidate call row = true ∧
      AgentStore.standingScopeMatches row call = true ∧
      ((row.maxCalls = none ∧ row.maxCostMicros = none ∧ store' = store) ∨
        AgentStore.chargeStanding store id call.cost = some store') := by
  obtain ⟨row, hmem, hid, hscope, hcharged⟩ := AgentStore.consumeFirst_some hconsume
  obtain ⟨⟨key, hkey⟩, hcand⟩ := AgentStore.mem_candidates hmem
  obtain ⟨row₀, hlast, hrow⟩ := h.rows key row hkey
  have hkeyid : key = id := by
    have hid₀ : row₀.standingId = key := lastCreated_standingId hlast
    have hsame : row.standingId = row₀.standingId := by
      rw [hrow]
      rfl
    rw [← hid₀, ← hsame, hid]
  subst hkeyid
  exact ⟨row, row₀, hkey, hlast, hrow, hcand, hscope, hcharged⟩

theorem Accounted.use {key : String} (h : Accounted log store)
    (hconsume : store.consumeActiveStandingFor call = (some key, store')) :
    Accounted (.used key call :: log) store' ∧
      ∃ row₀, lastCreated key log = some row₀ ∧ Within row₀ call := by
  obtain ⟨row, row₀, hkey, hlast, hrow, hcand, hscope, hcharged⟩ := h.selected hconsume
  obtain ⟨hissued, hhonoured⟩ := h.honoured key row₀ hlast
  have hwithin : Within row₀ call := within_of_selected hrow hissued hcand hscope
  have hbounds : AgentStore.inBounds (row₀.counted (usesOf key log)) call.cost = true ∨
      (row₀.maxCalls = none ∧ row₀.maxCostMicros = none) := by
    left
    rw [← hrow]
    unfold AgentStore.isCandidate at hcand
    rw [Bool.and_eq_true] at hcand
    exact hcand.2
  have huses : ∀ id', usesOf id' (.used key call :: log) =
      if key = id' then call :: usesOf id' log else usesOf id' log := fun _ => rfl
  have hlast' : ∀ id', lastCreated id' (.used key call :: log) = lastCreated id' log := fun _ => rfl
  -- the rows other than the one used keep their counters
  have hrows : ∀ id' row', store'.standing.get? id' = some row' →
      if id' = key then row' = row₀.counted (call :: usesOf key log)
      else store.standing.get? id' = some row' := by
    intro id' row' hget
    rcases hcharged with ⟨hn, hc, hsame⟩ | hcharge
    · rw [hsame] at hget
      have hn₀ : row₀.maxCalls = none := by
        rw [hrow] at hn
        exact hn
      have hc₀ : row₀.maxCostMicros = none := by
        rw [hrow] at hc
        exact hc
      by_cases hid' : id' = key
      · rw [if_pos hid']
        rw [hid', hkey] at hget
        cases hget
        rw [hrow, StandingApproval.counted_free hn₀ hc₀, StandingApproval.counted_free hn₀ hc₀]
      · rw [if_neg hid']
        exact hget
    · obtain ⟨r, hr, -, hstore⟩ := AgentStore.chargeStanding_some hcharge
      rw [hkey] at hr
      cases hr
      rw [hstore] at hget
      have hins : (store.standing.insert key
          (AgentStore.StandingApproval.charged row call.cost)).get? id' = some row' := hget
      rw [HashMap.get?_insert] at hins
      by_cases hid' : id' = key
      · rw [if_pos hid'] at hins
        rw [if_pos hid', StandingApproval.counted_cons, ← hrow]
        exact (Option.some.inj hins).symm
      · rw [if_neg hid'] at hins
        rw [if_neg hid']
        exact hins
  refine ⟨⟨?_, ?_, ?_⟩, row₀, hlast, hwithin⟩
  · intro id' row' hget
    have hr := hrows id' row' hget
    rw [hlast', huses]
    by_cases hid' : id' = key
    · rw [if_pos hid'] at hr
      subst hid'
      rw [if_pos rfl]
      exact ⟨row₀, hlast, hr⟩
    · rw [if_neg hid'] at hr
      rw [if_neg (Ne.symm hid')]
      exact h.rows id' row' hr
  · intro id' r hr
    rw [hlast'] at hr
    rw [huses]
    by_cases hid' : key = id'
    · subst hid'
      rw [hlast] at hr
      cases hr
      rw [if_pos rfl]
      exact ⟨hissued, hhonoured.cons hissued hwithin hbounds⟩
    · rw [if_neg hid']
      exact h.honoured id' r hr
  · intro id' hnone
    rw [hlast'] at hnone
    rw [huses]
    by_cases hid' : key = id'
    · subst hid'
      rw [hlast] at hnone
      cases hnone
    · rw [if_neg hid']
      exact h.unused id' hnone

theorem Accounted.consume (h : Accounted log store) (call : StandingApprovalMatch) :
    Accounted (usedBy call (store.consumeActiveStandingFor call).1 ++ log)
      (store.consumeActiveStandingFor call).2 := by
  cases hres : store.consumeActiveStandingFor call with
  | mk used store' =>
    cases used with
    | none =>
      have hsame : store' = store := AgentStore.consumeFirst_none hres
      exact h.of_standing (congrArg AgentStore.standing hsame)
    | some id => exact (h.use hres).1

namespace AgentGate

variable {host : GateHost} {store : AgentStore} {inputs : GateInputs}
variable {cap : CapabilityDescriptor} {view : AgentGateView} {category : String}

theorem asks_some (h : asks host store inputs = some (view, cap, category)) :
    inputs.capability = some cap ∧ matchedCategory view cap = some category ∧
      evaluateStore host store inputs = checkApproval store view inputs cap := by
  unfold asks at h
  by_cases htoken : inputs.envelope.approvalToken.isSome = true
  · rw [if_pos htoken] at h
    cases h
  rw [if_neg htoken] at h
  rw [Bool.not_eq_true, Option.isSome_eq_false_iff, Option.isNone_iff_eq_none] at htoken
  cases hview : store.getBySubject inputs.identity.subjectId with
  | none =>
    rw [hview] at h
    cases h
  | some view' =>
    rw [hview] at h
    by_cases hall : view'.profile = some PROFILE_ALLOW_ALL
    · simp [hall, bind, Option.bind] at h
    cases hprofile : deniedByProfile host view' inputs.callerSurface with
    | some d => simp [hall, hprofile, bind, Option.bind] at h
    | none =>
      cases hcap : inputs.capability with
      | none => simp [hall, hprofile, hcap, bind, Option.bind] at h
      | some cap' =>
        cases hdenied : deniedByCapability host view' cap' with
        | some d => simp [hall, hprofile, hcap, hdenied, bind, Option.bind] at h
        | none =>
          cases hcategory : matchedCategory view' cap' with
          | none => simp [hall, hprofile, hcap, hdenied, hcategory, bind, Option.bind] at h
          | some category' =>
            simp [hall, hprofile, hcap, hdenied, hcategory, bind, Option.bind, pure] at h
            obtain ⟨rfl, rfl, rfl⟩ := h
            refine ⟨rfl, hcategory, ?_⟩
            unfold evaluateStore
            rw [htoken]
            rw [hview]
            dsimp only
            unfold evaluateAgainstView
            rw [if_neg hall, hprofile, hcap]
            dsimp only
            rw [hdenied]

theorem asks_none (h : asks host store inputs = none) :
    (evaluateStore host store inputs).2.standing = store.standing := by
  unfold evaluateStore
  cases htoken : inputs.envelope.approvalToken with
  | some wire =>
    dsimp only
    rcases @evaluateToken_cases host store inputs wire with ⟨tok, -, heq⟩ | ⟨-, hsame, -⟩
    · rw [heq]
    · rw [hsame]
  | none =>
    dsimp only
    cases hview : store.getBySubject inputs.identity.subjectId with
    | none => rfl
    | some view =>
      dsimp only
      unfold evaluateAgainstView
      by_cases hall : view.profile = some PROFILE_ALLOW_ALL
      · rw [if_pos hall]
      rw [if_neg hall]
      cases hprofile : deniedByProfile host view inputs.callerSurface with
      | some d => rfl
      | none =>
        cases hcap : inputs.capability with
        | none => rfl
        | some cap =>
          dsimp only
          cases hdenied : deniedByCapability host view cap with
          | some d => rfl
          | none =>
            dsimp only
            unfold checkApproval
            cases hcategory : matchedCategory view cap with
            | none => rfl
            | some category =>
              simp [asks, htoken, hview, hall, hprofile, hcap, hdenied, hcategory, bind, Option.bind,
                pure] at h

theorem checkApproval_snd (h : matchedCategory view cap = some category) :
    (checkApproval store view inputs cap).2 =
      (store.consumeActiveStandingFor (standingMatch view inputs cap category)).2 := by
  unfold checkApproval
  rw [h]
  dsimp only
  cases hres : store.consumeActiveStandingFor (standingMatch view inputs cap category) with
  | mk used store' =>
    cases used with
    | none => rfl
    | some id => rfl

variable {a : GateAllow}

theorem checkApproval_allow (hcategory : matchedCategory view cap = some category)
    (h : (checkApproval store view inputs cap).1 = .allow a) :
    ∃ id store', store.consumeActiveStandingFor (standingMatch view inputs cap category) =
      (some id, store') := by
  unfold checkApproval at h
  rw [hcategory] at h
  dsimp only at h
  cases hres : store.consumeActiveStandingFor (standingMatch view inputs cap category) with
  | mk used store' =>
    cases used with
    | none =>
      rw [hres] at h
      cases h
    | some id => exact ⟨id, store', rfl⟩

theorem checkApproval_of_allow (htoken : inputs.envelope.approvalToken = none)
    (hview : store.getBySubject inputs.identity.subjectId = some view)
    (hall : view.profile ≠ some PROFILE_ALLOW_ALL) (hcap : inputs.capability = some cap)
    (h : (evaluateStore host store inputs).1 = .allow a) :
    (checkApproval store view inputs cap).1 = .allow a := by
  unfold evaluateStore at h
  rw [htoken, hview] at h
  dsimp only at h
  rcases evaluateAgainstView_cases host store inputs hall with
    ⟨-, denied, heval⟩ | ⟨-, ⟨hnone, -⟩ | ⟨cap', hcap', -, heval⟩⟩
  · rw [heval] at h
    cases h
  · rw [hnone] at hcap
    cases hcap
  · rw [hcap'] at hcap
    cases hcap
    rw [heval] at h
    exact h

end AgentGate

theorem StandingOp.accounted {host : GateHost} (h : Accounted log store) (op : StandingOp) :
    Accounted ((op.run host store).1 ++ log) (op.run host store).2 := by
  cases op with
  | create now id create =>
    unfold StandingOp.run
    dsimp only
    cases hcreate : store.createScopedStanding now id create with
    | error e => exact h
    | ok store' => exact h.create hcreate
  | revoke id =>
    unfold StandingOp.run
    dsimp only
    cases hrevoke : store.revokeStanding id with
    | error e => exact h
    | ok store' => exact h.revoke hrevoke
  | gate inputs =>
    unfold StandingOp.run
    dsimp only
    cases hasks : AgentGate.asks host store inputs with
    | none => exact h.of_standing (AgentGate.asks_none hasks)
    | some asked =>
      obtain ⟨view, cap, category⟩ := asked
      obtain ⟨-, hcategory, heval⟩ := AgentGate.asks_some hasks
      rw [heval, AgentGate.checkApproval_snd hcategory]
      exact h.consume _
  | consume call => exact h.consume call
  | others profiles approvals blocklist => exact h.of_standing rfl

theorem StandingRun.accounted {host : GateHost} (run : StandingRun host log store) :
    Accounted log store := by
  induction run with
  | start store h =>
    refine ⟨fun id row hrow => ?_, fun id row h => absurd h (by simp [lastCreated]), fun _ _ => rfl⟩
    rw [h, HashMap.get?_empty] at hrow
    cases hrow
  | step run op ih => exact op.accounted ih

/-- In every state of every run: the calls on a standing approval are within its bounds and its
scope, and the gate lets a capability that needs approval through, without a token, only on one
for the first category that needs it. -/
theorem standing_approvals_honoured (host : GateHost) (log : List StandingEvent) (store : AgentStore)
    (run : StandingRun host log store) :
    (∀ id, ∀ call ∈ usesOf id log, ∃ row, lastCreated id log = some row ∧ Within row call) ∧
      (∀ id row, lastCreated id log = some row → Honoured row (usesOf id log)) ∧
      ∀ inputs view cap category a, inputs.envelope.approvalToken = none →
        store.getBySubject inputs.identity.subjectId = some view →
        view.profile ≠ some PROFILE_ALLOW_ALL → inputs.capability = some cap →
        AgentGate.matchedCategory view cap = some category →
        (AgentGate.evaluateStore host store inputs).1 = .allow a →
        ∃ id row, lastCreated id log = some row ∧ (store.standing.get? id).isSome ∧
          Within row (AgentGate.standingMatch view inputs cap category) := by
  have hacc := run.accounted
  refine ⟨?_, fun id row h => (hacc.honoured id row h).2, ?_⟩
  · intro id call hcall
    cases hlast : lastCreated id log with
    | none =>
      rw [hacc.unused id hlast] at hcall
      cases hcall
    | some row => exact ⟨row, rfl, (hacc.honoured id row hlast).2.within call hcall⟩
  · intro inputs view cap category a htoken hview hall hcap hcategory hallow
    have hcheck := AgentGate.checkApproval_of_allow htoken hview hall hcap hallow
    obtain ⟨id, store', hconsume⟩ := AgentGate.checkApproval_allow hcategory hcheck
    obtain ⟨row, row₀, hrow, hlast, -⟩ := hacc.selected hconsume
    obtain ⟨row₁, hlast₁, hwithin⟩ := (hacc.use hconsume).2
    rw [hlast] at hlast₁
    cases hlast₁
    exact ⟨id, row₀, hlast, Option.isSome_iff_exists.mpr ⟨row, hrow⟩, hwithin⟩

def clerkView : AgentGateView where
  agentId := "agt_clerk_00000002"
  subjectId := "subject-abc"
  status := "active"
  surfaceAllowlist := []
  riskCeiling := "high"
  allowCategories := []
  denyCategories := []
  allowSensitivityTags := []
  denySensitivityTags := []
  approvalRequiredCategories := ["payments", "email:send"]
  authorizedApprovers := []
  approvalTimeoutSecs := 86400
  profile := none

def clerkStore : AgentStore where
  profiles := HashMap.empty.insert clerkView.subjectId clerkView
  approvals := HashMap.empty
  standing := HashMap.empty
  blocklist := HashMap.empty

def onePayment : StandingApprovalCreate where
  agentId := "agt_clerk_00000002"
  matchCategory := "payments"
  matchPathGlob := none
  scopeKind := none
  taskId := some "task-123"
  sessionId := none
  methodPrefix := none
  workspacePathGlob := none
  expiresAt := 1700003600
  grantedBy := "olivia"
  maxCalls := some 1
  maxCostMicros := none
  note := ""
  tenantId := "default"

def onePaymentRow : StandingApproval := AgentStore.standingRow 1700000000 "std_00000000000000aa" onePayment

def grantedStore : AgentStore :=
  { clerkStore with standing := HashMap.empty.insert "std_00000000000000aa" onePaymentRow }

def clerkCall (categories : List String) : GateInputs where
  identity := ⟨"subject-abc", "clerk", [], ""⟩
  envelope := ⟨"tool.pay", none, some "task-999", none, none, none⟩
  capability := some ⟨"tool.pay", .externalPaid, [], categories, .medium⟩
  now := 1700000100
  nowMs := 1700000100000
  keyset := sampleKeyset
  callerSurface := none

theorem granted_run (host : GateHost) : StandingRun host [.created onePaymentRow] grantedStore :=
  .step (.start clerkStore rfl) (.create 1700000000 "std_00000000000000aa" onePayment)

theorem payment_candidate (categories : List String) (cap : CapabilityDescriptor)
    (hcost : cap.costClass = .externalPaid) :
    grantedStore.consumeActiveStandingFor
        (AgentGate.standingMatch clerkView (clerkCall categories) cap "payments") =
      (some "std_00000000000000aa",
        { grantedStore with
          standing := grantedStore.standing.insert "std_00000000000000aa"
            { onePaymentRow with callsUsed := 1 } }) := by
  have hcand : grantedStore.candidates
      (AgentGate.standingMatch clerkView (clerkCall categories) cap "payments") = [onePaymentRow] := by
    unfold AgentStore.candidates AgentGate.standingMatch
    rw [hcost]
    exact List.mergeSort_singleton _
  unfold AgentStore.consumeActiveStandingFor
  rw [hcand]
  rfl

theorem clerk_asks (categories : List String) :
    AgentGate.asks sampleHost grantedStore (clerkCall ("payments" :: categories)) =
      some (clerkView, ⟨"tool.pay", .externalPaid, [], "payments" :: categories, .medium⟩, "payments") := by
  have hdenied : AgentGate.deniedByCapability sampleHost clerkView
      ⟨"tool.pay", .externalPaid, [], "payments" :: categories, .medium⟩ = none := by
    have hnone : ("payments" :: categories).any clerkView.denyCategories.contains = false := by
      simp [clerkView]
    unfold AgentGate.deniedByCapability
    rw [hnone]
    rfl
  have hcategory : AgentGate.matchedCategory clerkView
      ⟨"tool.pay", .externalPaid, [], "payments" :: categories, .medium⟩ = some "payments" := by
    simp [AgentGate.matchedCategory, clerkView]
  have hview : grantedStore.getBySubject (clerkCall ("payments" :: categories)).identity.subjectId =
      some clerkView := rfl
  have hprofile : AgentGate.deniedByProfile sampleHost clerkView
      (clerkCall ("payments" :: categories)).callerSurface = none := rfl
  have hall : clerkView.profile ≠ some PROFILE_ALLOW_ALL := by decide
  unfold AgentGate.asks
  rw [if_neg (by simp [clerkCall]), hview]
  simp only [bind, Option.bind, if_neg hall, hprofile]
  simp [clerkCall, hdenied, hcategory, pure]

theorem clerk_allowed (categories : List String) :
    (AgentGate.evaluateStore sampleHost grantedStore (clerkCall ("payments" :: categories))).1 =
      .allow ⟨"standing_approval:payments:std_00000000000000aa", none⟩ := by
  obtain ⟨-, hcategory, heval⟩ := AgentGate.asks_some (clerk_asks categories)
  rw [heval]
  unfold AgentGate.checkApproval
  rw [hcategory]
  dsimp only
  rw [payment_candidate ("payments" :: categories) _ rfl]
  have htext : "standing_approval:" ++ "payments" ++ ":" ++ "std_00000000000000aa" =
      "standing_approval:payments:std_00000000000000aa" := by decide +kernel
  exact congrArg (fun rule => GateDecision.allow ⟨rule, none⟩) htext

/-- The one payment is made, and no row has paid for more than one. -/
theorem one_payment_made :
    (∀ id row, lastCreated id
        (((StandingOp.gate (clerkCall ["payments"])).run sampleHost grantedStore).1 ++
          [.created onePaymentRow]) = some row →
      Honoured row (usesOf id
        (((StandingOp.gate (clerkCall ["payments"])).run sampleHost grantedStore).1 ++
          [.created onePaymentRow]))) ∧
      ∃ id row, lastCreated id [.created onePaymentRow] = some row ∧
        (grantedStore.standing.get? id).isSome ∧
        Within row (AgentGate.standingMatch clerkView (clerkCall ["payments"])
          ⟨"tool.pay", .externalPaid, [], ["payments"], .medium⟩ "payments") :=
  ⟨(standing_approvals_honoured sampleHost _ _
      ((granted_run sampleHost).step (.gate (clerkCall ["payments"])))).2.1,
    (standing_approvals_honoured sampleHost _ _ (granted_run sampleHost)).2.2 (clerkCall ["payments"])
      clerkView _ "payments" _ rfl rfl (by decide) rfl (by decide) (clerk_allowed [])⟩

/-- A payment that is also a mail, for another task than the row's, goes through on it. -/
theorem other_task_admitted :
    StandingRun sampleHost [.created onePaymentRow] grantedStore ∧
      onePaymentRow.taskId = some "task-123" ∧
      (clerkCall ["payments", "email:send"]).envelope.taskId = some "task-999" ∧
      "email:send" ∈ clerkView.approvalRequiredCategories ∧
      (∀ id row, grantedStore.standing.get? id = some row → row.matchCategory ≠ "email:send") ∧
      (AgentGate.evaluateStore sampleHost grantedStore (clerkCall ["payments", "email:send"])).1 =
        .allow ⟨"standing_approval:payments:std_00000000000000aa", none⟩ := by
  refine ⟨granted_run sampleHost, by decide, rfl, by decide, ?_, clerk_allowed ["email:send"]⟩
  intro id row hrow
  have hget : (HashMap.empty.insert "std_00000000000000aa" onePaymentRow).get? id = some row := hrow
  rw [HashMap.get?_insert] at hget
  by_cases hid : id = "std_00000000000000aa"
  · rw [if_pos hid] at hget
    cases hget
    decide
  · rw [if_neg hid] at hget
    cases hget

end Admission

end Relux
