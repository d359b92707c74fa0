import Relux.BudgetEnforcer

/-! A `reject` limit that the invalidated spend has reached: what a check answers. -/

namespace Relux.Budget

theorem scopeKey_inj {scope scope' : Option String} (h : scopeKey scope = scopeKey scope') :
    scope = scope' := by
  have hdeployment : ∀ agent : String, "agent:" ++ agent ≠ "deployment" := by
    intro agent heq
    have hlist := congrArg String.toList heq
    simp at hlist
  cases scope with
  | none =>
    cases scope' with
    | none => rfl
    | some agent => exact absurd h.symm (hdeployment agent)
  | some agent =>
    cases scope' with
    | none => exact absurd h (hdeployment agent)
    | some agent' =>
      have hlist := congrArg String.toList h
      simp only [scopeKey, String.toList_append, List.append_cancel_left_eq] at hlist
      exact congrArg some (String.toList_injective hlist)

variable {rows : List Spend}

theorem total_filter_le {p q : Spend → Bool} (h : ∀ row, p row = true → q row = true) :
    total (rows.filter p) ≤ total (rows.filter q) := by
  induction rows with
  | nil => exact Nat.le_refl _
  | cons row rows ih =>
    by_cases hp : p row = true
    · have hq := h row hp
      simp only [List.filter_cons, hp, hq, if_true, total]
      omega
    · by_cases hq : q row = true
      · simp only [List.filter_cons, hp, hq, if_true, if_false, total, Bool.false_eq_true]
        omega
      · simp only [List.filter_cons, hp, hq, if_false, Bool.false_eq_true]
        exact ih

/-- The spend of a scope from `sinceMs` on that was recorded and then invalidated. -/
def toldSince (rows : List Spend) (scope : Option String) (sinceMs : Int) : Nat :=
  total (rows.filter (fun row =>
    row.invalidated && row.inScope scope && decide (sinceMs ≤ row.timestampMs)))

def toldIn (rows : List Spend) (scope : Option String) (bounds : Int × Int) : Nat :=
  total (rows.filter (fun row =>
    row.invalidated && row.inScope scope && decide (bounds.1 ≤ row.timestampMs) &&
      decide (row.timestampMs < bounds.2)))

theorem toldSince_le_costSince (rows : List Spend) (scope : Option String) (sinceMs : Int) :
    toldSince rows scope sinceMs ≤ costSince rows scope sinceMs := by
  refine total_filter_le (fun row h => ?_)
  simp only [Bool.and_eq_true] at h ⊢
  exact ⟨h.1.2, h.2⟩

theorem toldIn_le_toldSince (rows : List Spend) (scope : Option String) (bounds : Int × Int) :
    toldIn rows scope bounds ≤ toldSince rows scope bounds.1 := by
  refine total_filter_le (fun row h => ?_)
  simp only [Bool.and_eq_true] at h ⊢
  exact h.1

variable {agent : String}

theorem Spend.invalidate_of_ne {row : Spend} (h : row.agentName ≠ agent) :
    row.invalidate agent = row := if_neg h

theorem Spend.invalidate_fields (agent : String) (row : Spend) :
    (row.invalidate agent).agentName = row.agentName ∧
      (row.invalidate agent).timestampMs = row.timestampMs ∧
      (row.invalidate agent).costMicros = row.costMicros ∧
      (row.invalidated = true → (row.invalidate agent).invalidated = true) := by
  by_cases h : row.agentName = agent
  · have heq : row.invalidate agent = { row with invalidated := true } := if_pos h
    rw [heq]
    exact ⟨rfl, rfl, rfl, fun _ => rfl⟩
  · rw [Spend.invalidate_of_ne h]
    exact ⟨rfl, rfl, rfl, id⟩

theorem total_filter_map_le {p : Spend → Bool} {f : Spend → Spend}
    (hcost : ∀ row, (f row).costMicros = row.costMicros)
    (hp : ∀ row, p row = true → p (f row) = true) :
    total (rows.filter p) ≤ total ((rows.map f).filter p) := by
  induction rows with
  | nil => exact Nat.le_refl _
  | cons row rows ih =>
    have hrow := hcost row
    by_cases h : p row = true
    · have h' := hp row h
      simp only [List.map_cons, List.filter_cons, h, h', if_true, total]
      omega
    · by_cases h' : p (f row) = true
      · simp only [List.map_cons, List.filter_cons, h, h', if_true, if_false, total,
          Bool.false_eq_true]
        omega
      · simp only [List.map_cons, List.filter_cons, h, h', if_false, Bool.false_eq_true]
        exact ih

theorem toldIn_invalidate (agent : String) (rows : List Spend) (scope : Option String)
    (bounds : Int × Int) :
    toldIn rows scope bounds ≤ toldIn (rows.map (Spend.invalidate agent)) scope bounds := by
  refine total_filter_map_le (fun row => (row.invalidate_fields agent).2.2.1) ?_
  intro row h
  obtain ⟨hname, hts, -, htold⟩ := row.invalidate_fields agent
  simp only [Bool.and_eq_true] at h ⊢
  have hscope : (row.invalidate agent).inScope scope = row.inScope scope := by
    cases scope with
    | none => rfl
    | some other => simp only [Spend.inScope, hname]
  rw [hscope, hts]
  exact ⟨⟨⟨htold h.1.1.1, h.1.1.2⟩, h.1.2⟩, h.2⟩

theorem toldSince_invalidate_of_ne {other : String} (hne : other ≠ agent) (rows : List Spend)
    (sinceMs : Int) :
    toldSince (rows.map (Spend.invalidate agent)) (some other) sinceMs =
      toldSince rows (some other) sinceMs := by
  unfold toldSince
  induction rows with
  | nil => rfl
  | cons row rows ih =>
    by_cases hrow : row.agentName = agent
    · have hout : row.inScope (some other) = false := by
        simp only [Spend.inScope, beq_eq_false_iff_ne, hrow]
        exact fun h => hne h.symm
      have hout' : (row.invalidate agent).inScope (some other) = false := by
        simp only [Spend.inScope, (row.invalidate_fields agent).1]
        exact hout
      simp only [List.map_cons, List.filter_cons, hout, hout', Bool.and_false, Bool.false_and,
        Bool.false_eq_true, if_false]
      exact ih
    · rw [List.map_cons, Spend.invalidate_of_ne hrow, List.filter_cons, List.filter_cons]
      by_cases hin : (row.invalidated && row.inScope (some other) &&
          decide (sinceMs ≤ row.timestampMs)) = true
      · rw [if_pos hin, if_pos hin]
        simp only [total, ih]
      · rw [if_neg hin, if_neg hin]
        exact ih

def CacheComplete (s : Shared) : Prop :=
  ∀ scope window entry, s.cache.get? (scopeKey scope, window) = some entry →
    toldSince s.rows scope entry.windowStartMs ≤ entry.costMicros

/-- The query a refresh makes succeeds, and what it inserts misses no spend that was
invalidated after it was read. -/
def Sound (s : Shared) : Op → Prop
  | .readCost scope sinceMs => s.costSince? scope sinceMs ≠ none
  | .insert scope _ entry => toldSince s.rows scope entry.windowStartMs ≤ entry.costMicros
  | _ => True

def SoundExec : Shared → (op : Op) → op.Res → Shared → Prop := Pool.Where Executes Sound

variable {s s' : Shared}

theorem CacheComplete.outside (h : CacheComplete s) (hout : Outside s s') : CacheComplete s' := by
  cases hout with
  | record agentName timestampMs costMicros =>
    intro scope window entry hentry
    exact h scope window entry hentry
  | tick now => exact h
  | store failing => exact h

theorem CacheComplete.dropAgent (h : CacheComplete s) (agent : String)
    {cache : HashMap CacheKey CacheEntry}
    (hcache : cache = (((s.cache.remove (scopeKey (some agent), .daily)).remove
      (scopeKey (some agent), .hourly)).remove (scopeKey none, .daily)).remove
      (scopeKey none, .hourly)) :
    CacheComplete { s with rows := s.rows.map (Spend.invalidate agent), cache := cache } := by
  intro scope window entry hentry
  have hkept : scope ≠ none ∧ scope ≠ some agent ∧
      s.cache.get? (scopeKey scope, window) = some entry := by
    simp only [hcache, HashMap.get?_remove, Prod.mk.injEq] at hentry
    refine ⟨?_, ?_, ?_⟩
    · rintro rfl
      cases window <;> simp at hentry
    · rintro rfl
      cases window <;> simp at hentry
    · split at hentry
      · cases hentry
      · split at hentry
        · cases hentry
        · split at hentry
          · cases hentry
          · split at hentry
            · cases hentry
            · exact hentry
  obtain ⟨hnone, hother, hbefore⟩ := hkept
  cases scope with
  | none => exact absurd rfl hnone
  | some other =>
    have hne : other ≠ agent := fun heq => hother (congrArg some heq)
    rw [toldSince_invalidate_of_ne hne]
    exact h (some other) window entry hbefore

theorem CacheComplete.exec {s s' : Shared} {op : Op} {r : op.Res} (h : CacheComplete s)
    (hexec : SoundExec s op r s') : CacheComplete s' := by
  obtain ⟨hexec, hsound⟩ := hexec
  unfold Executes at hexec
  cases op with
  | clock | lookup | readCost | deliver | unlockRefresh | dropAlert =>
    cases hexec
    exact h
  | lockRefresh =>
    simp only [Budget.exec] at hexec
    split at hexec
    · cases hexec
    · cases hexec
      exact h
  | insert scope window entry =>
    cases hexec
    intro scope' window' entry' hentry
    rcases HashMap.insert_some hentry with ⟨hkey, rfl⟩ | ⟨-, hold⟩
    · have hscope : scope' = scope := scopeKey_inj (congrArg Prod.fst hkey)
      rw [hscope]
      exact hsound
    · exact h scope' window' entry' hold
  | dropAgent agent =>
    cases hexec
    exact h.dropAgent agent rfl
  | dropEntry key =>
    cases hexec
    intro scope window entry hentry
    rw [HashMap.get?_remove] at hentry
    split at hentry
    · cases hentry
    · exact h scope window entry hentry
  | raise key breach message =>
    simp only [Budget.exec] at hexec
    split at hexec <;> (cases hexec; exact h)
  | lower key =>
    simp only [Budget.exec] at hexec
    split at hexec <;> (cases hexec; exact h)

/-- In the window `bounds` of the clock, the invalidated spend of the scope is at the limit. -/
structure Over (scope : Option String) (window : Window) (bounds : Int × Int) (limit : Nat)
    (s : Shared) : Prop where
  complete : CacheComplete s
  told : limit ≤ toldIn s.rows scope bounds
  clock : window.boundsMs s.now = bounds

def OutsideWithin (window : Window) (bounds : Int × Int) (s s' : Shared) : Prop :=
  Outside s s' ∧ window.boundsMs s'.now = bounds

section
variable {scope : Option String} {window : Window} {bounds : Int × Int} {limit : Nat}
  {s s' : Shared}

theorem Over.outside (h : Over scope window bounds limit s)
    (hout : OutsideWithin window bounds s s') : Over scope window bounds limit s' := by
  obtain ⟨hout, hclock⟩ := hout
  refine ⟨h.complete.outside hout, ?_, hclock⟩
  have htold := h.told
  cases hout with
  | record agentName timestampMs costMicros => exact htold
  | tick now => exact htold
  | store failing => exact htold

variable {op : Op} {r : op.Res}

theorem exec_now (h : Executes s op r s') : s'.now = s.now := by
  unfold Executes at h
  cases op with
  | clock | lookup | readCost | deliver | unlockRefresh | dropAlert | insert | dropAgent
  | dropEntry => cases h; rfl
  | lockRefresh | raise | lower =>
    simp only [Budget.exec] at h
    split at h <;> (cases h; try rfl)

theorem exec_told (h : Executes s op r s') :
    toldIn s.rows scope bounds ≤ toldIn s'.rows scope bounds := by
  unfold Executes at h
  cases op with
  | clock | lookup | readCost | deliver | unlockRefresh | dropAlert | insert
  | dropEntry => cases h; exact Nat.le_refl _
  | dropAgent agent => cases h; exact toldIn_invalidate agent s.rows scope bounds
  | lockRefresh | raise | lower =>
    simp only [Budget.exec] at h
    split at h <;> (cases h; try exact Nat.le_refl _)

theorem Over.exec (h : Over scope window bounds limit s)
    (hexec : SoundExec s op r s') : Over scope window bounds limit s' where
  complete := h.complete.exec hexec
  told := Nat.le_trans h.told (exec_told hexec.1)
  clock := by rw [exec_now hexec.1, h.clock]

theorem Over.entry (h : Over scope window bounds limit s) {entry : CacheEntry}
    (hentry : s.cache.get? (scopeKey scope, window) = some entry)
    (hstart : entry.windowStartMs = bounds.1) : limit ≤ entry.costMicros := by
  have hcached := h.complete scope window entry hentry
  rw [hstart] at hcached
  exact Nat.le_trans h.told (Nat.le_trans (toldIn_le_toldSince _ _ _) hcached)

theorem Over.read (h : Over scope window bounds limit s)
    (hread : s.costSince? scope bounds.1 ≠ none) :
    limit ≤ (s.costSince? scope bounds.1).getD 0 := by
  have hsum : s.costSince? scope bounds.1 = some (costSince s.rows scope bounds.1) := by
    unfold Shared.costSince? at hread ⊢
    split at hread
    · exact absurd rfl hread
    · next hok => rw [if_neg hok]
  rw [hsum, Option.getD_some]
  calc limit ≤ toldIn s.rows scope bounds := h.told
    _ ≤ toldSince s.rows scope bounds.1 := toldIn_le_toldSince _ _ _
    _ ≤ costSince s.rows scope bounds.1 := toldSince_le_costSince _ _ _

end

section
variable {Usd : Type} {e : Enforcer Usd} {scope : Option String} {window : Window}
  {bounds : Int × Int} {limit : Nat}

variable {cached : Option CacheEntry}

end

section
variable {Usd : Type} (e : Enforcer Usd)

def Window.pick {α : Type} : Window → α → α → α
  | .daily, first, _ => first
  | .hourly, _, second => second

def AgentBudget.limit (cfg : AgentBudget Usd) (window : Window) : Option Usd :=
  window.pick cfg.dailyLimitUsd cfg.hourlyLimitUsd

def DeploymentBudget.limit (cfg : DeploymentBudget Usd) (window : Window) : Option Usd :=
  window.pick cfg.dailyLimitUsd cfg.hourlyLimitUsd

end

section
variable {Usd : Type} {e : Enforcer Usd} {scope : Option String} {window : Window}
  {inv : Shared → Prop} {entry : CacheEntry} {limitUsd : Usd}

end

end Relux.Budget
