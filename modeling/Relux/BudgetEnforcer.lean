import Relux.HashMap
import Relux.Threads

/-! The budget enforcer: limits on the spend of an agent and of the deployment, checked
against a cached reading of the metrics store. Checks, invalidations and resets run at the
same time; each access to the store, to the cache or to the active alerts is one step. -/

namespace Relux.Budget

inductive Window
  | daily
  | hourly
  deriving DecidableEq, Repr

namespace Window

def asStr : Window → String
  | .daily => "daily"
  | .hourly => "hourly"

def durationMs : Window → Int
  | .daily => 86400000
  | .hourly => 3600000

def boundsMs (w : Window) (now : Int) : Int × Int :=
  let start := now.tdiv w.durationMs * w.durationMs
  (start, start + w.durationMs)

end Window

inductive BudgetAction
  | throttle
  | reject
  | alertOnly
  deriving DecidableEq, Repr

structure UsdHost (Usd : Type) where
  isNan : Usd → Bool
  isInfinite : Usd → Bool
  /-- A million times the limit, not below zero, truncated and capped at the largest `u64`. -/
  micros : Usd → Nat
  fixed4 : Usd → String
  fixed4Micros : Nat → String
  debug : Usd → String

structure AgentBudget (Usd : Type) where
  agent : String
  dailyLimitUsd : Option Usd
  hourlyLimitUsd : Option Usd
  actionOnExceed : BudgetAction

structure DeploymentBudget (Usd : Type) where
  dailyLimitUsd : Option Usd
  hourlyLimitUsd : Option Usd
  actionOnExceed : BudgetAction

structure BudgetConfig (Usd : Type) where
  agents : List (AgentBudget Usd)
  deployment : Option (DeploymentBudget Usd)
  throttleBackoffMs : Nat
  cacheRefreshSecs : Nat
  exemptMethods : List String

structure BudgetBreach where
  agent : String
  window : String
  scope : String
  limitMicros : Nat
  actualMicros : Nat
  resetsAtMs : Int
  cause : String
  deriving DecidableEq, Repr

inductive BudgetDecision
  | allow
  | throttle (delayMs : Nat) (info : BudgetBreach)
  | reject (info : BudgetBreach)
  deriving DecidableEq, Repr

structure CacheEntry where
  costMicros : Nat
  windowStartMs : Int
  refreshedAtMs : Int
  windowEndMs : Int

structure ActiveAlert where
  agent : String
  triggeredAtMs : Int
  threshold : Nat
  actual : Nat
  message : String
  method : String

inductive AlertEvent
  | fired (alert : ActiveAlert)
  | recovered (alert : ActiveAlert)

/-- `"agent:<name>"` or `"deployment"`, with the window. -/
abbrev CacheKey := String × Window

def scopeKey : Option String → String
  | some agent => "agent:" ++ agent
  | none => "deployment"

structure Enforcer (Usd : Type) where
  host : UsdHost Usd
  agents : HashMap String (AgentBudget Usd)
  deployment : Option (DeploymentBudget Usd)
  throttleBackoffMs : Nat
  cacheRefreshMs : Nat
  exemptMethods : List String

def Enforcer.new {Usd : Type} (host : UsdHost Usd) (cfg : BudgetConfig Usd) : Enforcer Usd where
  host := host
  agents := HashMap.collect (cfg.agents.map (fun row => (row.agent, row)))
  deployment := cfg.deployment
  throttleBackoffMs := cfg.throttleBackoffMs
  cacheRefreshMs := min (max cfg.cacheRefreshSecs 1 * 1000) 9223372036854775807
  exemptMethods := cfg.exemptMethods

/-- A row of the metrics store. `invalidated` is no column: it says that the agent's cache
entries were dropped at some time after the row landed. -/
structure Spend where
  agentName : String
  timestampMs : Int
  costMicros : Nat
  invalidated : Bool

def total : List Spend → Nat
  | [] => 0
  | row :: rows => row.costMicros + total rows

def Spend.inScope (row : Spend) : Option String → Bool
  | some agent => row.agentName == agent
  | none => true

/-- `SUM(cost_micros)` over the rows of the scope from `sinceMs` on. -/
def costSince (rows : List Spend) (scope : Option String) (sinceMs : Int) : Nat :=
  total (rows.filter (fun row => row.inScope scope && decide (sinceMs ≤ row.timestampMs)))

inductive Edge
  | fired
  | recovered
  | reset
  deriving DecidableEq, Repr

structure Shared where
  now : Int
  rows : List Spend
  failing : Bool
  cache : HashMap CacheKey CacheEntry
  active : HashMap CacheKey ActiveAlert
  refreshing : Bool
  delivered : List AlertEvent
  /-- No field of the enforcer: what happened to the active alerts, the latest first. -/
  edges : List (CacheKey × Edge)

inductive Op
  | clock
  | lookup (key : CacheKey)
  | lockRefresh
  | unlockRefresh
  | readCost (scope : Option String) (sinceMs : Int)
  | insert (scope : Option String) (window : Window) (entry : CacheEntry)
  | dropAgent (agent : String)
  | dropEntry (key : CacheKey)
  | raise (key : CacheKey) (breach : BudgetBreach) (message : String)
  | lower (key : CacheKey)
  | dropAlert (key : CacheKey)
  | deliver (event : AlertEvent)

abbrev Op.Res : Op → Type
  | .clock => Int
  | .lookup _ => Option CacheEntry
  | .readCost _ _ => Nat
  | .raise _ _ _ => Option ActiveAlert
  | .lower _ => Option ActiveAlert
  | _ => Unit

/-- The sum, unless the query fails: for the store's own reasons, or because the sum is no
signed 64-bit number. -/
def Shared.costSince? (s : Shared) (scope : Option String) (sinceMs : Int) : Option Nat :=
  if s.failing || decide (9223372036854775808 ≤ costSince s.rows scope sinceMs) then none
  else some (costSince s.rows scope sinceMs)

def Spend.invalidate (agent : String) (row : Spend) : Spend :=
  if row.agentName = agent then { row with invalidated := true } else row

def raisedAlert (now : Int) (breach : BudgetBreach) (message : String) : ActiveAlert where
  agent := breach.agent
  triggeredAtMs := now
  threshold := breach.limitMicros
  actual := breach.actualMicros
  message := message
  method := s!"budget:{breach.scope}:{breach.window}"

def exec (s : Shared) : (op : Op) → Option (op.Res × Shared)
  | .clock => some (s.now, s)
  | .lookup key => some (s.cache.get? key, s)
  | .lockRefresh => if s.refreshing then none else some ((), { s with refreshing := true })
  | .unlockRefresh => some ((), { s with refreshing := false })
  | .readCost scope sinceMs => some ((s.costSince? scope sinceMs).getD 0, s)
  | .insert scope window entry =>
    some ((), { s with cache := s.cache.insert (scopeKey scope, window) entry })
  | .dropAgent agent =>
    some ((), { s with
      rows := s.rows.map (Spend.invalidate agent)
      cache := (((s.cache.remove (scopeKey (some agent), .daily)).remove
        (scopeKey (some agent), .hourly)).remove (scopeKey none, .daily)).remove
        (scopeKey none, .hourly) })
  | .dropEntry key => some ((), { s with cache := s.cache.remove key })
  | .raise key breach message =>
    match s.active.get? key with
    | some _ => some (none, s)
    | none =>
      some (some (raisedAlert s.now breach message), { s with
        active := s.active.insert key (raisedAlert s.now breach message)
        edges := (key, .fired) :: s.edges })
  | .lower key =>
    match s.active.get? key with
    | none => some (none, s)
    | some prior =>
      some (some prior, { s with
        active := s.active.remove key
        edges := (key, .recovered) :: s.edges })
  | .dropAlert key =>
    some ((), { s with
      active := s.active.remove key
      edges := (key, .reset) :: s.edges })
  | .deliver event => some ((), { s with delivered := event :: s.delivered })

abbrev BudgetProg := Prog Op Op.Res

abbrev perform (op : Op) : BudgetProg op.Res := Prog.call op

section
variable {Usd : Type} (e : Enforcer Usd)

def fresh (windowStart now : Int) (entry : Option CacheEntry) : Option CacheEntry :=
  entry.filter (fun entry => decide (entry.windowStartMs = windowStart) &&
    decide (now - entry.refreshedAtMs < e.cacheRefreshMs))

def refreshWindow (scope : Option String) (window : Window) : BudgetProg CacheEntry := do
  let now ← perform .clock
  let boundsNow ← perform .clock
  let (windowStart, windowEnd) := window.boundsMs boundsNow
  let cached ← perform (.lookup (scopeKey scope, window))
  match fresh e windowStart now cached with
  | some entry => pure entry
  | none =>
    perform .lockRefresh
    let cached ← perform (.lookup (scopeKey scope, window))
    match fresh e windowStart now cached with
    | some entry =>
      perform .unlockRefresh
      pure entry
    | none =>
      let costMicros ← perform (.readCost scope windowStart)
      let entry : CacheEntry := ⟨costMicros, windowStart, now, windowEnd⟩
      perform (.insert scope window entry)
      perform .unlockRefresh
      pure entry

def alertMessage (breach : BudgetBreach) : String :=
  let scope :=
    if breach.scope = "deployment" then "deployment"
    else if breach.agent = "" then "agent" else "agent " ++ breach.agent
  let limit := e.host.fixed4Micros breach.limitMicros
  let actual := e.host.fixed4Micros breach.actualMicros
  s!"Budget exceeded — {scope}: {limit} USD {breach.window} limit (actual ${actual}, " ++
    s!"resets at unix-ms {breach.resetsAtMs})"

def maybeEmitFire (key : CacheKey) (breach : BudgetBreach) : BudgetProg Unit := do
  match ← perform (.raise key breach (alertMessage e breach)) with
  | none => pure ()
  | some alert => perform (.deliver (.fired alert))

def maybeEmitRecovery (key : CacheKey) (entry : CacheEntry) : BudgetProg Unit := do
  match ← perform (.lower key) with
  | none => pure ()
  | some prior => perform (.deliver (.recovered { prior with actual := entry.costMicros }))

def scopeName : Option String → String
  | some _ => "agent"
  | none => "deployment"

def label : Option String → String
  | some agent => " " ++ agent
  | none => ""

def invalidLimit (scope : Option String) (window : Window) (limitUsd : Usd)
    (entry : CacheEntry) : BudgetBreach where
  agent := scope.getD ""
  window := window.asStr
  scope := scopeName scope
  limitMicros := 0
  actualMicros := entry.costMicros
  resetsAtMs := entry.windowEndMs
  cause :=
    s!"budget: invalid limit for {scopeName scope}{label scope} {window.asStr} window: " ++
      s!"{e.host.debug limitUsd} (NaN or infinite — operator must set a finite USD value)"

def breachOf (scope : Option String) (window : Window) (limitUsd : Usd)
    (entry : CacheEntry) : BudgetBreach where
  agent := scope.getD ""
  window := window.asStr
  scope := scopeName scope
  limitMicros := e.host.micros limitUsd
  actualMicros := entry.costMicros
  resetsAtMs := entry.windowEndMs
  cause :=
    s!"budget exceeded: {scopeName scope}{label scope} {window.asStr} limit " ++
      s!"${e.host.fixed4 limitUsd} reached (actual ${e.host.fixed4Micros entry.costMicros}; " ++
      s!"window resets at unix-ms {entry.windowEndMs})"

def BudgetAction.decision (action : BudgetAction) (breach : BudgetBreach) : BudgetDecision :=
  match action with
  | .reject => .reject breach
  | .throttle => .throttle e.throttleBackoffMs breach
  | .alertOnly => .allow

def compare (scope : Option String) (window : Window) (limitUsd : Usd) (action : BudgetAction)
    (entry : CacheEntry) : BudgetProg (Option BudgetDecision) :=
  if e.host.isNan limitUsd || e.host.isInfinite limitUsd then
    pure (some (.reject (invalidLimit e scope window limitUsd entry)))
  else if e.host.micros limitUsd ≤ entry.costMicros ∧ 0 < e.host.micros limitUsd then do
    maybeEmitFire e (scopeKey scope, window) (breachOf e scope window limitUsd entry)
    pure (some (action.decision e (breachOf e scope window limitUsd entry)))
  else do
    maybeEmitRecovery (scopeKey scope, window) entry
    pure none

def compareLimit (scope : Option String) (window : Window) (limitUsd : Option Usd)
    (action : BudgetAction) (entry : CacheEntry) : BudgetProg (Option BudgetDecision) :=
  match limitUsd with
  | none => pure none
  | some limitUsd => compare e scope window limitUsd action entry

def evaluate (scope : Option String) (dailyLimitUsd hourlyLimitUsd : Option Usd)
    (action : BudgetAction) : BudgetProg BudgetDecision := do
  let daily ← refreshWindow e scope .daily
  let hourly ← refreshWindow e scope .hourly
  match ← compareLimit e scope .daily dailyLimitUsd action daily with
  | some decision => pure decision
  | none =>
    let decision ← compareLimit e scope .hourly hourlyLimitUsd action hourly
    pure (decision.getD .allow)

def evaluateAgent (agent : String) : BudgetProg (Option BudgetDecision) :=
  match e.agents.get? agent with
  | none => pure none
  | some cfg => some <$>
    evaluate e (some agent) cfg.dailyLimitUsd cfg.hourlyLimitUsd cfg.actionOnExceed

def evaluateDeployment : BudgetProg (Option BudgetDecision) :=
  match e.deployment with
  | none => pure none
  | some cfg => some <$>
    evaluate e none cfg.dailyLimitUsd cfg.hourlyLimitUsd cfg.actionOnExceed

def check (agent method : String) : BudgetProg BudgetDecision :=
  if e.exemptMethods.contains method then pure .allow
  else do
    match ← evaluateAgent e agent with
    | some (.reject info) => pure (.reject info)
    | some (.throttle delayMs info) => pure (.throttle delayMs info)
    | _ =>
      let decision ← evaluateDeployment e
      pure (decision.getD .allow)

end

def reset (agent : Option String) (window : Window) : BudgetProg Unit := do
  perform (.dropEntry (scopeKey agent, window))
  perform (.dropAlert (scopeKey agent, window))

/-- What happens outside of the enforcer: a row lands, the clock is at another time, the
store begins or ceases to fail. -/
inductive Outside : Shared → Shared → Prop
  | record (s : Shared) (agentName : String) (timestampMs : Int) (costMicros : Nat) :
      Outside s { s with rows := ⟨agentName, timestampMs, costMicros, false⟩ :: s.rows }
  | tick (s : Shared) (now : Int) : Outside s { s with now := now }
  | store (s : Shared) (failing : Bool) : Outside s { s with failing := failing }

def Executes (s : Shared) (op : Op) (r : op.Res) (s' : Shared) : Prop := exec s op = some (r, s')

abbrev BudgetPool := Pool Shared Op Op.Res (Option BudgetDecision)

def BudgetPool.start (now : Int) : BudgetPool where
  shared := ⟨now, [], false, HashMap.empty, HashMap.empty, false, [], []⟩
  threads := []

end Relux.Budget
