import Mathlib.Data.List.Nodup
import Mathlib.Data.List.Sort
import Mathlib.Data.String.Basic
import Relux.Interleave

/-! The tool gateway: calls that are dispatched with options, the store of the actions they
leave, and the rollback of a transaction. Calls and rollbacks run side by side, and share the
store and nothing else. -/

namespace Relux.Gateway

inductive GatewayTier where
  | autoCompensated (compensatingTool compensatingArgs : String)
  | humanRollbackPlan (rollbackPlan : String)
  | blocked (reason : String)
  deriving DecidableEq

def GatewayTier.tag : GatewayTier → String
  | .autoCompensated _ _ => "auto_compensated"
  | .humanRollbackPlan _ => "human_rollback"
  | .blocked _ => "blocked"

structure GatewayDispatchOptions where
  transactionId : Option String
  idempotencyKey : Option String
  tier : Option GatewayTier
  dryRun : Bool
  actor : Option String
  deriving DecidableEq

structure Call where
  agent : String
  tool : String
  args : String
  options : GatewayDispatchOptions
  deriving DecidableEq

inductive DispatchError where
  | accessDenied (reason : String)
  | rateLimited (retryAfterSecs : Nat)
  | secretMissing (name : String)
  | handlerFailed (cause : String)
  deriving DecidableEq

abbrev Answer := Except DispatchError String

structure GatewayActionRow where
  actionId : String
  transactionId : String
  tool : String
  args : String
  result : Option String
  tier : GatewayTier
  idempotencyKey : Option String
  dryRun : Bool
  success : Bool
  error : Option String
  actor : Option String
  rolledBack : Bool
  startedAtMs : Int
  completedAtMs : Int
  deriving DecidableEq

structure DryRunPreview where
  tool : String
  args : String
  tierTag : String
  wouldBeReversible : Bool
  rollbackPlan : Option String
  compensatingTool : Option String
  deriving DecidableEq

def DryRunPreview.build (tool args : String) (tier : GatewayTier) : DryRunPreview :=
  match tier with
  | .autoCompensated compensatingTool _ =>
    ⟨tool, args, tier.tag, true, none, some compensatingTool⟩
  | .humanRollbackPlan plan => ⟨tool, args, tier.tag, !plan.isEmpty, some plan, none⟩
  | .blocked reason => ⟨tool, args, tier.tag, false, some reason, none⟩

structure OutputGuardResult where
  injectionDetected : Bool
  reason : Option String
  output : String

/-- The settings of the dispatcher, with the guard on tool output, the JSON of a preview, and
whether rollbacks have a dispatcher for their compensating calls. -/
structure GatewayConfig where
  blockedTools : List String
  globalDryRun : Bool
  inspect : String → OutputGuardResult
  previewJson : DryRunPreview → String
  compensates : Bool

/-- Where a row comes from, which nothing reads: a preview, a call that failed before its
handler ran, or the handler that was the `n`th to start, with its outcome. -/
inductive Origin where
  | preview
  | unresolved
  | handled (n : Nat) (outcome : Except String String)

structure StoredAction where
  row : GatewayActionRow
  origin : Origin

def StoredAction.slot (a : StoredAction) : Option (String × String) :=
  a.row.idempotencyKey.map (fun key => (a.row.tool, key))

def StoredAction.Listed (a b : StoredAction) : Prop :=
  a.row.startedAtMs < b.row.startedAtMs ∨
    (a.row.startedAtMs = b.row.startedAtMs ∧ a.row.actionId ≤ b.row.actionId)

instance (a b : StoredAction) : Decidable (a.Listed b) := inferInstanceAs (Decidable (_ ∨ _))

/-- The table `gateway_actions` with its primary key and its unique index. -/
structure TransactionStore where
  actions : List StoredAction
  primaryKey : (actions.map (·.row.actionId)).Nodup
  idem : (actions.filterMap (·.slot)).Nodup

namespace TransactionStore

def empty : TransactionStore := ⟨[], List.nodup_nil, List.nodup_nil⟩

def findByIdempotencyKey (s : TransactionStore) (tool key : String) : Option StoredAction :=
  s.actions.find? (fun a => decide (a.slot = some (tool, key)))

def Fits (s : TransactionStore) (a : StoredAction) : Prop :=
  a.row.actionId ∉ s.actions.map (·.row.actionId) ∧
    ∀ slot, a.slot = some slot → slot ∉ s.actions.filterMap (·.slot)

instance (s : TransactionStore) (a : StoredAction) : Decidable (s.Fits a) :=
  inferInstanceAs (Decidable (_ ∧ _))

variable {s : TransactionStore} {a : StoredAction}

theorem record_key (h : s.Fits a) :
    ((s.actions ++ [a]).map (·.row.actionId)).Nodup := by
  rw [List.map_append]
  exact List.nodup_append_comm.mp (List.nodup_cons.mpr ⟨h.1, s.primaryKey⟩)

theorem record_idem (h : s.Fits a) :
    ((s.actions ++ [a]).filterMap (·.slot)).Nodup := by
  rw [List.filterMap_append]
  cases hslot : a.slot with
  | none => simpa [hslot] using s.idem
  | some slot =>
    have hone : [a].filterMap (·.slot) = [slot] := by simp [hslot]
    rw [hone]
    exact List.nodup_append_comm.mp (List.nodup_cons.mpr ⟨h.2 slot hslot, s.idem⟩)

def record (s : TransactionStore) (a : StoredAction) : TransactionStore :=
  if h : s.Fits a then ⟨s.actions ++ [a], record_key h, record_idem h⟩ else s

def listForTransaction (s : TransactionStore) (transactionId : String) : List StoredAction :=
  (s.actions.filter (fun a => a.row.transactionId == transactionId)).insertionSort
    StoredAction.Listed

def markRow (actionId : String) (a : StoredAction) : StoredAction :=
  if a.row.actionId = actionId then { a with row := { a.row with rolledBack := true } } else a

theorem markRow_id (actionId : String) (a : StoredAction) :
    (markRow actionId a).row.actionId = a.row.actionId := by
  rw [markRow]
  split <;> rfl

theorem markRow_slot (actionId : String) (a : StoredAction) :
    (markRow actionId a).slot = a.slot := by
  rw [markRow]
  split <;> rfl

theorem mark_key (s : TransactionStore) (actionId : String) :
    ((s.actions.map (markRow actionId)).map (·.row.actionId)).Nodup := by
  have hsame : (s.actions.map (markRow actionId)).map (·.row.actionId) =
      s.actions.map (·.row.actionId) := by
    rw [List.map_map]
    exact List.map_congr_left (fun a _ => markRow_id actionId a)
  rw [hsame]
  exact s.primaryKey

theorem mark_idem (s : TransactionStore) (actionId : String) :
    ((s.actions.map (markRow actionId)).filterMap (·.slot)).Nodup := by
  have hsame : (s.actions.map (markRow actionId)).filterMap (·.slot) =
      s.actions.filterMap (·.slot) := by
    rw [List.filterMap_map]
    exact List.filterMap_congr (fun a _ => markRow_slot actionId a)
  rw [hsame]
  exact s.idem

def markRolledBack (s : TransactionStore) (actionId : String) : TransactionStore :=
  ⟨s.actions.map (markRow actionId), s.mark_key actionId, s.mark_idem actionId⟩

end TransactionStore

structure HandlerRun where
  n : Nat
  tool : String
  key : Option String
  answer : Answer

def HandlerRun.slot (r : HandlerRun) : Option (String × String) :=
  r.key.map (fun key => (r.tool, key))

structure Replay where
  slot : String × String
  answer : Answer

structure Compensation where
  rollback : Nat
  action : StoredAction
  success : Bool

structure RollbackAction where
  actionId : String
  originalTool : String
  compensatingTool : String
  success : Bool
  error : Option String
  deriving DecidableEq

structure RollbackPlanItem where
  actionId : String
  tool : String
  rollbackPlan : String
  deriving DecidableEq

structure RollbackResult where
  autoRolledBack : List RollbackAction
  humanReviewRequired : List RollbackPlanItem
  errors : List String
  transactionId : String
  deriving DecidableEq

/-- The store, and what happened, which nothing reads: the handlers started and ended, the keys that
calls are at work on, the replays; the rollbacks begun and the transactions under one, the
compensating calls, the actions skipped as failed. -/
structure Shared where
  store : TransactionStore
  dispatched : Nat
  ran : List HandlerRun
  working : List (String × String)
  replays : List Replay
  rollbacks : Nat
  rolling : List String
  compensations : List Compensation
  skipped : List StoredAction

def Shared.init : Shared := ⟨.empty, 0, [], [], [], 0, [], [], []⟩

inductive Task where
  | called (c : Call)
  | looking (c : Call)
  | resolving (c : Call)
  | running (c : Call) (args : String) (n : Nat) (startedAtMs : Int)
  | recording (c : Call) (draft : StoredAction) (answer : Answer)
  | answered (c : Call) (answer : Answer)
  | asked (transactionId : String)
  | unwinding (n : Nat) (rest : List StoredAction) (out : RollbackResult)
  | compensating (n : Nat) (action : StoredAction) (tool args : String)
      (rest : List StoredAction) (out : RollbackResult)
  | marking (n : Nat) (action : StoredAction) (tool : String) (rest : List StoredAction)
      (out : RollbackResult)
  | rolledBack (n : Nat) (out : RollbackResult)

/-- What a task does not choose itself: the decision of the access broker, the secrets, the
clock, the outcome of a handler, the ids that are minted, the outcome of a compensating call. -/
inductive Pick where
  | decision (denied : Option DispatchError)
  | secrets (resolved : Except String String) (startedAtMs completedAtMs : Int)
  | outcome (result : Except String String) (completedAtMs : Int)
  | mint (actionId transactionId : String)
  | compensation (result : Except String String)
  | go
  deriving DecidableEq

def Call.slot (c : Call) : Option (String × String) :=
  c.options.idempotencyKey.map (fun key => (c.tool, key))

def Call.isDryRun (cfg : GatewayConfig) (c : Call) : Bool := c.options.dryRun || cfg.globalDryRun

def Call.tier (c : Call) : GatewayTier := c.options.tier.getD (.humanRollbackPlan "")

/-- `build_success_row` and `build_failure_row`; the ids are minted when it is recorded. -/
def Call.row (c : Call) (args : String) (dryRun : Bool) (outcome : Except String String)
    (startedAtMs completedAtMs : Int) : GatewayActionRow where
  actionId := ""
  transactionId := c.options.transactionId.getD ""
  tool := c.tool
  args := args
  result := outcome.toOption
  tier := c.tier
  idempotencyKey := c.options.idempotencyKey
  dryRun := dryRun
  success := outcome.isOk
  error := match outcome with
    | .ok _ => none
    | .error e => some e
  actor := c.options.actor
  rolledBack := false
  startedAtMs := startedAtMs
  completedAtMs := completedAtMs

def replayAnswer (prior : GatewayActionRow) : Option Answer :=
  match prior.result, prior.error with
  | some out, _ => some (.ok out)
  | none, some err =>
    some (.error (.handlerFailed ("idempotency replay: prior call failed: " ++ err)))
  | none, none => none

/-- The gates before the lookup: the list of blocked tools, the tier, the access broker. -/
def stepCalled (cfg : GatewayConfig) (denied : Option DispatchError) (c : Call) : Task :=
  if c.tool ∈ cfg.blockedTools then
    .answered c (.error (.accessDenied
      ("tool \x60" ++ c.tool ++ "\x60 is on the gateway blocked list (Tier C)")))
  else match c.options.tier with
    | some (.blocked reason) => .answered c (.error (.accessDenied
        ("tool \x60" ++ c.tool ++ "\x60 declared as Tier C: " ++ reason)))
    | _ => match denied with
      | some e => .answered c (.error e)
      | none => .looking c

def replayOf (s : Shared) (slot : String × String) : Option Answer :=
  (s.store.findByIdempotencyKey slot.1 slot.2).bind (fun prior => replayAnswer prior.row)

def stepLooking (cfg : GatewayConfig) (s : Shared) (c : Call) : Shared × Task :=
  match c.slot with
  | none => (s, .resolving c)
  | some slot =>
    match replayOf s slot with
    | some answer => ({ s with replays := s.replays ++ [⟨slot, answer⟩] }, .answered c answer)
    | none =>
      (if c.isDryRun cfg then s else { s with working := slot :: s.working }, .resolving c)

def stepResolving (cfg : GatewayConfig) (s : Shared) (resolved : Except String String)
    (startedAtMs completedAtMs : Int) (c : Call) : Shared × Task :=
  match resolved with
  | .error name =>
    (s, .recording c ⟨c.row c.args c.options.dryRun (.error ("secret missing: " ++ name))
      completedAtMs completedAtMs, .unresolved⟩ (.error (.secretMissing name)))
  | .ok args =>
    if c.isDryRun cfg then
      let payload := cfg.previewJson (.build c.tool args c.tier)
      (s, .recording c ⟨c.row args true (.ok payload) startedAtMs completedAtMs, .preview⟩
        (.ok payload))
    else ({ s with dispatched := s.dispatched + 1 }, .running c args s.dispatched startedAtMs)

/-- What a call answers once its handler has come back, and how the store is to remember it. -/
def judge (cfg : GatewayConfig) (result : Except String String) : Except String String :=
  match result with
  | .error reason => .error reason
  | .ok output =>
    let guard := cfg.inspect output
    if guard.injectionDetected then
      .error (guard.reason.getD "tool output flagged by guard")
    else .ok guard.output

def toAnswer (judged : Except String String) : Answer :=
  match judged with
  | .ok out => .ok out
  | .error reason => .error (.handlerFailed reason)

def stepRunning (cfg : GatewayConfig) (s : Shared) (result : Except String String)
    (completedAtMs : Int) (c : Call) (args : String) (n : Nat) (startedAtMs : Int) :
    Shared × Task :=
  let judged := judge cfg result
  let started := if judged.isOk then startedAtMs else completedAtMs
  ({ s with ran := s.ran ++ [⟨n, c.tool, c.options.idempotencyKey, toAnswer judged⟩] },
    .recording c ⟨c.row args c.options.dryRun judged started completedAtMs, .handled n result⟩
      (toAnswer judged))

def StoredAction.named (draft : StoredAction) (c : Call) (actionId transactionId : String) :
    StoredAction :=
  { draft with row := { draft.row with
      actionId := actionId
      transactionId := c.options.transactionId.getD transactionId } }

def Call.holds (cfg : GatewayConfig) (c : Call) : Option (String × String) :=
  if c.isDryRun cfg then none else c.slot

def release (held : Option (String × String)) (working : List (String × String)) :
    List (String × String) :=
  match held with
  | some slot => working.erase slot
  | none => working

def stepRecording (cfg : GatewayConfig) (s : Shared) (actionId transactionId : String)
    (c : Call) (draft : StoredAction) (answer : Answer) : Option (Shared × Task) :=
  if actionId ∈ s.store.actions.map (·.row.actionId) then none
  else some ({ s with
    store := s.store.record (draft.named c actionId transactionId)
    working := release (c.holds cfg) s.working }, .answered c answer)

def stepAsked (s : Shared) (transactionId : String) : Shared × Task :=
  ({ s with rollbacks := s.rollbacks + 1, rolling := transactionId :: s.rolling },
    .unwinding s.rollbacks (s.store.listForTransaction transactionId).reverse
      ⟨[], [], [], transactionId⟩)

def RollbackResult.compensated (out : RollbackResult) (action : StoredAction) (tool : String)
    (success : Bool) (error : Option String) : RollbackResult :=
  { out with autoRolledBack := out.autoRolledBack ++
      [⟨action.row.actionId, action.row.tool, tool, success, error⟩] }

def stepUnwinding (cfg : GatewayConfig) (s : Shared) (n : Nat) (rest : List StoredAction)
    (out : RollbackResult) : Shared × Task :=
  match rest with
  | [] => ({ s with rolling := s.rolling.erase out.transactionId }, .rolledBack n out)
  | action :: rest =>
    if action.row.rolledBack then (s, .unwinding n rest out)
    else if !action.row.success || action.row.dryRun then
      (if action.row.success then s else { s with skipped := s.skipped ++ [action] },
        .unwinding n rest out)
    else match action.row.tier with
      | .autoCompensated tool args =>
        if cfg.compensates then (s, .compensating n action tool args rest out)
        else (s, .unwinding n rest (out.compensated action tool false
          (some "no compensating dispatcher configured")))
      | .humanRollbackPlan plan => (s, .unwinding n rest { out with
          humanReviewRequired := out.humanReviewRequired ++
            [⟨action.row.actionId, action.row.tool, plan⟩] })
      | .blocked reason => (s, .unwinding n rest { out with
          errors := out.errors ++ ["action \x60" ++ action.row.actionId ++
            "\x60 was Tier C (blocked) but persisted anyway — this is a bug. reason: " ++
            reason] })

def stepCompensating (s : Shared) (result : Except String String) (n : Nat)
    (action : StoredAction) (tool : String) (rest : List StoredAction) (out : RollbackResult) :
    Shared × Task :=
  match result with
  | .ok _ => ({ s with compensations := s.compensations ++ [⟨n, action, true⟩] },
      .marking n action tool rest out)
  | .error e => ({ s with compensations := s.compensations ++ [⟨n, action, false⟩] },
      .unwinding n rest (out.compensated action tool false (some e)))

def stepMarking (s : Shared) (n : Nat) (action : StoredAction) (tool : String)
    (rest : List StoredAction) (out : RollbackResult) : Shared × Task :=
  ({ s with store := s.store.markRolledBack action.row.actionId },
    .unwinding n rest (out.compensated action tool true none))

def stepDispatch (cfg : GatewayConfig) (s : Shared) (pick : Pick) : Task → Option (Shared × Task)
  | .called c => match pick with
    | .decision denied => some (s, stepCalled cfg denied c)
    | _ => none
  | .looking c => some (stepLooking cfg s c)
  | .resolving c => match pick with
    | .secrets resolved startedAtMs completedAtMs =>
      some (stepResolving cfg s resolved startedAtMs completedAtMs c)
    | _ => none
  | .running c args n startedAtMs => match pick with
    | .outcome result completedAtMs =>
      some (stepRunning cfg s result completedAtMs c args n startedAtMs)
    | _ => none
  | .recording c draft answer => match pick with
    | .mint actionId transactionId => stepRecording cfg s actionId transactionId c draft answer
    | _ => none
  | _ => none

def stepRollback (cfg : GatewayConfig) (s : Shared) (pick : Pick) : Task → Option (Shared × Task)
  | .asked transactionId => some (stepAsked s transactionId)
  | .unwinding n rest out => some (stepUnwinding cfg s n rest out)
  | .compensating n action tool _ rest out => match pick with
    | .compensation result => some (stepCompensating s result n action tool rest out)
    | _ => none
  | .marking n action tool rest out => some (stepMarking s n action tool rest out)
  | _ => none

def step (cfg : GatewayConfig) (s : Shared) (pick : Pick) (t : Task) :
    Option (Shared × Task) :=
  (stepDispatch cfg s pick t).or (stepRollback cfg s pick t)

def Task.isCall : Task → Bool
  | .called _ => true
  | .asked _ => true
  | _ => false

def gateway (cfg : GatewayConfig) : Tasking Shared Task where
  exec s t s' t' fork := fork = none ∧ ∃ pick, step cfg s pick t = some (s', t')
  env s s' := s' = s
  spawn s t s' := t.isCall = true ∧ s' = s

end Relux.Gateway
