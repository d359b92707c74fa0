import Relux.HashMap
import Relux.Interleave
import Relux.Text

/-! The delivery of approval requests: a dispatch writes the row, sends it and arms an
escalation timer; an operator's decision ends the row and cancels the timer. Every access to
the rows and to the cancel senders is one step. -/

namespace Relux.Delivery

inductive ChannelKind
  | telegram
  | slack
  | discord
  | email
  | dashboard
  deriving DecidableEq, Repr

namespace ChannelKind

def asStr : ChannelKind → String
  | telegram => "telegram"
  | slack => "slack"
  | discord => "discord"
  | email => "email"
  | dashboard => "dashboard"

def parse (s : String) : Option ChannelKind :=
  [telegram, slack, discord, email, dashboard].find? (fun kind =>
    toAsciiLowercase (trimChars s.toList) == kind.asStr.toList)

end ChannelKind

structure ChannelsConfig where
  telegram : Option Bool
  slack : Option Bool
  discord : Option Bool
  email : Option Bool
  dashboard : Option Bool

structure DeliveryRule where
  agentPattern : String
  actionPattern : String
  channel : String
  escalationTimeoutSecs : Nat
  escalationChannel : Option String

structure ApprovalDeliveryConfig where
  defaultChannel : String
  rules : List DeliveryRule
  channels : ChannelsConfig

structure RuleMatch where
  ruleIndex : Option Nat
  channel : ChannelKind
  escalationTimeoutSecs : Nat
  escalationChannel : Option ChannelKind
  deriving DecidableEq, Repr

/-- A run of `*` matches what one of them does. -/
def globInner : List Char → List Char → Bool
  | [], value => value.isEmpty
  | c :: pattern, value =>
    if c = '*' then
      pattern.all (· == '*') || value.tails.any (fun rest => globInner pattern rest)
    else
      match value with
      | [] => false
      | v :: rest => v == c && globInner pattern rest

def globMatch (pattern value : String) : Bool := globInner pattern.toList value.toList

namespace ApprovalDeliveryConfig

variable (cfg : ApprovalDeliveryConfig)

def ruleMatch (rule : DeliveryRule) (i : Nat) : RuleMatch where
  ruleIndex := some i
  channel := (ChannelKind.parse rule.channel).getD .dashboard
  escalationTimeoutSecs := rule.escalationTimeoutSecs
  escalationChannel := rule.escalationChannel.bind ChannelKind.parse

def resolve (agent action : String) : RuleMatch :=
  match cfg.rules.zipIdx.find? (fun rule =>
    globMatch rule.1.agentPattern agent && globMatch rule.1.actionPattern action) with
  | some (rule, i) => ruleMatch rule i
  | none => ⟨none, (ChannelKind.parse cfg.defaultChannel).getD .dashboard, 0, none⟩

def channelEnabled : ChannelKind → Bool
  | .telegram => cfg.channels.telegram.getD false
  | .slack => cfg.channels.slack.getD false
  | .discord => cfg.channels.discord.getD false
  | .email => cfg.channels.email.getD false
  | .dashboard => cfg.channels.dashboard.getD true

end ApprovalDeliveryConfig

structure ApprovalRequest where
  approvalId : String
  agentName : String
  capability : String
  requestSummary : String
  sessionId : String
  authorizedApprovers : List String

inductive Decision
  | approved
  | rejected
  | expired
  deriving DecidableEq, Repr

inductive Status
  | pending
  | decided (decision : Decision)
  | deliveryFailed
  deriving DecidableEq, Repr

inductive DeliveryError
  | alreadyDecided (approvalId : String)
  | channelDisabled (channel : String)
  | dispatch (message : String)
  deriving DecidableEq, Repr

def DeliveryError.display : DeliveryError → String
  | alreadyDecided id =>
    s!"approval delivery: store error: approval store: approval \x60{id}\x60 is not pending " ++
      "(already decided)"
  | channelDisabled channel =>
    s!"approval delivery: channel \x60{channel}\x60 is not enabled or not configured"
  | dispatch message => s!"approval delivery: channel dispatch failed: {message}"

/-- A row of `approval_delivery`. `dispatch` is no column: the number of the dispatch that
wrote the row. -/
structure ApprovalDeliveryRow where
  approvalId : String
  agentName : String
  capability : String
  requestSummary : String
  sessionId : String
  status : Status
  deliveryChannel : ChannelKind
  escalated : Bool
  escalationChannel : Option ChannelKind
  deliveredAtMs : Option Int
  escalatedAtMs : Option Int
  decidedAtMs : Option Int
  decision : Option Decision
  decisionNote : Option String
  deliveryError : Option String
  authorizedApprovers : List String
  tenantId : String
  dispatch : Nat

/-- A send that was begun: by which dispatch, when, and in which status the row was then. -/
structure Sent where
  approvalId : String
  channel : ChannelKind
  isEscalation : Bool
  dispatch : Nat
  status : Option Status
  sentAtMs : Int
  dueMs : Int

structure Shared where
  now : Int
  nextDispatch : Nat
  rows : HashMap String ApprovalDeliveryRow
  /-- The sender that cancels the timer of a dispatch, under the approval id. -/
  cancels : HashMap String Nat
  /-- The dispatches whose sender was fired or dropped: their timers find it closed. -/
  closed : List Nat
  /-- No part of the service: the sends so far, the latest first, and the dispatches whose
  row an operator has decided. -/
  sends : List Sent
  decided : List Nat

structure DeliveryOutcome where
  approvalId : String
  deliveryChannel : ChannelKind
  escalationScheduled : Bool
  escalationChannel : Option ChannelKind
  escalationTimeoutSecs : Nat
  deliveredAtMs : Int

structure Call where
  n : Nat
  request : ApprovalRequest
  resolved : RuleMatch

abbrev Call.id (call : Call) : String := call.request.approvalId

inductive Task
  | starting (call : Call)
  | queued (call : Call)
  | sending (call : Call)
  | delivered (call : Call)
  | failed (call : Call) (e : DeliveryError)
  | arming (call : Call) (deliveredAtMs : Int)
  | returned (call : Call) (result : Except DeliveryError DeliveryOutcome)
  | armed (call : Call) (channel : ChannelKind)
  | waiting (call : Call) (channel : ChannelKind) (dueMs : Int)
  | fired (call : Call) (channel : ChannelKind) (dueMs : Int)
  | escalating (call : Call) (channel : ChannelKind) (dueMs : Int)
  | escalationSending (call : Call) (channel : ChannelKind)
  | escalationSent (call : Call) (channel : ChannelKind)
  | cleaning (call : Call) (channel : ChannelKind) (sent : Bool)
  | finished (call : Call) (channel : ChannelKind) (sent : Bool)
  | deciding (approvalId : String) (decision : Decision) (note : Option String)
  | cancelling (approvalId : String)
  | answered (approvalId : String) (result : Except DeliveryError Unit)

/-- What the code does not choose: a send's outcome, and the branch of a timer's `select`. -/
inductive Choice
  | go
  | sendFails (e : DeliveryError)
  | cancelled

namespace Shared

variable (s : Shared)

def upsertForTenant (row : ApprovalDeliveryRow) (tenantId : String) : Shared :=
  { s with rows := s.rows.insert row.approvalId { row with
      tenantId := if (trimChars tenantId.toList).isEmpty then "default" else tenantId } }

def upsert (row : ApprovalDeliveryRow) : Shared := s.upsertForTenant row "default"

/-- `UPDATE … WHERE approval_id = ? AND status = 'pending'`. -/
def updatePending (id : String) (f : ApprovalDeliveryRow → ApprovalDeliveryRow) : Shared :=
  { s with rows := s.rows.modify id (fun row => if row.status = .pending then f row else row) }

def markDelivered (id : String) (deliveredAtMs : Int) : Shared :=
  s.updatePending id (fun row => { row with
    deliveredAtMs := some deliveredAtMs, deliveryError := none })

def markDeliveryFailed (id error : String) (failedAtMs : Int) : Shared :=
  s.updatePending id (fun row => { row with
    status := .deliveryFailed, deliveryError := some error, decidedAtMs := some failedAtMs })

def markEscalated (id : String) (channel : ChannelKind) (escalatedAtMs : Int) : Shared :=
  s.updatePending id (fun row => { row with
    escalated := true, escalationChannel := some channel, escalatedAtMs := some escalatedAtMs })

/-- The store's `record_decision`: nothing when no row of the id is pending. -/
def recordDecision (id : String) (decision : Decision) (note : Option String)
    (decidedAtMs : Int) : Option Shared :=
  match s.rows.get? id with
  | none => none
  | some row =>
    if row.status = .pending then
      some { s with
        rows := s.rows.insert id { row with
          status := .decided decision
          decision := some decision
          decisionNote := note
          decidedAtMs := some decidedAtMs }
        decided := row.dispatch :: s.decided }
    else none

def dropSender (id : String) : Shared :=
  { s with
    cancels := s.cancels.remove id
    closed := (s.cancels.get? id).toList ++ s.closed }

def insertSender (id : String) (n : Nat) : Shared :=
  { s with
    cancels := s.cancels.insert id n
    closed := (s.cancels.get? id).toList ++ s.closed }

def beginSend (call : Call) (channel : ChannelKind) (isEscalation : Bool) (dueMs : Int) :
    Shared :=
  { s with sends := ⟨call.id, channel, isEscalation, call.n,
      (s.rows.get? call.id).map (·.status), s.now, dueMs⟩ :: s.sends }

end Shared

def Call.row (call : Call) : ApprovalDeliveryRow where
  approvalId := call.id
  agentName := call.request.agentName
  capability := call.request.capability
  requestSummary := call.request.requestSummary
  sessionId := call.request.sessionId
  status := .pending
  deliveryChannel := call.resolved.channel
  escalated := false
  escalationChannel := call.resolved.escalationChannel
  deliveredAtMs := none
  escalatedAtMs := none
  decidedAtMs := none
  decision := none
  decisionNote := none
  deliveryError := none
  authorizedApprovers := call.request.authorizedApprovers
  tenantId := "default"
  dispatch := call.n

def Call.escalationScheduled (call : Call) : Bool :=
  decide (0 < call.resolved.escalationTimeoutSecs) && call.resolved.escalationChannel.isSome

def Call.outcome (call : Call) (deliveredAtMs : Int) : DeliveryOutcome where
  approvalId := call.id
  deliveryChannel := call.resolved.channel
  escalationScheduled := call.escalationScheduled
  escalationChannel := call.resolved.escalationChannel
  escalationTimeoutSecs := call.resolved.escalationTimeoutSecs
  deliveredAtMs := deliveredAtMs

section
variable (cfg : ApprovalDeliveryConfig) (s : Shared)

/-- `dispatch_request`. -/
def stepDispatch (choice : Choice) : Task → Option (Shared × Task × Option Task)
  | .starting call =>
    if cfg.channelEnabled call.resolved.channel then some (s.upsert call.row, .queued call, none)
    else some (s, .returned call
      (.error (.channelDisabled call.resolved.channel.asStr)), none)
  | .queued call => some (s.beginSend call call.resolved.channel false s.now, .sending call, none)
  | .sending call =>
    match choice with
    | .sendFails e => some (s, .failed call e, none)
    | _ => some (s, .delivered call, none)
  | .delivered call =>
    if call.escalationScheduled then
      some (s.markDelivered call.id s.now, .arming call s.now, none)
    else
      some (s.markDelivered call.id s.now, .returned call (.ok (call.outcome s.now)), none)
  | .failed call e =>
    some (s.markDeliveryFailed call.id e.display s.now, .returned call (.error e), none)
  | .arming call deliveredAtMs =>
    some (s.insertSender call.id call.n, .returned call (.ok (call.outcome deliveredAtMs)),
      call.resolved.escalationChannel.map (.armed call))
  | _ => none

/-- `spawn_escalation_timer` and `maybe_escalate`. The sleep begins when the timer first runs. -/
def stepTimer (choice : Choice) : Task → Option (Shared × Task × Option Task)
  | .armed call channel =>
    some (s, .waiting call channel (s.now + call.resolved.escalationTimeoutSecs * 1000), none)
  | .waiting call channel dueMs =>
    match choice with
    | .cancelled => if call.n ∈ s.closed then some (s, .cleaning call channel false, none) else none
    | _ => if dueMs ≤ s.now then some (s, .fired call channel dueMs, none) else none
  | .fired call channel dueMs =>
    match s.rows.get? call.id with
    | none => some (s, .cleaning call channel false, none)
    | some row =>
      if row.status ≠ .pending ∨ row.escalated = true then
        some (s, .cleaning call channel false, none)
      else if cfg.channelEnabled channel then some (s, .escalating call channel dueMs, none)
      else some (s, .cleaning call channel false, none)
  | .escalating call channel dueMs =>
    some (s.beginSend call channel true dueMs, .escalationSending call channel, none)
  | .escalationSending call channel =>
    match choice with
    | .sendFails _ => some (s, .cleaning call channel true, none)
    | _ => some (s, .escalationSent call channel, none)
  | .escalationSent call channel =>
    some (s.markEscalated call.id channel s.now, .cleaning call channel true, none)
  | .cleaning call channel sent => some (s.dropSender call.id, .finished call channel sent, none)
  | _ => none

/-- `record_decision`. -/
def stepDecision : Task → Option (Shared × Task × Option Task)
  | .deciding id decision note =>
    match s.recordDecision id decision note s.now with
    | none => some (s, .answered id (.error (.alreadyDecided id)), none)
    | some s' => some (s', .cancelling id, none)
  | .cancelling id => some (s.dropSender id, .answered id (.ok ()), none)
  | _ => none

def step (choice : Choice) (t : Task) : Option (Shared × Task × Option Task) :=
  (stepDispatch cfg s choice t).orElse fun _ =>
    (stepTimer cfg s choice t).orElse fun _ => stepDecision s t

end

/-- A call of `dispatch_request` gets the next number; any decision may be recorded. -/
def newCall (cfg : ApprovalDeliveryConfig) (s : Shared) (request : ApprovalRequest) :
    Shared × Task :=
  ({ s with nextDispatch := s.nextDispatch + 1 }, .starting
    ⟨s.nextDispatch, request, cfg.resolve request.agentName request.capability⟩)

def service (cfg : ApprovalDeliveryConfig) : Tasking Shared Task where
  exec := fun s t s' t' fork => ∃ choice, step cfg s choice t = some (s', t', fork)
  env := fun s s' => ∃ now, s.now ≤ now ∧ s' = { s with now := now }
  spawn := fun s t s' => (∃ request, (s', t) = newCall cfg s request) ∨
    (s' = s ∧ ∃ id decision note, t = .deciding id decision note)

def start (now : Int) : Crowd Shared Task :=
  ⟨⟨now, 0, HashMap.empty, HashMap.empty, [], [], []⟩, []⟩

end Relux.Delivery
