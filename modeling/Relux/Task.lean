import Relux.Permission

/-! Tasks, and the directives a task input may carry for a run on the local adapter. -/

namespace Relux

abbrev TaskId := String
abbrev AgentId := String
abbrev RunId := String
abbrev PluginId := String
abbrev ApprovalId := String
abbrev OrchestrationId := String
abbrev NamespaceId := String

/-- A stamp of the logical clock, as the second of its day. The rendered stamps
`2026-06-08Thh:mm:ssZ` compare as these numbers do. -/
abbrev Stamp := Nat

inductive Json where
  | null
  | bool (b : Bool)
  | num (literal : String)
  | str (s : String)
  | arr (items : List Json)
  | obj (fields : List (String × Json))

def Json.get? (key : String) : Json → Option Json
  | .obj fields => (fields.find? (fun f => f.1 == key)).map Prod.snd
  | _ => none

def Json.asStr : Json → Option String
  | .str s => some s
  | _ => none

def Json.asBool : Json → Option Bool
  | .bool b => some b
  | _ => none

def Json.asArray : Json → Option (List Json)
  | .arr items => some items
  | _ => none

inductive TaskStatus where
  | created
  | queued
  | leased
  | running
  | waitingForTool
  | waitingForApproval
  | blocked
  | completed
  | failed
  | cancelled
  | expired
  deriving DecidableEq

def TaskStatus.debug : TaskStatus → String
  | .created => "Created"
  | .queued => "Queued"
  | .leased => "Leased"
  | .running => "Running"
  | .waitingForTool => "WaitingForTool"
  | .waitingForApproval => "WaitingForApproval"
  | .blocked => "Blocked"
  | .completed => "Completed"
  | .failed => "Failed"
  | .cancelled => "Cancelled"
  | .expired => "Expired"

def TaskStatus.label : TaskStatus → String
  | .created => "created"
  | .queued => "queued"
  | .leased => "leased"
  | .running => "running"
  | .waitingForTool => "waiting_for_tool"
  | .waitingForApproval => "waiting_for_approval"
  | .blocked => "blocked"
  | .completed => "completed"
  | .failed => "failed"
  | .cancelled => "cancelled"
  | .expired => "expired"

structure Task where
  id : TaskId
  title : String
  input : Json
  status : TaskStatus
  createdBy : String
  assignedAgent : Option AgentId
  namespaceId : NamespaceId
  requiredPermissions : List Permission
  parentTask : Option TaskId
  createdAt : Stamp
  updatedAt : Stamp

structure TaskToolCall where
  plugin : PluginId
  tool : String
  args : Json

def maxTaskToolPlanStepsCeil : Nat := 64

def parseToolCall (step : Json) : Option TaskToolCall := do
  let plugin := trim (← (← step.get? "plugin").asStr)
  let tool := trim (← (← step.get? "tool").asStr)
  if plugin.isEmpty ∨ tool.isEmpty then none
  else some ⟨plugin, tool, (step.get? "args").getD (.obj [])⟩

def parseTaskToolPlan (input : Json) : Option (List TaskToolCall) := do
  let arr ← (← input.get? "tool_plan").asArray
  if arr.isEmpty ∨ arr.length > maxTaskToolPlanStepsCeil then none
  else arr.mapM parseToolCall

def parseTaskToolCall (input : Json) : Option TaskToolCall := do
  parseToolCall (← input.get? "tool_call")

def isUnfulfillableLocalRequest (input : Json) : Bool :=
  (match (input.get? "prime_request").bind Json.asStr with
    | some s => !(trim s).isEmpty
    | none => false) &&
    (parseTaskToolCall input).isNone && (parseTaskToolPlan input).isNone

structure Unicode where
  toLowercase : String → String
  isAlphanumeric : Char → Bool

def titleRequiresExternalExecution (u : Unicode) (title : String) : Bool :=
  let t := u.toLowercase title
  if ["http://", "https://", "github.com", "git clone"].any (containsText t) then true
  else
    let words := (splitFields (fun c => !u.isAlphanumeric c) t.toList).filter (!·.isEmpty)
    let has := fun w : String => words.contains w.toList
    if ["clone", "download", "scrape", "deploy", "publish"].any has then true
    else ["import", "install", "fetch"].any has &&
      ["plugin", "plugins", "repo", "repository", "package", "dependency", "dependencies",
        "npm", "cargo", "crate", "pip"].any has

def localPrimeCannotFulfill (u : Unicode) (title : String) (input : Json) : Bool :=
  if (parseTaskToolCall input).isSome ∨ (parseTaskToolPlan input).isSome then false
  else isUnfulfillableLocalRequest input || titleRequiresExternalExecution u title

end Relux
