import Relux.HashMap
import Relux.Redact

/-! The run log: captured output as bounded lines, the buffer a live run streams into, the
registry of these buffers, and the read a poll makes. -/

namespace Relux

def maxLogLines : Nat := 200
def maxLogLineChars : Nat := 2000
def maxLiveRuns : Nat := 32

inductive RunLogSource where
  | stdout
  | stderr
  | system
  deriving DecidableEq

structure CapturedLine where
  source : RunLogSource
  text : String
  truncated : Bool
  deriving DecidableEq

structure RunLogLine where
  seq : Nat
  line : CapturedLine
  deriving DecidableEq

structure RunLog where
  runId : RunId
  lines : List RunLogLine
  droppedLines : Nat
  stdoutTruncated : Bool
  stderrTruncated : Bool

namespace RunLog

def empty (runId : RunId) : RunLog := ⟨runId, [], 0, false, false⟩

def since (log : RunLog) (cursor : Option Nat) : RunLog :=
  { log with lines := match cursor with
      | some c => log.lines.filter (fun l => decide (c < l.seq))
      | none => log.lines }

def latestSeq (log : RunLog) : Option Nat := log.lines.getLast?.map (·.seq)

end RunLog

structure RunLogBuilder where
  pending : List CapturedLine
  dropped : Nat
  stdoutTruncated : Bool
  stderrTruncated : Bool

def clampLine (u : Unicode) (source : RunLogSource) (raw : List Char) : CapturedLine :=
  let redacted := (redactSecrets u (String.ofList raw)).toList
  if maxLogLineChars < redacted.length then
    ⟨source, String.ofList (redacted.take maxLogLineChars), true⟩
  else ⟨source, String.ofList redacted, false⟩

def dropOldest : List CapturedLine → Nat → List CapturedLine × Nat
  | [], dropped => ([], dropped)
  | l :: ls, dropped =>
    if maxLogLines < (l :: ls).length then dropOldest ls (dropped + 1) else (l :: ls, dropped)

def outputLines (blob : List Char) : List (List Char) :=
  if (trimChars blob).isEmpty then []
  else ((splitFields (· == '\n') blob).map (fun raw =>
    if raw.getLast? = some '\r' then raw.dropLast else raw)).filter
      (fun line => !(trimChars line).isEmpty)

namespace RunLogBuilder

def new : RunLogBuilder := ⟨[], 0, false, false⟩

def markStreamTruncation (b : RunLogBuilder) (stdout stderr : Bool) : RunLogBuilder :=
  { b with
    stdoutTruncated := b.stdoutTruncated || stdout
    stderrTruncated := b.stderrTruncated || stderr }

def enforceLiveCap (b : RunLogBuilder) : RunLogBuilder :=
  let kept := dropOldest b.pending b.dropped
  { b with pending := kept.1, dropped := kept.2 }

def pushLine (u : Unicode) (b : RunLogBuilder) (source : RunLogSource) (raw : List Char) :
    RunLogBuilder :=
  enforceLiveCap { b with pending := b.pending ++ [clampLine u source raw] }

def pushSystem (u : Unicode) (b : RunLogBuilder) (text : String) : RunLogBuilder :=
  b.pushLine u .system text.toList

def pushOutput (u : Unicode) (b : RunLogBuilder) (source : RunLogSource) (blob : List Char) :
    RunLogBuilder :=
  (outputLines blob).foldl (fun b line => b.pushLine u source line) b

def assemble (b : RunLogBuilder) (runId : RunId) : RunLog where
  runId := runId
  lines := b.pending.mapIdx (fun i line => ⟨i + 1, line⟩)
  droppedLines := min b.dropped 4294967295
  stdoutTruncated := b.stdoutTruncated
  stderrTruncated := b.stderrTruncated

end RunLogBuilder

structure StreamingRunLog where
  builder : RunLogBuilder
  stdoutCarry : List Char
  stderrCarry : List Char

def completeLines : List Char → List (List Char) × List Char
  | [] => ([], [])
  | c :: cs =>
    match completeLines cs with
    | (lines, rest) =>
      if c = '\n' then ([] :: lines, rest)
      else match lines with
        | [] => ([], c :: rest)
        | l :: ls => ((c :: l) :: ls, rest)

namespace StreamingRunLog

def new : StreamingRunLog := ⟨.new, [], []⟩

def pushSystem (u : Unicode) (s : StreamingRunLog) (text : String) : StreamingRunLog :=
  { s with builder := s.builder.pushSystem u text }

def markSourceTruncation (s : StreamingRunLog) : RunLogSource → StreamingRunLog
  | .stdout => { s with builder := s.builder.markStreamTruncation true false }
  | .stderr => { s with builder := s.builder.markStreamTruncation false true }
  | .system => s

/-- The carry with a chunk appended: its complete lines are pushed, and so is a partial line
that has grown too long. -/
def feed (u : Unicode) (b : RunLogBuilder) (source : RunLogSource) (text : List Char) :
    RunLogBuilder × List Char :=
  let (lines, carry) := completeLines text
  let b := lines.foldl (fun b line => b.pushOutput u source line) b
  if maxLogLineChars < carry.length then (b.pushOutput u source carry, []) else (b, carry)

def appendChunk (u : Unicode) (s : StreamingRunLog) (source : RunLogSource) (chunk : String) :
    StreamingRunLog :=
  match source with
  | .system => { s with builder := s.builder.pushOutput u .system chunk.toList }
  | .stdout =>
    let fed := feed u s.builder .stdout (s.stdoutCarry ++ chunk.toList)
    { s with builder := fed.1, stdoutCarry := fed.2 }
  | .stderr =>
    let fed := feed u s.builder .stderr (s.stderrCarry ++ chunk.toList)
    { s with builder := fed.1, stderrCarry := fed.2 }

def flush (u : Unicode) (s : StreamingRunLog) : StreamingRunLog :=
  let b := if (trimChars s.stdoutCarry).isEmpty then s.builder
    else s.builder.pushOutput u .stdout s.stdoutCarry
  let b := if (trimChars s.stderrCarry).isEmpty then b else b.pushOutput u .stderr s.stderrCarry
  ⟨b, [], []⟩

def snapshot (s : StreamingRunLog) (runId : RunId) : RunLog := s.builder.assemble runId

end StreamingRunLog

structure LiveRunLogs where
  runs : HashMap RunId StreamingRunLog
  order : List RunId

namespace LiveRunLogs

def new : LiveRunLogs := ⟨.empty, []⟩

def evict : LiveRunLogs → List RunId → LiveRunLogs
  | logs, [] => { logs with order := [] }
  | logs, oldest :: rest =>
    if maxLiveRuns < (oldest :: rest).length then
      evict { logs with runs := logs.runs.remove oldest } rest
    else { logs with order := oldest :: rest }

def begin (logs : LiveRunLogs) (runId : RunId) : LiveRunLogs :=
  let order := if (logs.runs.get? runId).isNone then logs.order ++ [runId] else logs.order
  evict { logs with runs := logs.runs.insert runId .new } order

def sink (logs : LiveRunLogs) (runId : RunId) (f : StreamingRunLog → StreamingRunLog) :
    LiveRunLogs :=
  { logs with runs := logs.runs.modify runId f }

def snapshot (logs : LiveRunLogs) (runId : RunId) (cursor : Option Nat) : Option RunLog :=
  (logs.runs.get? runId).map (fun cell => (cell.snapshot runId).since cursor)

def finish (logs : LiveRunLogs) (runId : RunId) : LiveRunLogs :=
  if (logs.runs.get? runId).isSome then
    ⟨logs.runs.remove runId, logs.order.filter (· != runId)⟩
  else logs

end LiveRunLogs

end Relux
