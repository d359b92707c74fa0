import Relux.RunLog
import Relux.TailLog
import Relux.Transition

/-! Polling the live log of a run. A poll answers with numbers counted from the oldest line
still kept, so a cursor is good for as long as no line is dropped. -/

namespace Relux

open TailLog

inductive StreamEvent where
  | system (text : String)
  | append (source : RunLogSource) (chunk : String)
  | markTruncation (source : RunLogSource)
  | flush

def StreamEvent.apply (u : Unicode) (s : StreamingRunLog) : StreamEvent → StreamingRunLog
  | .system text => s.pushSystem u text
  | .append source chunk => s.appendChunk u source chunk
  | .markTruncation source => s.markSourceTruncation source
  | .flush => s.flush u

def blobLines (u : Unicode) (source : RunLogSource) (blob : List Char) : List CapturedLine :=
  (outputLines blob).map (clampLine u source)

def feedLines (u : Unicode) (source : RunLogSource) (text : List Char) : List CapturedLine :=
  let (lines, carry) := completeLines text
  lines.flatMap (blobLines u source) ++
    (if maxLogLineChars < carry.length then blobLines u source carry else [])

def StreamEvent.lines (u : Unicode) (s : StreamingRunLog) : StreamEvent → List CapturedLine
  | .system text => [clampLine u .system text.toList]
  | .append .system chunk => blobLines u .system chunk.toList
  | .append .stdout chunk => feedLines u .stdout (s.stdoutCarry ++ chunk.toList)
  | .append .stderr chunk => feedLines u .stderr (s.stderrCarry ++ chunk.toList)
  | .markTruncation _ => []
  | .flush => blobLines u .stdout s.stdoutCarry ++ blobLines u .stderr s.stderrCarry

structure RunLogBuilder.Records (b : RunLogBuilder) (captured : List CapturedLine) : Prop where
  pending : b.pending = kept maxLogLines captured
  dropped : b.dropped = TailLog.dropped maxLogLines captured

theorem dropOldest_eq (ls : List CapturedLine) (d : Nat) :
    dropOldest ls d = (kept maxLogLines ls, d + dropped maxLogLines ls) := by
  induction ls generalizing d with
  | nil => simp [dropOldest, kept, dropped]
  | cons l ls ih =>
    by_cases h : maxLogLines < (l :: ls).length
    · have hlen : (l :: ls).length - maxLogLines = ls.length - maxLogLines + 1 := by
        simp only [List.length_cons] at h ⊢
        omega
      have hkept : kept maxLogLines (l :: ls) = kept maxLogLines ls := by
        unfold kept dropped
        rw [hlen, List.drop_succ_cons]
      have hdropped : d + 1 + dropped maxLogLines ls = d + dropped maxLogLines (l :: ls) := by
        unfold dropped
        omega
      rw [dropOldest, if_pos h, ih, hkept, hdropped]
    · have hz : dropped maxLogLines (l :: ls) = 0 := by
        unfold dropped
        omega
      rw [dropOldest, if_neg h, kept, hz, List.drop_zero, Nat.add_zero]

namespace RunLogBuilder.Records

variable {b : RunLogBuilder} {captured : List CapturedLine} {u : Unicode}

theorem new : RunLogBuilder.new.Records [] := ⟨rfl, rfl⟩

theorem mark (h : b.Records captured) (stdout stderr : Bool) :
    (b.markStreamTruncation stdout stderr).Records captured := ⟨h.pending, h.dropped⟩

theorem pushLine (h : b.Records captured) (source : RunLogSource) (raw : List Char) :
    (b.pushLine u source raw).Records (captured ++ [clampLine u source raw]) := by
  have hcap := dropOldest_eq (b.pending ++ [clampLine u source raw]) b.dropped
  have hkept := kept_append_kept maxLogLines captured [clampLine u source raw]
  have hdropped := dropped_append maxLogLines captured [clampLine u source raw]
  rw [h.pending, h.dropped, hkept, hdropped] at hcap
  have hpush : b.pushLine u source raw = { b with
      pending := kept maxLogLines (captured ++ [clampLine u source raw])
      dropped := TailLog.dropped maxLogLines (captured ++ [clampLine u source raw]) } := by
    simp only [RunLogBuilder.pushLine, RunLogBuilder.enforceLiveCap, h.pending, h.dropped, hcap]
  constructor
  · rw [hpush]
  · rw [hpush]

theorem pushLines (h : b.Records captured) (source : RunLogSource) (raws : List (List Char)) :
    (raws.foldl (fun b line => b.pushLine u source line) b).Records
      (captured ++ raws.map (clampLine u source)) := by
  induction raws generalizing b captured with
  | nil => simpa using h
  | cons raw raws ih =>
    have hrest := ih (h.pushLine (u := u) source raw)
    simpa [List.append_assoc] using hrest

theorem pushOutput (h : b.Records captured) (source : RunLogSource) (blob : List Char) :
    (b.pushOutput u source blob).Records (captured ++ blobLines u source blob) :=
  h.pushLines source (outputLines blob)

theorem pushOutputs (h : b.Records captured) (source : RunLogSource)
    (blobs : List (List Char)) :
    (blobs.foldl (fun b blob => b.pushOutput u source blob) b).Records
      (captured ++ blobs.flatMap (blobLines u source)) := by
  induction blobs generalizing b captured with
  | nil => simpa using h
  | cons blob blobs ih =>
    have hrest := ih (h.pushOutput (u := u) source blob)
    simpa [List.append_assoc] using hrest

theorem feed (h : b.Records captured) (source : RunLogSource) (text : List Char) :
    (StreamingRunLog.feed u b source text).1.Records (captured ++ feedLines u source text) := by
  have hlines := h.pushOutputs (u := u) source (completeLines text).1
  by_cases hlong : maxLogLineChars < (completeLines text).2.length
  · have hcarry := hlines.pushOutput (u := u) source (completeLines text).2
    simpa [StreamingRunLog.feed, feedLines, hlong, List.append_assoc] using hcarry
  · simpa [StreamingRunLog.feed, feedLines, hlong] using hlines

end RunLogBuilder.Records

theorem blobLines_blank {blob : List Char} (h : (trimChars blob).isEmpty = true)
    (u : Unicode) (source : RunLogSource) : blobLines u source blob = [] := by
  simp [blobLines, outputLines, h]

theorem StreamEvent.apply_records {s : StreamingRunLog} {captured : List CapturedLine}
    (h : s.builder.Records captured) (u : Unicode) (e : StreamEvent) :
    (e.apply u s).builder.Records (captured ++ e.lines u s) := by
  cases e with
  | system text => exact h.pushLine .system text.toList
  | append source chunk =>
    cases source with
    | stdout => exact h.feed .stdout _
    | stderr => exact h.feed .stderr _
    | system => exact h.pushOutput .system _
  | markTruncation source =>
    have hsame : captured ++ StreamEvent.lines u s (.markTruncation source) = captured :=
      List.append_nil captured
    rw [hsame]
    cases source with
    | stdout => exact h.mark true false
    | stderr => exact h.mark false true
    | system => exact h
  | flush =>
    have hout : (if (trimChars s.stdoutCarry).isEmpty = true then s.builder
        else s.builder.pushOutput u .stdout s.stdoutCarry).Records
        (captured ++ blobLines u .stdout s.stdoutCarry) := by
      by_cases hblank : (trimChars s.stdoutCarry).isEmpty = true
      · simpa [hblank, blobLines_blank hblank] using h
      · simpa [hblank] using h.pushOutput .stdout s.stdoutCarry
    show RunLogBuilder.Records _ (captured ++ (_ ++ _))
    by_cases hblank : (trimChars s.stderrCarry).isEmpty = true
    · simpa [StreamEvent.apply, StreamingRunLog.flush, hblank, blobLines_blank hblank]
        using hout
    · simpa [StreamEvent.apply, StreamingRunLog.flush, hblank]
        using hout.pushOutput .stderr s.stderrCarry

theorem numbered_filter (ls : List CapturedLine) (k c : Nat) :
    ((ls.mapIdx (fun i l => (⟨i + 1 + k, l⟩ : RunLogLine))).filter
      (fun l => decide (c < l.seq))) =
      (ls.mapIdx (fun i l => (⟨i + 1 + k, l⟩ : RunLogLine))).drop (c - k) := by
  induction ls generalizing k with
  | nil => simp
  | cons l ls ih =>
    have hshift : (fun (i : Nat) (l : CapturedLine) => (⟨i + 1 + 1 + k, l⟩ : RunLogLine)) =
        fun i l => ⟨i + 1 + (k + 1), l⟩ := by
      funext i l
      congr 1
      omega
    rw [List.mapIdx_cons]
    by_cases h : c ≤ k
    · have hz : c - k = 0 := by omega
      have hz' : c - (k + 1) = 0 := by omega
      have hlt : c < 0 + 1 + k := by omega
      have hrest := ih (k + 1)
      rw [hz', List.drop_zero] at hrest
      simp [hz, hlt, hshift, hrest]
    · have hs : c - k = c - (k + 1) + 1 := by omega
      have hlt : ¬ c < 0 + 1 + k := by omega
      rw [hs, List.drop_succ_cons, hshift, ← ih (k + 1)]
      simp [hlt]

theorem assemble_since (b : RunLogBuilder) (runId : RunId) (cursor : Option Nat) :
    ((b.assemble runId).since cursor).lines = (b.assemble runId).lines.drop (cursor.getD 0) := by
  cases cursor with
  | none => rfl
  | some c => exact numbered_filter b.pending 0 c

theorem assemble_lines (b : RunLogBuilder) (runId : RunId) :
    (b.assemble runId).lines.map (·.line) = b.pending := by
  apply List.ext_getElem?
  intro i
  simp [RunLogBuilder.assemble, Function.comp_def]

theorem answer_latestSeq (b : RunLogBuilder) (runId : RunId) (cursor : Option Nat) :
    ((b.assemble runId).since cursor).latestSeq =
      if cursor.getD 0 < b.pending.length then some b.pending.length else none := by
  unfold RunLog.latestSeq
  rw [assemble_since]
  have hlen : (b.assemble runId).lines.length = b.pending.length := by
    simp [RunLogBuilder.assemble]
  by_cases h : cursor.getD 0 < b.pending.length
  · have hlast : (b.assemble runId).lines.getLast? =
        (b.pending.getLast?).map (fun l => ⟨b.pending.length - 1 + 1, l⟩) := by
      simp [RunLogBuilder.assemble]
    rw [if_pos h, List.getLast?_drop, hlen, if_neg (by omega), hlast]
    cases hp : b.pending.getLast? with
    | none =>
      rw [List.getLast?_eq_none_iff] at hp
      simp [hp] at h
    | some l =>
      simp only [Option.map_some]
      congr 1
      omega
  · rw [if_neg h, List.drop_eq_nil_of_le (by omega)]
    rfl

inductive CursorRule where
  | returned
  | held
  deriving DecidableEq

def CursorRule.next : CursorRule → Option Nat → Option Nat → Option Nat
  | .returned, _, latest => latest
  | .held, cursor, latest => latest.or cursor

inductive LiveEvent where
  | push (e : StreamEvent)
  | poll

structure Session where
  logs : LiveRunLogs
  cursor : Option Nat
  delivered : List CapturedLine

def Session.step (u : Unicode) (rule : CursorRule) (runId : RunId) (s : Session) :
    LiveEvent → Session
  | .push e => { s with logs := s.logs.sink runId (fun cell => e.apply u cell) }
  | .poll =>
    match s.logs.snapshot runId s.cursor with
    | none => s
    | some log =>
      { s with
        cursor := rule.next s.cursor log.latestSeq
        delivered := s.delivered ++ log.lines.map (·.line) }

/-- The lines captured so far, how many of them had been captured when the last poll came,
and those the polls were owed: at each poll, the kept ones captured since the poll before. -/
structure Account where
  stream : StreamingRunLog
  captured : List CapturedLine
  seen : Nat
  due : List CapturedLine

def Account.step (u : Unicode) (a : Account) : LiveEvent → Account
  | .push e =>
    { a with stream := e.apply u a.stream, captured := a.captured ++ e.lines u a.stream }
  | .poll =>
    { a with seen := a.captured.length, due := a.due ++ owed maxLogLines a.seen a.captured }

def Session.start (runId : RunId) : Session := ⟨LiveRunLogs.new.begin runId, none, []⟩

def Account.start : Account := ⟨.new, [], 0, []⟩

/-- At every point of the schedule the poller has been given what it was owed, and it has
missed no more lines than the dropped counter counts. -/
def Lossless (u : Unicode) (rule : CursorRule) (runId : RunId) (s : Session) (a : Account)
    (events : List LiveEvent) : Prop :=
  ∀ pre, pre <+: events →
    let s' := Transition.run (Session.step u rule runId) s pre
    let a' := Transition.run (Account.step u) a pre
    s'.delivered = a'.due ∧ a'.seen ≤ s'.delivered.length + a'.stream.builder.dropped

def Account.pollCounts (u : Unicode) : Account → List LiveEvent → List Nat
  | _, [] => []
  | a, .push e :: events => pollCounts u (a.step u (.push e)) events
  | a, .poll :: events => a.captured.length :: pollCounts u (a.step u .poll) events

/-- The polls keep up with the stream: once there are lines, no line is dropped from one
poll to the next; and where an empty answer took the cursor away, all the lines seen are
gone at the next poll. -/
def KeepsUp (rule : CursorRule) : Nat → Bool → List Nat → Prop
  | _, _, [] => True
  | seen, lost, n :: counts =>
    (seen = 0 ∨ if lost then seen + maxLogLines ≤ n else n ≤ maxLogLines ∨ n = seen) ∧
      KeepsUp rule n (rule == .returned && n == seen) counts

/-- The poller stands where the last poll left it: its cursor is the number of lines kept
at that poll, unless there was none to give or it was taken away. -/
structure Synced (runId : RunId) (s : Session) (a : Account) (lost : Bool) : Prop where
  cell : s.logs.runs.get? runId = some a.stream
  records : a.stream.builder.Records a.captured
  delivered : s.delivered = a.due
  seen : a.seen ≤ a.captured.length
  missed : a.seen ≤ a.due.length + dropped maxLogLines a.captured
  cursor : s.cursor = if a.seen = 0 ∨ lost = true then none else some (min a.seen maxLogLines)

namespace Synced

variable {u : Unicode} {rule : CursorRule} {runId : RunId} {s : Session} {a : Account}
  {lost : Bool}

theorem start (runId : RunId) : Synced runId (.start runId) .start false where
  cell := by
    have hget := HashMap.get?_insert (HashMap.empty : HashMap RunId StreamingRunLog) runId runId
      .new
    rw [if_pos rfl] at hget
    exact hget
  records := .new
  delivered := rfl
  seen := Nat.le_refl 0
  missed := Nat.zero_le _
  cursor := rfl

theorem push (h : Synced runId s a lost) (e : StreamEvent) :
    Synced runId (s.step u rule runId (.push e)) (a.step u (.push e)) lost where
  cell := by simp [Session.step, Account.step, LiveRunLogs.sink, h.cell]
  records := e.apply_records h.records u
  delivered := h.delivered
  seen := by
    have hseen := h.seen
    simp only [Account.step, List.length_append]
    omega
  missed := by
    have hmissed := h.missed
    have hmono := dropped_mono maxLogLines a.captured (e.lines u a.stream)
    simp only [Account.step]
    omega
  cursor := h.cursor

theorem poll_step (h : Synced runId s a lost) :
    s.step u rule runId .poll =
      { s with
        cursor := rule.next s.cursor
          (if s.cursor.getD 0 < min a.captured.length maxLogLines then
            some (min a.captured.length maxLogLines) else none)
        delivered := s.delivered ++ (kept maxLogLines a.captured).drop (s.cursor.getD 0) } := by
  have hlen : a.stream.builder.pending.length = min a.captured.length maxLogLines := by
    rw [h.records.pending, kept_length]
  have hlatest := answer_latestSeq a.stream.builder runId s.cursor
  have hlines : (((a.stream.builder.assemble runId).since s.cursor).lines).map (·.line) =
      (kept maxLogLines a.captured).drop (s.cursor.getD 0) := by
    rw [assemble_since, List.map_drop, assemble_lines, h.records.pending]
  rw [hlen] at hlatest
  simp only [Session.step, LiveRunLogs.snapshot, h.cell, Option.map_some,
    StreamingRunLog.snapshot, hlatest, hlines]

theorem poll_reads (h : Synced runId s a lost) :
    (kept maxLogLines a.captured).drop (s.cursor.getD 0) = owed maxLogLines a.seen a.captured ↔
      (a.seen = 0 ∨ if lost then a.seen + maxLogLines ≤ a.captured.length
        else a.captured.length ≤ maxLogLines ∨ a.captured.length = a.seen) := by
  have hsplit : a.captured = a.captured.take a.seen ++ a.captured.drop a.seen :=
    (List.take_append_drop a.seen a.captured).symm
  have hlen : (a.captured.take a.seen).length = a.seen := by
    have hseen := h.seen
    simp only [List.length_take]
    omega
  have hcap : 0 < maxLogLines := by decide
  have hfull := full_read_iff (a.captured.take a.seen) (a.captured.drop a.seen) hcap
  rw [← hsplit, hlen] at hfull
  by_cases hzero : a.seen = 0
  · have hnil : a.captured.take a.seen = [] := by rw [hzero, List.take_zero]
    have hcursor : s.cursor.getD 0 = 0 := by simp [h.cursor, hzero]
    rw [hcursor, List.drop_zero]
    exact ⟨fun _ => .inl hzero, fun _ => hfull.mpr (.inl hnil)⟩
  · have hne : a.captured.take a.seen ≠ [] := by
      intro hnil
      rw [hnil] at hlen
      exact hzero hlen.symm
    cases lost with
    | true =>
      have hcursor : s.cursor.getD 0 = 0 := by simp [h.cursor]
      rw [hcursor, List.drop_zero]
      refine hfull.trans ?_
      simp only [hne, hzero, false_or, if_true]
    | false =>
      have hrel := relative_read_iff hne (a.captured.drop a.seen) hcap
      rw [← hsplit, kept_length, hlen] at hrel
      have hcursor : s.cursor.getD 0 = min a.seen maxLogLines := by simp [h.cursor, hzero]
      rw [hcursor]
      refine hrel.trans ?_
      have hseen := h.seen
      simp only [hzero, List.drop_eq_nil_iff, false_or, Bool.false_eq_true, if_false]
      omega

theorem poll_cursor (h : Synced runId s a lost) (rule : CursorRule)
    (hup : a.seen = 0 ∨ if lost then a.seen + maxLogLines ≤ a.captured.length
      else a.captured.length ≤ maxLogLines ∨ a.captured.length = a.seen) :
    rule.next s.cursor (if s.cursor.getD 0 < min a.captured.length maxLogLines then
        some (min a.captured.length maxLogLines) else none) =
      if a.captured.length = 0 ∨ (rule == .returned && a.captured.length == a.seen) = true
        then none else some (min a.captured.length maxLogLines) := by
  have hseen := h.seen
  have hcap : 0 < maxLogLines := by decide
  by_cases hnone : a.seen = 0 ∨ lost = true
  · have hcursor : s.cursor = none := by rw [h.cursor, if_pos hnone]
    have hnext : ∀ latest, rule.next none latest = latest := by
      intro latest
      cases rule with
      | returned => rfl
      | held => cases latest <;> rfl
    have hmoved : a.captured.length = 0 ∨ a.captured.length ≠ a.seen := by
      rcases hnone with hzero | hlost
      · omega
      · rw [hlost, if_pos rfl] at hup
        omega
    rw [hcursor, hnext, Option.getD_none]
    by_cases hzero : a.captured.length = 0
    · simp [hzero]
    · have hne : a.captured.length ≠ a.seen := by omega
      have hpos : 0 < min a.captured.length maxLogLines := by omega
      simp [hzero, hne, hpos]
  · have hcursor : s.cursor = some (min a.seen maxLogLines) := by rw [h.cursor, if_neg hnone]
    obtain ⟨hzero, hlost⟩ := not_or.mp hnone
    have hpos : a.captured.length ≠ 0 := by omega
    rw [if_neg hlost] at hup
    rw [hcursor, Option.getD_some]
    by_cases hidle : a.captured.length = a.seen
    · -- An empty answer: the cursor goes or stays.
      have hlt : ¬ min a.seen maxLogLines < min a.captured.length maxLogLines := by omega
      rw [if_neg hlt, hidle]
      cases rule with
      | returned => simp [CursorRule.next]
      | held => simp [CursorRule.next, hzero]
    · have hlt : min a.seen maxLogLines < min a.captured.length maxLogLines := by omega
      rw [if_pos hlt]
      cases rule with
      | returned => simp [CursorRule.next, hpos, hidle]
      | held => simp [CursorRule.next, hpos]

theorem poll (h : Synced runId s a lost)
    (hup : a.seen = 0 ∨ if lost then a.seen + maxLogLines ≤ a.captured.length
      else a.captured.length ≤ maxLogLines ∨ a.captured.length = a.seen) :
    Synced runId (s.step u rule runId .poll) (a.step u .poll)
      (rule == .returned && a.captured.length == a.seen) where
  cell := by
    rw [h.poll_step]
    exact h.cell
  records := h.records
  delivered := by
    rw [h.poll_step, h.poll_reads.mpr hup, h.delivered]
    rfl
  seen := Nat.le_refl _
  missed := by
    have howed := owed_length maxLogLines a.seen a.captured
    have hmissed := h.missed
    simp only [Account.step, List.length_append]
    omega
  cursor := by
    rw [h.poll_step]
    exact h.poll_cursor rule hup

end Synced

variable {a : Account} {rule : CursorRule} {runId : RunId} {u : Unicode} {s : Session}

theorem lossless_cons (e : LiveEvent) (events : List LiveEvent) :
    Lossless u rule runId s a (e :: events) ↔
      Lossless u rule runId s a [] ∧
        Lossless u rule runId (s.step u rule runId e) (a.step u e) events := by
  constructor
  · intro h
    refine ⟨fun pre hpre => ?_, fun pre hpre => ?_⟩
    · rw [List.prefix_nil.mp hpre]
      exact h [] (List.nil_prefix)
    · exact h (e :: pre) (List.cons_prefix_cons.mpr ⟨rfl, hpre⟩)
  · rintro ⟨hnil, hrest⟩ pre hpre
    cases pre with
    | nil => exact hnil [] (List.prefix_refl [])
    | cons e' pre =>
      obtain ⟨rfl, htail⟩ := List.cons_prefix_cons.mp hpre
      exact hrest pre htail

theorem Synced.lossless_nil {lost : Bool} (h : Synced runId s a lost) :
    Lossless u rule runId s a [] := by
  intro pre hpre
  rw [List.prefix_nil.mp hpre]
  refine ⟨h.delivered, ?_⟩
  simp only [Transition.run_nil]
  rw [h.delivered, h.records.dropped]
  exact h.missed

theorem Synced.lossless_iff {lost : Bool} (h : Synced runId s a lost) (events : List LiveEvent) :
    Lossless u rule runId s a events ↔ KeepsUp rule a.seen lost (a.pollCounts u events) := by
  induction events generalizing s a lost with
  | nil => exact ⟨fun _ => trivial, fun _ => h.lossless_nil⟩
  | cons e events ih =>
    rw [lossless_cons, and_iff_right h.lossless_nil]
    cases e with
    | push e => exact ih (h.push e)
    | poll =>
      by_cases hup : a.seen = 0 ∨ if lost then a.seen + maxLogLines ≤ a.captured.length
          else a.captured.length ≤ maxLogLines ∨ a.captured.length = a.seen
      · have hstep : Synced runId (s.step u rule runId .poll) (a.step u .poll)
            (rule == .returned && a.captured.length == a.seen) := h.poll hup
        have hrest := ih hstep
        exact hrest.trans (and_iff_right hup).symm
      · constructor
        · intro hloss
          have hnow := (hloss [] List.nil_prefix).1
          rw [h.poll_step, h.delivered] at hnow
          exact absurd (h.poll_reads.mp (List.append_cancel_left hnow)) hup
        · intro hkeeps
          exact absurd hkeeps.1 hup

/-- A poller loses nothing exactly while it keeps up with the stream. -/
theorem live_polling_lossless_iff (u : Unicode) (rule : CursorRule) (runId : RunId)
    (events : List LiveEvent) :
    Lossless u rule runId (.start runId) .start events ↔
      KeepsUp rule 0 false (Account.start.pollCounts u events) :=
  (Synced.start runId).lossless_iff events

def oneLine : LiveEvent := .push (.append .stdout "line\n")

def floodedSchedule : List LiveEvent :=
  List.replicate maxLogLines oneLine ++ [.poll, oneLine, .poll]

theorem oneLine_step (u : Unicode) (h : a.stream.stdoutCarry = []) :
    (a.step u oneLine).stream.stdoutCarry = [] ∧
      (a.step u oneLine).captured.length = a.captured.length + 1 := by
  have hlines : (feedLines u .stdout "line\n".toList).length = 1 := rfl
  have hcarry : ∀ b, (StreamingRunLog.feed u b .stdout "line\n".toList).2 = [] := fun _ => rfl
  constructor
  · show (StreamingRunLog.feed u _ .stdout (a.stream.stdoutCarry ++ "line\n".toList)).2 = []
    rw [h]
    exact hcarry _
  · show (a.captured ++ feedLines u .stdout (a.stream.stdoutCarry ++ "line\n".toList)).length = _
    rw [h, List.length_append, List.nil_append, hlines]

theorem pollCounts_replicate (u : Unicode) (n : Nat) (h : a.stream.stdoutCarry = [])
    (events : List LiveEvent) :
    ∃ a' : Account, a'.stream.stdoutCarry = [] ∧
      a'.captured.length = a.captured.length + n ∧
      a.pollCounts u (List.replicate n oneLine ++ events) = a'.pollCounts u events := by
  induction n generalizing a with
  | zero => exact ⟨a, h, rfl, rfl⟩
  | succ n ih =>
    obtain ⟨hcarry, hlen⟩ := oneLine_step u h
    obtain ⟨a', hcarry', hlen', hcounts⟩ := ih hcarry
    refine ⟨a', hcarry', by omega, ?_⟩
    exact hcounts

theorem floodedSchedule_counts (u : Unicode) :
    Account.start.pollCounts u floodedSchedule = [200, 201] := by
  obtain ⟨a, hcarry, hlen, hcounts⟩ :=
    pollCounts_replicate u maxLogLines (rfl : Account.start.stream.stdoutCarry = [])
      [.poll, oneLine, .poll]
  have hnow : a.captured.length = 200 := hlen
  obtain ⟨-, hnext⟩ := oneLine_step u (a := a.step u .poll) hcarry
  have hlater : ((a.step u .poll).step u oneLine).captured.length = 201 := by
    rw [hnext]
    show a.captured.length + 1 = 201
    omega
  have hpolls : a.pollCounts u [.poll, oneLine, .poll] =
      [a.captured.length, ((a.step u .poll).step u oneLine).captured.length] := rfl
  unfold floodedSchedule
  rw [hcounts, hpolls, hnow, hlater]

theorem flooded_poller_loses (rule : CursorRule) (u : Unicode) (runId : RunId) :
    ¬ Lossless u rule runId (.start runId) .start floodedSchedule := by
  rw [(Synced.start runId).lossless_iff, floodedSchedule_counts]
  simp [KeepsUp, maxLogLines]

/-- The line that pushes the oldest one out is never delivered. -/
theorem live_polling_loses_line :
    ¬ Lossless ⟨id, Char.isAlphanum⟩ .returned "run_0001" (.start "run_0001") .start
        floodedSchedule ∧
      ¬ Lossless ⟨id, Char.isAlphanum⟩ .held "run_0001" (.start "run_0001") .start
        floodedSchedule :=
  ⟨flooded_poller_loses .returned _ _, flooded_poller_loses .held _ _⟩

end Relux
