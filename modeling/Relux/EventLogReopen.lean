import Mathlib.Data.List.Forall2
import Relux.EventCodec

/-! When a log can be opened again. Reading refuses a record over `maxRecordSize` and a
count that reaches `maxRecordsPerRead`, and verifying refuses a sequence number out of
order; appending tests none of the three. -/

namespace Relux

open Transition

variable {C : LogCrates}

def Encoded (C : LogCrates) (r : EventRecord) (bytes : List UInt8) : Prop :=
  C.encode r = .ok bytes ∧ bytes.length < 2 ^ 32

theorem readLoop_nil (out : List EventRecord) :
    readLoop C out [] =
      if maxRecordsPerRead ≤ out.length then .error (.tooManyRecords maxRecordsPerRead)
      else .ok out := by
  rw [readLoop]
  simp

variable {bytes : List UInt8} {r : EventRecord}

theorem readLoop_frame (hC : C.Lawful) (henc : Encoded C r bytes)
    (out : List EventRecord) (rest : List UInt8) :
    readLoop C out (frame bytes ++ rest) =
      if maxRecordsPerRead ≤ out.length then .error (.tooManyRecords maxRecordsPerRead)
      else if maxRecordSize < bytes.length then
        .error (.recordTooLarge bytes.length maxRecordSize)
      else readLoop C (out ++ [r]) rest := by
  have hfour : ¬ (frame bytes ++ rest).length < 4 := by
    rw [frame_length]
    omega
  have hlen : ¬ (bytes ++ rest).length < bytes.length := by simp
  have hdec : C.decode ((bytes ++ rest).take bytes.length) = .ok r := by
    rw [List.take_left]
    exact hC.decode_encode r bytes henc.1
  rw [readLoop]
  simp only [ofBeBytes_frame henc.2, drop_frame, hfour, hlen, hdec, if_false, List.drop_left]

variable {records : List EventRecord} {encs : List (List UInt8)}

theorem readLoop_frames (hC : C.Lawful) {out : List EventRecord}
    (h : List.Forall₂ (Encoded C) records encs) :
    readLoop C out (frames encs) = .ok (out ++ records) ↔
      out.length + records.length < maxRecordsPerRead ∧
        ∀ bytes ∈ encs, bytes.length ≤ maxRecordSize := by
  induction h generalizing out with
  | nil =>
    rw [frames_nil, readLoop_nil]
    by_cases hout : maxRecordsPerRead ≤ out.length
    · simp [hout]
    · simp [hout]
      omega
  | @cons r bytes records encs henc _ ih =>
    rw [frames_cons, readLoop_frame hC henc]
    by_cases hout : maxRecordsPerRead ≤ out.length
    · rw [if_pos hout]
      constructor
      · intro h
        cases h
      · intro h
        omega
    · by_cases hsize : maxRecordSize < bytes.length
      · simp [hout, hsize]
      · have hcons : out ++ r :: records = out ++ [r] ++ records := by simp
        rw [if_neg hout, if_neg hsize, hcons, ih]
        simp only [List.length_append, List.length_cons, List.length_nil,
          List.mem_cons, forall_eq_or_imp]
        constructor
        · rintro ⟨hcount, hsizes⟩
          exact ⟨by omega, by omega, hsizes⟩
        · rintro ⟨hcount, _, hsizes⟩
          exact ⟨by omega, hsizes⟩

theorem readRecords_frames (hC : C.Lawful) (h : List.Forall₂ (Encoded C) records encs) :
    readRecords C (frames encs) = .ok records ↔
      records.length < maxRecordsPerRead ∧ ∀ bytes ∈ encs, bytes.length ≤ maxRecordSize := by
  have hread : readLoop C [] (frames encs) = .ok ([] ++ records) ↔ _ := readLoop_frames hC h
  simpa [readRecords] using hread

variable {key : C.VerifyingKey}

theorem verifyRecord_ok {expected next : UInt64 × ContentHash}
    (h : verifyRecord C key expected r = .ok next) :
    (r.eventSeq = expected.1 ∧ r.prevHash = expected.2) ∧
      (∃ toVerify, C.encodeUnsigned r.unsigned = .ok toVerify ∧
        C.verify key toVerify r.signature = true) ∧
      ∃ bytes, C.encode r = .ok bytes ∧ next = (expected.1 + 1, C.contentHash bytes) := by
  unfold verifyRecord at h
  by_cases hseq : r.eventSeq = expected.1
  · by_cases hprev : r.prevHash = expected.2
    · simp only [hseq, hprev, ne_eq, not_true_eq_false, if_false] at h
      cases hun : C.encodeUnsigned r.unsigned with
      | error e => simp [hun] at h
      | ok toVerify =>
        by_cases hsig : C.verify key toVerify r.signature
        · cases henc : C.encode r with
          | error e => simp [hun, hsig, henc] at h
          | ok bytes =>
            simp only [hun, hsig, henc, if_true, Except.ok.injEq] at h
            exact ⟨⟨hseq, hprev⟩, ⟨toVerify, rfl, hsig⟩, bytes, rfl, h.symm⟩
        · simp [hun, hsig] at h
    · simp [hseq, hprev] at h
  · simp [hseq] at h

def endHash (C : LogCrates) (records : List EventRecord) : ContentHash :=
  match records.getLast? with
  | none => zeroHash
  | some r =>
    match C.encode r with
    | .error _ => zeroHash
    | .ok bytes => C.contentHash bytes

theorem verifyRecords_end {e : UInt64 × ContentHash} (h : verifyRecords C key records = .ok e) :
    e = (UInt64.ofNat records.length, endHash C records) := by
  induction records using List.reverseRecOn generalizing e with
  | nil =>
    cases h
    rfl
  | append_singleton records r ih =>
    obtain ⟨mid, hpre, hlast⟩ := Transition.foldlM_concat_ok.mp h
    obtain ⟨-, -, bytes, henc, rfl⟩ := verifyRecord_ok hlast
    rw [ih hpre]
    simp [endHash, henc]

def Sound (C : LogCrates) (key : C.VerifyingKey) (records : List EventRecord) : Prop :=
  records.length < maxRecordsPerRead ∧
    (∀ r ∈ records, ∀ bytes, C.encode r = .ok bytes → bytes.length ≤ maxRecordSize) ∧
    ∃ e, verifyRecords C key records = .ok e

theorem Sound.of_prefix {pre : List EventRecord} (h : Sound C key records) (hp : pre <+: records) :
    Sound C key pre := by
  obtain ⟨more, rfl⟩ := hp
  obtain ⟨hcount, hsizes, e, hverify⟩ := h
  refine ⟨?_, ?_, ?_⟩
  · simp only [List.length_append] at hcount
    omega
  · intro r hr
    exact hsizes r (List.mem_append_left more hr)
  · obtain ⟨mid, hpre, -⟩ := Transition.foldlM_append_ok.mp hverify
    exact ⟨mid, hpre⟩

variable {s : LogSession C}

namespace LogSession

def Filed (s : LogSession C) : Prop :=
  ∃ encs, List.Forall₂ (Encoded C) s.appended encs ∧ s.file = some (frames encs)

theorem forall₂_size (h : List.Forall₂ (Encoded C) records encs) :
    (∀ bytes ∈ encs, bytes.length ≤ maxRecordSize) ↔
      ∀ r ∈ records, ∀ bytes, C.encode r = .ok bytes → bytes.length ≤ maxRecordSize := by
  induction h with
  | nil => simp
  | @cons r bytes records encs henc _ ih =>
    simp [ih, henc.1]

theorem Filed.readRecords (hC : C.Lawful) (h : s.Filed) :
    ∃ file, s.file = some file ∧ (Relux.readRecords C file = .ok s.appended ↔
      s.appended.length < maxRecordsPerRead ∧ ∀ r ∈ s.appended, ∀ bytes,
        C.encode r = .ok bytes → bytes.length ≤ maxRecordSize) := by
  obtain ⟨encs, hencs, hfile⟩ := h
  refine ⟨frames encs, hfile, ?_⟩
  rw [readRecords_frames hC hencs, forall₂_size hencs]

def ReturnsOk (s : LogSession C) : LogCall → Prop
  | .open _ => True
  | .append handle kind payload ts =>
    ∀ log, s.handles[handle]? = some log →
      ∃ seq, (log.append kind payload ts (s.file.getD [])).1 = .ok seq

/-- The append goes through a handle that has seen every record so far, and what it writes
can be read back. -/
def Meets (s : LogSession C) : LogCall → Prop
  | .open _ => True
  | .append handle kind payload ts =>
    ∀ log, s.handles[handle]? = some log →
      ∀ record bytes, log.signRecord kind payload ts = .ok (record, bytes) →
        log.nextSeq.toNat = s.appended.length ∧
          s.appended.length + 1 < maxRecordsPerRead ∧ bytes.length ≤ maxRecordSize

end LogSession

variable {payload : List UInt8} {log : EventLog C} {kind : EventType} {ts : Int64}
  {record : EventRecord}

namespace EventLog

theorem signRecord_ok (h : log.signRecord kind payload ts = .ok (record, bytes)) :
    record.flowId = log.flowId ∧ record.eventSeq = log.nextSeq ∧ record.ts = ts ∧
      record.kind = kind ∧ record.payload = payload ∧ record.prevHash = log.lastHash ∧
      (∃ toSign, C.encodeUnsigned record.unsigned = .ok toSign ∧
        record.signature = C.sign log.signer toSign) ∧ Encoded C record bytes := by
  unfold signRecord at h
  cases hun : C.encodeUnsigned ⟨log.flowId, log.nextSeq, ts, kind, payload, log.lastHash⟩ with
  | error e => simp [hun] at h
  | ok toSign =>
    simp only [hun] at h
    cases henc : C.encode ⟨log.flowId, log.nextSeq, ts, kind, payload, log.lastHash,
        C.sign log.signer toSign⟩ with
    | error e => simp [henc] at h
    | ok recordBytes =>
      simp only [henc] at h
      by_cases hlen : 2 ^ 32 - 1 < recordBytes.length
      · rw [if_pos hlen] at h
        cases h
      · rw [if_neg hlen] at h
        cases h
        exact ⟨rfl, rfl, rfl, rfl, rfl, rfl, ⟨toSign, hun, rfl⟩, henc, by omega⟩

theorem append_ok {file : List UInt8} {seq : UInt64}
    (h : (log.append kind payload ts file).1 = .ok seq) :
    ∃ record bytes, log.signRecord kind payload ts = .ok (record, bytes) ∧
      log.append kind payload ts file =
        (.ok log.nextSeq,
          { log with lastHash := C.contentHash bytes, nextSeq := log.nextSeq + 1 },
          file ++ frame bytes) := by
  unfold append at h ⊢
  cases hsign : log.signRecord kind payload ts with
  | error e => simp [hsign] at h
  | ok result =>
    obtain ⟨record, bytes⟩ := result
    simp only [hsign] at h
    by_cases hseq : log.nextSeq.toNat + 1 = 2 ^ 64
    · rw [if_pos hseq] at h
      cases h
    · refine ⟨record, bytes, rfl, ?_⟩
      simp only [if_neg hseq, frame, List.append_assoc]

theorem verifyRecord_signed (hC : C.Lawful)
    (h : log.signRecord kind payload ts = .ok (record, bytes)) :
    verifyRecord C (C.verifyingKey log.signer) (log.nextSeq, log.lastHash) record =
      .ok (log.nextSeq + 1, C.contentHash bytes) := by
  obtain ⟨_, hseq, _, _, _, hprev, ⟨toSign, hun, hsig⟩, henc, _⟩ := signRecord_ok h
  have hverify : C.verify (C.verifyingKey log.signer) toSign record.signature = true := by
    rw [hsig]
    exact hC.verify_sign log.signer toSign
  simp [verifyRecord, hseq, hprev, hun, hverify, henc]

end EventLog

namespace LogSession

variable {handle : Nat}

theorem exec_append (signer : C.SigningKey) (hlog : s.handles[handle]? = some log)
    (hok : s.ReturnsOk (.append handle kind payload ts)) :
    ∃ record bytes, log.signRecord kind payload ts = .ok (record, bytes) ∧
      exec signer s (.append handle kind payload ts) =
        { file := some (s.file.getD [] ++ frame bytes)
          handles := s.handles.set handle
            { log with lastHash := C.contentHash bytes, nextSeq := log.nextSeq + 1 }
          appended := s.appended ++ [record] } := by
  obtain ⟨seq, hseq⟩ := hok log hlog
  obtain ⟨record, bytes, hsign, happend⟩ := EventLog.append_ok hseq
  refine ⟨record, bytes, hsign, ?_⟩
  simp only [exec, hlog, happend, hsign, appendedBy]

variable {signer : C.SigningKey}

theorem exec_append_none (kind : EventType) (payload : List UInt8) (ts : Int64)
    (hlog : s.handles[handle]? = none) : exec signer s (.append handle kind payload ts) = s := by
  simp only [exec, hlog]

theorem exec_open (signer : C.SigningKey) (s : LogSession C) (flowId : FlowId) :
    exec signer s (.open flowId) = s ∨
      ∃ log file, EventLog.open s.file flowId signer = .ok (log, file) ∧
        file = s.file.getD [] ∧
        exec signer s (.open flowId) =
          { s with file := some file, handles := s.handles ++ [log] } := by
  cases hopen : EventLog.open s.file flowId signer with
  | error e =>
    left
    simp only [exec, hopen]
  | ok result =>
    obtain ⟨log, file⟩ := result
    right
    refine ⟨log, file, rfl, ?_, by simp only [exec, hopen]⟩
    cases hfile : s.file with
    | none =>
      simp only [EventLog.open, hfile, Except.ok.injEq, Prod.mk.injEq] at hopen
      exact hopen.2.symm
    | some bytes =>
      cases hverify : verifyChain C bytes (C.verifyingKey signer) with
      | error e => simp [EventLog.open, hfile, hverify] at hopen
      | ok e =>
        simp only [EventLog.open, hfile, hverify, Except.ok.injEq, Prod.mk.injEq] at hopen
        exact hopen.2.symm

variable {call : LogCall}

theorem exec_appended (signer : C.SigningKey) (hok : s.ReturnsOk call) :
    s.appended <+: (exec signer s call).appended := by
  cases call with
  | «open» flowId =>
    rcases exec_open signer s flowId with h | ⟨log, file, _, _, h⟩
    · rw [h]
    · rw [h]
  | append handle kind payload ts =>
    cases hlog : s.handles[handle]? with
    | none => rw [exec_append_none kind payload ts hlog]
    | some log =>
      obtain ⟨record, bytes, _, hexec⟩ := exec_append signer hlog hok
      rw [hexec]
      exact List.prefix_append _ _

theorem Filed.exec (signer : C.SigningKey) {s : LogSession C}
    (h : s.Filed) (hok : s.ReturnsOk call) : (exec signer s call).Filed := by
  obtain ⟨encs, hencs, hfile⟩ := h
  cases call with
  | «open» flowId =>
    rcases exec_open signer s flowId with he | ⟨log, file, _, hsame, he⟩
    · rw [he]
      exact ⟨encs, hencs, hfile⟩
    · rw [he]
      refine ⟨encs, hencs, ?_⟩
      simp only [hsame, hfile, Option.getD_some]
  | append handle kind payload ts =>
    cases hlog : s.handles[handle]? with
    | none =>
      rw [exec_append_none kind payload ts hlog]
      exact ⟨encs, hencs, hfile⟩
    | some log =>
      obtain ⟨record, bytes, hsign, he⟩ := exec_append signer hlog hok
      have henc : Encoded C record bytes := (EventLog.signRecord_ok hsign).2.2.2.2.2.2.2
      rw [he]
      refine ⟨encs ++ [bytes], ?_, ?_⟩
      · exact List.rel_append hencs (List.Forall₂.cons henc List.Forall₂.nil)
      · simp [hfile]

/-- What every state holds as long as each append meets its condition: a handle stands at
the end of the records it has seen. -/
structure Chained (signer : C.SigningKey) (s : LogSession C) : Prop where
  filed : s.Filed
  sound : Sound C (C.verifyingKey signer) s.appended
  handles : ∀ log ∈ s.handles, log.signer = signer ∧
    log.nextSeq.toNat ≤ s.appended.length ∧
    verifyRecords C (C.verifyingKey signer) (s.appended.take log.nextSeq.toNat) =
      .ok (log.nextSeq, log.lastHash)

theorem toNat_ofNat_count {n : Nat} (h : n < maxRecordsPerRead) :
    (UInt64.ofNat n).toNat = n := by
  have hmax : maxRecordsPerRead = 100000 := rfl
  have hsize : UInt64.size = 2 ^ 64 := rfl
  apply UInt64.toNat_ofNat_of_lt'
  omega

theorem Chained.open (hC : C.Lawful) {signer : C.SigningKey} {s : LogSession C}
    (h : s.Chained signer) (flowId : FlowId) :
    ∃ log, EventLog.open s.file flowId signer = .ok (log, s.file.getD []) ∧
      log.flowId = flowId ∧ log.signer = signer ∧ log.nextSeq.toNat = s.appended.length ∧
      verifyRecords C (C.verifyingKey signer) s.appended = .ok (log.nextSeq, log.lastHash) := by
  obtain ⟨file, hfile, hread⟩ := h.filed.readRecords hC
  obtain ⟨hcount, hsizes, e, hverify⟩ := h.sound
  have hrecords : Relux.readRecords C file = .ok s.appended := hread.mpr ⟨hcount, hsizes⟩
  have hchain : verifyChain C file (C.verifyingKey signer) = .ok e := by
    simp only [verifyChain, hrecords, Except.bind, hverify]
  refine ⟨⟨flowId, signer, e.1, e.2⟩, ?_, rfl, rfl, ?_, hverify⟩
  · simp only [EventLog.open, hfile, hchain, Option.getD_some]
  · show e.1.toNat = s.appended.length
    rw [verifyRecords_end hverify]
    exact toNat_ofNat_count hcount

theorem Chained.sound_append (hC : C.Lawful) (h : s.Chained signer) (hsigner : log.signer = signer)
    (hend : verifyRecords C (C.verifyingKey signer) s.appended = .ok (log.nextSeq, log.lastHash))
    (hsign : log.signRecord kind payload ts = .ok (record, bytes))
    (hcount : s.appended.length + 1 < maxRecordsPerRead) (hsize : bytes.length ≤ maxRecordSize) :
    verifyRecords C (C.verifyingKey signer) (s.appended ++ [record]) =
        .ok (log.nextSeq + 1, C.contentHash bytes) ∧
      Sound C (C.verifyingKey signer) (s.appended ++ [record]) := by
  have henc : C.encode record = .ok bytes := (EventLog.signRecord_ok hsign).2.2.2.2.2.2.2.1
  have hnext := EventLog.verifyRecord_signed hC hsign
  rw [hsigner] at hnext
  have hverify : verifyRecords C (C.verifyingKey signer) (s.appended ++ [record]) =
      .ok (log.nextSeq + 1, C.contentHash bytes) :=
    Transition.foldlM_concat_ok.mpr ⟨_, hend, hnext⟩
  refine ⟨hverify, ?_, ?_, _, hverify⟩
  · simp only [List.length_append, List.length_cons, List.length_nil]
    omega
  · intro r hr bytes' hbytes'
    rcases List.mem_append.mp hr with hr | hr
    · exact h.sound.2.1 r hr bytes' hbytes'
    · have hlast : r = record := by simpa using hr
      rw [hlast, henc] at hbytes'
      cases hbytes'
      exact hsize

theorem Chained.exec (hC : C.Lawful) {signer : C.SigningKey} {s : LogSession C}
    (h : s.Chained signer) (hok : s.ReturnsOk call) (hmeets : s.Meets call) :
    (exec signer s call).Chained signer := by
  have hfiled := h.filed.exec signer hok
  cases call with
  | «open» flowId =>
    rcases exec_open signer s flowId with he | ⟨log, file, hopen, _, he⟩
    · rwa [he]
    · rw [he] at hfiled ⊢
      refine ⟨hfiled, h.sound, ?_⟩
      intro log' hlog'
      rcases List.mem_append.mp hlog' with hold | hnew
      · exact h.handles log' hold
      · obtain ⟨log₁, hopen₁, _, hsigner, hnext, hverify⟩ := h.open hC flowId
        rw [hopen] at hopen₁
        cases hopen₁
        have hlog : log' = log := by simpa using hnew
        rw [hlog]
        refine ⟨hsigner, hnext.le, ?_⟩
        rw [hnext, List.take_length]
        exact hverify
  | append handle kind payload ts =>
    cases hlog : s.handles[handle]? with
    | none => rwa [exec_append_none kind payload ts hlog]
    | some log =>
      obtain ⟨record, bytes, hsign, he⟩ := exec_append signer hlog hok
      obtain ⟨hcurrent, hcount, hsize⟩ := hmeets log hlog record bytes hsign
      obtain ⟨hsigner, _, hend⟩ := h.handles log (List.mem_of_getElem? hlog)
      rw [hcurrent, List.take_length] at hend
      obtain ⟨hverify, hsound⟩ := h.sound_append hC hsigner hend hsign hcount hsize
      rw [he] at hfiled ⊢
      refine ⟨hfiled, hsound, ?_⟩
      intro log' hlog'
      rcases List.mem_or_eq_of_mem_set hlog' with hold | hnew
      · obtain ⟨hsigner', hle, hend'⟩ := h.handles log' hold
        refine ⟨hsigner', ?_, ?_⟩
        · simp only [List.length_append]
          omega
        · show verifyRecords C _ ((s.appended ++ [record]).take log'.nextSeq.toNat) = _
          rw [List.take_append_of_le_length hle]
          exact hend'
      · have hnext : (log.nextSeq + 1).toNat = s.appended.length + 1 := by
          have hmax : maxRecordsPerRead = 100000 := rfl
          rw [UInt64.toNat_add]
          simp only [UInt64.toNat_one, hcurrent]
          omega
        rw [hnew]
        refine ⟨hsigner, ?_, ?_⟩
        · simp only [hnext, List.length_append, List.length_cons, List.length_nil]
          omega
        · simp only [hnext]
          rw [List.take_of_length_le (by simp)]
          exact hverify

theorem chained_first (signer : C.SigningKey) (flowId : FlowId) :
    (LogSession.exec signer fresh (.open flowId) : LogSession C).Chained signer := by
  refine ⟨⟨[], List.Forall₂.nil, rfl⟩, ⟨?_, by simp [exec, fresh, EventLog.open], ?_⟩, ?_⟩
  · show 0 < maxRecordsPerRead
    decide
  · exact ⟨(0, zeroHash), rfl⟩
  · intro log hlog
    have hfirst : log = ⟨flowId, signer, 0, zeroHash⟩ := by
      simpa [LogSession.exec, fresh, EventLog.open] using hlog
    rw [hfirst]
    exact ⟨rfl, Nat.zero_le _, rfl⟩

theorem Chained.run (hC : C.Lawful) {signer : C.SigningKey} {s : LogSession C}
    {calls : List LogCall} (h : s.Chained signer)
    (hok : Guarded (LogSession.exec signer) ReturnsOk s calls)
    (hmeets : Guarded (LogSession.exec signer) Meets s calls) :
    (Transition.run (LogSession.exec signer) s calls).Chained signer := by
  induction calls generalizing s with
  | nil => exact h
  | cons call calls ih => exact ih (h.exec hC hok.1 hmeets.1) hok.2 hmeets.2

theorem Filed.run {signer : C.SigningKey} {s : LogSession C} {calls : List LogCall}
    (h : s.Filed) (hok : Guarded (LogSession.exec signer) ReturnsOk s calls) :
    (Transition.run (LogSession.exec signer) s calls).Filed := by
  induction calls generalizing s with
  | nil => exact h
  | cons call calls ih => exact ih (h.exec signer hok.1) hok.2

variable {calls : List LogCall}

theorem run_appended (hok : Guarded (LogSession.exec signer) ReturnsOk s calls) :
    s.appended <+: (Transition.run (LogSession.exec signer) s calls).appended := by
  induction calls generalizing s with
  | nil => exact List.prefix_refl _
  | cons call calls ih => exact (exec_appended signer hok.1).trans (ih hok.2)

theorem meets_of_sound (hok : s.ReturnsOk call)
    (h : Sound C (C.verifyingKey signer) (exec signer s call).appended) : s.Meets call := by
  cases call with
  | «open» flowId => trivial
  | append handle kind payload ts =>
    intro log hlog record bytes hsign
    obtain ⟨record', bytes', hsign', he⟩ := exec_append signer hlog hok
    rw [hsign] at hsign'
    cases hsign'
    rw [he] at h
    obtain ⟨hcount, hsizes, e, hverify⟩ := h
    obtain ⟨_, hseq, _, _, _, _, _, henc, _⟩ := EventLog.signRecord_ok hsign
    simp only [List.length_append, List.length_cons, List.length_nil] at hcount
    refine ⟨?_, by omega, hsizes record (by simp) bytes henc⟩
    obtain ⟨mid, hpre, hlast⟩ := Transition.foldlM_concat_ok.mp hverify
    rw [← hseq, (verifyRecord_ok hlast).1.1, verifyRecords_end hpre]
    exact toNat_ofNat_count (by omega)

theorem guarded_of_sound (hok : Guarded (LogSession.exec signer) ReturnsOk s calls)
    (h : Sound C (C.verifyingKey signer)
      (Transition.run (LogSession.exec signer) s calls).appended) :
    Guarded (LogSession.exec signer) Meets s calls := by
  induction calls generalizing s with
  | nil => trivial
  | cons call calls ih =>
    have hnext := h.of_prefix (run_appended (s := LogSession.exec signer s call) hok.2)
    exact ⟨meets_of_sound hok.1 hnext, ih hok.2 h⟩

/-- The log can be opened again: the file is read back as it was appended, a log opened on
it counts on from there, and its next record continues the chain. -/
structure Reopens (signer : C.SigningKey) (s : LogSession C) : Prop where
  read : ∃ file, s.file = some file ∧ Relux.readRecords C file = .ok s.appended
  reopen : ∀ flowId, ∃ log file, EventLog.open s.file flowId signer = .ok (log, file) ∧
    s.file = some file ∧ log.nextSeq.toNat = s.appended.length ∧
    ∀ kind payload ts record bytes,
      log.signRecord kind payload ts = .ok (record, bytes) →
        record.eventSeq.toNat = s.appended.length ∧
          ∃ e, verifyRecords C (C.verifyingKey signer) (s.appended ++ [record]) = .ok e

theorem Chained.reopens (hC : C.Lawful) (h : s.Chained signer) : s.Reopens signer := by
  obtain ⟨file, hfile, hread⟩ := h.filed.readRecords hC
  refine ⟨⟨file, hfile, hread.mpr ⟨h.sound.1, h.sound.2.1⟩⟩, ?_⟩
  intro flowId
  obtain ⟨log, hopen, _, hsigner, hnext, hend⟩ := h.open hC flowId
  refine ⟨log, _, hopen, by simp [hfile], hnext, ?_⟩
  intro kind payload ts record bytes hsign
  have hrecord := EventLog.verifyRecord_signed hC hsign
  rw [hsigner] at hrecord
  refine ⟨by rw [(EventLog.signRecord_ok hsign).2.1, hnext], ?_⟩
  exact ⟨_, Transition.foldlM_concat_ok.mpr ⟨_, hend, hrecord⟩⟩

theorem Reopens.sound (hC : C.Lawful) (hfiled : s.Filed) (h : s.Reopens signer) :
    Sound C (C.verifyingKey signer) s.appended := by
  obtain ⟨file, hfile, hread⟩ := h.read
  obtain ⟨file', hfile', hiff⟩ := hfiled.readRecords hC
  rw [hfile] at hfile'
  cases hfile'
  obtain ⟨hcount, hsizes⟩ := hiff.mp hread
  obtain ⟨log, file', hopen, _⟩ := h.reopen (Vector.replicate 16 0)
  refine ⟨hcount, hsizes, ?_⟩
  cases hverify : verifyRecords C (C.verifyingKey signer) s.appended with
  | error e => simp [EventLog.open, hfile, verifyChain, hread, Except.bind, hverify] at hopen
  | ok e => exact ⟨e, rfl⟩

theorem Reopens.guarded (hC : C.Lawful) {flowId : FlowId}
    (hok : Guarded (LogSession.exec signer) ReturnsOk fresh (.open flowId :: calls))
    (h : (Transition.run (LogSession.exec signer) fresh (.open flowId :: calls)).Reopens signer) :
    Guarded (LogSession.exec signer) Meets fresh (.open flowId :: calls) := by
  have hfiled := (chained_first (C := C) signer flowId).filed.run hok.2
  exact ⟨trivial, guarded_of_sound hok.2 (h.sound hC hfiled)⟩

/-- After any calls whose appends return, the log opens again with what was appended
exactly when each append went through a handle at the end of the records, with a record
and a count below the limits of the reader. -/
theorem reopens_iff (hC : C.Lawful) (signer : C.SigningKey) (flowId : FlowId)
    (calls : List LogCall)
    (hok : Guarded (LogSession.exec signer) ReturnsOk fresh (.open flowId :: calls)) :
    (Transition.run (LogSession.exec signer) fresh (.open flowId :: calls)).Reopens signer ↔
      Guarded (LogSession.exec signer) Meets fresh (.open flowId :: calls) := by
  constructor
  · intro h
    exact h.guarded hC hok
  · intro hmeets
    exact ((chained_first signer flowId).run hC hok.2 hmeets.2).reopens hC

def reopened (payload : List UInt8) : List LogCall :=
  [.append 0 .flowStarted payload 0, .open (Vector.replicate 16 1)]

theorem reopened_returnsOk (h : payload.length + 400 < 2 ^ 32) (key : EventSignature)
    (flowId : FlowId) :
    Guarded (@LogSession.exec cborCrates key) ReturnsOk fresh
      (.open flowId :: reopened payload) := by
  refine ⟨trivial, ?_, trivial, trivial⟩
  intro log hlog
  cases hlog
  obtain ⟨record, bytes, hsign, _⟩ :=
    cborCrates_signRecord ⟨flowId, key, 0, zeroHash⟩ .flowStarted 0 h
  refine ⟨0, ?_⟩
  simp only [EventLog.append, hsign]
  rfl

theorem reopens_one_record :
    (Transition.run (@LogSession.exec cborCrates (Vector.replicate 64 7)) fresh
      (.open (Vector.replicate 16 1) :: reopened [97])).Reopens (Vector.replicate 64 7) := by
  have hok := reopened_returnsOk (show [97].length + 400 < 2 ^ 32 by decide)
    (Vector.replicate 64 7) (Vector.replicate 16 1)
  apply (reopens_iff cborCrates_lawful _ _ _ hok).mpr
  refine ⟨trivial, ?_, trivial, trivial⟩
  intro log hlog record bytes hsign
  cases hlog
  obtain ⟨record', bytes', hsign', _, hlen⟩ := cborCrates_signRecord
    ⟨Vector.replicate 16 1, Vector.replicate 64 7, 0, zeroHash⟩ .flowStarted 0
    (show [97].length + 400 < 2 ^ 32 by decide)
  have hsame := hsign.symm.trans hsign'
  cases hsame
  refine ⟨rfl, by decide, ?_⟩
  apply hlen.trans
  decide

/-- A record that no limit of the writer refuses and no reader takes. -/
theorem large_record_locks_out :
    Guarded (@LogSession.exec cborCrates (Vector.replicate 64 7)) ReturnsOk fresh
        (.open (Vector.replicate 16 1) :: reopened (List.replicate maxRecordSize 0)) ∧
      ¬ (Transition.run (@LogSession.exec cborCrates (Vector.replicate 64 7)) fresh
        (.open (Vector.replicate 16 1) :: reopened (List.replicate maxRecordSize 0))).Reopens
          (Vector.replicate 64 7) := by
  have hlen : (List.replicate maxRecordSize (0 : UInt8)).length + 400 < 2 ^ 32 := by
    rw [List.length_replicate]
    decide
  have hok := reopened_returnsOk hlen (Vector.replicate 64 7) (Vector.replicate 16 1)
  refine ⟨hok, ?_⟩
  intro h
  obtain ⟨_, hmeets, _⟩ := h.guarded cborCrates_lawful hok
  obtain ⟨record, bytes, hsign, hlow, _⟩ := cborCrates_signRecord
    ⟨Vector.replicate 16 1, Vector.replicate 64 7, 0, zeroHash⟩ .flowStarted 0 hlen
  obtain ⟨_, _, hsize⟩ := hmeets _ rfl record bytes hsign
  rw [List.length_replicate] at hlow
  omega

end LogSession

end Relux
