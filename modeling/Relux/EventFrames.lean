import Relux.EventLogReopen
import Relux.FrameLog

/-! The event log of a flow as a log of framed records. -/

namespace Relux

variable {C : LogCrates}

variable {records : List EventRecord}

variable {encs : List (List UInt8)}

theorem readLoop_frames_rest (hC : C.Lawful) (h : List.Forall₂ (Encoded C) records encs)
    {out : List EventRecord} (hcount : out.length + records.length < maxRecordsPerRead)
    (hsizes : ∀ bytes ∈ encs, bytes.length ≤ maxRecordSize) (rest : List UInt8) :
    readLoop C out (frames encs ++ rest) = readLoop C (out ++ records) rest := by
  induction h generalizing out with
  | nil => simp
  | @cons r bytes records encs henc _ ih =>
    have hroom : ¬ maxRecordsPerRead ≤ out.length := by
      omega
    have hsize : ¬ maxRecordSize < bytes.length := by
      have hle := hsizes bytes List.mem_cons_self
      omega
    have hmore : (out ++ [r]).length + records.length < maxRecordsPerRead := by
      simp only [List.length_cons, List.length_append, List.length_nil] at hcount ⊢
      omega
    rw [frames_cons, List.append_assoc, readLoop_frame hC henc, if_neg hroom, if_neg hsize,
      ih hmore (fun b hb => hsizes b (List.mem_cons_of_mem bytes hb)), List.append_assoc,
      List.singleton_append]

theorem readLoop_torn {bytes : List UInt8} (hlen : bytes.length < 2 ^ 32) {n : Nat}
    (hfour : 4 ≤ n) (hshort : n < (frame bytes).length) (out : List EventRecord) :
    ∃ e, readLoop C out ((frame bytes).take n) = .error e := by
  obtain ⟨hlong, hhead, hrest⟩ := torn_frame hlen hfour hshort
  rw [readLoop]
  by_cases hout : maxRecordsPerRead ≤ out.length
  · exact ⟨_, if_pos hout⟩
  · by_cases hsize : maxRecordSize < bytes.length
    · simp only [hout, hlong, hhead, hsize, if_true, if_false]
      exact ⟨_, rfl⟩
    · simp only [hout, hlong, hhead, hsize, hrest, if_true, if_false]
      exact ⟨_, rfl⟩

def eventFrames (C : LogCrates) (signer : C.SigningKey) : FrameLog where
  Handle := EventLog C
  Record := EventRecord
  Error := EventLogError
  Key := FlowId
  Entry := EventType × List UInt8 × Int64
  reopen flowId file :=
    match EventLog.open file flowId signer with
    | .error e => .refused e
    | .ok (log, file) => .opened log file
  sign log entry := log.signRecord entry.1 entry.2.1 entry.2.2
  append log entry file :=
    let result := log.append entry.1 entry.2.1 entry.2.2 file
    (result.1.map (fun _ => ()), result.2.1, result.2.2)
  read := readRecords C

theorem eventFrames_sign (signer : C.SigningKey) (log : EventLog C)
    (entry : EventType × List UInt8 × Int64) :
    (eventFrames C signer).sign log entry = log.signRecord entry.1 entry.2.1 entry.2.2 := rfl

variable {signer : C.SigningKey}

theorem eventFrames_reopen {flowId : FlowId} {file : Option (List UInt8)} {log : EventLog C}
    {file' : List UInt8} (h : EventLog.open file flowId signer = .ok (log, file')) :
    (eventFrames C signer).reopen flowId file = .opened log file' := by
  simp only [eventFrames, h]

def EventGood (C : LogCrates) (signer : C.SigningKey) (records : List EventRecord)
    (encs : List (List UInt8)) : Prop :=
  List.Forall₂ (Encoded C) records encs ∧ Sound C (C.verifyingKey signer) records

theorem EventGood.sizes (h : EventGood C signer records encs) :
    ∀ bytes ∈ encs, bytes.length ≤ maxRecordSize :=
  (LogSession.forall₂_size h.1).mpr h.2.2.1

theorem EventGood.readLoop_rest (hC : C.Lawful) (h : EventGood C signer records encs)
    (rest : List UInt8) : readRecords C (frames encs ++ rest) = readLoop C records rest := by
  have hcount : ([] : List EventRecord).length + records.length < maxRecordsPerRead := by
    have hlt := h.2.1
    simp only [List.length_nil]
    omega
  exact readLoop_frames_rest hC h.1 hcount h.sizes rest

theorem EventGood.read (hC : C.Lawful) {signer : C.SigningKey} {records : List EventRecord}
    {encs : List (List UInt8)} (h : EventGood C signer records encs) {tail : List UInt8}
    (htail : tail.length < 4) : readRecords C (frames encs ++ tail) = .ok records := by
  have hroom : ¬ maxRecordsPerRead ≤ records.length := Nat.not_le_of_lt h.2.1
  rw [h.readLoop_rest hC, readLoop, if_neg hroom, if_pos htail]

theorem EventGood.reopen (hC : C.Lawful) (h : EventGood C signer records encs) {tail : List UInt8}
    (htail : tail.length < 4) (flowId : FlowId) :
    ∃ log : EventLog C, log.signer = signer ∧
      (eventFrames C signer).reopen flowId (some (frames encs ++ tail)) =
        .opened log (frames encs ++ tail) := by
  obtain ⟨e, hverify⟩ := h.2.2.2
  have hchain : verifyChain C (frames encs ++ tail) (C.verifyingKey signer) = .ok e := by
    simp only [verifyChain, h.read hC htail, Except.bind, hverify]
  refine ⟨⟨flowId, signer, e.1, e.2⟩, rfl, eventFrames_reopen ?_⟩
  simp only [EventLog.open, hchain]

theorem EventGood.torn (hC : C.Lawful) (h : EventGood C signer records encs) {bytes : List UInt8}
    (hlen : bytes.length < 2 ^ 32) {n : Nat} (hfour : 4 ≤ n) (hshort : n < (frame bytes).length)
    (flowId : FlowId) :
    ∃ e, (eventFrames C signer).reopen flowId
      (some (frames encs ++ (frame bytes).take n)) = .refused e := by
  have hread := h.readLoop_rest hC ((frame bytes).take n)
  obtain ⟨e, herror⟩ := readLoop_torn (C := C) hlen hfour hshort records
  rw [herror] at hread
  have hchain : verifyChain C (frames encs ++ (frame bytes).take n) (C.verifyingKey signer) =
      .error e := by
    simp only [verifyChain, hread, Except.bind]
  refine ⟨e, ?_⟩
  simp only [eventFrames, EventLog.open, hchain]

theorem EventGood.append (hC : C.Lawful) {signer : C.SigningKey} {records : List EventRecord}
    {encs : List (List UInt8)} (h : EventGood C signer records encs) {log : EventLog C}
    (hsigner : log.signer = signer) (hseq : log.nextSeq.toNat = records.length)
    (hhash : log.lastHash = endHash C records) {kind : EventType} {payload bytes : List UInt8}
    {ts : Int64} {record : EventRecord}
    (hsign : log.signRecord kind payload ts = .ok (record, bytes))
    (hcount : records.length + 1 < maxRecordsPerRead) (hsize : bytes.length ≤ maxRecordSize) :
    EventGood C signer (records ++ [record]) (encs ++ [bytes]) := by
  obtain ⟨hencs, hsound⟩ := h
  obtain ⟨e, hverify⟩ := hsound.2.2
  have henc : Encoded C record bytes := (EventLog.signRecord_ok hsign).2.2.2.2.2.2.2
  have hend : e = (log.nextSeq, log.lastHash) := by
    rw [verifyRecords_end hverify, hhash, ← hseq, UInt64.ofNat_toNat]
  have hnext := EventLog.verifyRecord_signed hC hsign
  rw [hsigner, ← hend] at hnext
  refine ⟨List.rel_append hencs (List.Forall₂.cons henc List.Forall₂.nil), ?_, ?_, ?_⟩
  · simp only [List.length_append, List.length_cons, List.length_nil]
    omega
  · intro r hr bytes' hbytes'
    rcases List.mem_append.mp hr with hr | hr
    · exact hsound.2.1 r hr bytes' hbytes'
    · rw [List.mem_singleton.mp hr, henc.1] at hbytes'
      cases hbytes'
      exact hsize
  · exact ⟨_, Transition.foldlM_concat_ok.mpr ⟨_, hverify, hnext⟩⟩

theorem eventGood_nil (signer : C.SigningKey) : EventGood C signer [] [] := by
  refine ⟨List.Forall₂.nil, ?_, by simp, (0, zeroHash), rfl⟩
  show 0 < maxRecordsPerRead
  decide

theorem eventFrames_append_error {signer : C.SigningKey} {log : EventLog C}
    {entry : EventType × List UInt8 × Int64} {e : EventLogError}
    (hsign : log.signRecord entry.1 entry.2.1 entry.2.2 = .error e) (file : List UInt8) :
    (eventFrames C signer).append log entry file = (.error e, log, file) := by
  simp only [eventFrames, EventLog.append, hsign]
  rfl

theorem eventFrames_append_ok {signer : C.SigningKey} {log : EventLog C}
    {entry : EventType × List UInt8 × Int64} {record : EventRecord} {bytes : List UInt8}
    (hsign : log.signRecord entry.1 entry.2.1 entry.2.2 = .ok (record, bytes))
    (hseq : log.nextSeq.toNat < maxRecordsPerRead) (file : List UInt8) :
    (eventFrames C signer).append log entry file =
      (.ok (), { log with lastHash := C.contentHash bytes, nextSeq := log.nextSeq + 1 },
        file ++ frame bytes) := by
  have hmax : maxRecordsPerRead = 100000 := rfl
  have hroom : ¬ log.nextSeq.toNat + 1 = 2 ^ 64 := by omega
  simp only [eventFrames, EventLog.append, hsign, if_neg hroom, frame, List.append_assoc]
  rfl

def eventSpec (hC : C.Lawful) (signer : C.SigningKey) : (eventFrames C signer).Spec where
  Own log := log.signer = signer
  Stands log records := log.nextSeq.toNat = records.length ∧ log.lastHash = endHash C records
  Good := EventGood C signer
  Fits records bytes := records.length + 1 < maxRecordsPerRead ∧ bytes.length ≤ maxRecordSize
  good_nil := eventGood_nil signer
  reopen_new flowId := ⟨⟨flowId, signer, 0, zeroHash⟩, rfl, rfl⟩
  read_short hgood _ htail := hgood.read hC htail
  reopen_short flowId _ _ hgood _ htail := hgood.reopen hC htail flowId
  reopen_torn flowId _ _ hgood _ _ _ _ hsign _ hfour hshort :=
    hgood.torn hC (EventLog.signRecord_ok hsign).2.2.2.2.2.2.2.2 hfour hshort flowId
  append_error hsign file := eventFrames_append_error hsign file
  append_ok hgood hown hstands _ _ _ hsign hfits := by
    refine ⟨hgood.append hC hown hstands.1 hstands.2 hsign hfits.1 hfits.2, ?_⟩
    have hseq := hstands.1
    have hcount := hfits.1
    intro file
    refine ⟨_, ?_, eventFrames_append_ok hsign (by omega) file⟩
    exact hown

end Relux
