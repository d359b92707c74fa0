import Mathlib.Data.List.Forall2
import Relux.AuditFaults
import Relux.FrameLog
import Relux.AuditQuarantine
import Relux.EventFrames

/-! The audit log of a responder as a log of framed records. -/

variable {bytes : List UInt8}

namespace Relux

variable {A : AuditCrates}

def auditEndHash (A : AuditCrates) (records : List AuditRecord) : ContentHash :=
  match records.getLast? with
  | none => zeroHash
  | some r =>
    match A.encode r with
    | .error _ => zeroHash
    | .ok bytes => A.blake3 bytes

theorem verifyAuditRecord_ok {key : A.VerifyingKey} {lastHash next : ContentHash}
    {r : AuditRecord} (h : verifyAuditRecord A key lastHash r = .ok next) :
    A.Follows key lastHash r next := by
  rcases record_cases key lastHash r with ⟨-, ⟨reason, hverify⟩, -⟩ | ⟨e, -, -, hverify, -⟩ |
    ⟨next', hfollows, hverify, -⟩
  · rw [hverify] at h
    cases h
  · rw [hverify] at h
    cases h
  · rw [hverify] at h
    cases h
    exact hfollows

variable {records : List AuditRecord}

theorem verifyAuditRecords_end {key : A.VerifyingKey} {lastHash : ContentHash}
    (h : verifyAuditRecords A key records = .ok lastHash) : lastHash = auditEndHash A records := by
  cases records using List.reverseRecOn with
  | nil =>
    cases h
    rfl
  | append_singleton records r =>
    obtain ⟨before, -, hlast⟩ := Transition.foldlM_concat_ok.mp h
    obtain ⟨-, -, bytes, henc, hnext⟩ := verifyAuditRecord_ok hlast
    simp only [auditEndHash, List.getLast?_concat, henc, hnext]

theorem readAuditLoop_torn (hlen : bytes.length < 2 ^ 32) {n : Nat} (hfour : 4 ≤ n)
    (hshort : n < (frame bytes).length) (out : List AuditRecord) :
    ∃ text, readAuditLoop A out ((frame bytes).take n) = .error (.tornWrite text) := by
  obtain ⟨hlong, hhead, hrest⟩ := torn_frame hlen hfour hshort
  rw [readAuditLoop]
  simp only [hlong, hhead, hrest, if_true, if_false]
  exact ⟨_, rfl⟩

def auditFrames (A : AuditCrates) (name : String) (signer : A.SigningKey) : FrameLog where
  Handle := AuditLog A
  Record := AuditRecord
  Error := AuditError
  Key := Nat
  Entry := AuditDraft × AuditLog.Outcome
  reopen millis file :=
    let dir := file.elim HashMap.empty (HashMap.empty.insert name)
    match AuditLog.open dir name signer millis with
    | (.error e, _) => .refused e
    | (.ok log, dir') =>
      let after := (dir'.get? name).getD []
      if after = file.getD [] then .opened log after else .replaced log after
  sign log entry := log.signRecord entry.1 entry.2
  append log entry file := log.finalize entry.1 entry.2 file
  read := readAuditRecords A

def AuditGood (A : AuditCrates) (signer : A.SigningKey) (records : List AuditRecord)
    (encs : List (List UInt8)) : Prop :=
  List.Forall₂ A.Encoded records encs ∧
    ∃ lastHash, verifyAuditRecords A (A.verifyingKey signer) records = .ok lastHash

theorem AuditGood.read (hA : A.Lawful) {signer : A.SigningKey} {records : List AuditRecord}
    {encs : List (List UInt8)} (h : AuditGood A signer records encs) {tail : List UInt8}
    (htail : tail.length < 4) : readAuditRecords A (frames encs ++ tail) = .ok records := by
  rw [readAuditRecords, readAuditLoop_frames hA h.1, readAuditLoop_short htail, List.nil_append]

theorem AuditGood.reopen (hA : A.Lawful) {name : String} {signer : A.SigningKey}
    {encs : List (List UInt8)} (h : AuditGood A signer records encs) {tail : List UInt8}
    (htail : tail.length < 4) (millis : Nat) :
    ∃ log : AuditLog A, (log.signer = signer ∧ log.responderNodeId = A.nodeId signer) ∧
      (auditFrames A name signer).reopen millis (some (frames encs ++ tail)) =
        .opened log (frames encs ++ tail) := by
  obtain ⟨lastHash, hverify⟩ := h.2
  have hchain : verifyAuditChain A (frames encs ++ tail) (A.verifyingKey signer) =
      .ok lastHash := by
    simp only [verifyAuditChain, h.read hA htail, Except.bind, hverify]
  refine ⟨⟨signer, lastHash, A.nodeId signer⟩, ⟨rfl, rfl⟩, ?_⟩
  simp [auditFrames, AuditLog.open, hchain]

theorem AuditGood.torn (hA : A.Lawful) {name : String} {signer : A.SigningKey}
    {encs : List (List UInt8)} (h : AuditGood A signer records encs) (hlen : bytes.length < 2 ^ 32)
    {n : Nat} (hfour : 4 ≤ n) (hshort : n < (frame bytes).length) (millis : Nat) :
    ∃ e, (auditFrames A name signer).reopen millis
      (some (frames encs ++ (frame bytes).take n)) = .refused e := by
  have hread := readAuditLoop_frames hA h.1 [] ((frame bytes).take n)
  obtain ⟨text, herror⟩ := readAuditLoop_torn (A := A) hlen hfour hshort ([] ++ records)
  rw [herror] at hread
  have hchain : verifyAuditChain A (frames encs ++ (frame bytes).take n)
      (A.verifyingKey signer) = .error (.tornWrite text) := by
    simp only [verifyAuditChain, readAuditRecords, hread, Except.bind]
  refine ⟨.tornWrite text, ?_⟩
  simp [auditFrames, AuditLog.open, hchain]

variable {outcome : AuditLog.Outcome} {draft : AuditDraft} {log : AuditLog A}

theorem signed_of_signRecord {record : AuditRecord}
    (h : log.signRecord draft outcome = .ok (record, bytes)) :
    record.toUnsignedAudit = log.unsigned draft outcome ∧
      (∃ toSign, A.encodeUnsigned record.toUnsignedAudit = .ok toSign ∧
        record.signature = A.sign log.signer toSign) ∧ A.Encoded record bytes := by
  unfold AuditLog.signRecord at h
  cases hun : A.encodeUnsigned (log.unsigned draft outcome) with
  | error e => simp [hun] at h
  | ok toSign =>
    simp only [hun] at h
    cases henc : A.encode
        { log.unsigned draft outcome with signature := A.sign log.signer toSign } with
    | error e => simp [henc] at h
    | ok bytes' =>
      simp only [henc] at h
      by_cases hlen : 2 ^ 32 - 1 < bytes'.length
      · rw [if_pos hlen] at h
        cases h
      · rw [if_neg hlen] at h
        cases h
        exact ⟨rfl, ⟨toSign, hun, rfl⟩, henc, by omega⟩

theorem AuditGood.append (hA : A.Lawful) {signer : A.SigningKey} {records : List AuditRecord}
    {encs : List (List UInt8)} (h : AuditGood A signer records encs) {log : AuditLog A}
    (hsigner : log.signer = signer) (hhash : log.lastHash = auditEndHash A records)
    {draft : AuditDraft} {outcome : AuditLog.Outcome} {record : AuditRecord} {bytes : List UInt8}
    (hsign : log.signRecord draft outcome = .ok (record, bytes)) :
    AuditGood A signer (records ++ [record]) (encs ++ [bytes]) := by
  obtain ⟨lastHash, hverify⟩ := h.2
  obtain ⟨hunsigned, ⟨toSign, hun, hsig⟩, henc⟩ := signed_of_signRecord hsign
  have hprev : record.prevHash = lastHash := by
    rw [hunsigned, verifyAuditRecords_end hverify, ← hhash]
    rfl
  have hvalid : A.verify (A.verifyingKey signer) toSign record.signature = true := by
    rw [hsig, ← hsigner]
    exact hA.verify_sign log.signer toSign
  refine ⟨List.rel_append h.1 (List.Forall₂.cons henc List.Forall₂.nil), A.blake3 bytes,
    Transition.foldlM_concat_ok.mpr ⟨_, hverify, ?_⟩⟩
  simp [verifyAuditRecord, hprev, hun, hvalid, henc.1]

theorem finalize_error {e : AuditError} (h : log.signRecord draft outcome = .error e)
    (file : List UInt8) : log.finalize draft outcome file = (.error e, log, file) := by
  simp only [AuditLog.finalize, h]

theorem finalize_ok {record : AuditRecord} (h : log.signRecord draft outcome = .ok (record, bytes))
    (file : List UInt8) :
    log.finalize draft outcome file =
      (.ok (), { log with lastHash := A.blake3 bytes }, file ++ frame bytes) := by
  simp only [AuditLog.finalize, h, frame, List.append_assoc]

def auditSpec (hA : A.Lawful) (name : String) (signer : A.SigningKey) :
    (auditFrames A name signer).Spec where
  Own log := log.signer = signer ∧ log.responderNodeId = A.nodeId signer
  Stands log records := log.lastHash = auditEndHash A records
  Good := AuditGood A signer
  Fits _ _ := True
  good_nil := ⟨List.Forall₂.nil, zeroHash, rfl⟩
  reopen_new _ := by
    refine ⟨⟨signer, zeroHash, A.nodeId signer⟩, ⟨rfl, rfl⟩, ?_⟩
    simp [auditFrames, AuditLog.open]
  read_short hgood _ htail := hgood.read hA htail
  reopen_short millis _ _ hgood _ htail := hgood.reopen hA htail millis
  reopen_torn millis _ _ hgood _ _ _ _ hsign _ hfour hshort :=
    hgood.torn hA (signed_of_signRecord hsign).2.2.2 hfour hshort millis
  append_error hsign file := finalize_error hsign file
  append_ok hgood hown hstands _ _ _ hsign _ := by
    refine ⟨hgood.append hA hown.1 hstands hsign, ?_⟩
    intro file
    refine ⟨_, ?_, finalize_ok hsign file⟩
    exact hown

end Relux

/-! Appends that are cut off, by a crash or by an error of the file system, in the event log
and in the audit log. Both take less than a length at the end of the file for its end. -/

namespace Relux

open Transition

/-- In every run of an event log and of an audit log in which an append, cut off anywhere or not,
goes through a handle at the end of a file with nothing torn behind its records and within the
reader's limits, every open is refused, which takes a torn file, or reads the file back whole. -/
theorem torn_writes_detected {C : LogCrates} (hC : C.Lawful) {A : AuditCrates} (hA : A.Lawful)
    (signer : C.SigningKey) (name : String) (responder : A.SigningKey) :
    (∀ calls, Guarded FrameSession.exec (FrameSession.Meets (eventSpec hC signer))
        FrameSession.fresh calls →
      (run FrameSession.exec (FrameSession.fresh : FrameSession (eventFrames C signer))
        calls).Detected) ∧
    ∀ calls, Guarded FrameSession.exec (FrameSession.Meets (auditSpec hA name responder))
        FrameSession.fresh calls →
      (run FrameSession.exec (FrameSession.fresh : FrameSession (auditFrames A name responder))
        calls).Detected := by
  refine ⟨?_, ?_⟩
  · intro calls hmeets
    exact FrameSession.detected_of_meets (eventSpec hC signer) hmeets
  · intro calls hmeets
    exact FrameSession.detected_of_meets (auditSpec hA name responder) hmeets

def tornKey : cborCrates.SigningKey := (Vector.replicate 64 7 : EventSignature)

def tornFlow : FlowId := Vector.replicate 16 1

def tornEntry : EventType × List UInt8 × Int64 := (.flowStarted, [97], 0)

def tornLog : EventLog cborCrates := ⟨tornFlow, tornKey, 0, zeroHash⟩

theorem tornLog_signs :
    ∃ record bytes, (eventFrames cborCrates tornKey).sign tornLog tornEntry =
        .ok (record, bytes) ∧ bytes.length ≤ 401 := by
  obtain ⟨record, bytes, hsign, -, hlen⟩ := cborCrates_signRecord tornLog .flowStarted 0
    (show [(97 : UInt8)].length + 400 < 2 ^ 32 by decide)
  refine ⟨record, bytes, ?_, ?_⟩
  · rw [eventFrames_sign]
    exact hsign
  · simpa using hlen

/-- The first append of a log is cut off behind its length. -/
theorem torn_writes_detected_first_append :
    (run FrameSession.exec
      (FrameSession.fresh : FrameSession (eventFrames cborCrates tornKey))
      [.open tornFlow, .cut 0 tornEntry 4]).Detected ∧
    (run FrameSession.exec
      (FrameSession.fresh : FrameSession (auditFrames AuditCodec.crates "audit.log"
        AuditCodec.sampleKey))
      [.open (0 : Nat), .cut 0 (AuditCodec.sampleDraft, AuditCodec.sampleOutcome) 4]).Detected := by
  have hall := torn_writes_detected cborCrates_lawful AuditCodec.crates_lawful tornKey
    "audit.log" AuditCodec.sampleKey
  refine ⟨hall.1 _ ⟨trivial, Or.inr ?_, trivial⟩, hall.2 _ ⟨trivial, Or.inr ?_, trivial⟩⟩
  · intro log hlog
    cases hlog
    obtain ⟨record, bytes, hsign, hlen⟩ := tornLog_signs
    refine ⟨rfl, ⟨rfl, rfl⟩, ?_⟩
    intro record' bytes' hsign'
    have hsame := hsign.symm.trans hsign'
    cases hsame
    refine ⟨?_, ?_⟩
    · show 0 + 1 < maxRecordsPerRead
      decide
    · apply hlen.trans
      decide
  · intro log hlog
    have hfirst : log = AuditCodec.sampleLog := by
      cases hlog
      rfl
    rw [hfirst]
    exact ⟨rfl, rfl, fun _ _ _ => trivial⟩

theorem readCborRecord_short (h : bytes.length ≤ 1) :
    readCborRecord bytes = .error (.decode "record") := by
  cases bytes with
  | nil => rfl
  | cons b rest =>
    have hrest : rest = [] := by
      apply List.eq_nil_of_length_eq_zero
      simp only [List.length_cons] at h
      omega
    subst hrest
    by_cases hb : b = 0xa7
    · subst hb
      rfl
    · have hhead : Cbor.expect (Cbor.head 5 7) [b] = none := by
        have hne : (0xa7 : UInt8) ≠ b := Ne.symm hb
        show Cbor.expect [0xa7] [b] = none
        simp [Cbor.expect, hne]
      simp [readCborRecord, hhead]

theorem beBytes_four (n : Nat) : beBytes 4 n = [UInt8.ofNat (n / 256 / 256 / 256),
    UInt8.ofNat (n / 256 / 256), UInt8.ofNat (n / 256), UInt8.ofNat n] := rfl

theorem readRecords_shifted (h : bytes.length ≤ 401) :
    readRecords cborCrates (0 :: frame bytes) =
      .error (.decode ("record 0: " ++ (CodecError.decode "record").toString)) := by
  have hhigh : bytes.length / 256 / 256 / 256 = 0 := by omega
  have hnext : bytes.length / 256 / 256 = 0 := by omega
  have hfile : 0 :: frame bytes =
      [0, 0, 0, UInt8.ofNat (bytes.length / 256)] ++ (UInt8.ofNat bytes.length :: bytes) := by
    rw [frame, beBytes_four, hhigh, hnext]
    rfl
  have hlen : ofBeBytes [0, 0, 0, UInt8.ofNat (bytes.length / 256)] = bytes.length / 256 := by
    have hlow : (UInt8.ofNat (bytes.length / 256)).toNat = bytes.length / 256 := by
      rw [UInt8.toNat_ofNat']
      omega
    simp [ofBeBytes, hlow]
  have hsize : ¬ maxRecordSize < bytes.length / 256 := by
    have hmax : maxRecordSize = 10 * 1024 * 1024 := rfl
    omega
  have hrest : ¬ (UInt8.ofNat bytes.length :: bytes).length < bytes.length / 256 := by
    simp only [List.length_cons]
    omega
  have hshort : ((UInt8.ofNat bytes.length :: bytes).take (bytes.length / 256)).length ≤ 1 := by
    rw [List.length_take]
    omega
  have hdec := readCborRecord_short hshort
  have hfour : ¬ ([0, 0, 0, UInt8.ofNat (bytes.length / 256)] ++
      (UInt8.ofNat bytes.length :: bytes)).length < 4 := by
    simp only [List.length_append, List.length_cons, List.length_nil]
    omega
  have hcount : ¬ maxRecordsPerRead ≤ ([] : List EventRecord).length := by decide
  have htake : ([0, 0, 0, UInt8.ofNat (bytes.length / 256)] ++
      (UInt8.ofNat bytes.length :: bytes)).take 4 =
        [0, 0, 0, UInt8.ofNat (bytes.length / 256)] := rfl
  have hdrop : ([0, 0, 0, UInt8.ofNat (bytes.length / 256)] ++
      (UInt8.ofNat bytes.length :: bytes)).drop 4 = UInt8.ofNat bytes.length :: bytes := rfl
  have hdecode : cborCrates.decode
      ((UInt8.ofNat bytes.length :: bytes).take (bytes.length / 256)) =
        .error (.decode "record") := hdec
  rw [readRecords, hfile, readLoop]
  simp only [hcount, hfour, htake, hdrop, hlen, hsize, hrest, hdecode, if_false]
  rfl

theorem tornLog_reopens :
    EventLog.open (C := cborCrates) (some [0]) tornFlow tornKey = .ok (tornLog, [0]) := by
  have hread : readRecords cborCrates [0] = .ok [] := by
    rw [readRecords, readLoop]
    rfl
  have hchain : verifyChain cborCrates [0] (cborCrates.verifyingKey tornKey) =
      .ok (0, zeroHash) := by
    rw [verifyChain, hread]
    rfl
  simp only [EventLog.open, hchain]
  rfl

def tornSession (file : List UInt8) (handles : List (EventLog cborCrates)) (torn : Bool) :
    FrameSession (eventFrames cborCrates tornKey) :=
  ⟨some file, handles, [], [], torn⟩

theorem torn_cut :
    run FrameSession.exec
        (FrameSession.fresh : FrameSession (eventFrames cborCrates tornKey))
        [.open tornFlow, .cut 0 tornEntry 1] = tornSession [0] [tornLog] true := by
  obtain ⟨record, bytes, hsign, hlen⟩ := tornLog_signs
  have hopen : FrameSession.exec (FrameSession.fresh : FrameSession (eventFrames cborCrates tornKey))
      (.open tornFlow) = tornSession [] [tornLog] false := rfl
  have hhandle : (tornSession [] [tornLog] false).handles[0]? = some tornLog := rfl
  have hcut := FrameSession.exec_cut hhandle hsign 1
  have hall := length_frame bytes
  have hshort : 1 < (frame bytes).length := by omega
  have hflag : decide (0 < 1 ∧ 1 < (frame bytes).length) = true := by simp [hshort]
  have hbyte : (frame bytes).take 1 = [0] := by
    have hhigh : bytes.length / 256 / 256 / 256 = 0 := by omega
    rw [frame, beBytes_four, hhigh]
    rfl
  rw [run_cons, hopen, run_cons, run_nil, hcut, hbyte, if_pos hshort, hflag]
  rfl

/-- The first append stops behind one byte of the length. The log opens again, as an empty
one, and the append that then returns makes it unreadable. -/
theorem short_tail_unreadable :
    (run FrameSession.exec
        (FrameSession.fresh : FrameSession (eventFrames cborCrates tornKey))
        [.open tornFlow, .cut 0 tornEntry 1]).file = some [0] ∧
      EventLog.open (C := cborCrates) (some [0]) tornFlow tornKey = .ok (tornLog, [0]) ∧
      ∃ record bytes e,
        (run FrameSession.exec
            (FrameSession.fresh : FrameSession (eventFrames cborCrates tornKey))
            [.open tornFlow, .cut 0 tornEntry 1, .open tornFlow,
              .append 1 tornEntry]).appended = [record] ∧
        (run FrameSession.exec
            (FrameSession.fresh : FrameSession (eventFrames cborCrates tornKey))
            [.open tornFlow, .cut 0 tornEntry 1, .open tornFlow,
              .append 1 tornEntry]).file = some (0 :: frame bytes) ∧
        readRecords cborCrates (0 :: frame bytes) = .error e := by
  obtain ⟨record, bytes, hsign, hlen⟩ := tornLog_signs
  have hrun : run FrameSession.exec
      (FrameSession.fresh : FrameSession (eventFrames cborCrates tornKey))
      [.open tornFlow, .cut 0 tornEntry 1, .open tornFlow, .append 1 tornEntry] =
        run FrameSession.exec (tornSession [0] [tornLog] true)
          [.open tornFlow, .append 1 tornEntry] := by
    have hsplit := run_append FrameSession.exec
      (FrameSession.fresh : FrameSession (eventFrames cborCrates tornKey))
      [.open tornFlow, .cut 0 tornEntry 1] [.open tornFlow, .append 1 tornEntry]
    rwa [torn_cut] at hsplit
  have hreopen : (eventFrames cborCrates tornKey).reopen tornFlow
      (tornSession [0] [tornLog] true).file = .opened tornLog [0] :=
    eventFrames_reopen tornLog_reopens
  have hopen : (tornSession [0] [tornLog] true).exec (.open tornFlow) =
      tornSession [0] [tornLog, tornLog] true := FrameSession.exec_opened hreopen
  have hhandle : (tornSession [0] [tornLog, tornLog] true).handles[1]? = some tornLog := rfl
  have hroom : tornLog.nextSeq.toNat < maxRecordsPerRead := by decide
  have hsign' := hsign
  rw [eventFrames_sign] at hsign'
  have happend := @eventFrames_append_ok cborCrates tornKey tornLog tornEntry record bytes
    hsign' hroom ((tornSession [0] [tornLog, tornLog] true).file.getD [])
  have hlast := FrameSession.exec_append_ok hhandle hsign happend
  rw [torn_cut, hrun, run_cons, run_cons, run_nil, hopen, hlast]
  refine ⟨rfl, tornLog_reopens, record, bytes, _, ?_, ?_, readRecords_shifted hlen⟩
  · rfl
  · rfl

end Relux
