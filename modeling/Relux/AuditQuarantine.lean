import Mathlib.Data.List.Perm.Subperm
import Relux.Audit
import Relux.Cbor
import Relux.EventCodec
import Relux.AuditFaults

/-! The records of an audit log in CBOR: a map from the field names, in the order of the
fields. -/

namespace Relux

open Cbor

namespace AuditCodec

def named {α : Type} (name : String) (c : Item α) : Item α := c.behind (asciiText name)

def timestamp : Item Int64 :=
  Item.integer.imap Int64.ofInt Int64.toInt (fun _ => Int64.ofInt_toInt _)

def u64 : Item UInt64 :=
  Item.integer.imap (fun n => UInt64.ofNat n.toNat) (fun n => (n.toNat : Int)) (fun n => by simp)

def u32 : Item UInt32 :=
  Item.integer.imap (fun n => UInt32.ofNat n.toNat) (fun n => (n.toNat : Int)) (fun n => by simp)

theorem array_not_null (n : Nat) (v : Vector UInt8 n) (rest : List UInt8)
    (_ : (Item.array n).fits v = true) :
    expect [0xf6] ((Item.array n).write v ++ rest) = none := by
  show expect [0xf6] (head 2 v.toList.length ++ v.toList ++ rest) = none
  rw [List.append_assoc]
  exact expect_null_head (by omega) _

theorem u32_not_null (n : UInt32) (rest : List UInt8) (_ : u32.fits n = true) :
    expect [0xf6] (u32.write n ++ rest) = none := by
  show expect [0xf6] (int (n.toNat : Int) ++ rest) = none
  exact expect_null_head (by omega) _

def optionalFlow : Item (Option FlowId) := (Item.array 16).option (array_not_null 16)

def optionalKind : Item (Option UInt32) := u32.option u32_not_null

def fields : Item UnsignedAudit :=
  ((named "ts" timestamp).pair <| (named "request_id" (Item.array 16)).pair <|
    (named "trace_id" (Item.array 16)).pair <| (named "caller_node_id" (Item.array 32)).pair <|
    (named "caller_name" Item.text).pair <| (named "caller_groups" Item.text.list).pair <|
    (named "responder_node_id" (Item.array 32)).pair <| (named "method" Item.text).pair <|
    (named "policy_decision" Item.text).pair <| (named "status" Item.text).pair <|
    (named "flow_id" optionalFlow).pair <| (named "error_kind" optionalKind).pair <|
    (named "latency_ms" u64).pair (named "prev_hash" (Item.array 32))).imap
    (fun (ts, requestId, traceId, callerNodeId, callerName, callerGroups, responderNodeId,
        method, policyDecision, status, flowId, errorKind, latencyMs, prevHash) =>
      ⟨ts, requestId, traceId, callerNodeId, callerName, callerGroups, responderNodeId, method,
        policyDecision, status, flowId, errorKind, latencyMs, prevHash⟩)
    (fun r => (r.ts, r.requestId, r.traceId, r.callerNodeId, r.callerName, r.callerGroups,
      r.responderNodeId, r.method, r.policyDecision, r.status, r.flowId, r.errorKind,
      r.latencyMs, r.prevHash))
    (fun _ => rfl)

def unsigned : Item UnsignedAudit := fields.behind (head 5 14)

def record : Item AuditRecord :=
  ((fields.pair (named "signature" (Item.array 64))).imap
    (fun (r, signature) => { r with signature := signature })
    (fun r => (r.toUnsignedAudit, r.signature)) (fun _ => rfl)).behind (head 5 15)

def encodeWith {α : Type} (c : Item α) (a : α) : Except CodecError (List UInt8) :=
  if c.fits a then .ok (c.write a) else .error (.encode "length")

def decodeWith {α : Type} (c : Item α) (bytes : List UInt8) : Except CodecError α :=
  match c.read bytes with
  | none => .error (.decode "record")
  | some (a, _) => .ok a

theorem encodeWith_ok {α : Type} (c : Item α) {a : α} (h : c.fits a = true) :
    encodeWith c a = .ok (c.write a) := if_pos h

theorem decodeWith_encodeWith {α : Type} (c : Item α) {a : α} {bytes : List UInt8}
    (h : encodeWith c a = .ok bytes) : decodeWith c bytes = .ok a := by
  by_cases hfits : c.fits a = true
  · have hread := c.read_write a [] hfits
    rw [List.append_nil] at hread
    rw [encodeWith_ok c hfits] at h
    cases h
    simp only [decodeWith, hread]
  · rw [encodeWith, if_neg hfits] at h
    cases h

def checksum (bytes : List UInt8) : UInt8 := bytes.foldl (· + ·) 0

/-- The log over this codec. A key seals a message with its checksum, which also stands
for the hash. -/
def sealed (key : EventSignature) (bytes : List UInt8) : EventSignature :=
  key.map (· + checksum bytes)

def crates : AuditCrates where
  SigningKey := EventSignature
  VerifyingKey := EventSignature
  verifyingKey := id
  toBytes key := key.toList
  sign := sealed
  verify key bytes signature := signature == sealed key bytes
  blake3 bytes := Vector.replicate 32 (checksum bytes)
  encodeUnsigned := encodeWith unsigned
  encode := encodeWith record
  decode := decodeWith record

theorem crates_encodeUnsigned (r : UnsignedAudit) (h : unsigned.fits r = true) :
    crates.encodeUnsigned r = .ok (unsigned.write r) := encodeWith_ok unsigned h

theorem crates_encode (r : AuditRecord) (h : record.fits r = true) :
    crates.encode r = .ok (record.write r) := encodeWith_ok record h

theorem crates_lawful : crates.Lawful where
  decode_encode _ _ h := decodeWith_encodeWith record h
  verify_sign key bytes := @beq_self_eq_true EventSignature _ _ (sealed key bytes)

end AuditCodec

end Relux

/-! When a log that does not verify is kept in its place. `open` moves it aside when its
first faulty record names another responder, and who the record names is read from the
record that does not verify. -/

namespace Relux

variable {A : AuditCrates}

namespace AuditLog

variable {dir : AuditDir} {name : String} {file : List UInt8}

theorem open_moved (hfile : dir.get? name = some file) {signer : A.SigningKey} {fault : AuditRecord}
    (hfault : FaultIn A (A.verifyingKey signer) file fault)
    (hother : fault.responderNodeId ≠ A.nodeId signer) (millis : Nat) :
    AuditLog.open dir name signer millis =
      (.ok ⟨signer, zeroHash, A.nodeId signer⟩,
        (quarantineAuditLog dir name file millis).insert name []) := by
  obtain ⟨reason, hverify⟩ :=
    (verifyAuditChain_integrity_iff (A.verifyingKey signer) file).mpr ⟨fault, hfault⟩
  have hfirst := (firstFaultResponder_some_iff (A.verifyingKey signer) file _).mpr
    ⟨fault, hfault, rfl⟩
  simp only [AuditLog.open, hfile, hverify, hfirst, if_pos hother]

theorem open_kept (hfile : dir.get? name = some file) {signer : A.SigningKey}
    (hown : ∀ fault, FaultIn A (A.verifyingKey signer) file fault →
      fault.responderNodeId = A.nodeId signer)
    {e : AuditError} (hverify : verifyAuditChain A file (A.verifyingKey signer) = .error e)
    (millis : Nat) : ∃ e', AuditLog.open dir name signer millis = (.error e', dir) := by
  by_cases hintegrity : ∃ reason, e = .integrity reason
  · obtain ⟨reason, rfl⟩ := hintegrity
    obtain ⟨fault, hfault⟩ :=
      (verifyAuditChain_integrity_iff (A.verifyingKey signer) file).mp ⟨reason, hverify⟩
    have hfirst := (firstFaultResponder_some_iff (A.verifyingKey signer) file _).mpr
      ⟨fault, hfault, rfl⟩
    refine ⟨.integrity reason, ?_⟩
    simp [AuditLog.open, hfile, hverify, hfirst, hown fault hfault]
  · refine ⟨e, ?_⟩
    cases e with
    | integrity reason => exact absurd ⟨reason, rfl⟩ hintegrity
    | _ => simp only [AuditLog.open, hfile, hverify]

theorem open_verified
    (hfile : dir.get? name = some file) {signer : A.SigningKey} {lastHash : ContentHash}
    (hverify : verifyAuditChain A file (A.verifyingKey signer) = .ok lastHash) (millis : Nat) :
    AuditLog.open dir name signer millis = (.ok ⟨signer, lastHash, A.nodeId signer⟩, dir) := by
  simp only [AuditLog.open, hfile, hverify]

end AuditLog

theorem read_nil_fault {key : A.VerifyingKey} {fault : AuditRecord} :
    ¬ FaultIn A key [] fault := by
  rintro ⟨records, hread, hfault⟩
  rw [readAuditRecords, readAuditLoop_short (show ([] : List UInt8).length < 4 by decide)] at hread
  cases hread
  cases hfault

/-- Whenever a log does not verify it is kept in its place with an error, exactly when the first
record at fault names the responder that opens it; in all other cases it is moved, whichever key its
records were written under. The two scans agree. -/
theorem tampering_kept_iff (A : AuditCrates) (dir : AuditDir) (name : String)
    (file : List UInt8) (signer : A.SigningKey) (millis : Nat) :
    (((∃ e, verifyAuditChain A file (A.verifyingKey signer) = .error e) →
        ∃ e, AuditLog.open (dir.insert name file) name signer millis =
          (.error e, dir.insert name file)) ↔
      ∀ fault, FaultIn A (A.verifyingKey signer) file fault →
        fault.responderNodeId = A.nodeId signer) ∧
    ((AuditLog.open (dir.insert name file) name signer millis).2 ≠ dir.insert name file ↔
      ∃ fault, FaultIn A (A.verifyingKey signer) file fault ∧
        fault.responderNodeId ≠ A.nodeId signer) ∧
    ((∃ claimed, firstFaultResponder A file (A.verifyingKey signer) = .ok (some claimed)) ↔
      ∃ reason, verifyAuditChain A file (A.verifyingKey signer) = .error (.integrity reason)) := by
  have hfile : (dir.insert name file).get? name = some file := by simp
  have hmoved : ∀ fault, FaultIn A (A.verifyingKey signer) file fault →
      fault.responderNodeId ≠ A.nodeId signer →
      (AuditLog.open (dir.insert name file) name signer millis).2 ≠ dir.insert name file := by
    intro fault hfault hother hsame
    rw [AuditLog.open_moved hfile hfault hother] at hsame
    have hget := congrArg (fun d : AuditDir => d.get? name) hsame
    have hempty : file = [] := by simpa using hget.symm
    rw [hempty] at hfault
    exact read_nil_fault hfault
  refine ⟨⟨?_, ?_⟩, ⟨?_, ?_⟩, ?_⟩
  · intro hkept fault hfault
    by_contra hother
    obtain ⟨reason, hverify⟩ :=
      (verifyAuditChain_integrity_iff (A.verifyingKey signer) file).mpr ⟨fault, hfault⟩
    obtain ⟨e, hopen⟩ := hkept ⟨_, hverify⟩
    have hstays := hmoved fault hfault hother
    rw [hopen] at hstays
    exact hstays rfl
  · rintro hown ⟨e, hverify⟩
    exact AuditLog.open_kept hfile hown hverify millis
  · intro hleft
    by_contra hnone
    have hown : ∀ fault, FaultIn A (A.verifyingKey signer) file fault →
        fault.responderNodeId = A.nodeId signer := by
      intro fault hfault
      by_contra hother
      exact hnone ⟨fault, hfault, hother⟩
    cases hverify : verifyAuditChain A file (A.verifyingKey signer) with
    | error e =>
      obtain ⟨e', hopen⟩ := AuditLog.open_kept hfile hown hverify millis
      rw [hopen] at hleft
      exact hleft rfl
    | ok lastHash =>
      rw [AuditLog.open_verified hfile hverify] at hleft
      exact hleft rfl
  · rintro ⟨fault, hfault, hother⟩
    exact hmoved fault hfault hother
  · rw [verifyAuditChain_integrity_iff]
    constructor
    · rintro ⟨claimed, hfirst⟩
      obtain ⟨fault, hfault, -⟩ := (firstFaultResponder_some_iff _ file claimed).mp hfirst
      exact ⟨fault, hfault⟩
    · rintro ⟨fault, hfault⟩
      exact ⟨_, (firstFaultResponder_some_iff _ file _).mpr ⟨fault, hfault, rfl⟩⟩

namespace AuditCodec

def sampleKey : EventSignature := Vector.replicate 64 7

def sampleLog : AuditLog crates := ⟨sampleKey, zeroHash, crates.nodeId sampleKey⟩

def sampleDraft : AuditDraft where
  requestId := Vector.replicate 16 1
  traceId := Vector.replicate 16 2
  callerNodeId := Vector.replicate 32 3
  callerName := "alice"
  callerGroups := ["chat-users"]
  method := "ai.chat"
  flowId := none

def sampleOutcome : AuditLog.Outcome where
  policyDecision := "allow:x"
  status := .ok
  errorKind := none
  ts := 1700000000
  elapsedMs := 5

def sampleUnsigned : UnsignedAudit := sampleLog.unsigned sampleDraft sampleOutcome

def sampleRecord : AuditRecord :=
  { sampleUnsigned with signature := sealed sampleKey (unsigned.write sampleUnsigned) }

def forgedRecord : AuditRecord := { sampleRecord with responderNodeId := Vector.replicate 32 1 }

/-- What is evaluated of the two records: they fit their encodings and a frame, and the changed
one is not what was signed. -/
theorem sample_fits :
    (unsigned.fits sampleUnsigned = true ∧ record.fits sampleRecord = true ∧
      (record.write sampleRecord).length < 2 ^ 32) ∧
    (unsigned.fits forgedRecord.toUnsignedAudit = true ∧ record.fits forgedRecord = true ∧
      (record.write forgedRecord).length < 2 ^ 32) ∧
    (forgedRecord.signature ==
      sealed sampleKey (unsigned.write forgedRecord.toUnsignedAudit)) = false ∧
    forgedRecord.responderNodeId ≠ crates.nodeId sampleKey := by
  decide +kernel

theorem sampleRecord_signed :
    sampleLog.signRecord sampleDraft sampleOutcome =
      .ok (sampleRecord, record.write sampleRecord) := by
  obtain ⟨⟨hunsigned, hrecord, hlen⟩, -⟩ := sample_fits
  exact AuditLog.signRecord_ok (crates_encodeUnsigned sampleUnsigned hunsigned)
    ⟨crates_encode sampleRecord hrecord, hlen⟩

theorem forgedRecord_fault :
    FaultIn crates sampleKey (frame (record.write forgedRecord)) forgedRecord := by
  obtain ⟨-, ⟨hunsigned, hrecord, hlen⟩, hforged, -⟩ := sample_fits
  refine ⟨[forgedRecord], ?_, ?_⟩
  · have hread := readAuditLoop_frame crates_lawful ⟨crates_encode forgedRecord hrecord, hlen⟩ [] []
    rw [List.append_nil] at hread
    rw [readAuditRecords, hread, readAuditLoop_short (by decide), List.nil_append]
  · apply FirstFault.here
    right
    exact ⟨_, crates_encodeUnsigned forgedRecord.toUnsignedAudit hunsigned, hforged⟩

end AuditCodec

open AuditCodec in
/-- A log with one record of the responder, whose `responder_node_id` is then changed: the
file does not verify, and opening it returns a log and takes the file from its place. -/
theorem forged_responder_moved :
    (sampleLog.finalize sampleDraft sampleOutcome []).1 = .ok () ∧
      (sampleLog.finalize sampleDraft sampleOutcome []).2.2 = frame (record.write sampleRecord) ∧
      (∃ reason, verifyAuditChain crates (frame (record.write forgedRecord)) sampleKey =
        .error (.integrity reason)) ∧
      ∃ log dir,
        @AuditLog.open crates
            (HashMap.empty.insert "audit.log" (frame (record.write forgedRecord)))
            "audit.log" sampleKey 0 = (.ok log, dir) ∧
          dir.get? "audit.log" = some [] := by
  have hfault := forgedRecord_fault
  have hother := sample_fits.2.2.2
  have hfile : (HashMap.empty.insert "audit.log" (frame (record.write forgedRecord))).get?
      "audit.log" = some (frame (record.write forgedRecord)) := by simp
  have hverify := (verifyAuditChain_integrity_iff (A := crates) sampleKey
    (frame (record.write forgedRecord))).mpr ⟨forgedRecord, hfault⟩
  have hopen := @AuditLog.open_moved crates _ _ _ hfile sampleKey _ hfault hother 0
  refine ⟨?_, ?_, hverify, _, _, hopen, by simp⟩
  · simp only [AuditLog.finalize, sampleRecord_signed]
  · simp only [AuditLog.finalize, sampleRecord_signed, frame, List.nil_append]

end Relux
