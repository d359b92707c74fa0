import Mathlib.Data.List.Forall2
import Relux.Admission.Token
import Relux.EventLog

/-! The audit log of a responder: one signed record for each call, chained by hash, in one
file. A log of another key is moved aside when it is opened. -/

namespace Relux

open Admission (hexEncode)

abbrev NodeId := Vector UInt8 32
abbrev RequestId := Vector UInt8 16
abbrev TraceId := Vector UInt8 16

structure UnsignedAudit where
  ts : Int64
  requestId : RequestId
  traceId : TraceId
  callerNodeId : NodeId
  callerName : String
  callerGroups : List String
  responderNodeId : NodeId
  method : String
  policyDecision : String
  status : String
  flowId : Option FlowId
  errorKind : Option UInt32
  latencyMs : UInt64
  prevHash : ContentHash
  deriving DecidableEq

structure AuditRecord extends UnsignedAudit where
  signature : EventSignature
  deriving DecidableEq

structure AuditDraft where
  requestId : RequestId
  traceId : TraceId
  callerNodeId : NodeId
  callerName : String
  callerGroups : List String
  method : String
  flowId : Option FlowId

inductive AuditStatus
  | ok
  | denied
  | error
  deriving DecidableEq, Repr

def AuditStatus.text : AuditStatus → String
  | .ok => "ok"
  | .denied => "denied"
  | .error => "error"

inductive AuditError
  | io (text : String)
  | codec (e : CodecError)
  | tooLarge
  | tornWrite (text : String)
  | decode (text : String)
  | integrity (text : String)
  deriving DecidableEq, Repr

structure AuditCrates where
  SigningKey : Type
  VerifyingKey : Type
  verifyingKey : SigningKey → VerifyingKey
  toBytes : VerifyingKey → List UInt8
  sign : SigningKey → List UInt8 → EventSignature
  verify : VerifyingKey → List UInt8 → EventSignature → Bool
  blake3 : List UInt8 → ContentHash
  encodeUnsigned : UnsignedAudit → Except CodecError (List UInt8)
  encode : AuditRecord → Except CodecError (List UInt8)
  decode : List UInt8 → Except CodecError AuditRecord

structure AuditCrates.Lawful (A : AuditCrates) : Prop where
  decode_encode : ∀ r bytes, A.encode r = .ok bytes → A.decode bytes = .ok r
  verify_sign : ∀ key bytes, A.verify (A.verifyingKey key) bytes (A.sign key bytes) = true

variable (A : AuditCrates)

/-- `NodeId::from_pubkey` of a key. -/
def AuditCrates.nodeId (signer : A.SigningKey) : NodeId :=
  A.blake3 (A.toBytes (A.verifyingKey signer))

/-- The loop of `read_audit_records`, which has no limit. -/
def readAuditLoop (out : List AuditRecord) (reader : List UInt8) :
    Except AuditError (List AuditRecord) :=
  if reader.length < 4 then .ok out
  else
    let len := ofBeBytes (reader.take 4)
    let rest := reader.drop 4
    if rest.length < len then
      .error (.tornWrite s!"at record {out.length}: failed to fill whole buffer")
    else
      match A.decode (rest.take len) with
      | .error e => .error (.decode s!"record {out.length}: {e.toString}")
      | .ok rec => readAuditLoop (out ++ [rec]) (rest.drop len)
  termination_by reader.length
  decreasing_by
    simp only [List.length_drop]
    omega

def readAuditRecords (file : List UInt8) : Except AuditError (List AuditRecord) :=
  readAuditLoop A [] file

/-- One record of `verify_audit_chain`, from the hash it should carry. -/
def verifyAuditRecord (key : A.VerifyingKey) (lastHash : ContentHash) (rec : AuditRecord) :
    Except AuditError ContentHash :=
  if rec.prevHash ≠ lastHash then
    .error (.integrity ("chain break at request_id " ++ hexEncode rec.requestId.toList))
  else
    match A.encodeUnsigned rec.toUnsignedAudit with
    | .error e => .error (.codec e)
    | .ok toVerify =>
      if A.verify key toVerify rec.signature then
        match A.encode rec with
        | .error e => .error (.codec e)
        | .ok bytes => .ok (A.blake3 bytes)
      else .error (.integrity ("bad signature for " ++ hexEncode rec.requestId.toList))

def verifyAuditRecords (key : A.VerifyingKey) (records : List AuditRecord) :
    Except AuditError ContentHash :=
  records.foldlM (verifyAuditRecord A key) zeroHash

def verifyAuditChain (file : List UInt8) (key : A.VerifyingKey) :
    Except AuditError ContentHash :=
  (readAuditRecords A file).bind (verifyAuditRecords A key)

/-- The loop of `first_fault_responder`. -/
def firstFaultLoop (key : A.VerifyingKey) (lastHash : ContentHash) :
    List AuditRecord → Except AuditError (Option NodeId)
  | [] => .ok none
  | rec :: rest =>
    if rec.prevHash ≠ lastHash then .ok (some rec.responderNodeId)
    else
      match A.encodeUnsigned rec.toUnsignedAudit with
      | .error e => .error (.codec e)
      | .ok toVerify =>
        if A.verify key toVerify rec.signature then
          match A.encode rec with
          | .error e => .error (.codec e)
          | .ok bytes => firstFaultLoop key (A.blake3 bytes) rest
        else .ok (some rec.responderNodeId)

def firstFaultResponder (file : List UInt8) (key : A.VerifyingKey) :
    Except AuditError (Option NodeId) :=
  (readAuditRecords A file).bind (firstFaultLoop A key zeroHash)

abbrev AuditDir := HashMap String (List UInt8)

/-- The names `quarantine_audit_log` tries, in turn. -/
def quarantineName (name : String) (millis : Nat) : Nat → String
  | 0 => s!"{name}.quarantined-{millis}"
  | n + 1 => s!"{name}.quarantined-{millis}" ++ "-" ++ Nat.repr (n + 1)

/-- The loop over them. A directory of `fuel` files takes at most as many names. -/
def quarantineLoop (dir : AuditDir) (name : String) (millis : Nat) : Nat → Nat → String
  | 0, n => quarantineName name millis n
  | fuel + 1, n =>
    match dir.get? (quarantineName name millis n) with
    | some _ => quarantineLoop dir name millis fuel (n + 1)
    | none => quarantineName name millis n

def quarantineAuditLog (dir : AuditDir) (name : String) (file : List UInt8) (millis : Nat) :
    AuditDir :=
  (dir.remove name).insert (quarantineLoop dir name millis dir.entries.length 0) file

structure AuditLog where
  signer : A.SigningKey
  lastHash : ContentHash
  responderNodeId : NodeId

namespace AuditLog

variable {A}

/-- `AuditLog::open` at the time `millis`: what it returns, and the directory. -/
def «open» (dir : AuditDir) (name : String) (signer : A.SigningKey) (millis : Nat) :
    Except AuditError (AuditLog A) × AuditDir :=
  let responderNodeId := A.nodeId signer
  match dir.get? name with
  | none => (.ok ⟨signer, zeroHash, responderNodeId⟩, dir.insert name [])
  | some file =>
    match verifyAuditChain A file (A.verifyingKey signer) with
    | .ok lastHash => (.ok ⟨signer, lastHash, responderNodeId⟩, dir)
    | .error (.integrity reason) =>
      match firstFaultResponder A file (A.verifyingKey signer) with
      | .error e => (.error e, dir)
      | .ok none => (.error (.integrity reason), dir)
      | .ok (some claimed) =>
        if claimed ≠ responderNodeId then
          (.ok ⟨signer, zeroHash, responderNodeId⟩,
            (quarantineAuditLog dir name file millis).insert name [])
        else (.error (.integrity reason), dir)
    | .error e => (.error e, dir)

/-- What `finalize` is given, and the two clocks it reads. -/
structure Outcome where
  policyDecision : String
  status : AuditStatus
  errorKind : Option UInt32
  ts : Int64
  elapsedMs : Nat

def unsigned (log : AuditLog A) (draft : AuditDraft) (outcome : Outcome) : UnsignedAudit where
  ts := outcome.ts
  requestId := draft.requestId
  traceId := draft.traceId
  callerNodeId := draft.callerNodeId
  callerName := draft.callerName
  callerGroups := draft.callerGroups
  responderNodeId := log.responderNodeId
  method := draft.method
  policyDecision := outcome.policyDecision
  status := outcome.status.text
  flowId := draft.flowId
  errorKind := outcome.errorKind
  latencyMs := UInt64.ofNat (min outcome.elapsedMs (UInt64.size - 1))
  prevHash := log.lastHash

/-- The record `finalize` would write, and its encoding. -/
def signRecord (log : AuditLog A) (draft : AuditDraft) (outcome : Outcome) :
    Except AuditError (AuditRecord × List UInt8) :=
  match A.encodeUnsigned (log.unsigned draft outcome) with
  | .error e => .error (.codec e)
  | .ok toSign =>
    let record : AuditRecord :=
      { log.unsigned draft outcome with signature := A.sign log.signer toSign }
    match A.encode record with
    | .error e => .error (.codec e)
    | .ok bytes =>
      if 2 ^ 32 - 1 < bytes.length then .error .tooLarge else .ok (record, bytes)

/-- `AuditLog::finalize`: what it returns, the log and the file. -/
def finalize (log : AuditLog A) (draft : AuditDraft) (outcome : Outcome) (file : List UInt8) :
    Except AuditError Unit × AuditLog A × List UInt8 :=
  match log.signRecord draft outcome with
  | .error e => (.error e, log, file)
  | .ok (_, bytes) =>
    (.ok (), { log with lastHash := A.blake3 bytes }, file ++ beBytes 4 bytes.length ++ bytes)

end AuditLog

section Reading

variable {A}

def AuditCrates.Encoded (A : AuditCrates) (r : AuditRecord) (bytes : List UInt8) : Prop :=
  A.encode r = .ok bytes ∧ bytes.length < 2 ^ 32

theorem readAuditLoop_short {reader : List UInt8} (h : reader.length < 4)
    (out : List AuditRecord) : readAuditLoop A out reader = .ok out := by
  rw [readAuditLoop, if_pos h]

theorem readAuditLoop_frame (hA : A.Lawful) {r : AuditRecord} {bytes : List UInt8}
    (henc : A.Encoded r bytes) (out : List AuditRecord) (rest : List UInt8) :
    readAuditLoop A out (frame bytes ++ rest) = readAuditLoop A (out ++ [r]) rest := by
  have hfour : ¬ (frame bytes ++ rest).length < 4 := by
    rw [frame_length]
    omega
  have hlen : ¬ (bytes ++ rest).length < bytes.length := by simp
  have hdec : A.decode ((bytes ++ rest).take bytes.length) = .ok r := by
    rw [List.take_left]
    exact hA.decode_encode r bytes henc.1
  rw [readAuditLoop]
  simp only [ofBeBytes_frame henc.2, drop_frame, hfour, hlen, hdec, if_false, List.drop_left]

theorem readAuditLoop_frames (hA : A.Lawful) {records : List AuditRecord}
    {encs : List (List UInt8)} (h : List.Forall₂ A.Encoded records encs)
    (out : List AuditRecord) (rest : List UInt8) :
    readAuditLoop A out (frames encs ++ rest) = readAuditLoop A (out ++ records) rest := by
  induction h generalizing out with
  | nil => simp
  | @cons r bytes records encs henc _ ih =>
    rw [frames_cons, List.append_assoc, readAuditLoop_frame hA henc, ih, List.append_assoc,
      List.singleton_append]

namespace AuditLog

theorem signRecord_ok {log : AuditLog A} {draft : AuditDraft} {outcome : Outcome}
    {toSign bytes : List UInt8}
    (hun : A.encodeUnsigned (log.unsigned draft outcome) = .ok toSign)
    (henc : A.Encoded { log.unsigned draft outcome with signature := A.sign log.signer toSign }
      bytes) :
    log.signRecord draft outcome =
      .ok ({ log.unsigned draft outcome with signature := A.sign log.signer toSign }, bytes) := by
  have hlen : ¬ 2 ^ 32 - 1 < bytes.length := by
    have hshort := henc.2
    omega
  simp only [signRecord, hun, henc.1, if_neg hlen]

end AuditLog

end Reading

end Relux
