import Mathlib.Algebra.Order.Group.Nat
import Relux.BigEndian
import Relux.Transition

/-! The event log of a flow: signed records, each holding the hash of the one before it,
stored behind their lengths in one file that is only ever appended to. -/

namespace Relux

abbrev FlowId := Vector UInt8 16
abbrev ContentHash := Vector UInt8 32
abbrev EventSignature := Vector UInt8 64

inductive EventType
  | flowStarted
  | remoteCallIssued
  | remoteCallCompleted
  | remoteCallFailed
  | streamChunkReceived
  | flowCompleted
  | flowFailed
  deriving DecidableEq, Repr

structure UnsignedRecord where
  flowId : FlowId
  eventSeq : UInt64
  ts : Int64
  kind : EventType
  payload : List UInt8
  prevHash : ContentHash
  deriving DecidableEq

structure EventRecord where
  flowId : FlowId
  eventSeq : UInt64
  ts : Int64
  kind : EventType
  payload : List UInt8
  prevHash : ContentHash
  signature : EventSignature
  deriving DecidableEq

def EventRecord.unsigned (r : EventRecord) : UnsignedRecord :=
  ⟨r.flowId, r.eventSeq, r.ts, r.kind, r.payload, r.prevHash⟩

inductive CodecError
  | encode (text : String)
  | decode (text : String)
  deriving DecidableEq, Repr

def CodecError.toString : CodecError → String
  | .encode text => "encode failed: " ++ text
  | .decode text => "decode failed: " ++ text

inductive EventLogError
  | io (text : String)
  | codec (e : CodecError)
  | tooLarge
  | tornWrite (text : String)
  | decode (text : String)
  | integrity (text : String)
  | sequenceOverflow
  | tooManyRecords (limit : Nat)
  | recordTooLarge (sizeBytes maxBytes : Nat)
  deriving DecidableEq, Repr

/-- What the log takes from the crates it is built on: CBOR for the two kinds of record,
Ed25519 and BLAKE3. -/
structure LogCrates where
  SigningKey : Type
  VerifyingKey : Type
  verifyingKey : SigningKey → VerifyingKey
  sign : SigningKey → List UInt8 → EventSignature
  verify : VerifyingKey → List UInt8 → EventSignature → Bool
  contentHash : List UInt8 → ContentHash
  encodeUnsigned : UnsignedRecord → Except CodecError (List UInt8)
  encode : EventRecord → Except CodecError (List UInt8)
  decode : List UInt8 → Except CodecError EventRecord

/-- What is documented of them: a record read back from its encoding is the record, and a
signature verifies under the key that belongs to the one it was made with. -/
structure LogCrates.Lawful (C : LogCrates) : Prop where
  decode_encode : ∀ r bytes, C.encode r = .ok bytes → C.decode bytes = .ok r
  verify_sign : ∀ key bytes, C.verify (C.verifyingKey key) bytes (C.sign key bytes) = true

def maxRecordsPerRead : Nat := 100000

def maxRecordSize : Nat := 10 * 1024 * 1024

def zeroHash : ContentHash := Vector.replicate 32 0

variable (C : LogCrates)

/-- The loop of `read_records`. The count is tested before the end of the file, and the end
of the file is whatever is too short for another length. -/
def readLoop (out : List EventRecord) (reader : List UInt8) :
    Except EventLogError (List EventRecord) :=
  if maxRecordsPerRead ≤ out.length then .error (.tooManyRecords maxRecordsPerRead)
  else if reader.length < 4 then .ok out
  else
    let len := ofBeBytes (reader.take 4)
    let rest := reader.drop 4
    if maxRecordSize < len then .error (.recordTooLarge len maxRecordSize)
    else if rest.length < len then
      .error (.tornWrite s!"at record {out.length}: failed to fill whole buffer")
    else
      match C.decode (rest.take len) with
      | .error e => .error (.decode s!"record {out.length}: {e.toString}")
      | .ok rec => readLoop (out ++ [rec]) (rest.drop len)
  termination_by reader.length
  decreasing_by
    simp only [List.length_drop]
    omega

def readRecords (file : List UInt8) : Except EventLogError (List EventRecord) := readLoop C [] file

/-- One record of `verify_chain`, from the sequence number and the hash it should carry. -/
def verifyRecord (key : C.VerifyingKey) (expected : UInt64 × ContentHash) (rec : EventRecord) :
    Except EventLogError (UInt64 × ContentHash) :=
  if rec.eventSeq ≠ expected.1 then
    .error (.integrity s!"expected seq {expected.1}, got {rec.eventSeq}")
  else if rec.prevHash ≠ expected.2 then
    .error (.integrity s!"chain break at seq {rec.eventSeq}")
  else
    match C.encodeUnsigned rec.unsigned with
    | .error e => .error (.codec e)
    | .ok toVerify =>
      if C.verify key toVerify rec.signature then
        match C.encode rec with
        | .error e => .error (.codec e)
        | .ok bytes => .ok (expected.1 + 1, C.contentHash bytes)
      else .error (.integrity s!"bad signature at seq {rec.eventSeq}")

def verifyRecords (key : C.VerifyingKey) (records : List EventRecord) :
    Except EventLogError (UInt64 × ContentHash) :=
  records.foldlM (verifyRecord C key) (0, zeroHash)

def verifyChain (file : List UInt8) (key : C.VerifyingKey) :
    Except EventLogError (UInt64 × ContentHash) :=
  (readRecords C file).bind (verifyRecords C key)

structure EventLog where
  flowId : FlowId
  signer : C.SigningKey
  nextSeq : UInt64
  lastHash : ContentHash

namespace EventLog

variable {C}

/-- `EventLog::open`: the log, and the file as it leaves it. -/
def «open» (file : Option (List UInt8)) (flowId : FlowId) (signer : C.SigningKey) :
    Except EventLogError (EventLog C × List UInt8) :=
  match file with
  | none => .ok (⟨flowId, signer, 0, zeroHash⟩, [])
  | some bytes =>
    match verifyChain C bytes (C.verifyingKey signer) with
    | .error e => .error e
    | .ok (nextSeq, lastHash) => .ok (⟨flowId, signer, nextSeq, lastHash⟩, bytes)

def signRecord (log : EventLog C) (kind : EventType) (payload : List UInt8) (ts : Int64) :
    Except EventLogError (EventRecord × List UInt8) :=
  let unsigned : UnsignedRecord := ⟨log.flowId, log.nextSeq, ts, kind, payload, log.lastHash⟩
  match C.encodeUnsigned unsigned with
  | .error e => .error (.codec e)
  | .ok toSign =>
    let record : EventRecord :=
      ⟨log.flowId, log.nextSeq, ts, kind, payload, log.lastHash, C.sign log.signer toSign⟩
    match C.encode record with
    | .error e => .error (.codec e)
    | .ok recordBytes =>
      if 2 ^ 32 - 1 < recordBytes.length then .error .tooLarge
      else .ok (record, recordBytes)

/-- `EventLog::append` at the time `ts`: what it returns, the log and the file. The number
is only advanced after the record is in the file. -/
def append (log : EventLog C) (kind : EventType) (payload : List UInt8) (ts : Int64)
    (file : List UInt8) : Except EventLogError UInt64 × EventLog C × List UInt8 :=
  match log.signRecord kind payload ts with
  | .error e => (.error e, log, file)
  | .ok (_, recordBytes) =>
    let file := file ++ beBytes 4 recordBytes.length ++ recordBytes
    let lastHash := C.contentHash recordBytes
    if log.nextSeq.toNat + 1 = 2 ^ 64 then
      (.error .sequenceOverflow, { log with lastHash := lastHash }, file)
    else (.ok log.nextSeq, { log with lastHash := lastHash, nextSeq := log.nextSeq + 1 }, file)

end EventLog

inductive LogCall
  | open (flowId : FlowId)
  | append (handle : Nat) (kind : EventType) (payload : List UInt8) (ts : Int64)

structure LogSession where
  file : Option (List UInt8)
  handles : List (EventLog C)
  appended : List EventRecord

namespace LogSession

variable {C}

def fresh : LogSession C := ⟨none, [], []⟩

def appendedBy (result : Except EventLogError UInt64)
    (record : Except EventLogError (EventRecord × List UInt8)) : List EventRecord :=
  match result, record with
  | .ok _, .ok (record, _) => [record]
  | _, _ => []

def exec (signer : C.SigningKey) (s : LogSession C) : LogCall → LogSession C
  | .open flowId =>
    match EventLog.open s.file flowId signer with
    | .error _ => s
    | .ok (log, file) => { s with file := some file, handles := s.handles ++ [log] }
  | .append handle kind payload ts =>
    match s.handles[handle]? with
    | none => s
    | some log =>
      let (result, log', file) := log.append kind payload ts (s.file.getD [])
      { file := some file
        handles := s.handles.set handle log'
        appended := s.appended ++ appendedBy result (log.signRecord kind payload ts) }

end LogSession

end Relux
