import Mathlib.Tactic.Linarith
import Relux.Cbor
import Relux.EventLog

/-! The records of an event log in CBOR: a map from the field names, byte arrays as byte
strings, the event type by its name. -/

namespace Relux

open Cbor

def EventType.name : EventType → String
  | .flowStarted => "flow_started"
  | .remoteCallIssued => "remote_call_issued"
  | .remoteCallCompleted => "remote_call_completed"
  | .remoteCallFailed => "remote_call_failed"
  | .streamChunkReceived => "stream_chunk_received"
  | .flowCompleted => "flow_completed"
  | .flowFailed => "flow_failed"

def asciiText (s : String) : List UInt8 := string 3 (s.toList.map (fun c => UInt8.ofNat c.toNat))

def readEventType (reader : List UInt8) : Option (EventType × List UInt8) :=
  [EventType.flowStarted, .remoteCallIssued, .remoteCallCompleted, .remoteCallFailed,
    .streamChunkReceived, .flowCompleted, .flowFailed].findSome? (fun kind =>
      (expect (asciiText kind.name) reader).map (fun rest => (kind, rest)))

def readArray (n : Nat) (reader : List UInt8) : Option (Vector UInt8 n × List UInt8) :=
  (readString 2 reader).bind (fun s =>
    if h : s.1.toArray.size = n then some (⟨s.1.toArray, h⟩, s.2) else none)

def cborFields (r : UnsignedRecord) : List UInt8 :=
  asciiText "flow_id" ++ (string 2 r.flowId.toList ++
    (asciiText "event_seq" ++ (int r.eventSeq.toNat ++
      (asciiText "ts" ++ (int r.ts.toInt ++
        (asciiText "kind" ++ (asciiText r.kind.name ++
          (asciiText "payload" ++ (string 2 r.payload ++
            (asciiText "prev_hash" ++ string 2 r.prevHash.toList))))))))))

def cborUnsigned (r : UnsignedRecord) : Except CodecError (List UInt8) :=
  if r.payload.length < 2 ^ 64 then .ok (head 5 6 ++ cborFields r)
  else .error (.encode "length")

def cborRecord (r : EventRecord) : Except CodecError (List UInt8) :=
  if r.payload.length < 2 ^ 64 then
    .ok (head 5 7 ++ (cborFields r.unsigned ++
      (asciiText "signature" ++ string 2 r.signature.toList)))
  else .error (.encode "length")

def readFields (reader : List UInt8) : Option (UnsignedRecord × List UInt8) := do
  let reader ← expect (asciiText "flow_id") reader
  let (flowId, reader) ← readArray 16 reader
  let reader ← expect (asciiText "event_seq") reader
  let (eventSeq, reader) ← readInt reader
  let reader ← expect (asciiText "ts") reader
  let (ts, reader) ← readInt reader
  let reader ← expect (asciiText "kind") reader
  let (kind, reader) ← readEventType reader
  let reader ← expect (asciiText "payload") reader
  let (payload, reader) ← readString 2 reader
  let reader ← expect (asciiText "prev_hash") reader
  let (prevHash, reader) ← readArray 32 reader
  some (⟨flowId, UInt64.ofNat eventSeq.toNat, Int64.ofInt ts, kind, payload, prevHash⟩, reader)

def readCborRecord (bytes : List UInt8) : Except CodecError EventRecord :=
  let record := do
    let reader ← expect (head 5 7) bytes
    let (r, reader) ← readFields reader
    let reader ← expect (asciiText "signature") reader
    let (signature, _) ← readArray 64 reader
    some (⟨r.flowId, r.eventSeq, r.ts, r.kind, r.payload, r.prevHash, signature⟩ : EventRecord)
  match record with
  | none => .error (.decode "record")
  | some record => .ok record

theorem readArray_string {n : Nat} (hn : n < 2 ^ 64) (v : Vector UInt8 n)
    (rest : List UInt8) : readArray n (string 2 v.toList ++ rest) = some (v, rest) := by
  have hlen : v.toList.length = n := Vector.length_toList
  have hread := readString_string (show 2 < 8 by omega) (show v.toList.length < 2 ^ 64 by omega) rest
  have harray : v.toList.toArray = v.toArray := Array.toArray_toList
  simp [readArray, hread, harray]

theorem readEventType_name (kind : EventType) (rest : List UInt8) :
    readEventType (asciiText kind.name ++ rest) = some (kind, rest) := by
  cases kind <;> rfl

theorem readFields_cborFields {r : UnsignedRecord} (hlen : r.payload.length < 2 ^ 64)
    (rest : List UInt8) : readFields (cborFields r ++ rest) = some (r, rest) := by
  have hid := readArray_string (show 16 < 2 ^ 64 by omega) r.flowId
  have hprev := readArray_string (show 32 < 2 ^ 64 by omega) r.prevHash
  have hseq : ∀ rest, readInt (int r.eventSeq.toNat ++ rest) = some (↑r.eventSeq.toNat, rest) := by
    intro rest
    have hlt := r.eventSeq.toNat_lt
    apply readInt_int
    · omega
    · omega
  have hts : ∀ rest, readInt (int r.ts.toInt ++ rest) = some (r.ts.toInt, rest) := by
    intro rest
    have hlow := r.ts.le_toInt
    have hhigh := r.ts.toInt_lt
    apply readInt_int
    · omega
    · omega
  have hpayload := readString_string (show 2 < 8 by omega) hlen
  have hthen : ∀ {α β : Type} {x : Option α} {a : α} {f : α → Option β} {b : Option β},
      x = some a → f a = b → x >>= f = b := by
    intro α β x a f b hx hf
    rw [hx]
    exact hf
  simp only [cborFields, List.append_assoc]
  unfold readFields
  refine hthen (expect_append ..) (hthen (hid _) ?_)
  refine hthen (expect_append ..) (hthen (hseq _) ?_)
  refine hthen (expect_append ..) (hthen (hts _) ?_)
  refine hthen (expect_append ..) (hthen (readEventType_name ..) ?_)
  refine hthen (expect_append ..) (hthen (hpayload _) ?_)
  refine hthen (expect_append ..) (hthen (hprev _) ?_)
  simp only [Int.toNat_natCast, UInt64.ofNat_toNat, Int64.ofInt_toInt]

variable {bytes : List UInt8} {r : EventRecord}

theorem readCborRecord_cborRecord (h : cborRecord r = .ok bytes) :
    readCborRecord bytes = .ok r := by
  by_cases hlen : r.payload.length < 2 ^ 64
  · have hsig := readArray_string (show 64 < 2 ^ 64 by omega) r.signature []
    have hfields := readFields_cborFields (r := r.unsigned) hlen
    rw [List.append_nil] at hsig
    simp only [cborRecord, if_pos hlen, Except.ok.injEq] at h
    simp only [readCborRecord, ← h, expect_append, hfields, hsig, Option.bind_eq_bind,
      Option.bind_some]
    rfl
  · rw [cborRecord, if_neg hlen] at h
    cases h

theorem payload_lt_cborRecord (h : cborRecord r = .ok bytes) : r.payload.length < bytes.length := by
  by_cases hlen : r.payload.length < 2 ^ 64
  · rw [cborRecord, if_pos hlen] at h
    cases h
    have hhead : (head 5 7).length = 1 := rfl
    simp only [cborFields, string, EventRecord.unsigned, List.length_append, hhead]
    omega
  · rw [cborRecord, if_neg hlen] at h
    cases h

theorem asciiText_length_le (s : String) : (asciiText s).length ≤ 9 + s.length := by
  have hhead := head_length_le 3 (s.toList.map (fun c => UInt8.ofNat c.toNat)).length
  simp only [asciiText, string, List.length_append, List.length_map, String.length_toList] at hhead ⊢
  omega

theorem string_length_le (major : Nat) (bytes : List UInt8) :
    (string major bytes).length ≤ 9 + bytes.length := by
  have hhead := head_length_le major bytes.length
  simp only [string, List.length_append]
  omega

theorem array_length_le {n : Nat} (v : Vector UInt8 n) :
    (string 2 v.toList).length ≤ 9 + n := by
  have hlen := string_length_le 2 v.toList
  rwa [Vector.length_toList] at hlen

theorem cborFields_length_le (r : UnsignedRecord) :
    (cborFields r).length ≤ 300 + r.payload.length := by
  have hname : (asciiText r.kind.name).length ≤ 30 := by
    apply (asciiText_length_le r.kind.name).trans
    cases r.kind <;> decide
  have hid : (asciiText "flow_id").length ≤ 16 := asciiText_length_le _
  have hseq : (asciiText "event_seq").length ≤ 18 := asciiText_length_le _
  have hts : (asciiText "ts").length ≤ 11 := asciiText_length_le _
  have hkind : (asciiText "kind").length ≤ 13 := asciiText_length_le _
  have hpayload : (asciiText "payload").length ≤ 16 := asciiText_length_le _
  have hprev : (asciiText "prev_hash").length ≤ 18 := asciiText_length_le _
  have hids : (string 2 r.flowId.toList).length ≤ 25 := array_length_le _
  have hprevs : (string 2 r.prevHash.toList).length ≤ 41 := array_length_le _
  have hpayloads := string_length_le 2 r.payload
  have hseqs := int_length_le r.eventSeq.toNat
  have htss := int_length_le r.ts.toInt
  simp only [cborFields, List.length_append]
  linarith

theorem cborRecord_length_le (h : cborRecord r = .ok bytes) :
    bytes.length ≤ r.payload.length + 400 := by
  have hfields : (cborFields r.unsigned).length ≤ 300 + r.payload.length :=
    cborFields_length_le r.unsigned
  have hsig : (asciiText "signature").length ≤ 18 := asciiText_length_le _
  have hsigs : (string 2 r.signature.toList).length ≤ 73 := array_length_le _
  have hmap : (head 5 7).length = 1 := rfl
  by_cases hlen : r.payload.length < 2 ^ 64
  · rw [cborRecord, if_pos hlen] at h
    cases h
    simp only [List.length_append, hmap]
    linarith
  · rw [cborRecord, if_neg hlen] at h
    cases h

def cborCrates : LogCrates where
  SigningKey := EventSignature
  VerifyingKey := EventSignature
  verifyingKey := id
  sign key _ := key
  verify key _ signature := signature == key
  contentHash bytes := Vector.replicate 32 (bytes.foldl (fun a b => a ^^^ b) 0)
  encodeUnsigned := cborUnsigned
  encode := cborRecord
  decode := readCborRecord

theorem cborCrates_lawful : cborCrates.Lawful where
  decode_encode _ _ h := readCborRecord_cborRecord h
  verify_sign key _ := @beq_self_eq_true EventSignature _ _ key

theorem cborCrates_signRecord (log : EventLog cborCrates) (kind : EventType)
    {payload : List UInt8} (ts : Int64) (h : payload.length + 400 < 2 ^ 32) :
    ∃ record bytes, log.signRecord kind payload ts = .ok (record, bytes) ∧
      payload.length < bytes.length ∧ bytes.length ≤ payload.length + 400 := by
  have hlen : payload.length < 2 ^ 64 := by omega
  let record : EventRecord := ⟨log.flowId, log.nextSeq, ts, kind, payload, log.lastHash, log.signer⟩
  have henc : cborRecord record = .ok (head 5 7 ++ (cborFields record.unsigned ++
      (asciiText "signature" ++ string 2 record.signature.toList))) := if_pos hlen
  have hlow := payload_lt_cborRecord henc
  have hhigh := cborRecord_length_le henc
  have hshort : ¬ 2 ^ 32 - 1 < (head 5 7 ++ (cborFields record.unsigned ++
      (asciiText "signature" ++ string 2 record.signature.toList))).length := by
    have hp : record.payload.length = payload.length := rfl
    omega
  refine ⟨record, _, ?_, hlow, hhigh⟩
  have hun : cborCrates.encodeUnsigned ⟨log.flowId, log.nextSeq, ts, kind, payload, log.lastHash⟩ =
      .ok (head 5 6 ++ cborFields record.unsigned) := if_pos hlen
  have hrec : cborCrates.encode ⟨log.flowId, log.nextSeq, ts, kind, payload, log.lastHash,
      cborCrates.sign log.signer (head 5 6 ++ cborFields record.unsigned)⟩ =
      .ok (head 5 7 ++ (cborFields record.unsigned ++
        (asciiText "signature" ++ string 2 record.signature.toList))) := henc
  simp only [EventLog.signRecord, hun, hrec, if_neg hshort]
  rfl

end Relux
