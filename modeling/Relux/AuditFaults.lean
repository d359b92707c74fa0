import Relux.Audit

/-! Where the chain of an audit log first breaks. Two scans of the source look for it, one
for the error and one for the responder the record names. -/

namespace Relux

open Admission (hexEncode)

variable {A : AuditCrates}

/-- The record follows the hash, and is signed with the key; the next one carries `next`. -/
def AuditCrates.Follows (A : AuditCrates) (key : A.VerifyingKey) (lastHash : ContentHash)
    (rec : AuditRecord) (next : ContentHash) : Prop :=
  rec.prevHash = lastHash ∧
    (∃ toVerify, A.encodeUnsigned rec.toUnsignedAudit = .ok toVerify ∧
      A.verify key toVerify rec.signature = true) ∧
    ∃ bytes, A.encode rec = .ok bytes ∧ next = A.blake3 bytes

def AuditCrates.Faulty (A : AuditCrates) (key : A.VerifyingKey) (lastHash : ContentHash)
    (rec : AuditRecord) : Prop :=
  rec.prevHash ≠ lastHash ∨
    ∃ toVerify, A.encodeUnsigned rec.toUnsignedAudit = .ok toVerify ∧
      A.verify key toVerify rec.signature = false

inductive FirstFault (A : AuditCrates) (key : A.VerifyingKey) :
    ContentHash → List AuditRecord → AuditRecord → Prop
  | here {lastHash : ContentHash} {rec : AuditRecord} {rest : List AuditRecord} :
      A.Faulty key lastHash rec → FirstFault A key lastHash (rec :: rest) rec
  | later {lastHash next : ContentHash} {rec fault : AuditRecord} {rest : List AuditRecord} :
      A.Follows key lastHash rec next → FirstFault A key next rest fault →
        FirstFault A key lastHash (rec :: rest) fault

theorem record_cases (key : A.VerifyingKey) (lastHash : ContentHash) (rec : AuditRecord) :
    (A.Faulty key lastHash rec ∧
        (∃ reason, verifyAuditRecord A key lastHash rec = .error (.integrity reason)) ∧
        ∀ rest, firstFaultLoop A key lastHash (rec :: rest) = .ok (some rec.responderNodeId)) ∨
      (∃ e, ¬ A.Faulty key lastHash rec ∧ (∀ next, ¬ A.Follows key lastHash rec next) ∧
        verifyAuditRecord A key lastHash rec = .error (.codec e) ∧
        ∀ rest, firstFaultLoop A key lastHash (rec :: rest) = .error (.codec e)) ∨
      ∃ next, A.Follows key lastHash rec next ∧
        verifyAuditRecord A key lastHash rec = .ok next ∧
        ∀ rest, firstFaultLoop A key lastHash (rec :: rest) = firstFaultLoop A key next rest := by
  by_cases hprev : rec.prevHash = lastHash
  · cases hun : A.encodeUnsigned rec.toUnsignedAudit with
    | error e =>
      right
      left
      refine ⟨e, ?_, ?_, ?_, ?_⟩
      · rintro (h | ⟨toVerify, h, -⟩)
        · exact h hprev
        · simp [hun] at h
      · rintro next ⟨-, ⟨toVerify, h, -⟩, -⟩
        simp [hun] at h
      · simp [verifyAuditRecord, hprev, hun]
      · intro rest
        simp [firstFaultLoop, hprev, hun]
    | ok toVerify =>
      by_cases hsig : A.verify key toVerify rec.signature = true
      · cases henc : A.encode rec with
        | error e =>
          right
          left
          refine ⟨e, ?_, ?_, ?_, ?_⟩
          · rintro (h | ⟨toVerify', h, hbad⟩)
            · exact h hprev
            · rw [hun] at h
              cases h
              rw [hsig] at hbad
              cases hbad
          · rintro next ⟨-, -, bytes, h, -⟩
            simp [henc] at h
          · simp [verifyAuditRecord, hprev, hun, hsig, henc]
          · intro rest
            simp [firstFaultLoop, hprev, hun, hsig, henc]
        | ok bytes =>
          right
          right
          refine ⟨A.blake3 bytes, ?_, ?_, ?_⟩
          · exact ⟨hprev, ⟨toVerify, hun, hsig⟩, bytes, henc, rfl⟩
          · simp [verifyAuditRecord, hprev, hun, hsig, henc]
          · intro rest
            simp [firstFaultLoop, hprev, hun, hsig, henc]
      · have hbad : A.verify key toVerify rec.signature = false := by simpa using hsig
        left
        refine ⟨Or.inr ⟨toVerify, hun, hbad⟩, ?_, ?_⟩
        · refine ⟨"bad signature for " ++ hexEncode rec.requestId.toList, ?_⟩
          simp [verifyAuditRecord, hprev, hun, hbad]
        · intro rest
          simp [firstFaultLoop, hprev, hun, hbad]
  · left
    refine ⟨Or.inl hprev, ?_, ?_⟩
    · refine ⟨"chain break at request_id " ++ hexEncode rec.requestId.toList, ?_⟩
      simp [verifyAuditRecord, hprev]
    · intro rest
      simp [firstFaultLoop, hprev]

variable {lastHash : ContentHash} {key : A.VerifyingKey} {rec : AuditRecord}

theorem firstFault_cons {fault : AuditRecord} {rest : List AuditRecord} :
    FirstFault A key lastHash (rec :: rest) fault ↔
      (A.Faulty key lastHash rec ∧ fault = rec) ∨
        ∃ next, A.Follows key lastHash rec next ∧ FirstFault A key next rest fault := by
  constructor
  · intro h
    cases h with
    | here hfaulty => exact Or.inl ⟨hfaulty, rfl⟩
    | later hfollows hrest => exact Or.inr ⟨_, hfollows, hrest⟩
  · rintro (⟨hfaulty, rfl⟩ | ⟨next, hfollows, hrest⟩)
    · exact .here hfaulty
    · exact .later hfollows hrest

theorem AuditCrates.Follows.next_eq {next next' : ContentHash} (h : A.Follows key lastHash rec next)
    (h' : A.Follows key lastHash rec next') : next = next' := by
  obtain ⟨-, -, bytes, henc, rfl⟩ := h
  obtain ⟨-, -, bytes', henc', rfl⟩ := h'
  rw [henc] at henc'
  cases henc'
  rfl

theorem AuditCrates.Follows.not_faulty {next : ContentHash} (h : A.Follows key lastHash rec next) :
    ¬ A.Faulty key lastHash rec := by
  obtain ⟨hprev, ⟨toVerify, hun, hsig⟩, -⟩ := h
  rintro (hbad | ⟨toVerify', hun', hbad⟩)
  · exact hbad hprev
  · rw [hun] at hun'
    cases hun'
    rw [hsig] at hbad
    cases hbad

theorem verifyFrom_integrity_iff (key : A.VerifyingKey) (records : List AuditRecord)
    (lastHash : ContentHash) :
    (∃ reason, records.foldlM (verifyAuditRecord A key) lastHash = .error (.integrity reason)) ↔
      ∃ fault, FirstFault A key lastHash records fault := by
  induction records generalizing lastHash with
  | nil =>
    constructor
    · rintro ⟨reason, h⟩
      cases h
    · rintro ⟨fault, h⟩
      cases h
  | cons rec rest ih =>
    simp only [List.foldlM_cons, firstFault_cons]
    rcases record_cases key lastHash rec with ⟨hfaulty, ⟨reason, hverify⟩, -⟩ |
      ⟨e, hsound, hnot, hverify, -⟩ | ⟨next, hfollows, hverify, -⟩
    · rw [hverify]
      constructor
      · intro _
        exact ⟨rec, Or.inl ⟨hfaulty, rfl⟩⟩
      · intro _
        exact ⟨reason, rfl⟩
    · rw [hverify]
      constructor
      · rintro ⟨reason, h⟩
        cases h
      · rintro ⟨fault, ⟨hfaulty, -⟩ | ⟨next, hfollows, -⟩⟩
        · exact absurd hfaulty hsound
        · exact absurd hfollows (hnot next)
    · rw [hverify]
      show (∃ reason, rest.foldlM (verifyAuditRecord A key) next = .error (.integrity reason)) ↔ _
      rw [ih next]
      constructor
      · rintro ⟨fault, hfault⟩
        exact ⟨fault, Or.inr ⟨next, hfollows, hfault⟩⟩
      · rintro ⟨fault, ⟨hfaulty, -⟩ | ⟨next', hfollows', hfault⟩⟩
        · exact absurd hfaulty hfollows.not_faulty
        · rw [hfollows.next_eq hfollows']
          exact ⟨fault, hfault⟩

theorem firstFaultLoop_some_iff (key : A.VerifyingKey) (records : List AuditRecord)
    (lastHash : ContentHash) (claimed : NodeId) :
    firstFaultLoop A key lastHash records = .ok (some claimed) ↔
      ∃ fault, FirstFault A key lastHash records fault ∧ fault.responderNodeId = claimed := by
  induction records generalizing lastHash with
  | nil =>
    constructor
    · intro h
      cases h
    · rintro ⟨fault, h, -⟩
      cases h
  | cons rec rest ih =>
    simp only [firstFault_cons]
    rcases record_cases key lastHash rec with ⟨hfaulty, -, hfirst⟩ |
      ⟨e, hsound, hnot, -, hfirst⟩ | ⟨next, hfollows, -, hfirst⟩
    · rw [hfirst]
      constructor
      · intro h
        cases h
        exact ⟨rec, Or.inl ⟨hfaulty, rfl⟩, rfl⟩
      · rintro ⟨fault, ⟨-, rfl⟩ | ⟨next, hfollows, -⟩, rfl⟩
        · rfl
        · exact absurd hfaulty hfollows.not_faulty
    · rw [hfirst]
      constructor
      · intro h
        cases h
      · rintro ⟨fault, ⟨hfaulty, -⟩ | ⟨next, hfollows, -⟩, -⟩
        · exact absurd hfaulty hsound
        · exact absurd hfollows (hnot next)
    · rw [hfirst, ih next]
      constructor
      · rintro ⟨fault, hfault, hclaims⟩
        exact ⟨fault, Or.inr ⟨next, hfollows, hfault⟩, hclaims⟩
      · rintro ⟨fault, ⟨hfaulty, -⟩ | ⟨next', hfollows', hfault⟩, hclaims⟩
        · exact absurd hfaulty hfollows.not_faulty
        · rw [hfollows.next_eq hfollows']
          exact ⟨fault, hfault, hclaims⟩

def FaultIn (A : AuditCrates) (key : A.VerifyingKey) (file : List UInt8)
    (fault : AuditRecord) : Prop :=
  ∃ records, readAuditRecords A file = .ok records ∧ FirstFault A key zeroHash records fault

theorem readAuditLoop_ne_integrity (out : List AuditRecord) (reader : List UInt8)
    (reason : String) : readAuditLoop A out reader ≠ .error (.integrity reason) := by
  induction out, reader using readAuditLoop.induct A with
  | case1 out reader hend =>
    rw [readAuditLoop, if_pos hend]
    simp
  | case2 out reader hend len rest htorn =>
    rw [readAuditLoop, if_neg hend]
    simp only [if_pos (show (reader.drop 4).length < ofBeBytes (reader.take 4) from htorn)]
    simp
  | case3 out reader hend len rest htorn e hdec =>
    rw [readAuditLoop, if_neg hend]
    simp only [if_neg (show ¬ (reader.drop 4).length < ofBeBytes (reader.take 4) from htorn)]
    rw [show A.decode ((reader.drop 4).take (ofBeBytes (reader.take 4))) = .error e from hdec]
    simp
  | case4 out reader hend len rest htorn rec hdec ih =>
    rw [readAuditLoop, if_neg hend]
    simp only [if_neg (show ¬ (reader.drop 4).length < ofBeBytes (reader.take 4) from htorn)]
    rw [show A.decode ((reader.drop 4).take (ofBeBytes (reader.take 4))) = .ok rec from hdec]
    exact ih

theorem verifyAuditChain_integrity_iff (key : A.VerifyingKey) (file : List UInt8) :
    (∃ reason, verifyAuditChain A file key = .error (.integrity reason)) ↔
      ∃ fault, FaultIn A key file fault := by
  unfold verifyAuditChain FaultIn
  cases hread : readAuditRecords A file with
  | error e =>
    constructor
    · rintro ⟨reason, h⟩
      have hread' : e = .integrity reason := by simpa [Except.bind] using h
      rw [hread'] at hread
      exact absurd hread (readAuditLoop_ne_integrity [] file reason)
    · rintro ⟨fault, records, h, -⟩
      cases h
  | ok records =>
    have hverify := verifyFrom_integrity_iff key records zeroHash
    simpa [Except.bind, verifyAuditRecords] using hverify

theorem firstFaultResponder_some_iff (key : A.VerifyingKey) (file : List UInt8)
    (claimed : NodeId) :
    firstFaultResponder A file key = .ok (some claimed) ↔
      ∃ fault, FaultIn A key file fault ∧ fault.responderNodeId = claimed := by
  unfold firstFaultResponder FaultIn
  cases hread : readAuditRecords A file with
  | error e => simp [Except.bind]
  | ok records =>
    have hfirst := firstFaultLoop_some_iff key records zeroHash claimed
    simpa [Except.bind] using hfirst

end Relux
