import Relux.TornWrites

/-! What a file can hold that verifies under a key: the first records of one of the logs
written with it. Which flow that log belongs to is not looked at. -/

namespace Relux

open Transition

variable {C : LogCrates}

def OfFlow {signer : C.SigningKey} (flowId : FlowId) :
    FrameCall (eventFrames C signer) → Prop
  | .open key => key = flowId
  | .append _ _ => True
  | .cut _ _ _ => False

structure FlowKept {signer : C.SigningKey} (flowId : FlowId)
    (s : FrameSession (eventFrames C signer)) : Prop where
  handles : ∀ log ∈ s.handles, EventLog.flowId log = flowId
  written : ∀ r ∈ s.written, EventRecord.flowId r = flowId
  appended : s.appended = s.written

variable {flowId : FlowId}

theorem open_flowId {file : Option (List UInt8)} {signer : C.SigningKey} {log : EventLog C}
    {file' : List UInt8} (h : EventLog.open file flowId signer = .ok (log, file')) :
    log.flowId = flowId := by
  cases file with
  | none =>
    simp only [EventLog.open, Except.ok.injEq, Prod.mk.injEq] at h
    rw [← h.1]
  | some bytes =>
    cases hverify : verifyChain C bytes (C.verifyingKey signer) with
    | error e => simp [EventLog.open, hverify] at h
    | ok next =>
      simp only [EventLog.open, hverify, Except.ok.injEq, Prod.mk.injEq] at h
      rw [← h.1]

theorem FlowKept.exec {signer : C.SigningKey} {flowId : FlowId} {hC : C.Lawful}
    {s : FrameSession (eventFrames C signer)} (h : FlowKept flowId s)
    {call : FrameCall (eventFrames C signer)}
    (hcall : OfFlow flowId call) (hmeets : s.Meets (eventSpec hC signer) call) :
    FlowKept flowId (s.exec call) := by
  cases call with
  | «open» key =>
    have hkey : key = flowId := hcall
    subst hkey
    cases hopen : EventLog.open s.file key signer with
    | error e =>
      have hsame : s.exec (.open key) = s := by
        simp only [FrameSession.exec, eventFrames, hopen]
        rfl
      rwa [hsame]
    | ok result =>
      obtain ⟨log, file⟩ := result
      rw [FrameSession.exec_opened (eventFrames_reopen hopen)]
      refine ⟨?_, h.written, h.appended⟩
      intro log' hlog'
      rcases List.mem_append.mp hlog' with hold | hnew
      · exact h.handles log' hold
      · rw [List.mem_singleton.mp hnew]
        exact open_flowId hopen
  | append handle entry =>
    cases hlog : s.handles[handle]? with
    | none => rwa [(FrameSession.exec_none hlog entry).1]
    | some log =>
      have hflow : EventLog.flowId log = flowId := h.handles log (List.mem_of_getElem? hlog)
      have hset : ∀ log', EventLog.flowId log' = flowId →
          ∀ log'' ∈ s.handles.set handle log', EventLog.flowId log'' = flowId := by
        intro log' hlog' log'' hmem
        rcases List.mem_or_eq_of_mem_set hmem with hold | hnew
        · exact h.handles log'' hold
        · rw [hnew]
          exact hlog'
      cases hsign : EventLog.signRecord log entry.1 entry.2.1 entry.2.2 with
      | error e =>
        have hsame := @eventFrames_append_error C signer log entry e hsign (s.file.getD [])
        simp only [FrameSession.exec, hlog, hsame]
        exact ⟨hset log hflow, h.written, h.appended⟩
      | ok result =>
        obtain ⟨record, bytes⟩ := result
        obtain ⟨-, hstands, hfits⟩ := hmeets log hlog
        have hseq := hstands.1
        have hcount := (hfits record bytes hsign).1
        have happend := @eventFrames_append_ok C signer log entry record bytes hsign (by omega)
          (s.file.getD [])
        have hrecord : record.flowId = flowId := (EventLog.signRecord_ok hsign).1.trans hflow
        rw [FrameSession.exec_append_ok hlog hsign happend]
        refine ⟨hset _ hflow, ?_, ?_⟩
        · intro r hr
          rcases List.mem_append.mp hr with hold | hnew
          · exact h.written r hold
          · rw [List.mem_singleton.mp hnew]
            exact hrecord
        · exact congrArg (fun l : List EventRecord => l ++ [record]) h.appended
  | cut handle entry n => exact hcall.elim

theorem FlowKept.run {signer : C.SigningKey} {flowId : FlowId} {hC : C.Lawful}
    {s : FrameSession (eventFrames C signer)} (h : FlowKept flowId s)
    {calls : List (FrameCall (eventFrames C signer))} (hcalls : ∀ call ∈ calls, OfFlow flowId call)
    (hmeets : Guarded FrameSession.exec (FrameSession.Meets (eventSpec hC signer)) s calls) :
    FlowKept flowId (Transition.run FrameSession.exec s calls) := by
  induction calls generalizing s with
  | nil => exact h
  | cons call calls ih =>
    have hfirst := h.exec (hcalls call List.mem_cons_self) hmeets.1
    exact ih hfirst (fun c hc => hcalls c (List.mem_cons_of_mem call hc)) hmeets.2

/-- The logs written with one key, each opened for its own flow and appended to by handles at
its end, within the limits of the reader. -/
structure FlowLogs (C : LogCrates) (hC : C.Lawful) (signer : C.SigningKey) where
  calls : FlowId → List (FrameCall (eventFrames C signer))
  ofFlow : ∀ flowId, ∀ call ∈ calls flowId, OfFlow flowId call
  meets : ∀ flowId, Guarded FrameSession.exec (FrameSession.Meets (eventSpec hC signer))
    FrameSession.fresh (calls flowId)

variable {r : EventRecord}

namespace FlowLogs

variable {hC : C.Lawful} {signer : C.SigningKey} (W : FlowLogs C hC signer)

def appended (flowId : FlowId) : List EventRecord :=
  (Transition.run FrameSession.exec
    (FrameSession.fresh : FrameSession (eventFrames C signer)) (W.calls flowId)).appended

def Unforged (content : List UInt8) : Prop :=
  ∀ records, readRecords C content = .ok records → ∀ r ∈ records,
    ∀ toVerify, C.encodeUnsigned r.unsigned = .ok toVerify →
      C.verify (C.verifyingKey signer) toVerify r.signature = true →
        ∃ flowId, ∃ q ∈ W.appended flowId,
          C.encodeUnsigned q.unsigned = .ok toVerify ∧ q.signature = r.signature

def CollisionFree : Prop :=
  ∀ flowId flowId', ∀ r ∈ W.appended flowId, ∀ q ∈ W.appended flowId',
    ∀ bytes bytes', C.encode r = .ok bytes → C.encode q = .ok bytes' →
      C.contentHash bytes = C.contentHash bytes' → bytes = bytes'

theorem kept (flowId : FlowId) :
    FlowKept flowId (Transition.run FrameSession.exec
      (FrameSession.fresh : FrameSession (eventFrames C signer)) (W.calls flowId)) := by
  have hfresh : FlowKept flowId (FrameSession.fresh : FrameSession (eventFrames C signer)) :=
    ⟨by simp [FrameSession.fresh], by simp [FrameSession.fresh], rfl⟩
  exact hfresh.run (W.ofFlow flowId) (W.meets flowId)

theorem flowId_of_mem (h : r ∈ W.appended flowId) : r.flowId = flowId := by
  have hkept := W.kept flowId
  apply hkept.written
  rw [← hkept.appended]
  exact h

theorem sound (flowId : FlowId) : Sound C (C.verifyingKey signer) (W.appended flowId) := by
  have hstanding : FrameSession.Standing (eventSpec hC signer) (Transition.run FrameSession.exec
      (FrameSession.fresh : FrameSession (eventFrames C signer)) (W.calls flowId)) :=
    FrameSession.standing_fresh.run (W.meets flowId)
  have hkept := W.kept flowId
  unfold appended
  rw [hkept.appended]
  rcases hstanding.file with ⟨-, -, hempty, -⟩ | ⟨encs, tail, hgood, -⟩
  · rw [hempty]
    exact (eventGood_nil signer).2
  · exact hgood.2

end FlowLogs

theorem verifyRecords_concat {key : C.VerifyingKey} {records : List EventRecord}
    {e : UInt64 × ContentHash} (h : verifyRecords C key (records ++ [r]) = .ok e) :
    (∃ e₀, verifyRecords C key records = .ok e₀) ∧
      r.eventSeq = UInt64.ofNat records.length ∧ r.prevHash = endHash C records ∧
      (∃ toVerify, C.encodeUnsigned r.unsigned = .ok toVerify ∧
        C.verify key toVerify r.signature = true) ∧
      ∃ bytes, C.encode r = .ok bytes := by
  obtain ⟨mid, hpre, hlast⟩ := Transition.foldlM_concat_ok.mp h
  have hend := verifyRecords_end hpre
  obtain ⟨⟨hseq, hprev⟩, hsigned, bytes, henc, -⟩ := verifyRecord_ok hlast
  refine ⟨⟨mid, hpre⟩, ?_, ?_, hsigned, bytes, henc⟩
  · rw [hseq, hend]
  · rw [hprev, hend]

namespace FlowLogs

variable {hC : C.Lawful} {signer : C.SigningKey} (W : FlowLogs C hC signer)

theorem place (h : r ∈ W.appended flowId) :
    ∃ before after, W.appended flowId = before ++ r :: after ∧
      r.eventSeq = UInt64.ofNat before.length ∧ r.prevHash = endHash C before ∧
      before.length < maxRecordsPerRead := by
  obtain ⟨before, after, hsplit⟩ := List.append_of_mem h
  have hsound := W.sound flowId
  rw [hsplit] at hsound
  have hpre : Sound C (C.verifyingKey signer) (before ++ [r]) := by
    apply hsound.of_prefix
    exact ⟨after, by simp⟩
  obtain ⟨e, hverify⟩ := hpre.2.2
  obtain ⟨-, hseq, hprev, -⟩ := verifyRecords_concat hverify
  have hcount := hpre.1
  simp only [List.length_append, List.length_cons, List.length_nil] at hcount
  exact ⟨before, after, hsplit, hseq, hprev, by omega⟩

theorem prefix_of_verified (hfree : W.CollisionFree) {records : List EventRecord}
    (hfrom : ∀ r ∈ records, ∃ flowId, r ∈ W.appended flowId) {e : UInt64 × ContentHash}
    (hverify : verifyRecords C (C.verifyingKey signer) records = .ok e) :
    ∃ flowId, records <+: W.appended flowId := by
  induction records using List.reverseRecOn generalizing e with
  | nil => exact ⟨Vector.replicate 16 0, List.nil_prefix⟩
  | append_singleton pre r ih =>
    obtain ⟨⟨e₀, hpre⟩, hseq, hprev, -, -⟩ := verifyRecords_concat hverify
    obtain ⟨flowId, hr⟩ := hfrom r (by simp)
    obtain ⟨before, after, hsplit, hseq', hprev', hcount⟩ := W.place hr
    obtain ⟨flowId', hinit⟩ := ih (fun q hq => hfrom q (List.mem_append_left [r] hq)) hpre
    have hlength : pre.length = before.length := by
      have hle := hinit.length_le
      have hlimit := (W.sound flowId').1
      have hboth : (UInt64.ofNat pre.length).toNat = (UInt64.ofNat before.length).toNat := by
        rw [← hseq, ← hseq']
      rwa [LogSession.toNat_ofNat_count (by omega), LogSession.toNat_ofNat_count hcount] at hboth
    have hsame : pre = before := by
      cases pre using List.reverseRecOn with
      | nil => exact (List.eq_nil_of_length_eq_zero hlength.symm).symm
      | append_singleton pre' q _ =>
        cases before using List.reverseRecOn with
        | nil => simp at hlength
        | append_singleton before' q' _ =>
          obtain ⟨-, -, -, -, bytes, henc⟩ := verifyRecords_concat hpre
          have hq : q ∈ W.appended flowId' := hinit.subset (by simp)
          have hq' : q' ∈ W.appended flowId := by
            rw [hsplit]
            simp
          have hsound : Sound C (C.verifyingKey signer) (before' ++ [q']) := by
            have hsound := W.sound flowId
            apply hsound.of_prefix
            rw [hsplit]
            exact List.prefix_append _ _
          obtain ⟨e₁, hverify₁⟩ := hsound.2.2
          obtain ⟨-, -, -, -, bytes', henc'⟩ := verifyRecords_concat hverify₁
          have hhash : C.contentHash bytes = C.contentHash bytes' := by
            have hlink := hprev.symm.trans hprev'
            simpa only [endHash, List.getLast?_concat, henc, henc'] using hlink
          have hbytes := hfree flowId' flowId q hq q' hq' bytes bytes' henc henc' hhash
          have hrecord : q = q' := by
            have hdec := hC.decode_encode q bytes henc
            rw [hbytes, hC.decode_encode q' bytes' henc'] at hdec
            cases hdec
            rfl
          have hflow : flowId' = flowId := by
            rw [← W.flowId_of_mem hq, ← W.flowId_of_mem hq', hrecord]
          rw [hflow] at hinit
          have hbefore : before' ++ [q'] <+: W.appended flowId := by
            rw [hsplit]
            exact List.prefix_append _ _
          exact (List.prefix_of_prefix_length_le hinit hbefore hlength.le).eq_of_length hlength
    refine ⟨flowId, ?_⟩
    rw [hsplit, hsame]
    exact ⟨after, by simp⟩

theorem verifyChain_ok_iff
    (hinj : ∀ u v bytes, C.encodeUnsigned u = .ok bytes → C.encodeUnsigned v = .ok bytes → u = v)
    (hfree : W.CollisionFree) {content : List UInt8} (hforge : W.Unforged content) :
    (∃ e, verifyChain C content (C.verifyingKey signer) = .ok e) ↔
      ∃ flowId records, records <+: W.appended flowId ∧ readRecords C content = .ok records := by
  constructor
  · rintro ⟨e, hchain⟩
    cases hread : readRecords C content with
    | error err => simp [verifyChain, hread, Except.bind] at hchain
    | ok records =>
      have hverify : verifyRecords C (C.verifyingKey signer) records = .ok e := by
        simpa [verifyChain, hread, Except.bind] using hchain
      have hfrom : ∀ r ∈ records, ∃ flowId, r ∈ W.appended flowId := by
        intro r hr
        obtain ⟨before, after, hsplit⟩ := List.append_of_mem hr
        have hpre : ∃ e₀, verifyRecords C (C.verifyingKey signer) (before ++ [r]) = .ok e₀ := by
          have hrecords : records = before ++ [r] ++ after := by simp [hsplit]
          rw [hrecords] at hverify
          obtain ⟨mid, hfirst, -⟩ := Transition.foldlM_append_ok.mp hverify
          exact ⟨mid, hfirst⟩
        obtain ⟨e₀, hpre⟩ := hpre
        obtain ⟨-, -, -, ⟨toVerify, hun, hvalid⟩, -⟩ := verifyRecords_concat hpre
        obtain ⟨flowId, q, hq, hunq, hsig⟩ := hforge records hread r hr toVerify hun hvalid
        have hunsigned : r.unsigned = q.unsigned := hinj _ _ toVerify hun hunq
        have hrecord : r = q := by
          cases r
          cases q
          simp only [EventRecord.unsigned, UnsignedRecord.mk.injEq] at hunsigned hsig
          simp [hunsigned, hsig]
        rw [hrecord]
        exact ⟨flowId, hq⟩
      obtain ⟨flowId, hinit⟩ := W.prefix_of_verified hfree hfrom hverify
      exact ⟨flowId, records, hinit, rfl⟩
  · rintro ⟨flowId, records, hinit, hread⟩
    have hsound := W.sound flowId
    obtain ⟨-, -, e, hverify⟩ := hsound.of_prefix hinit
    exact ⟨e, by simp [verifyChain, hread, Except.bind, hverify]⟩

end FlowLogs

/-- When `EventLog::open` takes a content for the log of a flow, the records are the first that were
appended for the flow, exactly if it does not read back as the log of another flow. Verifying fails
on just the contents that read back as no log. -/
theorem opened_prefix_iff {hC : C.Lawful} {signer : C.SigningKey} (W : FlowLogs C hC signer)
    (hinj : ∀ u v bytes, C.encodeUnsigned u = .ok bytes → C.encodeUnsigned v = .ok bytes → u = v)
    (hfree : W.CollisionFree) {content : List UInt8} (hforge : W.Unforged content)
    (flowId : FlowId) :
    ((∀ log file, EventLog.open (some content) flowId signer = .ok (log, file) →
        ∃ records, readRecords C content = .ok records ∧ records <+: W.appended flowId) ↔
      ∀ other records, other ≠ flowId → records ≠ [] → records <+: W.appended other →
        readRecords C content ≠ .ok records) ∧
    ((∃ e, verifyChain C content (C.verifyingKey signer) = .error e) ↔
      ∀ other records, records <+: W.appended other → readRecords C content ≠ .ok records) := by
  have hverified := W.verifyChain_ok_iff hinj hfree hforge
  refine ⟨⟨?_, ?_⟩, ⟨?_, ?_⟩⟩
  · intro hopens other records hother hsome hinit hread
    obtain ⟨e, hchain⟩ := hverified.mpr ⟨other, records, hinit, hread⟩
    have hopen : EventLog.open (some content) flowId signer =
        .ok (⟨flowId, signer, e.1, e.2⟩, content) := by
      simp only [EventLog.open, hchain]
    obtain ⟨records', hread', hinit'⟩ := hopens _ _ hopen
    rw [hread] at hread'
    cases hread'
    obtain ⟨r, hr⟩ := List.exists_mem_of_ne_nil records hsome
    apply hother
    rw [← W.flowId_of_mem (hinit.subset hr), ← W.flowId_of_mem (hinit'.subset hr)]
  · intro hnone log file hopen
    cases hchain : verifyChain C content (C.verifyingKey signer) with
    | error e => simp [EventLog.open, hchain] at hopen
    | ok e =>
      obtain ⟨other, records, hinit, hread⟩ := hverified.mp ⟨e, hchain⟩
      refine ⟨records, hread, ?_⟩
      by_cases hsome : records = []
      · rw [hsome]
        exact List.nil_prefix
      · by_cases hother : other = flowId
        · rwa [hother] at hinit
        · exact absurd hread (hnone other records hother hsome hinit)
  · rintro ⟨e, hchain⟩ other records hinit hread
    obtain ⟨e', hok⟩ := hverified.mpr ⟨other, records, hinit, hread⟩
    rw [hchain] at hok
    cases hok
  · intro hnone
    cases hchain : verifyChain C content (C.verifyingKey signer) with
    | error e => exact ⟨e, rfl⟩
    | ok e =>
      obtain ⟨other, records, hinit, hread⟩ := hverified.mp ⟨e, hchain⟩
      exact absurd hread (hnone other records hinit)

theorem cborUnsigned_injective (u v : UnsignedRecord) (bytes : List UInt8)
    (hu : cborCrates.encodeUnsigned u = .ok bytes) (hv : cborCrates.encodeUnsigned v = .ok bytes) :
    u = v := by
  have hfields : ∀ w : UnsignedRecord, cborUnsigned w = .ok bytes →
      readFields (bytes.drop 1) = some (w, []) := by
    intro w hw
    by_cases hlen : w.payload.length < 2 ^ 64
    · rw [cborUnsigned, if_pos hlen] at hw
      cases hw
      have hread := readFields_cborFields hlen []
      rw [List.append_nil] at hread
      exact hread
    · rw [cborUnsigned, if_neg hlen] at hw
      cases hw
  have hsame := (hfields u hu).symm.trans (hfields v hv)
  cases hsame
  rfl

def oneFlowCalls (flowId : FlowId) : List (FrameCall (eventFrames cborCrates tornKey)) :=
  if flowId = tornFlow then [.open tornFlow, .append 0 tornEntry] else []

theorem oneFlow_run :
    ∃ record bytes, cborCrates.encode record = .ok bytes ∧ record.signature = tornKey ∧
      run FrameSession.exec
        (FrameSession.fresh : FrameSession (eventFrames cborCrates tornKey))
        [.open tornFlow, .append 0 tornEntry] =
      ⟨some (frame bytes), [{ tornLog with
        lastHash := cborCrates.contentHash bytes, nextSeq := tornLog.nextSeq + 1 }],
        [record], [record], false⟩ := by
  obtain ⟨record, bytes, hsign, -⟩ := tornLog_signs
  have hsign' := hsign
  rw [eventFrames_sign] at hsign'
  have hopen : FrameSession.exec (FrameSession.fresh : FrameSession (eventFrames cborCrates tornKey))
      (.open tornFlow) = tornSession [] [tornLog] false := rfl
  have hhandle : (tornSession [] [tornLog] false).handles[0]? = some tornLog := rfl
  have hroom : tornLog.nextSeq.toNat < maxRecordsPerRead := by decide
  have happend := @eventFrames_append_ok cborCrates tornKey tornLog tornEntry record bytes
    hsign' hroom ((tornSession [] [tornLog] false).file.getD [])
  have hlast := FrameSession.exec_append_ok hhandle hsign happend
  obtain ⟨-, -, -, -, -, -, ⟨toSign, -, hsig⟩, henc, -⟩ := EventLog.signRecord_ok hsign'
  refine ⟨record, bytes, henc, hsig, ?_⟩
  rw [run_cons, hopen, run_cons, run_nil, hlast]
  rfl

def oneFlow : FlowLogs cborCrates cborCrates_lawful tornKey where
  calls := oneFlowCalls
  ofFlow flowId call hcall := by
    by_cases hflow : flowId = tornFlow
    · rw [oneFlowCalls, if_pos hflow] at hcall
      rcases List.mem_cons.mp hcall with rfl | hcall
      · exact hflow.symm
      · rw [List.mem_singleton.mp hcall]
        trivial
    · rw [oneFlowCalls, if_neg hflow] at hcall
      cases hcall
  meets flowId := by
    by_cases hflow : flowId = tornFlow
    · rw [oneFlowCalls, if_pos hflow]
      refine ⟨trivial, ?_, trivial⟩
      intro log hlog
      cases hlog
      obtain ⟨record, bytes, hsign, hlen⟩ := tornLog_signs
      refine ⟨rfl, ⟨rfl, rfl⟩, ?_⟩
      intro record' bytes' hsign'
      have hsame := hsign.symm.trans hsign'
      cases hsame
      refine ⟨?_, ?_⟩
      · show 0 + 1 < maxRecordsPerRead
        decide
      · apply hlen.trans
        decide
    · rw [oneFlowCalls, if_neg hflow]
      trivial

theorem oneFlow_appended :
    ∃ record bytes, cborCrates.encode record = .ok bytes ∧ record.signature = tornKey ∧
      oneFlow.appended tornFlow = [record] ∧
      (∀ flowId, flowId ≠ tornFlow → oneFlow.appended flowId = []) ∧
      readRecords cborCrates (frame bytes) = .ok [record] := by
  obtain ⟨record, bytes, henc, hsig, hrun⟩ := oneFlow_run
  have happended : oneFlow.appended tornFlow = [record] := by
    show (run FrameSession.exec _ (oneFlowCalls tornFlow)).appended = [record]
    rw [oneFlowCalls, if_pos rfl, hrun]
    rfl
  have hsound := oneFlow.sound tornFlow
  rw [happended] at hsound
  have hlimit := hsound.2.1 record List.mem_cons_self bytes henc
  have hbytes : bytes.length < 2 ^ 32 := by
    have hmax : maxRecordSize = 10 * 1024 * 1024 := rfl
    omega
  have hread : EventGood cborCrates tornKey [record] [bytes] :=
    ⟨List.Forall₂.cons ⟨henc, hbytes⟩ List.Forall₂.nil, hsound⟩
  refine ⟨record, bytes, henc, hsig, happended, ?_, ?_⟩
  · intro flowId hflow
    show (run FrameSession.exec _ (oneFlowCalls flowId)).appended = []
    rw [oneFlowCalls, if_neg hflow]
    rfl
  · have hshort := @EventGood.read _ cborCrates_lawful _ _ _ hread [] (by decide)
    simpa using hshort

theorem oneFlow_collisionFree : oneFlow.CollisionFree := by
  obtain ⟨record, -, -, -, happended, hothers, -⟩ := oneFlow_appended
  have hmem : ∀ flowId, ∀ r ∈ oneFlow.appended flowId, r = record := by
    intro flowId r hr
    by_cases hflow : flowId = tornFlow
    · rw [hflow, happended] at hr
      exact List.mem_singleton.mp hr
    · rw [hothers flowId hflow] at hr
      cases hr
  intro flowId flowId' r hr q hq bytes bytes' hbytes hbytes' _
  rw [hmem flowId r hr] at hbytes
  rw [hmem flowId' q hq, hbytes] at hbytes'
  cases hbytes'
  rfl

theorem oneFlow_unforged {record : EventRecord} {content : List UInt8}
    (hmem : record ∈ oneFlow.appended tornFlow)
    (hread : readRecords cborCrates content = .ok [record]) : oneFlow.Unforged content := by
  intro records hrecords r hr toVerify hun _
  rw [hread] at hrecords
  cases hrecords
  rw [List.mem_singleton.mp hr] at hun ⊢
  exact ⟨tornFlow, record, hmem, hun, rfl⟩

theorem opened_prefix_one_flow :
    ∃ content records, records ≠ [] ∧ readRecords cborCrates content = .ok records ∧
      ∀ log file, EventLog.open (C := cborCrates) (some content) tornFlow tornKey =
          .ok (log, file) →
        ∃ records, readRecords cborCrates content = .ok records ∧
          records <+: oneFlow.appended tornFlow := by
  obtain ⟨record, bytes, -, -, happended, hothers, hread⟩ := oneFlow_appended
  have hmem : record ∈ oneFlow.appended tornFlow := by
    rw [happended]
    exact List.mem_cons_self
  have hforge := oneFlow_unforged hmem hread
  refine ⟨frame bytes, [record], by simp, hread, ?_⟩
  apply (opened_prefix_iff oneFlow cborUnsigned_injective oneFlow_collisionFree hforge
    tornFlow).1.mpr
  intro other records hother hsome hinit _
  rw [hothers other hother] at hinit
  exact hsome (List.prefix_nil.mp hinit)

/-- The log of one flow opened as the log of another, in which nothing was appended. -/
theorem other_flow_opens :
    oneFlow.CollisionFree ∧ ∃ content record log file,
      oneFlow.Unforged content ∧
      EventLog.open (C := cborCrates) (some content) (Vector.replicate 16 2) tornKey =
        .ok (log, file) ∧
      readRecords cborCrates content = .ok [record] ∧
      ¬ [record] <+: oneFlow.appended (Vector.replicate 16 2) := by
  obtain ⟨record, bytes, -, -, happended, hothers, hread⟩ := oneFlow_appended
  have hmem : record ∈ oneFlow.appended tornFlow := by
    rw [happended]
    exact List.mem_cons_self
  have hsound := oneFlow.sound tornFlow
  rw [happended] at hsound
  obtain ⟨-, -, e, hverify⟩ := hsound
  have hchain : verifyChain cborCrates (frame bytes) (cborCrates.verifyingKey tornKey) =
      .ok e := by
    simp only [verifyChain, hread, Except.bind, hverify]
  refine ⟨oneFlow_collisionFree, frame bytes, record,
    ⟨Vector.replicate 16 2, tornKey, e.1, e.2⟩, frame bytes,
    oneFlow_unforged hmem hread, ?_, hread, ?_⟩
  · simp only [EventLog.open, hchain]
  · have hother : (Vector.replicate 16 2 : FlowId) ≠ tornFlow := by decide
    rw [hothers _ hother, List.prefix_nil]
    simp

end Relux
