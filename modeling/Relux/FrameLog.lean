import Mathlib.Data.List.Sublists
import Relux.BigEndian
import Relux.Transition

/-! Logs that write each record behind its length and may be cut off while they write. What
is needed of a log so that its file is either read back whole or refused, in every run. -/

namespace Relux

open Transition

variable {bytes : List UInt8} {n : Nat}

theorem ofBeBytes_take_frame (h : bytes.length < 2 ^ 32) (hn : 4 ≤ n) :
    ofBeBytes (((frame bytes).take n).take 4) = bytes.length := by
  have hframe := ofBeBytes_frame h []
  rw [List.take_take, Nat.min_eq_left hn]
  exact hframe

theorem take_frame_length (h : n < (frame bytes).length) :
    ((frame bytes).take n).length = n := by
  rw [List.length_take]
  omega

theorem length_frame (bytes : List UInt8) : (frame bytes).length = 4 + bytes.length := by
  simpa using frame_length bytes []

theorem torn_frame (hlen : bytes.length < 2 ^ 32) (hfour : 4 ≤ n)
    (hshort : n < (frame bytes).length) :
    ¬((frame bytes).take n).length < 4 ∧
      ofBeBytes (((frame bytes).take n).take 4) = bytes.length ∧
      (((frame bytes).take n).drop 4).length < bytes.length := by
  have hn := take_frame_length hshort
  have hall := length_frame bytes
  refine ⟨by omega, ofBeBytes_take_frame hlen hfour, ?_⟩
  rw [List.length_drop]
  omega

/-- What comes of opening a log: the file may be refused, or go on, or be put away for a
new one. -/
inductive Opened (Handle Error : Type)
  | refused (e : Error)
  | opened (h : Handle) (file : List UInt8)
  | replaced (h : Handle) (file : List UInt8)

structure FrameLog where
  Handle : Type
  Record : Type
  Error : Type
  Key : Type
  Entry : Type
  reopen : Key → Option (List UInt8) → Opened Handle Error
  sign : Handle → Entry → Except Error (Record × List UInt8)
  append : Handle → Entry → List UInt8 → Except Error Unit × Handle × List UInt8
  read : List UInt8 → Except Error (List Record)

variable (L : FrameLog)

/-- An append may be cut off after `n` bytes of the length and the record, and is then an
error: the handle stays as it was. After a crash the handles are not used any more. -/
inductive FrameCall
  | open (key : L.Key)
  | append (handle : Nat) (entry : L.Entry)
  | cut (handle : Nat) (entry : L.Entry) (n : Nat)

/-- The file and the handles open on it; the records that are whole in the file, those whose
append returned, and whether a part of another one is behind them. -/
structure FrameSession where
  file : Option (List UInt8)
  handles : List L.Handle
  written : List L.Record
  appended : List L.Record
  torn : Bool

variable {s : FrameSession L} {handle : Nat} {log : L.Handle} {entry : L.Entry}

namespace FrameSession

variable {L}

def fresh : FrameSession L := ⟨none, [], [], [], false⟩

def exec (s : FrameSession L) : FrameCall L → FrameSession L
  | .open key =>
    match L.reopen key s.file with
    | .refused _ => s
    | .opened h file => { s with file := some file, handles := s.handles ++ [h] }
    | .replaced h file => ⟨some file, [h], [], [], false⟩
  | .append handle entry =>
    match s.handles[handle]? with
    | none => s
    | some h =>
      match L.append h entry (s.file.getD []), L.sign h entry with
      | (.ok (), h', file), .ok (record, _) =>
        { s with
          file := some file
          handles := s.handles.set handle h'
          written := s.written ++ [record]
          appended := s.appended ++ [record] }
      | (_, h', file), _ => { s with file := some file, handles := s.handles.set handle h' }
  | .cut handle entry n =>
    match s.handles[handle]? with
    | none => s
    | some h =>
      match L.sign h entry with
      | .error _ => s
      | .ok (record, bytes) =>
        { s with
          file := some (s.file.getD [] ++ (frame bytes).take n)
          written := if n < (frame bytes).length then s.written else s.written ++ [record]
          torn := s.torn || decide (0 < n ∧ n < (frame bytes).length) }

theorem exec_none (h : s.handles[handle]? = none) (entry : L.Entry) :
    s.exec (.append handle entry) = s ∧ ∀ n, s.exec (.cut handle entry n) = s := by
  simp [exec, h]

variable {file : List UInt8}

theorem exec_opened {key : L.Key} (h : L.reopen key s.file = .opened log file) :
    s.exec (.open key) = { s with file := some file, handles := s.handles ++ [log] } := by
  simp only [exec, h]

variable {record : L.Record}

theorem exec_append_ok {log' : L.Handle}
    (hlog : s.handles[handle]? = some log) (hsign : L.sign log entry = .ok (record, bytes))
    (happend : L.append log entry (s.file.getD []) = (.ok (), log', file)) :
    s.exec (.append handle entry) =
      { s with
        file := some file
        handles := s.handles.set handle log'
        written := s.written ++ [record]
        appended := s.appended ++ [record] } := by
  simp only [exec, hlog, happend, hsign]

theorem exec_cut (hlog : s.handles[handle]? = some log)
    (hsign : L.sign log entry = .ok (record, bytes)) (n : Nat) :
    s.exec (.cut handle entry n) =
      { s with
        file := some (s.file.getD [] ++ (frame bytes).take n)
        written := if n < (frame bytes).length then s.written else s.written ++ [record]
        torn := s.torn || decide (0 < n ∧ n < (frame bytes).length) } := by
  simp only [exec, hlog, hsign]

/-- The file is read back as the records in it, those whose append returned among them, and
can be opened. -/
def ReadsBack (s : FrameSession L) (file : List UInt8) : Prop :=
  L.read file = .ok s.written ∧ s.appended.Sublist s.written ∧
    ∀ key, ∃ h, L.reopen key (some file) = .opened h file

def Detected (s : FrameSession L) : Prop :=
  ∀ file, s.file = some file →
    (s.torn = true ∧ ∀ key, ∃ e, L.reopen key (some file) = .refused e) ∨ s.ReadsBack file

end FrameSession

/-- What is used of a log. `Own` is what a handle keeps, `Stands` that it is at the end of the
records, `Good` that these records verify and can be read from these bytes, `Fits` that one more
can. Less than a length behind the records is not seen. -/
structure FrameLog.Spec where
  Own : L.Handle → Prop
  Stands : L.Handle → List L.Record → Prop
  Good : List L.Record → List (List UInt8) → Prop
  Fits : List L.Record → List UInt8 → Prop
  good_nil : Good [] []
  reopen_new : ∀ key, ∃ h, Own h ∧ L.reopen key none = .opened h []
  read_short : ∀ {records encs}, Good records encs → ∀ {tail}, tail.length < 4 →
    L.read (frames encs ++ tail) = .ok records
  reopen_short : ∀ key {records encs}, Good records encs → ∀ {tail}, tail.length < 4 →
    ∃ h, Own h ∧ L.reopen key (some (frames encs ++ tail)) = .opened h (frames encs ++ tail)
  reopen_torn : ∀ key {records encs}, Good records encs → ∀ {h entry record bytes},
    L.sign h entry = .ok (record, bytes) → ∀ n, 4 ≤ n → n < (frame bytes).length →
      ∃ e, L.reopen key (some (frames encs ++ (frame bytes).take n)) = .refused e
  append_error : ∀ {h entry e}, L.sign h entry = .error e →
    ∀ file, L.append h entry file = (.error e, h, file)
  append_ok : ∀ {records encs h}, Good records encs → Own h → Stands h records →
    ∀ {entry record bytes}, L.sign h entry = .ok (record, bytes) → Fits records bytes →
      Good (records ++ [record]) (encs ++ [bytes]) ∧
        ∀ file, ∃ h', Own h' ∧ L.append h entry file = (.ok (), h', file ++ frame bytes)

namespace FrameSession

variable {L} (S : L.Spec)

/-- Nothing is cut off behind the records, the handle is at their end, and there is room for
one more. -/
def Ready (s : FrameSession L) (handle : Nat) (entry : L.Entry) : Prop :=
  ∀ h, s.handles[handle]? = some h →
    s.torn = false ∧ S.Stands h s.written ∧
      ∀ record bytes, L.sign h entry = .ok (record, bytes) → S.Fits s.written bytes

/-- No append is made behind a part of another one, whether it is cut off itself or not. -/
def Meets (s : FrameSession L) : FrameCall L → Prop
  | .open _ => True
  | .append handle entry => s.Ready S handle entry
  | .cut handle entry n => n = 0 ∨ s.Ready S handle entry

/-- The file holds the records, and behind them what an append left that was cut off: with
its length it is refused. -/
structure Standing (s : FrameSession L) : Prop where
  own : ∀ h ∈ s.handles, S.Own h
  appended : s.appended.Sublist s.written
  file : (s.file = none ∧ s.handles = [] ∧ s.written = [] ∧ s.torn = false) ∨
    ∃ encs tail, S.Good s.written encs ∧ s.file = some (frames encs ++ tail) ∧
      (s.torn = false → tail = []) ∧
      (4 ≤ tail.length → ∀ key, ∃ e, L.reopen key (some (frames encs ++ tail)) = .refused e)

variable {S}

theorem standing_fresh : (fresh : FrameSession L).Standing S :=
  ⟨by simp [fresh], List.Sublist.refl _, Or.inl ⟨rfl, rfl, rfl, rfl⟩⟩

theorem Standing.detected (h : s.Standing S) : s.Detected := by
  intro file hfile
  rcases h.file with ⟨hnone, -, -, -⟩ | ⟨encs, tail, hgood, hsome, htail, hrefused⟩
  · rw [hnone] at hfile
    cases hfile
  · rw [hsome] at hfile
    cases hfile
    by_cases hshort : tail.length < 4
    · right
      refine ⟨S.read_short hgood hshort, h.appended, ?_⟩
      intro key
      obtain ⟨log, -, hopen⟩ := S.reopen_short key hgood hshort
      exact ⟨log, hopen⟩
    · left
      refine ⟨?_, hrefused (Nat.le_of_not_lt hshort)⟩
      by_contra hwhole
      have hempty := htail (Bool.eq_false_iff.mpr hwhole)
      rw [hempty] at hshort
      exact hshort (by decide)

theorem Standing.open {s : FrameSession L} (h : s.Standing S) (key : L.Key) :
    (s.exec (.open key)).Standing S := by
  have hadd : ∀ log, S.Own log → ∀ log' ∈ s.handles ++ [log], S.Own log' := by
    intro log hown log' hlog'
    rcases List.mem_append.mp hlog' with hold | hnew
    · exact h.own log' hold
    · rw [List.mem_singleton.mp hnew]
      exact hown
  rcases h.file with ⟨hnone, -, hempty, -⟩ | ⟨encs, tail, hgood, hfile, htail, hrefused⟩
  · obtain ⟨log, hown, hopen⟩ := S.reopen_new key
    rw [← hnone] at hopen
    rw [exec_opened hopen]
    refine ⟨hadd log hown, h.appended, Or.inr ⟨[], [], ?_, rfl, fun _ => rfl, ?_⟩⟩
    · rw [hempty]
      exact S.good_nil
    · intro hlong
      cases hlong
  · by_cases hshort : tail.length < 4
    · obtain ⟨log, hown, hopen⟩ := S.reopen_short key hgood hshort
      rw [← hfile] at hopen
      rw [exec_opened hopen]
      exact ⟨hadd log hown, h.appended, Or.inr ⟨encs, tail, hgood, rfl, htail, hrefused⟩⟩
    · obtain ⟨e, hopen⟩ := hrefused (Nat.le_of_not_lt hshort) key
      rw [← hfile] at hopen
      simp only [exec, hopen]
      exact h

theorem Standing.whole (h : s.Standing S) (hlog : s.handles[handle]? = some log)
    (hwhole : s.torn = false) :
    S.Own log ∧ ∃ encs, S.Good s.written encs ∧ s.file = some (frames encs) := by
  refine ⟨h.own log (List.mem_of_getElem? hlog), ?_⟩
  rcases h.file with ⟨-, hhandles, -, -⟩ | ⟨encs, tail, hgood, hfile, htail, -⟩
  · rw [hhandles] at hlog
    cases hlog
  · rw [htail hwhole, List.append_nil] at hfile
    exact ⟨encs, hgood, hfile⟩

theorem standing_of_good (hown : ∀ h ∈ s.handles, S.Own h)
    (happended : s.appended.Sublist s.written) {encs : List (List UInt8)}
    (hgood : S.Good s.written encs) (hfile : s.file = some (frames encs)) : s.Standing S := by
  refine ⟨hown, happended, Or.inr ⟨encs, [], hgood, ?_, fun _ => rfl, ?_⟩⟩
  · rw [hfile, List.append_nil]
  · intro hlong
    cases hlong

theorem Standing.append {s : FrameSession L} (h : s.Standing S) {handle : Nat} {entry : L.Entry}
    (hready : s.Ready S handle entry) : (s.exec (.append handle entry)).Standing S := by
  cases hlog : s.handles[handle]? with
  | none => rwa [(exec_none hlog entry).1]
  | some log =>
    obtain ⟨hwhole, hstands, hfits⟩ := hready log hlog
    obtain ⟨hown, encs, hgood, hfile⟩ := h.whole hlog hwhole
    have hset : ∀ log', S.Own log' → ∀ log'' ∈ s.handles.set handle log', S.Own log'' := by
      intro log' hown' log'' hmem
      rcases List.mem_or_eq_of_mem_set hmem with hold | hnew
      · exact h.own log'' hold
      · rw [hnew]
        exact hown'
    cases hsign : L.sign log entry with
    | error e =>
      simp only [exec, hlog, S.append_error hsign]
      refine standing_of_good (hset log hown) h.appended hgood ?_
      rw [hfile, Option.getD_some]
    | ok result =>
      obtain ⟨record, bytes⟩ := result
      obtain ⟨hnext, happend⟩ := S.append_ok hgood hown hstands hsign (hfits record bytes hsign)
      obtain ⟨log', hown', hreturns⟩ := happend (s.file.getD [])
      rw [exec_append_ok hlog hsign hreturns]
      refine standing_of_good (hset log' hown') (h.appended.append (List.Sublist.refl _)) hnext ?_
      rw [hfile, Option.getD_some, frames_append, frames_cons, frames_nil, List.append_nil]

theorem Standing.cut_nothing (h : s.Standing S) (handle : Nat) (entry : L.Entry) :
    (s.exec (.cut handle entry 0)).Standing S := by
  cases hlog : s.handles[handle]? with
  | none => rwa [(exec_none hlog entry).2]
  | some log =>
    cases hsign : L.sign log entry with
    | error e =>
      simp only [exec, hlog, hsign]
      exact h
    | ok result =>
      obtain ⟨record, bytes⟩ := result
      have hshort : 0 < (frame bytes).length := by
        rw [length_frame]
        omega
      rw [exec_cut hlog hsign, if_pos hshort, List.take_zero, List.append_nil]
      refine ⟨h.own, h.appended, ?_⟩
      rcases h.file with ⟨-, hhandles, -, -⟩ | ⟨encs, tail, hgood, hfile, htail, hrefused⟩
      · rw [hhandles] at hlog
        cases hlog
      · refine Or.inr ⟨encs, tail, hgood, ?_, ?_, hrefused⟩
        · rw [hfile, Option.getD_some]
        · intro hflag
          apply htail
          simpa using hflag

theorem Standing.cut (h : s.Standing S) {n : Nat} (hready : s.Ready S handle entry) :
    (s.exec (.cut handle entry n)).Standing S := by
  cases hlog : s.handles[handle]? with
  | none => rwa [(exec_none hlog entry).2]
  | some log =>
    cases hsign : L.sign log entry with
    | error e =>
      simp only [exec, hlog, hsign]
      exact h
    | ok result =>
      obtain ⟨record, bytes⟩ := result
      obtain ⟨hwhole, hstands, hfits⟩ := hready log hlog
      obtain ⟨hown, encs, hgood, hfile⟩ := h.whole hlog hwhole
      rw [exec_cut hlog hsign]
      by_cases hshort : n < (frame bytes).length
      · rw [if_pos hshort]
        refine ⟨h.own, h.appended, Or.inr ⟨encs, (frame bytes).take n, hgood, ?_, ?_, ?_⟩⟩
        · rw [hfile, Option.getD_some]
        · intro hflag
          have hzero : n = 0 := by
            rw [hwhole, Bool.false_or, decide_eq_false_iff_not] at hflag
            omega
          rw [hzero, List.take_zero]
        · intro hlong key
          rw [take_frame_length hshort] at hlong
          exact S.reopen_torn key hgood hsign n hlong hshort
      · -- the record is whole in the file, and the handle does not know of it
        obtain ⟨hnext, -⟩ := S.append_ok hgood hown hstands hsign (hfits record bytes hsign)
        rw [if_neg hshort, List.take_of_length_le (Nat.le_of_not_lt hshort)]
        have hmore := h.appended.trans (List.sublist_append_left s.written [record])
        refine standing_of_good h.own hmore hnext ?_
        rw [hfile, Option.getD_some, frames_append, frames_cons, frames_nil, List.append_nil]

theorem Standing.exec {s : FrameSession L} (h : s.Standing S) {call : FrameCall L}
    (hmeets : s.Meets S call) : (s.exec call).Standing S := by
  cases call with
  | «open» key => exact h.open key
  | append handle entry => exact h.append hmeets
  | cut handle entry n =>
    rcases hmeets with rfl | hready
    · exact h.cut_nothing handle entry
    · exact h.cut hready

variable {calls : List (FrameCall L)}

theorem Standing.run {s : FrameSession L} (h : s.Standing S)
    (hmeets : Guarded FrameSession.exec (Meets S) s calls) :
    (Transition.run FrameSession.exec s calls).Standing S := by
  induction calls generalizing s with
  | nil => exact h
  | cons call calls ih => exact ih (h.exec hmeets.1) hmeets.2

theorem detected_of_meets (S : L.Spec) (hmeets : Guarded FrameSession.exec (Meets S) fresh calls) :
    (Transition.run FrameSession.exec (fresh : FrameSession L) calls).Detected :=
  (standing_fresh.run hmeets).detected

end FrameSession

end Relux
