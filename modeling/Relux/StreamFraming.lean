import Relux.FrameLog

/-! The frames of a stream between two nodes, each behind its length in four bytes, and what a
reader makes of a stream that is cut off. -/

namespace Relux

namespace Transport

def MAX_FRAME_BYTES : Nat := 1048576

inductive IoErrorKind where
  | unexpectedEof
  | invalidInput
  | invalidData
  deriving DecidableEq

structure IoError where
  kind : IoErrorKind
  message : String
  deriving DecidableEq

inductive StreamFrame where
  | header (responder aid : List UInt8) (processedAt : Int)
  | chunk (bytes : List UInt8)
  | end
  | err (kind : Nat) (cause : String)
  deriving DecidableEq

structure FrameCodec where
  intoWriter : StreamFrame → Except String (List UInt8)
  fromReader : List UInt8 → Except String StreamFrame
  lawful : ∀ f bytes, intoWriter f = .ok bytes → fromReader bytes = .ok f

def readExact (n : Nat) (stream : List UInt8) : Except IoError (List UInt8 × List UInt8) :=
  if stream.length < n then .error ⟨.unexpectedEof, "unexpected end of file"⟩
  else .ok (stream.take n, stream.drop n)

def writeLengthPrefixed (stream bytes : List UInt8) : Except IoError (List UInt8) :=
  if MAX_FRAME_BYTES < bytes.length then
    .error ⟨.invalidInput,
      s!"stream frame too large: {bytes.length} bytes exceeds cap {MAX_FRAME_BYTES}"⟩
  else .ok (stream ++ (beBytes 4 bytes.length ++ bytes))

def readLengthPrefixed (stream : List UInt8) :
    Except IoError (Option (List UInt8 × List UInt8)) :=
  match readExact 4 stream with
  | .error e => if e.kind = .unexpectedEof then .ok none else .error e
  | .ok (lenBuf, rest) =>
    if MAX_FRAME_BYTES < ofBeBytes lenBuf then
      .error ⟨.invalidData,
        s!"incoming frame announced {ofBeBytes lenBuf} bytes (cap {MAX_FRAME_BYTES})"⟩
    else (readExact (ofBeBytes lenBuf) rest).map some

variable (C : FrameCodec)

def encodeFrame (frame : StreamFrame) : Except IoError (List UInt8) :=
  (C.intoWriter frame).mapError (fun e => ⟨.invalidData, s!"stream frame encode: {e}"⟩)

def decodeFrame (bytes : List UInt8) : Except IoError StreamFrame :=
  (C.fromReader bytes).mapError (fun e => ⟨.invalidData, s!"stream frame decode: {e}"⟩)

def writeFrame (stream : List UInt8) (frame : StreamFrame) : Except IoError (List UInt8) :=
  (encodeFrame C frame).bind (writeLengthPrefixed stream)

def nextFrame (stream : List UInt8) : Except IoError (Option (StreamFrame × List UInt8)) :=
  match readLengthPrefixed stream with
  | .error e => .error e
  | .ok none => .ok none
  | .ok (some (bytes, rest)) => (decodeFrame C bytes).map (fun frame => some (frame, rest))

variable {C} {stream rest bytes : List UInt8} {frame : StreamFrame} {n : Nat}

theorem readExact_ok {head : List UInt8} (h : readExact n stream = .ok (head, rest)) :
    n + rest.length = stream.length := by
  unfold readExact at h
  split at h
  · cases h
  next hlong =>
    cases h
    rw [List.length_drop]
    omega

theorem readLengthPrefixed_shorter (h : readLengthPrefixed stream = .ok (some (bytes, rest))) :
    rest.length < stream.length := by
  unfold readLengthPrefixed at h
  cases hlen : readExact 4 stream with
  | error e =>
    rw [hlen] at h
    dsimp only at h
    split at h <;> cases h
  | ok len =>
    obtain ⟨lenBuf, behind⟩ := len
    have hfour := readExact_ok hlen
    rw [hlen] at h
    dsimp only at h
    split at h
    · cases h
    · cases hbody : readExact (ofBeBytes lenBuf) behind with
      | error e =>
        rw [hbody] at h
        cases h
      | ok body =>
        rw [hbody] at h
        cases h
        have hrest := readExact_ok hbody
        omega

theorem nextFrame_shorter (h : nextFrame C stream = .ok (some (frame, rest))) :
    rest.length < stream.length := by
  unfold nextFrame at h
  cases hread : readLengthPrefixed stream with
  | error e =>
    rw [hread] at h
    cases h
  | ok read =>
    rw [hread] at h
    cases read with
    | none => cases h
    | some read =>
      obtain ⟨bytes, behind⟩ := read
      cases hdecode : decodeFrame C bytes with
      | error e =>
        dsimp only at h
        rw [hdecode] at h
        cases h
      | ok f =>
        dsimp only at h
        rw [hdecode] at h
        cases h
        exact readLengthPrefixed_shorter hread

variable (C) in
/-- The frames that a reader gets of a stream until it ends, and the error it ends with if it does
not end cleanly. -/
def framesRead (stream : List UInt8) : List StreamFrame × Option IoError :=
  match h : nextFrame C stream with
  | .error e => ([], some e)
  | .ok none => ([], none)
  | .ok (some (frame, rest)) =>
    have := nextFrame_shorter h
    (frame :: (framesRead rest).1, (framesRead rest).2)
termination_by stream.length

theorem readLengthPrefixed_frame (h : bytes.length ≤ MAX_FRAME_BYTES) (rest : List UInt8) :
    readLengthPrefixed (Relux.frame bytes ++ rest) = .ok (some (bytes, rest)) := by
  unfold MAX_FRAME_BYTES at h
  have hlength := frame_length bytes rest
  have hhead := @ofBeBytes_frame bytes (by omega) rest
  have hbehind := drop_frame bytes rest
  have hfour : readExact 4 (Relux.frame bytes ++ rest) =
      .ok ((Relux.frame bytes ++ rest).take 4, bytes ++ rest) := by
    rw [readExact, if_neg (by omega), hbehind]
  have hbody : readExact bytes.length (bytes ++ rest) = .ok (bytes, rest) := by
    rw [readExact, if_neg (by simp), List.take_left' rfl, List.drop_left' rfl]
  have hsmall : ¬MAX_FRAME_BYTES < bytes.length := by
    unfold MAX_FRAME_BYTES
    omega
  rw [readLengthPrefixed, hfour]
  dsimp only
  rw [hhead, if_neg hsmall, hbody]
  rfl

theorem readLengthPrefixed_short (h : stream.length < 4) :
    readLengthPrefixed stream = .ok none := by
  have hfour : readExact 4 stream = .error ⟨.unexpectedEof, "unexpected end of file"⟩ := if_pos h
  rw [readLengthPrefixed, hfour]
  rfl

def unexpectedEnd : IoError := ⟨.unexpectedEof, "unexpected end of file"⟩

theorem readLengthPrefixed_torn (h : bytes.length ≤ MAX_FRAME_BYTES) (hfour : 4 ≤ n)
    (hshort : n < (Relux.frame bytes).length) :
    readLengthPrefixed ((Relux.frame bytes).take n) = .error unexpectedEnd := by
  have hsmall : ¬MAX_FRAME_BYTES < bytes.length := by omega
  unfold MAX_FRAME_BYTES at h
  have hn := take_frame_length hshort
  have hhead := ofBeBytes_take_frame (by omega : bytes.length < 2 ^ 32) hfour
  have hall := length_frame bytes
  have hlen : readExact 4 ((Relux.frame bytes).take n) =
      .ok (((Relux.frame bytes).take n).take 4, ((Relux.frame bytes).take n).drop 4) :=
    if_neg (by omega)
  have hbody : readExact bytes.length (((Relux.frame bytes).take n).drop 4) =
      .error unexpectedEnd := by
    rw [readExact, if_pos (by rw [List.length_drop]; omega)]
    rfl
  rw [readLengthPrefixed, hlen]
  dsimp only
  rw [hhead, if_neg hsmall, hbody]
  rfl

/-- How many frames are whole in the first `n` bytes. -/
def whole : List (List UInt8) → Nat → Nat
  | [], _ => 0
  | b :: l, n => if (Relux.frame b).length ≤ n then whole l (n - (Relux.frame b).length) + 1 else 0

/-- How many of the first `n` bytes are behind the frames that are whole in them. -/
def leftover : List (List UInt8) → Nat → Nat
  | [], _ => 0
  | b :: l, n => if (Relux.frame b).length ≤ n then leftover l (n - (Relux.frame b).length) else n

def AtBoundary (encs : List (List UInt8)) (n : Nat) : Prop :=
  ∃ done, done <+: encs ∧ (frames done).length = n

variable {encs : List (List UInt8)} {sent : List StreamFrame}

theorem atBoundary_iff (h : n ≤ (frames encs).length) :
    AtBoundary encs n ↔ leftover encs n = 0 := by
  induction encs generalizing n with
  | nil =>
    have hzero : n = 0 := Nat.le_zero.mp h
    exact iff_of_true ⟨[], List.prefix_rfl, hzero.symm⟩ rfl
  | cons b l ih =>
    have hall := length_frame b
    rw [frames_cons, List.length_append] at h
    unfold leftover
    by_cases hwhole : (Relux.frame b).length ≤ n
    · rw [if_pos hwhole, ← ih (by omega)]
      constructor
      · rintro ⟨done, hprefix, hlength⟩
        cases done with
        | nil =>
          have hnone : n = 0 := hlength.symm
          omega
        | cons d done =>
          obtain ⟨rfl, htail⟩ := List.cons_prefix_cons.mp hprefix
          rw [frames_cons, List.length_append] at hlength
          exact ⟨done, htail, by omega⟩
      · rintro ⟨done, hprefix, hlength⟩
        refine ⟨b :: done, List.cons_prefix_cons.mpr ⟨rfl, hprefix⟩, ?_⟩
        rw [frames_cons, List.length_append]
        omega
    · rw [if_neg hwhole]
      constructor
      · rintro ⟨done, hprefix, hlength⟩
        cases done with
        | nil => exact hlength.symm
        | cons d done =>
          obtain ⟨rfl, -⟩ := List.cons_prefix_cons.mp hprefix
          rw [frames_cons, List.length_append] at hlength
          omega
      · intro hzero
        exact ⟨[], List.nil_prefix, hzero.symm⟩

theorem leftover_all (encs : List (List UInt8)) :
    leftover encs (frames encs).length = 0 :=
  (atBoundary_iff (Nat.le_refl _)).mp ⟨encs, List.prefix_rfl, rfl⟩

theorem whole_all (encs : List (List UInt8)) : whole encs (frames encs).length = encs.length := by
  induction encs with
  | nil => rfl
  | cons b l ih =>
    rw [whole, frames_cons, List.length_append, if_pos (by omega), Nat.add_sub_cancel_left, ih,
      List.length_cons]

/-- A frame of the stream and its bytes. -/
def Framed (C : FrameCodec) (frame : StreamFrame) (bytes : List UInt8) : Prop :=
  encodeFrame C frame = .ok bytes ∧ bytes.length ≤ MAX_FRAME_BYTES

theorem Framed.decode (h : Framed C frame bytes) : decodeFrame C bytes = .ok frame := by
  have hencode := h.1
  unfold encodeFrame at hencode
  cases hwriter : C.intoWriter frame with
  | error e =>
    rw [hwriter] at hencode
    cases hencode
  | ok written =>
    rw [hwriter] at hencode
    cases hencode
    rw [decodeFrame, C.lawful frame bytes hwriter]
    rfl

theorem Framed.write (h : Framed C frame bytes) (stream : List UInt8) :
    writeFrame C stream frame = .ok (stream ++ Relux.frame bytes) := by
  rw [writeFrame, h.1]
  exact if_neg (Nat.not_lt.mpr h.2)

theorem Framed.nextFrame (h : Framed C frame bytes) (rest : List UInt8) :
    nextFrame C (Relux.frame bytes ++ rest) = .ok (some (frame, rest)) := by
  rw [Transport.nextFrame, readLengthPrefixed_frame h.2]
  dsimp only
  rw [h.decode]
  rfl

theorem framesRead_some (h : nextFrame C stream = .ok (some (frame, rest))) :
    framesRead C stream = (frame :: (framesRead C rest).1, (framesRead C rest).2) := by
  rw [framesRead]
  split
  next hcase => rw [h] at hcase; cases hcase
  next hcase => rw [h] at hcase; cases hcase
  next hcase =>
    rw [h] at hcase
    cases hcase
    rfl

theorem framesRead_none (h : readLengthPrefixed stream = .ok none) :
    framesRead C stream = ([], none) := by
  have hnext : nextFrame C stream = .ok none := by
    rw [nextFrame, h]
  rw [framesRead]
  split
  next hcase => rw [hnext] at hcase; cases hcase
  next => rfl
  next hcase => rw [hnext] at hcase; cases hcase

theorem framesRead_error {e : IoError} (h : readLengthPrefixed stream = .error e) :
    framesRead C stream = ([], some e) := by
  have hnext : nextFrame C stream = .error e := by
    rw [nextFrame, h]
  rw [framesRead]
  split
  next hcase =>
    rw [hnext] at hcase
    cases hcase
    rfl
  next hcase => rw [hnext] at hcase; cases hcase
  next hcase => rw [hnext] at hcase; cases hcase

theorem framesRead_take (h : List.Forall₂ (Framed C) sent encs) (n : Nat) :
    framesRead C ((frames encs).take n) = (sent.take (whole encs n),
      if leftover encs n < 4 then none else some unexpectedEnd) := by
  induction h generalizing n with
  | nil =>
    rw [frames_nil, List.take_nil, framesRead_none (readLengthPrefixed_short (by decide))]
    rfl
  | @cons f b sent l hframed hrest ih =>
    rw [frames_cons, whole, leftover]
    by_cases hwhole : (Relux.frame b).length ≤ n
    · rw [if_pos hwhole, if_pos hwhole, List.take_append, List.take_of_length_le hwhole,
        framesRead_some (hframed.nextFrame _), ih]
      rfl
    · have hshort : n < (Relux.frame b).length := Nat.not_le.mp hwhole
      rw [if_neg hwhole, if_neg hwhole, List.take_append_of_le_length (by omega)]
      have hn := take_frame_length hshort
      by_cases hfour : n < 4
      · rw [if_pos hfour, framesRead_none (readLengthPrefixed_short (by omega))]
        rfl
      · rw [if_neg hfour, framesRead_error (readLengthPrefixed_torn hframed.2 (by omega) hshort)]
        rfl

theorem writeFrames_eq (h : List.Forall₂ (Framed C) sent encs) (stream : List UInt8) :
    sent.foldlM (writeFrame C) stream = .ok (stream ++ frames encs) := by
  induction h generalizing stream with
  | nil => rw [frames_nil, List.append_nil]; rfl
  | @cons f b sent l hframed hrest ih =>
    rw [List.foldlM_cons, hframed.write, frames_cons, ← List.append_assoc]
    exact ih (stream ++ Relux.frame b)

theorem stream_cut_classified (h : List.Forall₂ (Framed C) sent encs) :
    sent.foldlM (writeFrame C) [] = .ok (frames encs) ∧ framesRead C (frames encs) = (sent, none) ∧
      ∀ n, n < (frames encs).length →
        (framesRead C ((frames encs).take n)).1 = sent.take (whole encs n) ∧
        (((framesRead C ((frames encs).take n)).2 = none ↔ AtBoundary encs n) ↔
          ¬(0 < leftover encs n ∧ leftover encs n < 4)) := by
  refine ⟨writeFrames_eq h [], ?_, fun n hn => ?_⟩
  · have hall := framesRead_take h (frames encs).length
    rw [List.take_of_length_le (Nat.le_refl _), leftover_all, whole_all, ← h.length_eq,
      List.take_of_length_le (Nat.le_refl _)] at hall
    exact hall
  · rw [framesRead_take h n, atBoundary_iff (Nat.le_of_lt hn)]
    refine ⟨rfl, ?_⟩
    by_cases hfour : leftover encs n < 4
    · rw [if_pos hfour]
      constructor
      · intro hclean hinside
        have hzero := hclean.mp rfl
        omega
      · intro houtside
        exact iff_of_true rfl (by omega)
    · rw [if_neg hfour]
      refine iff_of_true (iff_of_false (Option.some_ne_none _) (by omega)) (by omega)

def endCodec : FrameCodec where
  intoWriter f := if f = .end then .ok [0x63, 0x65, 0x6e, 0x64] else .error "not an end frame"
  fromReader bytes :=
    if bytes = [0x63, 0x65, 0x6e, 0x64] then .ok .end else .error "not an end frame"
  lawful f bytes h := by
    split at h
    next hend =>
      cases h
      rw [hend]
      rfl
    · cases h

theorem stream_cut_classified_end :
    [StreamFrame.end].foldlM (writeFrame endCodec) [] = .ok (frames [[0x63, 0x65, 0x6e, 0x64]]) ∧
      framesRead endCodec (frames [[0x63, 0x65, 0x6e, 0x64]]) = ([.end], none) ∧
      ((framesRead endCodec ((frames [[0x63, 0x65, 0x6e, 0x64]]).take 6)).2 = none ↔
        AtBoundary [[0x63, 0x65, 0x6e, 0x64]] 6) :=
  have hall := @stream_cut_classified endCodec _ _ (.cons ⟨rfl, by decide⟩ .nil)
  ⟨hall.1, hall.2.1, (hall.2.2 6 (by decide)).2.mpr (by decide)⟩

/-- A peer that dies after two bytes of the length has ended cleanly for the reader. -/
theorem not_stream_cut_classified :
    framesRead endCodec ((frames [[0x63, 0x65, 0x6e, 0x64]]).take 2) = ([], none) ∧
      ¬AtBoundary [[0x63, 0x65, 0x6e, 0x64]] 2 := by
  refine ⟨framesRead_none (readLengthPrefixed_short (by decide)), fun hboundary => ?_⟩
  have hzero := (atBoundary_iff (by decide)).mp hboundary
  exact absurd hzero (by decide)

end Transport

end Relux
