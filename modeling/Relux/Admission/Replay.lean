import Relux.HashMap

/-! The freshness check and the replay cache of the dispatch bridge. -/

namespace Relux

namespace Admission

def i64Min : Int := -9223372036854775808

def i64Max : Int := 9223372036854775807

def saturatingAdd (a b : Int) : Int := max i64Min (min (a + b) i64Max)

def hexDigit (n : Nat) : Char := Nat.digitChar (n % 16)

def hexEncode (bytes : List UInt8) : String :=
  String.ofList (bytes.flatMap (fun b => [hexDigit (b.toNat / 16), hexDigit b.toNat]))

structure ReplayCache where
  seen : HashMap String Int
  windowMs : Int
  maxEntries : Nat

inductive ReplayError where
  | replayed
  deriving DecidableEq

def soonest : List (String × Int) → Option (String × Int)
  | [] => none
  | e :: entries =>
    match soonest entries with
    | none => some e
    | some e' => if e'.2 < e.2 then some e' else some e

namespace ReplayCache

def withCap (windowMs : Int) (maxEntries : Nat) : ReplayCache :=
  ⟨.empty, max windowMs 1, max maxEntries 1⟩

def evictExpired (cache : ReplayCache) (nowMs : Int) : ReplayCache :=
  { cache with seen := cache.seen.retain (fun _ expiresAt => nowMs < expiresAt) }

def makeRoom (cache : ReplayCache) : ReplayCache :=
  if cache.maxEntries ≤ cache.seen.len then
    match soonest cache.seen.entries with
    | some oldest => { cache with seen := cache.seen.remove oldest.1 }
    | none => cache
  else cache

def checkAndInsert (cache : ReplayCache) (nonce : String) (nowMs : Int) :
    Except ReplayError Unit × ReplayCache :=
  let live := cache.evictExpired nowMs
  match live.seen.get? nonce with
  | some _ => (.error .replayed, live)
  | none =>
    let room := live.makeRoom
    (.ok (), { room with seen := room.seen.insert nonce (saturatingAdd nowMs room.windowMs) })

end ReplayCache

/-- What the first steps read of an inbound envelope; `subject` is the verified subject, none
when its identity bundle is not valid. -/
structure InboundCall where
  rid : List UInt8
  issuedAtMs : Int
  deadline : Int
  subject : Option String

structure ReplayGate where
  cache : ReplayCache
  maxClockSkewMs : Int
  freshnessWindowMs : Int

def ReplayGate.configure (windowMs skewMs : Int) (cap : Nat) : ReplayGate :=
  ⟨.withCap windowMs cap, max skewMs 1, max windowMs 1⟩

/-- `now_ms - issued_at_ms` in 64 bits: none when the profile checks overflow and it does. -/
def ageMs (overflowChecks : Bool) (nowMs issuedAtMs : Int) : Option Int :=
  if i64Min ≤ nowMs - issuedAtMs ∧ nowMs - issuedAtMs ≤ i64Max then some (nowMs - issuedAtMs)
  else if overflowChecks then none
  else some (Int.bmod (nowMs - issuedAtMs) 18446744073709551616)

inductive Entry where
  | refused (cause : String)
  | panicked
  | passed (subject : String)
  deriving DecidableEq

def replayKey (subject : String) (rid : List UInt8) (issuedAtMs : Int) : String :=
  s!"{subject}|{hexEncode rid}|{issuedAtMs}"

def ReplayGate.inbound (gate : ReplayGate) (overflowChecks : Bool) (now nowMs : Int)
    (req : InboundCall) : Entry × ReplayGate :=
  if req.deadline < now then (.refused "admission:deadline_exceeded", gate)
  else
    match ageMs overflowChecks nowMs req.issuedAtMs with
    | none => (.panicked, gate)
    | some age =>
      if age < -gate.maxClockSkewMs then (.refused "admission:future_envelope", gate)
      else if gate.freshnessWindowMs < age then (.refused "admission:stale_envelope", gate)
      else
        match req.subject with
        | none => (.refused "admission:identity_invalid", gate)
        | some subject =>
          match gate.cache.checkAndInsert (replayKey subject req.rid req.issuedAtMs) nowMs with
          | (.error .replayed, cache) =>
            (.refused "admission:replay_rejected", { gate with cache := cache })
          | (.ok (), cache) => (.passed subject, { gate with cache := cache })

structure CallId where
  subject : String
  rid : List UInt8
  issuedAtMs : Int
  deriving DecidableEq

def CallId.key (id : CallId) : String := replayKey id.subject id.rid id.issuedAtMs

/-- `reorder`: the map is walked in another order. -/
inductive ReplayOp where
  | inbound (now nowMs : Int) (req : InboundCall)
  | evictExpired (nowMs : Int)
  | reorder (i : Nat)

def ReplayOp.run (overflowChecks : Bool) (gate : ReplayGate) : ReplayOp → List CallId × ReplayGate
  | .inbound now nowMs req =>
    match gate.inbound overflowChecks now nowMs req with
    | (.passed subject, gate') => ([⟨subject, req.rid, req.issuedAtMs⟩], gate')
    | (_, gate') => ([], gate')
  | .evictExpired nowMs => ([], { gate with cache := gate.cache.evictExpired nowMs })
  | .reorder i =>
    ([], { gate with cache := { gate.cache with seen := gate.cache.seen.reorder i } })

inductive ReplayRun (overflowChecks : Bool) (start : ReplayGate) :
    List CallId → ReplayGate → Prop
  | start : ReplayRun overflowChecks start [] start
  | step {passed : List CallId} {gate : ReplayGate} (op : ReplayOp)
      (h : ReplayRun overflowChecks start passed gate) :
      ReplayRun overflowChecks start (passed ++ (op.run overflowChecks gate).1)
        (op.run overflowChecks gate).2

variable {entries : List (String × Int)}

theorem soonest_cons (first : String × Int) (entries : List (String × Int)) :
    soonest (first :: entries) = some first ∨
      ∃ e, soonest entries = some e ∧ soonest (first :: entries) = some e := by
  rw [soonest]
  cases soonest entries with
  | none => exact .inl rfl
  | some e =>
    by_cases hlt : e.2 < first.2
    · exact .inr ⟨e, rfl, if_pos hlt⟩
    · exact .inl (if_neg hlt)

theorem soonest_mem {e : String × Int} (h : soonest entries = some e) : e ∈ entries := by
  induction entries with
  | nil => cases h
  | cons first entries ih =>
    rcases soonest_cons first entries with hfirst | ⟨e', hrest, he'⟩
    · rw [Option.some.inj (h.symm.trans hfirst)]
      exact List.mem_cons_self
    · rw [Option.some.inj (he'.symm.trans h)] at hrest
      exact List.mem_cons_of_mem _ (ih hrest)

theorem soonest_eq_none (h : soonest entries = none) : entries = [] := by
  cases entries with
  | nil => rfl
  | cons first entries =>
    rcases soonest_cons first entries with hsome | ⟨e, -, hsome⟩ <;> rw [h] at hsome <;> cases hsome

namespace ReplayCache

variable {cache : ReplayCache} {nonce : String} {nowMs : Int}

def Bounded (cache : ReplayCache) : Prop := 1 ≤ cache.maxEntries ∧ cache.seen.len ≤ cache.maxEntries

theorem Bounded.evictExpired (h : cache.Bounded) (nowMs : Int) :
    (cache.evictExpired nowMs).Bounded := by
  have hlen : (cache.evictExpired nowMs).seen.len ≤ cache.seen.len :=
    HashMap.len_retain_le cache.seen _
  exact ⟨h.1, Nat.le_trans hlen h.2⟩

@[simp] theorem makeRoom_windowMs (cache : ReplayCache) :
    cache.makeRoom.windowMs = cache.windowMs := by
  unfold makeRoom
  by_cases hfull : cache.maxEntries ≤ cache.seen.len
  · rw [if_pos hfull]
    cases soonest cache.seen.entries <;> rfl
  · rw [if_neg hfull]

@[simp] theorem makeRoom_maxEntries (cache : ReplayCache) :
    cache.makeRoom.maxEntries = cache.maxEntries := by
  unfold makeRoom
  by_cases hfull : cache.maxEntries ≤ cache.seen.len
  · rw [if_pos hfull]
    cases soonest cache.seen.entries <;> rfl
  · rw [if_neg hfull]

theorem Bounded.makeRoom (h : cache.Bounded) : cache.makeRoom.seen.len < cache.maxEntries := by
  obtain ⟨hone, hlen⟩ := h
  unfold ReplayCache.makeRoom
  by_cases hfull : cache.maxEntries ≤ cache.seen.len
  · rw [if_pos hfull]
    cases hsoonest : soonest cache.seen.entries with
    | none =>
      have hnil := soonest_eq_none hsoonest
      have hzero : cache.seen.len = 0 := by rw [HashMap.len, hnil, List.length_nil]
      omega
    | some oldest =>
      have hremoved := HashMap.len_remove_of_some (HashMap.mem_entries.mp (soonest_mem hsoonest))
      show (cache.seen.remove oldest.1).len < cache.maxEntries
      omega
  · rw [if_neg hfull]
    omega

theorem makeRoom_absent (h : cache.seen.get? nonce = none) :
    cache.makeRoom.seen.get? nonce = none := by
  unfold makeRoom
  by_cases hfull : cache.maxEntries ≤ cache.seen.len
  · rw [if_pos hfull]
    cases soonest cache.seen.entries with
    | none => exact h
    | some oldest =>
      dsimp only
      rw [HashMap.get?_remove, h]
      exact ite_self none
  · rw [if_neg hfull]
    exact h

theorem checkAndInsert_some {expiresAt : Int}
    (h : (cache.evictExpired nowMs).seen.get? nonce = some expiresAt) :
    cache.checkAndInsert nonce nowMs = (.error .replayed, cache.evictExpired nowMs) := by
  unfold checkAndInsert
  simp only [h]

theorem checkAndInsert_none (h : (cache.evictExpired nowMs).seen.get? nonce = none) :
    cache.checkAndInsert nonce nowMs =
      (.ok (), { (cache.evictExpired nowMs).makeRoom with
        seen := (cache.evictExpired nowMs).makeRoom.seen.insert nonce
          (saturatingAdd nowMs cache.windowMs) }) := by
  unfold checkAndInsert
  simp only [h, makeRoom_windowMs]
  rfl

theorem Bounded.checkAndInsert (h : cache.Bounded) (nonce : String) (nowMs : Int) :
    (cache.checkAndInsert nonce nowMs).2.Bounded := by
  have hlive := h.evictExpired nowMs
  cases hseen : (cache.evictExpired nowMs).seen.get? nonce with
  | some expiresAt =>
    rw [checkAndInsert_some hseen]
    exact hlive
  | none =>
    rw [checkAndInsert_none hseen]
    have hlen := HashMap.len_insert_of_none (makeRoom_absent hseen)
      (saturatingAdd nowMs cache.windowMs)
    have hroom := hlive.makeRoom
    refine ⟨?_, ?_⟩
    · show 1 ≤ (cache.evictExpired nowMs).makeRoom.maxEntries
      rw [makeRoom_maxEntries]
      exact hlive.1
    · show (HashMap.insert _ _ _).len ≤ (cache.evictExpired nowMs).makeRoom.maxEntries
      rw [makeRoom_maxEntries]
      omega

end ReplayCache

theorem ReplayCache.checkAndInsert_maxEntries (cache : ReplayCache) (nonce : String) (nowMs : Int) :
    (cache.checkAndInsert nonce nowMs).2.maxEntries = cache.maxEntries := by
  cases hseen : (cache.evictExpired nowMs).seen.get? nonce with
  | some expiresAt =>
    rw [ReplayCache.checkAndInsert_some hseen]
    rfl
  | none =>
    rw [ReplayCache.checkAndInsert_none hseen]
    exact (cache.evictExpired nowMs).makeRoom_maxEntries

theorem ReplayGate.inbound_cases (gate : ReplayGate) (overflowChecks : Bool) (now nowMs : Int)
    (req : InboundCall) :
    ((∀ subject, (gate.inbound overflowChecks now nowMs req).1 ≠ .passed subject) ∧
        (gate.inbound overflowChecks now nowMs req).2 = gate) ∨
      ∃ age subject, ageMs overflowChecks nowMs req.issuedAtMs = some age ∧
        -gate.maxClockSkewMs ≤ age ∧ age ≤ gate.freshnessWindowMs ∧ req.subject = some subject ∧
        (gate.inbound overflowChecks now nowMs req).2 = { gate with cache :=
          (gate.cache.checkAndInsert (replayKey subject req.rid req.issuedAtMs) nowMs).2 } ∧
        ((gate.inbound overflowChecks now nowMs req).1 = .passed subject ∧
            (gate.cache.checkAndInsert (replayKey subject req.rid req.issuedAtMs) nowMs).1 =
              .ok () ∨
          (gate.inbound overflowChecks now nowMs req).1 = .refused "admission:replay_rejected" ∧
            (gate.cache.checkAndInsert (replayKey subject req.rid req.issuedAtMs) nowMs).1 =
              .error .replayed) := by
  unfold ReplayGate.inbound
  by_cases hdeadline : req.deadline < now
  · rw [if_pos hdeadline]
    exact Or.inl ⟨by simp, rfl⟩
  · rw [if_neg hdeadline]
    cases hage : ageMs overflowChecks nowMs req.issuedAtMs with
    | none => exact Or.inl ⟨by simp, rfl⟩
    | some age =>
      dsimp only
      by_cases hfuture : age < -gate.maxClockSkewMs
      · rw [if_pos hfuture]
        exact Or.inl ⟨by simp, rfl⟩
      · rw [if_neg hfuture]
        by_cases hstale : gate.freshnessWindowMs < age
        · rw [if_pos hstale]
          exact Or.inl ⟨by simp, rfl⟩
        · rw [if_neg hstale]
          cases hsubject : req.subject with
          | none => exact Or.inl ⟨by simp, rfl⟩
          | some subject =>
            refine Or.inr ⟨age, subject, rfl, by omega, by omega, rfl, ?_⟩
            cases hcheck : gate.cache.checkAndInsert (replayKey subject req.rid req.issuedAtMs) nowMs with
            | mk outcome cache =>
              cases outcome with
              | error e =>
                cases e
                simp [hcheck]
              | ok u =>
                simp [hcheck]

theorem ReplayOp.run_inbound (overflowChecks : Bool) (gate : ReplayGate) (now nowMs : Int)
    (req : InboundCall) :
    ((ReplayOp.inbound now nowMs req).run overflowChecks gate).2 =
      (gate.inbound overflowChecks now nowMs req).2 := by
  rw [ReplayOp.run]
  rcases gate.inbound overflowChecks now nowMs req with ⟨entry, gate'⟩
  cases entry <;> rfl

variable {gate : ReplayGate} {overflowChecks : Bool} {nowMs : Int} {now : Int} {req : InboundCall}

theorem ReplayOp.run_refused
    (h : ∀ subject, (gate.inbound overflowChecks now nowMs req).1 ≠ .passed subject) :
    ((ReplayOp.inbound now nowMs req).run overflowChecks gate).1 = [] := by
  rw [ReplayOp.run]
  rcases hinbound : gate.inbound overflowChecks now nowMs req with ⟨entry, gate'⟩
  rw [hinbound] at h
  cases entry with
  | passed subject => exact absurd rfl (h subject)
  | refused cause => rfl
  | panicked => rfl

theorem ReplayOp.run_passed {subject : String}
    (h : (gate.inbound overflowChecks now nowMs req).1 = .passed subject) :
    ((ReplayOp.inbound now nowMs req).run overflowChecks gate).1 =
      [⟨subject, req.rid, req.issuedAtMs⟩] := by
  rw [ReplayOp.run]
  rcases hinbound : gate.inbound overflowChecks now nowMs req with ⟨entry, gate'⟩
  rw [hinbound] at h
  cases h
  rfl

variable {passed : List CallId} {start : ReplayGate}

theorem ReplayRun.bounded (hstart : start.cache.Bounded)
    (h : ReplayRun overflowChecks start passed gate) :
    gate.cache.Bounded ∧ gate.cache.maxEntries = start.cache.maxEntries := by
  induction h with
  | start => exact ⟨hstart, rfl⟩
  | @step passed gate op h ih =>
    obtain ⟨hbounded, hcap⟩ := ih
    cases op with
    | inbound now nowMs req =>
      rw [ReplayOp.run_inbound]
      rcases gate.inbound_cases overflowChecks now nowMs req with
        ⟨_, hsame⟩ | ⟨age, subject, _, _, _, _, hcache, _⟩
      · rw [hsame]
        exact ⟨hbounded, hcap⟩
      · rw [hcache]
        refine ⟨hbounded.checkAndInsert _ nowMs, ?_⟩
        exact (gate.cache.checkAndInsert_maxEntries _ nowMs).trans hcap
    | evictExpired nowMs => exact ⟨hbounded.evictExpired nowMs, hcap⟩
    | reorder i => exact ⟨⟨hbounded.1, Nat.le_trans (Nat.le_of_eq (gate.cache.seen.len_reorder i)) hbounded.2⟩, hcap⟩

def ReplayGate.Fresh (gate : ReplayGate) (nowMs issuedAtMs : Int) : Prop :=
  -gate.maxClockSkewMs ≤ nowMs - issuedAtMs ∧ nowMs - issuedAtMs ≤ gate.freshnessWindowMs

/-- The difference of the two is an `i64`. -/
def Fits (nowMs issuedAtMs : Int) : Prop :=
  i64Min ≤ nowMs - issuedAtMs ∧ nowMs - issuedAtMs ≤ i64Max

/-- The clock has not stepped back, a fresh envelope was issued before it arrived, and the cache
has room for it without dropping an entry that has not expired. -/
def ReplayOp.Sound (gate : ReplayGate) (latestMs : Int) : ReplayOp → Prop
  | .inbound _ nowMs req => latestMs ≤ nowMs ∧ nowMs < i64Max ∧ Fits nowMs req.issuedAtMs ∧
      (gate.Fresh nowMs req.issuedAtMs → req.issuedAtMs < nowMs ∧
        (gate.cache.evictExpired nowMs).seen.len < gate.cache.maxEntries)
  | .evictExpired nowMs => latestMs ≤ nowMs ∧ nowMs < i64Max
  | .reorder _ => True

def ReplayOp.reading (latestMs : Int) : ReplayOp → Int
  | .inbound _ nowMs _ => nowMs
  | .evictExpired nowMs => nowMs
  | .reorder _ => latestMs

inductive SoundRun (overflowChecks : Bool) (start : ReplayGate) :
    List CallId → Int → ReplayGate → Prop
  | start (latestMs : Int) : SoundRun overflowChecks start [] latestMs start
  | step {passed : List CallId} {latestMs : Int} {gate : ReplayGate} (op : ReplayOp)
      (h : SoundRun overflowChecks start passed latestMs gate) (hsound : op.Sound gate latestMs) :
      SoundRun overflowChecks start (passed ++ (op.run overflowChecks gate).1)
        (op.reading latestMs) (op.run overflowChecks gate).2

/-- No call has passed twice, and one that has passed is in the cache until it is stale. -/
structure Remembers (gate : ReplayGate) (passed : List CallId) (latestMs : Int) : Prop where
  window : gate.cache.windowMs = gate.freshnessWindowMs
  nodup : passed.Nodup
  held : ∀ id ∈ passed, (∃ expiresAt, gate.cache.seen.get? id.key = some expiresAt ∧
      (expiresAt = i64Max ∨ id.issuedAtMs + gate.freshnessWindowMs < expiresAt)) ∨
    id.issuedAtMs + gate.freshnessWindowMs < latestMs

variable {latestMs : Int}

theorem Remembers.evictExpired (h : Remembers gate passed latestMs)
    (hclock : latestMs ≤ nowMs) (hnow : nowMs < i64Max) :
    Remembers { gate with cache := gate.cache.evictExpired nowMs } passed nowMs := by
  refine ⟨h.window, h.nodup, fun id hid => ?_⟩
  rcases h.held id hid with ⟨expiresAt, hget, hexpires⟩ | hstale
  · by_cases hlive : nowMs < expiresAt
    · refine Or.inl ⟨expiresAt, ?_, hexpires⟩
      show (HashMap.retain _ _).get? id.key = some expiresAt
      rw [HashMap.get?_retain, hget]
      simp [hlive]
    · refine Or.inr ?_
      show id.issuedAtMs + gate.freshnessWindowMs < nowMs
      omega
  · refine Or.inr ?_
    show id.issuedAtMs + gate.freshnessWindowMs < nowMs
    omega

theorem saturatingAdd_lt {windowMs issuedAtMs : Int} (h : issuedAtMs < nowMs) :
    saturatingAdd nowMs windowMs = i64Max ∨
      issuedAtMs + windowMs < saturatingAdd nowMs windowMs := by
  unfold saturatingAdd
  have hle : i64Min ≤ i64Max := by decide
  omega

theorem Remembers.pass {gate : ReplayGate} {passed : List CallId} {nowMs : Int} {id : CallId}
    (h : Remembers gate passed nowMs) (hstale : ¬ id.issuedAtMs + gate.freshnessWindowMs < nowMs)
    (hissued : id.issuedAtMs < nowMs) (habsent : gate.cache.seen.get? id.key = none) :
    Remembers { gate with cache := { gate.cache with
        seen := gate.cache.seen.insert id.key (saturatingAdd nowMs gate.cache.windowMs) } }
      (passed ++ [id]) nowMs := by
  have hfresh : id ∉ passed := by
    intro hid
    rcases h.held id hid with ⟨expiresAt, hget, _⟩ | hold
    · rw [habsent] at hget
      cases hget
    · exact hstale hold
  refine ⟨h.window, ?_, fun id' hid => ?_⟩
  · rw [List.nodup_append]
    refine ⟨h.nodup, List.nodup_singleton id, fun a ha b hb => ?_⟩
    rw [List.mem_singleton] at hb
    rintro rfl
    exact hfresh (hb ▸ ha)
  · rw [List.mem_append, List.mem_singleton] at hid
    rcases hid with hid | rfl
    · rcases h.held id' hid with ⟨expiresAt, hget, hexpires⟩ | hold
      · have hne : id'.key ≠ id.key := by
          intro heq
          rw [heq, habsent] at hget
          cases hget
        refine Or.inl ⟨expiresAt, ?_, hexpires⟩
        show (HashMap.insert _ _ _).get? id'.key = some expiresAt
        rw [HashMap.get?_insert, if_neg hne, hget]
      · exact Or.inr hold
    · refine Or.inl ⟨saturatingAdd nowMs gate.cache.windowMs, ?_, ?_⟩
      · show (HashMap.insert _ _ _).get? id'.key = _
        rw [HashMap.get?_insert, if_pos rfl]
      · rw [h.window]
        exact saturatingAdd_lt hissued

theorem ageMs_of_fits {issuedAtMs : Int} (h : Fits nowMs issuedAtMs) (overflowChecks : Bool) :
    ageMs overflowChecks nowMs issuedAtMs = some (nowMs - issuedAtMs) := by
  exact if_pos h

theorem Remembers.step {overflowChecks : Bool} {gate : ReplayGate} {passed : List CallId}
    {op : ReplayOp} (h : Remembers gate passed latestMs)
    (hsound : op.Sound gate latestMs) :
    Remembers (op.run overflowChecks gate).2 (passed ++ (op.run overflowChecks gate).1)
      (op.reading latestMs) := by
  cases op with
  | inbound now nowMs req =>
    obtain ⟨hclock, hnow, hfits, hroom⟩ := hsound
    have hlater : Remembers gate passed nowMs := by
      refine ⟨h.window, h.nodup, fun id hid => (h.held id hid).imp_right fun hstale => ?_⟩
      omega
    rw [ReplayOp.run_inbound]
    rcases gate.inbound_cases overflowChecks now nowMs req with
      ⟨hrefused, hsame⟩ | ⟨age, subject, hage, hfuture, hwindow, _, hcache, hentry⟩
    · rw [ReplayOp.run_refused hrefused, List.append_nil, hsame]
      exact hlater
    · rw [ageMs_of_fits hfits] at hage
      cases hage
      obtain ⟨hissued, hfew⟩ := hroom ⟨hfuture, hwindow⟩
      have hevicted := h.evictExpired hclock hnow
      cases hseen : (gate.cache.evictExpired nowMs).seen.get?
          (replayKey subject req.rid req.issuedAtMs) with
      | some expiresAt =>
        rw [ReplayCache.checkAndInsert_some hseen] at hcache hentry
        rcases hentry with ⟨_, hcheck⟩ | ⟨hrefused, _⟩
        · cases hcheck
        · have hnot : ∀ subject', (gate.inbound overflowChecks now nowMs req).1 ≠
              .passed subject' := by
            intro subject' heq
            rw [hrefused] at heq
            cases heq
          rw [ReplayOp.run_refused hnot, List.append_nil, hcache]
          exact hevicted
      | none =>
        have hkeep : (gate.cache.evictExpired nowMs).makeRoom = gate.cache.evictExpired nowMs := by
          exact if_neg (Nat.not_le.mpr hfew)
        rw [ReplayCache.checkAndInsert_none hseen, hkeep] at hcache hentry
        rcases hentry with ⟨hpassed, _⟩ | ⟨_, hcheck⟩
        · rw [ReplayOp.run_passed hpassed, hcache]
          have hstale : ¬ req.issuedAtMs + gate.freshnessWindowMs < nowMs := by omega
          exact @Remembers.pass _ _ _ ⟨subject, req.rid, req.issuedAtMs⟩ hevicted hstale hissued hseen
        · cases hcheck
  | evictExpired nowMs =>
    rw [show ((ReplayOp.evictExpired nowMs).run overflowChecks gate).1 = [] from rfl,
      List.append_nil]
    exact h.evictExpired hsound.1 hsound.2
  | reorder i =>
    rw [show ((ReplayOp.reorder i).run overflowChecks gate).1 = [] from rfl, List.append_nil]
    refine ⟨h.window, h.nodup, fun id hid => (h.held id hid).imp_left ?_⟩
    rintro ⟨expiresAt, hget, hexpires⟩
    exact ⟨expiresAt, (gate.cache.seen.get?_reorder i id.key).trans hget, hexpires⟩

theorem SoundRun.remembers (hwindow : start.cache.windowMs = start.freshnessWindowMs)
    (h : SoundRun overflowChecks start passed latestMs gate) : Remembers gate passed latestMs := by
  induction h with
  | start latestMs => exact ⟨hwindow, List.nodup_nil, fun id hid => by cases hid⟩
  | step op h hsound ih => exact ih.step hsound

/-- The cache never holds more than its cap; in a run whose steps are all sound no call passes
twice; and the age overflows exactly for a time of issue that far before the clock. -/
theorem replay_protected (overflowChecks : Bool) (windowMs skewMs : Int) (cap : Nat) :
    let start := ReplayGate.configure windowMs skewMs cap
    (∀ passed gate, ReplayRun overflowChecks start passed gate →
        gate.cache.seen.len ≤ max cap 1) ∧
      (∀ passed latestMs gate, SoundRun overflowChecks start passed latestMs gate → passed.Nodup) ∧
      ∀ nowMs issuedAtMs, 0 ≤ nowMs → nowMs ≤ i64Max → issuedAtMs ≤ i64Max →
        (ageMs true nowMs issuedAtMs = none ↔ issuedAtMs < nowMs - i64Max) := by
  intro start
  refine ⟨fun passed gate hrun => ?_, fun passed latestMs gate hrun => ?_,
    fun nowMs issuedAtMs hnow hmax hissued => ?_⟩
  · have hstart : start.cache.Bounded := ⟨Nat.le_max_right _ _, Nat.zero_le _⟩
    obtain ⟨⟨_, hlen⟩, hcap⟩ := hrun.bounded hstart
    rw [hcap] at hlen
    exact hlen
  · exact (hrun.remembers rfl).nodup
  · have hmin : i64Min = -i64Max - 1 := by decide
    unfold ageMs
    by_cases hfits : i64Min ≤ nowMs - issuedAtMs ∧ nowMs - issuedAtMs ≤ i64Max
    · rw [if_pos hfits]
      simp only [reduceCtorEq, false_iff]
      omega
    · rw [if_neg hfits]
      simp only [if_true, true_iff]
      omega

/-- Two calls at once, and the second again later. -/
theorem replay_refused :
    let start := ReplayGate.configure 1000 500 10
    ∃ gate, ReplayRun true start [⟨"a", [1], 900⟩] gate ∧
      SoundRun true start [⟨"a", [1], 900⟩] 1000 gate ∧ gate.cache.seen.len ≤ max 10 1 ∧
      [(⟨"a", [1], 900⟩ : CallId)].Nodup ∧
      (ageMs true 1000 900 = none ↔ (900 : Int) < 1000 - i64Max) := by
  intro start
  let req : InboundCall := ⟨[1], 900, 60, some "a"⟩
  have hfirst : SoundRun true start [⟨"a", [1], 900⟩] 1000 _ :=
    .step (.inbound 1 1000 req) (.start 1000)
      ⟨by decide, by decide, ⟨by decide, by decide⟩, fun _ => ⟨by decide, by decide⟩⟩
  have hsecond : SoundRun true start [⟨"a", [1], 900⟩] 1000 _ :=
    .step (.inbound 1 1000 req) hfirst
      ⟨by decide, by decide, ⟨by decide, by decide⟩, fun _ => ⟨by decide, by decide⟩⟩
  have hrun : ReplayRun true start [⟨"a", [1], 900⟩] _ :=
    .step (.inbound 1 1000 req) (.step (.inbound 1 1000 req) .start)
  obtain ⟨hbound, hnodup, hage⟩ := replay_protected true 1000 500 10
  exact ⟨_, hrun, hsecond, hbound _ _ hrun, hnodup _ _ _ hsecond,
    hage 1000 900 (by decide) (by decide) (by decide)⟩

/-- An envelope of 400 ms in the future, and again when its entry expires. -/
theorem future_call_passes_twice :
    (∃ gate, ReplayRun true (ReplayGate.configure 1000 500 10)
      [⟨"a", [1], 1400⟩, ⟨"a", [1], 1400⟩] gate) ∧ ageMs true 1000 i64Min = none := by
  have hfirst : ReplayRun true (ReplayGate.configure 1000 500 10) [⟨"a", [1], 1400⟩] _ :=
    .step (.inbound 1 1000 ⟨[1], 1400, 60, some "a"⟩) .start
  exact ⟨⟨_, .step (.inbound 2 2000 ⟨[1], 1400, 60, some "a"⟩) hfirst⟩, by decide⟩

end Admission

end Relux
