import Relux.ToolGateway

/-! Idempotency keys: when the calls with one key come down to one run of the handler, whose
answer all the others repeat. -/

namespace Relux.Gateway

open Crowd (Runs Step Label Meets)

def replayed : Answer → Answer
  | .error (.handlerFailed cause) =>
    .error (.handlerFailed ("idempotency replay: prior call failed: " ++ cause))
  | answer => answer

/-- At most one handler ran to a successful result for a key, and each replay answers what that call answered: none
repeats a preview, or a failure from before a handler ran. -/
structure Shared.Idempotent (s : Shared) : Prop where
  once : ∀ slot, s.ran.countP (fun r => r.slot == some slot && r.answer.isOk) ≤ 1
  replayed : ∀ p ∈ s.replays, ∃ r ∈ s.ran, r.slot = some p.slot ∧ p.answer = replayed r.answer

/-- The lookup of the call finds no row that no handler left; and unless it is of a dry run, no
other call is at work on the key. -/
def Call.Careful (cfg : GatewayConfig) (s : Shared) (call : Call) : Prop :=
  ∀ slot, call.slot = some slot →
    (∀ a ∈ s.store.actions, a.slot = some slot → ∃ n outcome, a.origin = .handled n outcome) ∧
    (call.isDryRun cfg = false → slot ∉ s.working)

def CarefulKeys (cfg : GatewayConfig) (c : Crowd Shared Task) (l : Label Task) : Prop :=
  ∀ i call, l = .run i → c.tasks[i]? = some (.looking call) → call.Careful cfg c.shared

def Shared.Repeats (s : Shared) (a : StoredAction) (slot : String × String) : Prop :=
  ∃ r ∈ s.ran, r.slot = some slot ∧ replayAnswer a.row = some (Gateway.replayed r.answer)

structure Shared.SoundKeys (s : Shared) : Prop where
  once : (s.ran.filterMap (·.slot)).Nodup
  kept : ∀ slot ∈ s.ran.filterMap (·.slot),
    slot ∈ s.working ∨ slot ∈ s.store.actions.filterMap (·.slot)
  answers : ∀ a ∈ s.store.actions, (replayAnswer a.row).isSome = true
  repeats : ∀ a ∈ s.store.actions, ∀ slot n outcome, a.slot = some slot →
    a.origin = .handled n outcome → s.Repeats a slot
  replayed : ∀ p ∈ s.replays, ∃ r ∈ s.ran, r.slot = some p.slot ∧
    p.answer = Gateway.replayed r.answer

def Task.key (cfg : GatewayConfig) : Task → Option (String × String)
  | .resolving c => c.holds cfg
  | .running c _ _ _ => c.holds cfg
  | .recording c _ _ => c.holds cfg
  | _ => none

def Shared.Unused (s : Shared) (slot : String × String) : Prop := slot ∉ s.ran.filterMap (·.slot)

def Task.KnowsKey (cfg : GatewayConfig) (s : Shared) : Task → Prop
  | .resolving c => ∀ slot, c.holds cfg = some slot → slot ∈ s.working ∧ s.Unused slot
  | .running c _ _ _ => c.isDryRun cfg = false ∧
      ∀ slot, c.slot = some slot → slot ∈ s.working ∧ s.Unused slot
  | .recording c draft _ => draft.slot = c.slot ∧ (replayAnswer draft.row).isSome = true ∧
      (∀ slot, c.holds cfg = some slot → slot ∈ s.working) ∧
      ∀ slot n outcome, draft.slot = some slot → draft.origin = .handled n outcome →
        s.Repeats draft slot
  | _ => True

def Task.KeysApart (cfg : GatewayConfig) (t u : Task) : Prop :=
  ∀ slot, t.key cfg = some slot → u.key cfg ≠ some slot

theorem record_cases (store : TransactionStore) (a : StoredAction) :
    (store.Fits a ∧ (store.record a).actions = store.actions ++ [a]) ∨
      (¬store.Fits a ∧ store.record a = store) := by
  by_cases h : store.Fits a
  · exact .inl ⟨h, by rw [TransactionStore.record, dif_pos h]⟩
  · exact .inr ⟨h, by rw [TransactionStore.record, dif_neg h]⟩

variable {store : TransactionStore} {a : StoredAction} {b : StoredAction}

theorem mem_record (h : b ∈ (store.record a).actions) : b ∈ store.actions ∨ b = a := by
  rcases record_cases store a with ⟨-, heq⟩ | ⟨-, heq⟩
  · rw [heq] at h
    rcases List.mem_append.mp h with hold | hnew
    · exact .inl hold
    · exact .inr (List.mem_singleton.mp hnew)
  · rw [heq] at h
    exact .inl h

theorem record_keeps (h : b ∈ store.actions) :
    b ∈ (store.record a).actions := by
  rcases record_cases store a with ⟨-, heq⟩ | ⟨-, heq⟩
  · rw [heq]
    exact List.mem_append_left _ h
  · rw [heq]
    exact h

variable {slot : String × String}

theorem record_slot
    (hid : a.row.actionId ∉ store.actions.map (·.row.actionId)) (hslot : a.slot = some slot) :
    slot ∈ (store.record a).actions.filterMap (·.slot) := by
  rcases record_cases store a with ⟨-, heq⟩ | ⟨hno, heq⟩
  · rw [heq, List.mem_filterMap]
    exact ⟨a, List.mem_append_right _ List.mem_cons_self, hslot⟩
  · rw [heq]
    by_contra hmem
    apply hno
    refine ⟨hid, fun slot' hslot' => ?_⟩
    rw [hslot] at hslot'
    rw [← Option.some.inj hslot']
    exact hmem

theorem mem_mark {actionId : String} (h : b ∈ (store.markRolledBack actionId).actions) :
    ∃ a ∈ store.actions, b = TransactionStore.markRow actionId a := by
  obtain ⟨a, ha, rfl⟩ := List.mem_map.mp h
  exact ⟨a, ha, rfl⟩

theorem markRow_answer (actionId : String) (a : StoredAction) :
    replayAnswer (TransactionStore.markRow actionId a).row = replayAnswer a.row ∧
      (TransactionStore.markRow actionId a).origin = a.origin := by
  rw [TransactionStore.markRow]
  split <;> exact ⟨rfl, rfl⟩

theorem mark_slots (store : TransactionStore) (actionId : String) :
    (store.markRolledBack actionId).actions.filterMap (·.slot) =
      store.actions.filterMap (·.slot) := by
  show (store.actions.map (TransactionStore.markRow actionId)).filterMap (·.slot) = _
  rw [List.filterMap_map]
  exact List.filterMap_congr (fun a _ => TransactionStore.markRow_slot actionId a)

theorem find_some (h : store.findByIdempotencyKey slot.1 slot.2 = some a) :
    a ∈ store.actions ∧ a.slot = some slot :=
  ⟨List.mem_of_find?_eq_some h, by simpa using List.find?_some h⟩

theorem find_none (h : store.findByIdempotencyKey slot.1 slot.2 = none) :
    slot ∉ store.actions.filterMap (·.slot) := by
  intro hmem
  obtain ⟨a, ha, hslot⟩ := List.mem_filterMap.mp hmem
  have hnot := List.find?_eq_none.mp h a ha
  simp [hslot] at hnot

/-- The step is about the key `mine`: the others stay in work, and no run comes to theirs. -/
structure Shared.PassesKeys (s s' : Shared) (mine : Option (String × String)) : Prop where
  working : ∀ slot ∈ s.working, mine ≠ some slot → slot ∈ s'.working
  ran : ∀ r ∈ s.ran, r ∈ s'.ran
  used : ∀ slot ∈ s'.ran.filterMap (·.slot), slot ∈ s.ran.filterMap (·.slot) ∨ mine = some slot

structure KeyStep (cfg : GatewayConfig) (s : Shared) (t : Task) (s' : Shared) (t' : Task) :
    Prop where
  sound : s'.SoundKeys
  knows : t'.KnowsKey cfg s'
  passes : s.PassesKeys s' (t.key cfg)
  key : ∀ slot, t'.key cfg = some slot → t.key cfg = some slot ∨ slot ∉ s.working

section
variable {cfg : GatewayConfig} {s s' : Shared} {t t' : Task}

theorem Shared.PassesKeys.refl (s : Shared) (mine : Option (String × String)) :
    s.PassesKeys s mine :=
  ⟨fun slot h _ => h, fun r h => h, fun slot h => .inl h⟩

theorem Shared.Repeats.mono {a : StoredAction} {slot : String × String}
    (hran : ∀ r ∈ s.ran, r ∈ s'.ran) (h : s.Repeats a slot) : s'.Repeats a slot := by
  obtain ⟨r, hr, hslot, hanswer⟩ := h
  exact ⟨r, hran r hr, hslot, hanswer⟩

variable {c : Call}

theorem Call.holds_eq (h : c.isDryRun cfg = false) : c.holds cfg = c.slot := by
  rw [Call.holds, h]
  rfl

theorem key_working (h : t.KnowsKey cfg s) {slot : String × String}
    (hkey : t.key cfg = some slot) : slot ∈ s.working := by
  cases t with
  | resolving c => exact (h slot hkey).1
  | running c args n started =>
    have hslot : c.slot = some slot := by
      rw [← Call.holds_eq h.1]
      exact hkey
    exact (h.2 slot hslot).1
  | recording c draft answer => exact h.2.2.1 slot hkey
  | _ => cases hkey

theorem Shared.PassesKeys.knows {mine : Option (String × String)} (h : s.PassesKeys s' mine)
    {u : Task} (hu : u.KnowsKey cfg s)
    (hne : ∀ slot, u.key cfg = some slot → mine ≠ some slot) : u.KnowsKey cfg s' := by
  have hwork : ∀ slot, u.key cfg = some slot → slot ∈ s.working → slot ∈ s'.working := by
    intro slot hkey hmem
    exact h.working slot hmem (hne slot hkey)
  have hunused : ∀ slot, u.key cfg = some slot → s.Unused slot → s'.Unused slot := by
    intro slot hkey hunused hmem
    rcases h.used slot hmem with hold | hmine
    · exact hunused hold
    · exact hne slot hkey hmine
  cases u with
  | resolving c =>
    intro slot hslot
    obtain ⟨hmem, hfree⟩ := hu slot hslot
    exact ⟨hwork slot hslot hmem, hunused slot hslot hfree⟩
  | running c args n started =>
    refine ⟨hu.1, fun slot hslot => ?_⟩
    obtain ⟨hmem, hfree⟩ := hu.2 slot hslot
    have hkey : c.holds cfg = some slot := by
      rw [Call.holds_eq hu.1]
      exact hslot
    exact ⟨hwork slot hkey hmem, hunused slot hkey hfree⟩
  | recording c draft answer =>
    obtain ⟨hslot, hsome, hmem, hrepeats⟩ := hu
    refine ⟨hslot, hsome, fun slot hkey => hwork slot hkey (hmem slot hkey), ?_⟩
    intro slot n outcome hdraft horigin
    exact (hrepeats slot n outcome hdraft horigin).mono h.ran
  | _ => trivial

theorem Shared.SoundKeys.congr (h : s.SoundKeys) (hstore : s'.store = s.store)
    (hran : s'.ran = s.ran) (hworking : s'.working = s.working)
    (hreplays : s'.replays = s.replays) : s'.SoundKeys where
  once := by
    rw [hran]
    exact h.once
  kept := by
    rw [hran, hworking, hstore]
    exact h.kept
  answers := by
    rw [hstore]
    exact h.answers
  repeats := by
    rw [hstore]
    intro a ha slot n outcome hslot horigin
    exact (h.repeats a ha slot n outcome hslot horigin).mono (fun r hr => by rw [hran]; exact hr)
  replayed := by
    rw [hreplays, hran]
    exact h.replayed

theorem Shared.PassesKeys.congr (hran : s'.ran = s.ran) (hworking : s'.working = s.working)
    (mine : Option (String × String)) : s.PassesKeys s' mine where
  working := by
    intro slot hslot _
    rw [hworking]
    exact hslot
  ran := by
    intro r hr
    rw [hran]
    exact hr
  used := by
    intro slot hslot
    rw [hran] at hslot
    exact .inl hslot

theorem stepCalled_key (denied : Option DispatchError) (c : Call) :
    (stepCalled cfg denied c).key cfg = none ∧ (stepCalled cfg denied c).KnowsKey cfg s := by
  unfold stepCalled
  split
  · exact ⟨rfl, trivial⟩
  · split
    · exact ⟨rfl, trivial⟩
    · split
      · exact ⟨rfl, trivial⟩
      · exact ⟨rfl, trivial⟩

theorem stepLooking_key (hs : s.SoundKeys) (hok : c.Careful cfg s) :
    KeyStep cfg s (.looking c) (stepLooking cfg s c).1 (stepLooking cfg s c).2 := by
  rw [stepLooking]
  cases hslot : c.slot with
  | none =>
    refine ⟨hs, fun slot hkey => ?_, .refl s _, fun slot hkey => ?_⟩
    · rw [Call.holds, hslot, ite_self] at hkey
      cases hkey
    · rw [Task.key, Call.holds, hslot, ite_self] at hkey
      cases hkey
  | some slot =>
    obtain ⟨hrows, hfree⟩ := hok slot hslot
    simp only
    cases hreplay : replayOf s slot with
    | some answer =>
      simp only
      obtain ⟨a, hfind, hanswer⟩ := Option.bind_eq_some_iff.mp hreplay
      obtain ⟨ha, haslot⟩ := find_some hfind
      obtain ⟨n, outcome, horigin⟩ := hrows a ha haslot
      obtain ⟨r, hr, hrslot, hrepeat⟩ := hs.repeats a ha slot n outcome haslot horigin
      have hsame : answer = Gateway.replayed r.answer := by
        rw [hanswer] at hrepeat
        exact Option.some.inj hrepeat
      refine ⟨⟨hs.once, hs.kept, hs.answers, hs.repeats, ?_⟩, trivial,
        ⟨fun slot h _ => h, fun r h => h, fun slot h => .inl h⟩, fun slot hkey => by cases hkey⟩
      intro p hp
      rcases List.mem_append.mp hp with hold | hnew
      · exact hs.replayed p hold
      · rw [List.mem_singleton.mp hnew]
        exact ⟨r, hr, hrslot, hsame⟩
    | none =>
      have hnorow : slot ∉ s.store.actions.filterMap (·.slot) := by
        cases hfind : s.store.findByIdempotencyKey slot.1 slot.2 with
        | none => exact find_none hfind
        | some a =>
          have hanswer := hs.answers a (find_some hfind).1
          rw [replayOf, hfind, Option.bind_some] at hreplay
          rw [hreplay] at hanswer
          cases hanswer
      simp only
      by_cases hdry : c.isDryRun cfg = true
      · rw [if_pos hdry]
        refine ⟨hs, fun slot' hkey => ?_, .refl s _, fun slot' hkey => ?_⟩
        · rw [Call.holds, if_pos hdry] at hkey
          cases hkey
        · rw [Task.key, Call.holds, if_pos hdry] at hkey
          cases hkey
      · have hreal : c.isDryRun cfg = false := by simpa using hdry
        have hnew := hfree hreal
        rw [if_neg hdry]
        refine ⟨⟨hs.once, ?_, hs.answers, hs.repeats, hs.replayed⟩, fun slot' hkey => ?_,
          ⟨fun slot' hmem _ => List.mem_cons_of_mem _ hmem, fun r hr => hr, fun _ h => .inl h⟩,
          fun slot' hkey => ?_⟩
        · intro slot' hslot'
          rcases hs.kept slot' hslot' with hmem | hmem
          · exact .inl (List.mem_cons_of_mem _ hmem)
          · exact .inr hmem
        · rw [Call.holds_eq hreal, hslot] at hkey
          rw [← Option.some.inj hkey]
          refine ⟨List.mem_cons_self, fun hused => ?_⟩
          rcases hs.kept slot hused with hmem | hmem
          · exact hnew hmem
          · exact hnorow hmem
        · rw [Task.key, Call.holds_eq hreal, hslot] at hkey
          rw [← Option.some.inj hkey]
          exact .inr hnew

theorem row_answer (c : Call) (args : String) (dryRun : Bool) (outcome : Except String String)
    (startedAtMs completedAtMs : Int) :
    replayAnswer (c.row args dryRun outcome startedAtMs completedAtMs) =
      some (Gateway.replayed (toAnswer outcome)) := by
  cases outcome with
  | ok out => rfl
  | error e => rfl

theorem stepResolving_key (hs : s.SoundKeys)
    (ht : Task.KnowsKey cfg s (.resolving c)) (resolved : Except String String)
    (startedAtMs completedAtMs : Int) :
    KeyStep cfg s (.resolving c)
      (stepResolving cfg s resolved startedAtMs completedAtMs c).1
      (stepResolving cfg s resolved startedAtMs completedAtMs c).2 := by
  unfold stepResolving
  cases resolved with
  | error name =>
    refine ⟨hs, ⟨rfl, ?_, fun slot hkey => (ht slot hkey).1, ?_⟩, .refl s _,
      fun slot hkey => .inl hkey⟩
    · rw [row_answer]
      rfl
    · intro slot n outcome _ horigin
      cases horigin
  | ok args =>
    simp only
    by_cases hdry : c.isDryRun cfg = true
    · rw [if_pos hdry]
      refine ⟨hs, ⟨rfl, ?_, fun slot hkey => (ht slot hkey).1, ?_⟩, .refl s _,
        fun slot hkey => .inl hkey⟩
      · rw [row_answer]
        rfl
      · intro slot n outcome _ horigin
        cases horigin
    · have hreal : c.isDryRun cfg = false := by simpa using hdry
      rw [if_neg hdry]
      refine ⟨hs.congr rfl rfl rfl rfl, ⟨hreal, fun slot hslot => ?_⟩,
        ⟨fun slot h _ => h, fun r h => h, fun slot h => .inl h⟩, fun slot hkey => .inl hkey⟩
      exact ht slot (by rw [Call.holds_eq hreal, hslot])

theorem stepRunning_key {args : String} {n : Nat} {startedAtMs : Int}
    (hs : s.SoundKeys) (ht : Task.KnowsKey cfg s (.running c args n startedAtMs))
    (result : Except String String) (completedAtMs : Int) :
    KeyStep cfg s (.running c args n startedAtMs)
      (stepRunning cfg s result completedAtMs c args n startedAtMs).1
      (stepRunning cfg s result completedAtMs c args n startedAtMs).2 := by
  obtain ⟨hreal, hkeys⟩ := ht
  have hholds := Call.holds_eq hreal
  have hran : (s.ran ++ [(⟨n, c.tool, c.options.idempotencyKey,
      toAnswer (judge cfg result)⟩ : HandlerRun)]).filterMap (·.slot) =
      s.ran.filterMap (·.slot) ++ c.slot.toList := by
    rw [List.filterMap_append]
    cases hkey : c.options.idempotencyKey with
    | none | some key => simp [HandlerRun.slot, Call.slot, hkey]
  refine ⟨⟨?_, ?_, hs.answers, ?_, ?_⟩, ⟨rfl, ?_, ?_, ?_⟩, ⟨fun slot hmem _ => hmem, ?_, ?_⟩,
    fun slot hkey => .inl hkey⟩
  · simp only [stepRunning]
    rw [hran]
    cases hslot : c.slot with
    | none => simpa using hs.once
    | some slot =>
      have hfree := (hkeys slot hslot).2
      rw [Option.toList_some]
      exact List.nodup_append_comm.mp (List.nodup_cons.mpr ⟨hfree, hs.once⟩)
  · simp only [stepRunning]
    rw [hran]
    intro slot hmem
    rcases List.mem_append.mp hmem with hold | hnew
    · exact hs.kept slot hold
    · exact .inl (hkeys slot (Option.mem_toList.mp hnew)).1
  · intro a ha slot n' outcome hslot horigin
    exact (hs.repeats a ha slot n' outcome hslot horigin).mono
      (fun r hr => List.mem_append_left _ hr)
  · intro p hp
    obtain ⟨r, hr, hslot, hanswer⟩ := hs.replayed p hp
    exact ⟨r, List.mem_append_left _ hr, hslot, hanswer⟩
  · rw [row_answer]
    rfl
  · intro slot hkey
    rw [hholds] at hkey
    exact (hkeys slot hkey).1
  · intro slot n' outcome hslot _
    refine ⟨_, List.mem_append_right _ List.mem_cons_self, hslot, ?_⟩
    rw [row_answer]
  · intro r hr
    exact List.mem_append_left _ hr
  · simp only [stepRunning]
    rw [hran]
    intro slot hmem
    rcases List.mem_append.mp hmem with hold | hnew
    · exact .inl hold
    · right
      rw [Task.key, hholds]
      exact Option.mem_toList.mp hnew

theorem named_slot (draft : StoredAction) (c : Call) (actionId transactionId : String) :
    (draft.named c actionId transactionId).slot = draft.slot ∧
      (draft.named c actionId transactionId).origin = draft.origin ∧
      replayAnswer (draft.named c actionId transactionId).row = replayAnswer draft.row :=
  ⟨rfl, rfl, rfl⟩

theorem stepRecording_key {draft : StoredAction} {answer : Answer}
    {actionId transactionId : String} (hs : s.SoundKeys)
    (ht : Task.KnowsKey cfg s (.recording c draft answer))
    (h : stepRecording cfg s actionId transactionId c draft answer = some (s', t')) :
    KeyStep cfg s (.recording c draft answer) s' t' := by
  obtain ⟨hslot, hsome, hworking, hrepeats⟩ := ht
  obtain ⟨hnslot, hnorigin, hnanswer⟩ := named_slot draft c actionId transactionId
  rw [stepRecording] at h
  split at h
  · cases h
  · next hfresh =>
    cases h
    have hkeep : ∀ slot ∈ s.store.actions.filterMap (·.slot),
        slot ∈ (s.store.record (draft.named c actionId transactionId)).actions.filterMap
          (·.slot) := by
      intro slot hmem
      obtain ⟨a, ha, haslot⟩ := List.mem_filterMap.mp hmem
      exact List.mem_filterMap.mpr ⟨a, record_keeps ha, haslot⟩
    have hwork : ∀ slot ∈ s.working, c.holds cfg ≠ some slot →
        slot ∈ release (c.holds cfg) s.working := by
      intro slot hmem hne
      cases hheld : c.holds cfg with
      | none => exact hmem
      | some held =>
        rw [hheld] at hne
        have hdiff : slot ≠ held := fun he => hne (by rw [he])
        exact (List.mem_erase_of_ne hdiff).mpr hmem
    refine ⟨⟨hs.once, ?_, ?_, ?_, hs.replayed⟩, trivial, ⟨hwork, fun r hr => hr,
      fun slot hmem => .inl hmem⟩, fun slot hkey => by cases hkey⟩
    · intro slot hmem
      rcases hs.kept slot hmem with hin | hrow
      · by_cases hmine : c.holds cfg = some slot
        · right
          have hcslot : c.slot = some slot := by
            rw [Call.holds] at hmine
            split at hmine
            · cases hmine
            · exact hmine
          exact record_slot hfresh (by rw [hnslot, hslot, hcslot])
        · exact .inl (hwork slot hin hmine)
      · exact .inr (hkeep slot hrow)
    · intro a ha
      rcases mem_record ha with hold | rfl
      · exact hs.answers a hold
      · rw [hnanswer]
        exact hsome
    · intro a ha slot n outcome haslot horigin
      rcases mem_record ha with hold | rfl
      · exact hs.repeats a hold slot n outcome haslot horigin
      · rw [hnslot] at haslot
        rw [hnorigin] at horigin
        exact hrepeats slot n outcome haslot horigin

structure Shared.SameKeys (s s' : Shared) : Prop where
  store : s'.store = s.store
  ran : s'.ran = s.ran
  working : s'.working = s.working
  replays : s'.replays = s.replays

theorem stepUnwinding_keys (n : Nat) (rest : List StoredAction) (out : RollbackResult) :
    s.SameKeys (stepUnwinding cfg s n rest out).1 ∧
      (stepUnwinding cfg s n rest out).2.key cfg = none ∧
      ∀ u, (stepUnwinding cfg s n rest out).2.KnowsKey cfg u := by
  have hsame : s.SameKeys s := ⟨rfl, rfl, rfl, rfl⟩
  cases rest with
  | nil => exact ⟨⟨rfl, rfl, rfl, rfl⟩, rfl, fun u => trivial⟩
  | cons action rest =>
    rw [stepUnwinding]
    by_cases hback : action.row.rolledBack = true
    · rw [if_pos hback]
      exact ⟨hsame, rfl, fun u => trivial⟩
    · rw [if_neg hback]
      by_cases hskip : (!action.row.success || action.row.dryRun) = true
      · rw [if_pos hskip]
        by_cases hdone : action.row.success = true
        · rw [if_pos hdone]
          exact ⟨hsame, rfl, fun u => trivial⟩
        · rw [if_neg hdone]
          exact ⟨⟨rfl, rfl, rfl, rfl⟩, rfl, fun u => trivial⟩
      · rw [if_neg hskip]
        cases htier : action.row.tier with
        | autoCompensated tool args =>
          by_cases hwired : cfg.compensates = true
          · simp only [if_pos hwired]
            exact ⟨hsame, rfl, fun u => trivial⟩
          · simp only [if_neg hwired]
            exact ⟨hsame, rfl, fun u => trivial⟩
        | humanRollbackPlan plan | blocked reason => exact ⟨hsame, rfl, fun u => trivial⟩

variable {pick : Pick}

theorem stepRollback_key (hs : s.SoundKeys)
    (h : stepRollback cfg s pick t = some (s', t')) : KeyStep cfg s t s' t' := by
  have hsame : ∀ s₁ t₁, s₁.store = s.store → s₁.ran = s.ran → s₁.working = s.working →
      s₁.replays = s.replays → Task.key cfg t₁ = none → Task.KnowsKey cfg s₁ t₁ →
      KeyStep cfg s t s₁ t₁ := by
    intro s₁ t₁ hstore hran hworking hreplays hkey hknows
    refine ⟨hs.congr hstore hran hworking hreplays, hknows, .congr hran hworking _,
      fun slot hslot => ?_⟩
    rw [hkey] at hslot
    cases hslot
  cases t with
  | asked transactionId =>
    cases h
    exact hsame _ _ rfl rfl rfl rfl rfl trivial
  | unwinding n rest out =>
    have hstep : stepUnwinding cfg s n rest out = (s', t') := Option.some.inj h
    obtain ⟨hkeep, hkey, hknows⟩ := @stepUnwinding_keys cfg s n rest out
    rw [hstep] at hkeep hkey hknows
    exact hsame s' t' hkeep.store hkeep.ran hkeep.working hkeep.replays hkey (hknows s')
  | compensating n action tool args rest out =>
    cases pick with
    | compensation result =>
      cases result with
      | ok reply =>
        cases h
        exact hsame _ _ rfl rfl rfl rfl rfl trivial
      | error e =>
        cases h
        exact hsame _ _ rfl rfl rfl rfl rfl trivial
    | _ => cases h
  | marking n action tool rest out =>
    cases h
    refine ⟨⟨hs.once, ?_, ?_, ?_, hs.replayed⟩, trivial,
      ⟨fun slot h _ => h, fun r h => h, fun slot h => .inl h⟩, fun slot hkey => by cases hkey⟩
    · intro slot hmem
      rw [mark_slots]
      exact hs.kept slot hmem
    · intro b hb
      obtain ⟨a, ha, rfl⟩ := mem_mark hb
      rw [(markRow_answer _ a).1]
      exact hs.answers a ha
    · intro b hb slot n outcome hslot horigin
      obtain ⟨a, ha, rfl⟩ := mem_mark hb
      rw [TransactionStore.markRow_slot] at hslot
      rw [(markRow_answer _ a).2] at horigin
      obtain ⟨r, hr, hrslot, hanswer⟩ := hs.repeats a ha slot n outcome hslot horigin
      exact ⟨r, hr, hrslot, by rw [(markRow_answer _ a).1]; exact hanswer⟩
  | _ => cases h

theorem stepDispatch_key (hs : s.SoundKeys) (ht : t.KnowsKey cfg s)
    (hok : ∀ call, t = .looking call → call.Careful cfg s)
    (h : stepDispatch cfg s pick t = some (s', t')) : KeyStep cfg s t s' t' := by
  cases t with
  | called c =>
    cases pick with
    | decision denied =>
      cases h
      obtain ⟨hkey, hknows⟩ := @stepCalled_key cfg s denied c
      refine ⟨hs, hknows, .refl s _, fun slot hslot => ?_⟩
      rw [hkey] at hslot
      cases hslot
    | _ => cases h
  | looking c =>
    have hstep : stepLooking cfg s c = (s', t') := Option.some.inj h
    have hkey := stepLooking_key hs (hok c rfl)
    rw [hstep] at hkey
    exact hkey
  | resolving c =>
    cases pick with
    | secrets resolved startedAtMs completedAtMs =>
      have hstep : stepResolving cfg s resolved startedAtMs completedAtMs c = (s', t') :=
        Option.some.inj h
      have hkey := stepResolving_key hs ht resolved startedAtMs completedAtMs
      rw [hstep] at hkey
      exact hkey
    | _ => cases h
  | running c args n startedAtMs =>
    cases pick with
    | outcome result completedAtMs =>
      have hstep : stepRunning cfg s result completedAtMs c args n startedAtMs = (s', t') :=
        Option.some.inj h
      have hkey := stepRunning_key hs ht result completedAtMs
      rw [hstep] at hkey
      exact hkey
    | _ => cases h
  | recording c draft answer =>
    cases pick with
    | mint actionId transactionId => exact stepRecording_key hs ht h
    | _ => cases h
  | _ => cases h

theorem step_key (hs : s.SoundKeys) (ht : t.KnowsKey cfg s)
    (hok : ∀ call, t = .looking call → call.Careful cfg s)
    (h : step cfg s pick t = some (s', t')) : KeyStep cfg s t s' t' := by
  rcases Option.or_eq_some_iff.mp h with hdispatch | ⟨-, hrollback⟩
  · exact stepDispatch_key hs ht hok hdispatch
  · exact stepRollback_key hs hrollback

theorem isCall_key (h : t.isCall = true) : t.key cfg = none ∧ t.KnowsKey cfg s := by
  cases t with
  | called c => exact ⟨rfl, trivial⟩
  | asked transactionId => exact ⟨rfl, trivial⟩
  | _ => cases h

end

abbrev KeysKept (cfg : GatewayConfig) : Crowd Shared Task → Prop :=
  Meets Shared.SoundKeys (fun s t => t.KnowsKey cfg s) (Task.KeysApart cfg)

theorem init_sound : Shared.init.SoundKeys where
  once := List.nodup_nil
  kept := fun slot h => by cases h
  answers := fun a h => by cases h
  repeats := fun a h => by cases h
  replayed := fun p h => by cases h

theorem step_keysKept {cfg : GatewayConfig} {c c' : Crowd Shared Task} (l : Label Task)
    (hok : CarefulKeys cfg c l) (h : Step (gateway cfg) c l c') (hc : KeysKept cfg c) :
    KeysKept cfg c' := by
  refine Step.meets ?_ ?_ ?_ ?_ l hok h hc
  · intro t u htu slot hu ht
    exact htu slot ht hu
  · intro s s' hs henv
    rw [show s' = s from henv]
    exact ⟨hs, fun u hu => hu⟩
  · rintro c t s' - hc ⟨hcall, rfl⟩
    obtain ⟨hkey, hknows⟩ := @isCall_key cfg c.shared t hcall
    refine ⟨hc.shared, hknows, fun j u hu => ⟨hc.task j u hu, fun slot hslot => ?_⟩⟩
    rw [hkey] at hslot
    cases hslot
  · rintro c i t s' t' fork hok hc hi ⟨rfl, pick, hexec⟩
    have hcareful : ∀ call, t = .looking call → call.Careful cfg c.shared := by
      intro call ht
      rw [ht] at hi
      exact hok i call rfl hi
    obtain ⟨hsound, hknows, hpasses, hkey⟩ := step_key hc.shared (hc.task i t hi) hcareful hexec
    refine ⟨hsound, hknows, fun f hf => (by cases hf), fun j u hji hu => ?_⟩
    have hmine := hc.task j u hu
    have happart : ∀ slot, u.key cfg = some slot → t.key cfg ≠ some slot := by
      intro slot hslot ht
      exact hc.pair i j t u (Ne.symm hji) hi hu slot ht hslot
    refine ⟨hpasses.knows hmine happart, fun slot hslot huslot => ?_, fun f hf => (by cases hf)⟩
    rcases hkey slot hslot with hown | hfree
    · exact happart slot huslot hown
    · exact hfree (key_working hmine huslot)

theorem count_slots (ran : List HandlerRun) (slot : String × String) :
    ran.countP (fun r => r.slot == some slot) = (ran.filterMap (·.slot)).count slot := by
  induction ran with
  | nil => rfl
  | cons r rest ih =>
    rw [List.countP_cons, ih]
    cases hslot : r.slot with
    | none => simp [hslot]
    | some other => simp [hslot, List.count_cons]

theorem Shared.SoundKeys.idempotent {s : Shared} (h : s.SoundKeys) : s.Idempotent where
  once := by
    intro slot
    have hcount := count_slots s.ran slot
    have hone : (s.ran.filterMap (·.slot)).count slot ≤ 1 := List.nodup_iff_count_le_one.mp h.once slot
    have hsub : s.ran.countP (fun r => r.slot == some slot && r.answer.isOk) ≤
        s.ran.countP (fun r => r.slot == some slot) := by
      apply List.countP_mono_left
      intro r _ hr
      exact (Bool.and_eq_true_iff.mp hr).1
    omega
  replayed := h.replayed

/-- In a run all of whose lookups are careful a key runs its handler once, and what is replayed is
the answer of that run. -/
theorem keys_idempotent (cfg : GatewayConfig) (c : Crowd Shared Task)
    (h : Runs (gateway cfg) (CarefulKeys cfg) ⟨.init, []⟩ c) : c.shared.Idempotent :=
  (h.keeps (fun _ l _ hok hstep hc => step_keysKept l hok hstep hc)
    (Crowd.meets_nil init_sound)).shared.idempotent

def plainConfig : GatewayConfig where
  blockedTools := []
  globalDryRun := false
  inspect := fun output => ⟨false, none, output⟩
  previewJson := fun p => "would run " ++ p.tool
  compensates := true

def gatewayPlayer (cfg : GatewayConfig) (allows : Crowd Shared Task → Label Task → Bool) :
    Crowd.Player Shared Task Pick Unit where
  outside := fun s _ => s
  starts := Task.isCall
  exec := fun s pick t => (step cfg s pick t).map (fun r => (r.1, r.2, none))
  allows := allows

theorem gatewayPlayer_plays {cfg : GatewayConfig}
    {allows : Crowd Shared Task → Label Task → Bool}
    {ok : Crowd Shared Task → Label Task → Prop} (hok : ∀ c l, allows c l = true → ok c l) :
    (gatewayPlayer cfg allows).Plays (gateway cfg) ok where
  env := fun s _ => rfl
  spawn := fun s t ht => ⟨ht, rfl⟩
  exec := by
    intro s pick t s' t' fork h
    obtain ⟨r, hr, heq⟩ := Option.map_eq_some_iff.mp h
    cases heq
    exact ⟨rfl, pick, hr⟩
  allows := hok

def anyCall : Crowd.Player Shared Task Pick Unit := gatewayPlayer plainConfig (fun _ _ => true)

theorem anyCall_plays : anyCall.Plays (gateway plainConfig) (fun _ _ => True) :=
  gatewayPlayer_plays (fun _ _ _ => trivial)

def Origin.isHandled : Origin → Bool
  | .handled _ _ => true
  | _ => false

def Call.careful (cfg : GatewayConfig) (s : Shared) (call : Call) : Bool :=
  call.slot.all (fun slot =>
    s.store.actions.all (fun a => a.slot != some slot || a.origin.isHandled) &&
      (call.isDryRun cfg || !s.working.contains slot))

theorem careful_of {cfg : GatewayConfig} {s : Shared} {call : Call}
    (h : call.careful cfg s = true) : call.Careful cfg s := by
  intro slot hslot
  rw [Call.careful, hslot, Option.all_some] at h
  obtain ⟨hrows, hfree⟩ := Bool.and_eq_true_iff.mp h
  refine ⟨fun a ha haslot => ?_, fun hreal => ?_⟩
  · have hrow := List.all_eq_true.mp hrows a ha
    simp only [haslot, bne_self_eq_false, Bool.false_or] at hrow
    cases horigin : a.origin with
    | handled n outcome => exact ⟨n, outcome, rfl⟩
    | preview =>
      rw [horigin] at hrow
      cases hrow
    | unresolved =>
      rw [horigin] at hrow
      cases hrow
  · simpa [hreal] using hfree

def carefulCall : Crowd.Player Shared Task Pick Unit := gatewayPlayer plainConfig (fun c l =>
  match l with
  | .run i => (c.tasks[i]?).all (fun t => match t with
    | .looking call => call.careful plainConfig c.shared
    | _ => true)
  | _ => true)

theorem carefulCall_plays : carefulCall.Plays (gateway plainConfig) (CarefulKeys plainConfig) := by
  refine gatewayPlayer_plays (fun c l hallows i call hl hcall => ?_)
  subst hl
  simp only [hcall, Option.all_some] at hallows
  exact careful_of hallows

def keyedCall (dryRun : Bool) : Call :=
  ⟨"agt_1", "billing.charge", "100", ⟨none, some "order-1", none, dryRun, none⟩⟩

def opensCall (i : Nat) (dryRun : Bool) : List (Crowd.Play Task Pick Unit) :=
  [.spawn (.called (keyedCall dryRun)), .run i (.decision none), .run i .go]

def resolves (i : Nat) : Crowd.Play Task Pick Unit := .run i (.secrets (.ok "100") 10 10)

def ends (i : Nat) (actionId : String) : List (Crowd.Play Task Pick Unit) :=
  [.run i (.outcome (.ok "charged") 12), .run i (.mint actionId "txn_1")]

def endsUnrun (i : Nat) (resolved : Except String String) : List (Crowd.Play Task Pick Unit) :=
  [.run i (.secrets resolved 10 10), .run i (.mint "act_1" "txn_1")]

theorem keys_idempotent_sample : ∃ c : Crowd Shared Task,
    c.shared.ran.length = 1 ∧ c.shared.replays.length = 1 ∧ c.shared.Idempotent := by
  have hplay : ((opensCall 0 false ++ [resolves 0] ++ ends 0 "act_1" ++
      opensCall 1 false).foldlM carefulCall.play ⟨.init, []⟩).any (fun c =>
        decide (c.shared.ran.length = 1 ∧ c.shared.replays.length = 1)) = true := by decide +kernel
  obtain ⟨c, hc, htest⟩ := carefulCall_plays.reaches hplay
  obtain ⟨hran, hreplays⟩ := of_decide_eq_true htest
  exact ⟨c, hran, hreplays, keys_idempotent plainConfig c hc⟩

/-- A second call runs the handler again while the first is under way; a preview, or a secret that
was missing, is replayed to the real call that comes after. -/
theorem keyed_charge_doubled : ∃ c c' c'' : Crowd Shared Task,
    Runs (gateway plainConfig) (fun _ _ => True) ⟨.init, []⟩ c ∧
    Runs (gateway plainConfig) (fun _ _ => True) ⟨.init, []⟩ c' ∧
    Runs (gateway plainConfig) (fun _ _ => True) ⟨.init, []⟩ c'' ∧
    c.shared.ran.countP (fun r => r.slot == some ("billing.charge", "order-1") &&
      r.answer.isOk) = 2 ∧ ¬c.shared.Idempotent ∧
    c'.shared.ran.length = 0 ∧
    c'.shared.replays.map (·.answer.toOption) = [some "would run billing.charge"] ∧
    ¬c'.shared.Idempotent ∧
    c''.shared.ran.length = 0 ∧ c''.shared.replays.length = 1 ∧ ¬c''.shared.Idempotent := by
  have hrace : ((opensCall 0 false ++ opensCall 1 false ++ [resolves 0, resolves 1] ++
      ends 0 "act_1" ++ ends 1 "act_2").foldlM anyCall.play ⟨.init, []⟩).any (fun c =>
        decide (c.shared.ran.countP (fun r => r.slot == some ("billing.charge", "order-1") &&
          r.answer.isOk) = 2)) = true := by decide +kernel
  have hdry : ((opensCall 0 true ++ endsUnrun 0 (.ok "100") ++ opensCall 1 false).foldlM anyCall.play ⟨.init, []⟩).any (fun c =>
        decide (c.shared.ran.length = 0 ∧
          c.shared.replays.map (·.answer.toOption) = [some "would run billing.charge"])) =
        true := by decide +kernel
  have hsecret : ((opensCall 0 false ++ endsUnrun 0 (.error "API_KEY") ++
      opensCall 1 false).foldlM anyCall.play ⟨.init, []⟩).any (fun c =>
          decide (c.shared.ran.length = 0 ∧ c.shared.replays.length = 1)) = true := by
    decide +kernel
  have hreplay : ∀ s : Shared, s.ran.length = 0 → 0 < s.replays.length → ¬s.Idempotent := by
    intro s hran hlen hidem
    obtain ⟨p, hp⟩ := List.exists_mem_of_length_pos hlen
    obtain ⟨r, hr, -⟩ := hidem.replayed p hp
    rw [List.length_eq_zero_iff.mp hran] at hr
    cases hr
  obtain ⟨c, hc, htwo⟩ := anyCall_plays.reaches hrace
  obtain ⟨c', hc', htest'⟩ := anyCall_plays.reaches hdry
  obtain ⟨c'', hc'', htest''⟩ := anyCall_plays.reaches hsecret
  have htwo' := of_decide_eq_true htwo
  obtain ⟨hran', hreplays'⟩ := of_decide_eq_true htest'
  obtain ⟨hran'', hreplays''⟩ := of_decide_eq_true htest''
  refine ⟨c, c', c'', hc, hc', hc'', htwo', fun hidem => ?_, hran', hreplays', ?_, hran'',
    hreplays'', ?_⟩
  · have hone := hidem.once ("billing.charge", "order-1")
    omega
  · apply hreplay c'.shared hran'
    have hlen := congrArg List.length hreplays'
    rw [List.length_map] at hlen
    rw [hlen]
    decide
  · apply hreplay c''.shared hran''
    omega

end Relux.Gateway
