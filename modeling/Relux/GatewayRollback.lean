import Mathlib.Data.Prod.Lex
import Relux.GatewayKeys

/-! Rollbacks: when the compensating calls of a transaction undo each of its actions once, in the
reverse of the order in which they were dispatched. -/

namespace Relux.Gateway

open Crowd (Runs Step Label Meets)

/-- The handler of `a` started before the one of `b`. -/
def StoredAction.Before (a b : StoredAction) : Prop :=
  ∃ m n outcome outcome', a.origin = .handled m outcome ∧ b.origin = .handled n outcome' ∧ m < n

def StoredAction.HandlerOk (a : StoredAction) : Prop := ∃ n out, a.origin = .handled n (.ok out)

def GatewayTier.isCompensated : GatewayTier → Bool
  | .autoCompensated _ _ => true
  | _ => false

def StoredAction.Undoable (a : StoredAction) : Prop :=
  a.row.rolledBack = false ∧ a.row.success = true ∧ a.row.dryRun = false ∧
    a.row.tier.isCompensated = true

/-- An action is compensated once, the calls of one rollback go back in the order of dispatch, and
what is skipped as failed is no action whose handler returned a result. -/
structure Shared.UndoneInOrder (s : Shared) : Prop where
  once : ∀ id, s.compensations.countP (fun k => k.success && k.action.row.actionId == id) ≤ 1
  reversed : s.compensations.Pairwise
    (fun k k' => k.rollback = k'.rollback → k'.action.Before k.action)
  unskipped : ∀ a ∈ s.skipped, ¬a.HandlerOk

/-- No rollback of the transaction is under way, none of its actions is recorded as failed though
its handler returned a result, and those to undo are listed in the order of dispatch. -/
structure Shared.ReadyToUndo (s : Shared) (transactionId : String) : Prop where
  idle : transactionId ∉ s.rolling
  honest : ∀ a ∈ s.store.actions, a.row.transactionId = transactionId → a.HandlerOk →
    a.row.success = true
  listed : ∀ a ∈ s.store.actions, ∀ b ∈ s.store.actions, a.row.transactionId = transactionId →
    b.row.transactionId = transactionId → a.Undoable → b.Undoable →
    a.row.actionId ≠ b.row.actionId → a.Listed b → a.Before b

def CarefulRollbacks (c : Crowd Shared Task) (l : Label Task) : Prop :=
  ∀ i transactionId, l = .run i → c.tasks[i]? = some (.asked transactionId) →
    c.shared.ReadyToUndo transactionId

theorem listed_iff (a b : StoredAction) : a.Listed b ↔
    toLex (a.row.startedAtMs, a.row.actionId) ≤ toLex (b.row.startedAtMs, b.row.actionId) := by
  rw [Prod.Lex.toLex_le_toLex]
  rfl

instance : Std.Total StoredAction.Listed :=
  ⟨fun a b => by simpa only [listed_iff] using le_total _ _⟩

instance : IsTrans StoredAction StoredAction.Listed :=
  ⟨fun a b c => by simpa only [listed_iff] using le_trans⟩

variable {a b : StoredAction}

theorem mem_listed {store : TransactionStore} {transactionId : String} :
    a ∈ store.listForTransaction transactionId ↔
      a ∈ store.actions ∧ a.row.transactionId = transactionId := by
  rw [TransactionStore.listForTransaction, List.mem_insertionSort, List.mem_filter, beq_iff_eq]

theorem listed_ids (store : TransactionStore) (transactionId : String) :
    ((store.listForTransaction transactionId).map (·.row.actionId)).Nodup := by
  have hsub : ((store.actions.filter (fun a => a.row.transactionId == transactionId)).map
      (·.row.actionId)).Nodup :=
    store.primaryKey.sublist (List.filter_sublist.map _)
  exact ((List.perm_insertionSort _ _).map _).nodup_iff.mpr hsub

theorem listed_sorted (store : TransactionStore) (transactionId : String) :
    (store.listForTransaction transactionId).Pairwise StoredAction.Listed :=
  List.pairwise_insertionSort _ _

structure StoredAction.Same (a b : StoredAction) : Prop where
  id : a.row.actionId = b.row.actionId
  transaction : a.row.transactionId = b.row.transactionId

def Shared.Stored (s : Shared) (a : StoredAction) : Prop := ∃ b ∈ s.store.actions, a.Same b

def Shared.Marked (s : Shared) (a : StoredAction) : Prop :=
  ∃ b ∈ s.store.actions, b.row.actionId = a.row.actionId ∧ b.row.rolledBack = true

structure Shared.SoundUndo (s : Shared) : Prop extends s.UndoneInOrder where
  known : ∀ k ∈ s.compensations, k.rollback < s.rollbacks ∧ s.Stored k.action
  settled : ∀ k ∈ s.compensations, k.success = true →
    s.Marked k.action ∨ k.action.row.transactionId ∈ s.rolling

/-- Where a rollback stands: what it has still to visit, and the action that it compensated and
has still to mark. -/
structure Undo where
  n : Nat
  transactionId : String
  rest : List StoredAction
  unmarked : Option String

structure Shared.Unwinds (s : Shared) (u : Undo) : Prop where
  begun : u.n < s.rollbacks
  rolling : u.transactionId ∈ s.rolling
  ids : (u.rest.map (·.row.actionId)).Nodup
  stored : ∀ a ∈ u.rest, a.row.transactionId = u.transactionId ∧ s.Stored a
  fresh : ∀ a ∈ u.rest, a.row.rolledBack = false → ∀ k ∈ s.compensations, k.success = true →
    k.action.row.actionId ≠ a.row.actionId
  marked : ∀ k ∈ s.compensations, k.success = true →
    k.action.row.transactionId = u.transactionId →
      s.Marked k.action ∨ u.unmarked = some k.action.row.actionId
  order : u.rest.Pairwise (fun a b => a.Undoable → b.Undoable → b.Before a)
  below : ∀ a ∈ u.rest, a.Undoable → ∀ k ∈ s.compensations, k.rollback = u.n → a.Before k.action
  honest : ∀ a ∈ u.rest, a.HandlerOk → a.row.success = true

def Task.undo : Task → Option Undo
  | .unwinding n rest out => some ⟨n, out.transactionId, rest, none⟩
  | .compensating n action _ _ rest out => some ⟨n, out.transactionId, action :: rest, none⟩
  | .marking n action _ rest out => some ⟨n, out.transactionId, rest, some action.row.actionId⟩
  | _ => none

def Task.KnowsUndo (s : Shared) (t : Task) : Prop :=
  (∀ u, t.undo = some u → s.Unwinds u) ∧
    ∀ n action tool args rest out, t = .compensating n action tool args rest out → action.Undoable

def Task.RollbacksApart (t t' : Task) : Prop :=
  ∀ u u', t.undo = some u → t'.undo = some u' → u.n ≠ u'.n ∧ u.transactionId ≠ u'.transactionId

def TransactionStore.Carries (store store' : TransactionStore) : Prop :=
  ∀ a ∈ store.actions, ∃ b ∈ store'.actions, a.Same b ∧
    (a.row.rolledBack = true → b.row.rolledBack = true)

/-- The step is of the rollback `mine`, if of any: the others go on. -/
structure Shared.PassesUndo (s s' : Shared) (mine : Option Undo) : Prop where
  rollbacks : s.rollbacks ≤ s'.rollbacks
  rolling : ∀ tx ∈ s.rolling, (∀ u, mine = some u → u.transactionId ≠ tx) → tx ∈ s'.rolling
  store : s.store.Carries s'.store
  compensations : ∀ k ∈ s'.compensations, k ∈ s.compensations ∨
    ∃ u, mine = some u ∧ k.rollback = u.n ∧ k.action.row.transactionId = u.transactionId

structure UndoStep (s : Shared) (t : Task) (s' : Shared) (t' : Task) : Prop where
  sound : s'.SoundUndo
  knows : t'.KnowsUndo s'
  passes : s.PassesUndo s' t.undo
  undo : ∀ u, t'.undo = some u →
    (∃ v, t.undo = some v ∧ v.n = u.n ∧ v.transactionId = u.transactionId) ∨
      (s.rollbacks ≤ u.n ∧ u.transactionId ∉ s.rolling)

section
variable {cfg : GatewayConfig} {s s' : Shared} {t t' : Task} {u : Undo}

theorem StoredAction.Same.refl (a : StoredAction) : a.Same a := ⟨rfl, rfl⟩

theorem StoredAction.Same.trans {c : StoredAction} (hab : a.Same b) (hbc : b.Same c) : a.Same c :=
  ⟨hab.id.trans hbc.id, hab.transaction.trans hbc.transaction⟩

theorem carries_refl (store : TransactionStore) : store.Carries store :=
  fun a ha => ⟨a, ha, .refl a, fun h => h⟩

theorem carries_record (store : TransactionStore) (a : StoredAction) :
    store.Carries (store.record a) :=
  fun b hb => ⟨b, record_keeps hb, .refl b, fun h => h⟩

theorem carries_mark (store : TransactionStore) (actionId : String) :
    store.Carries (store.markRolledBack actionId) := by
  intro a ha
  refine ⟨TransactionStore.markRow actionId a, List.mem_map_of_mem ha, ?_⟩
  rw [TransactionStore.markRow]
  split
  · exact ⟨⟨rfl, rfl⟩, fun _ => rfl⟩
  · exact ⟨.refl a, fun h => h⟩

theorem action_of_id {store : TransactionStore} (ha : a ∈ store.actions) (hb : b ∈ store.actions)
    (hid : a.row.actionId = b.row.actionId) : a = b :=
  List.inj_on_of_nodup_map store.primaryKey ha hb hid

theorem Shared.Stored.carried (h : s.Stored a) (hstore : s.store.Carries s'.store) :
    s'.Stored a := by
  obtain ⟨b, hb, hsame⟩ := h
  obtain ⟨b', hb', hsame', -⟩ := hstore b hb
  exact ⟨b', hb', hsame.trans hsame'⟩

theorem Shared.Marked.carried (h : s.Marked a) (hstore : s.store.Carries s'.store) :
    s'.Marked a := by
  obtain ⟨b, hb, hid, hback⟩ := h
  obtain ⟨b', hb', hsame', hmarked⟩ := hstore b hb
  exact ⟨b', hb', hsame'.id.symm.trans hid, hmarked hback⟩

theorem Shared.Stored.transaction (ha : s.Stored a) (hb : s.Stored b)
    (hid : a.row.actionId = b.row.actionId) : a.row.transactionId = b.row.transactionId := by
  obtain ⟨a', ha', hsame⟩ := ha
  obtain ⟨b', hb', hsame'⟩ := hb
  have heq : a' = b' := action_of_id ha' hb' (by rw [← hsame.id, ← hsame'.id, hid])
  rw [hsame.transaction, heq, hsame'.transaction]

theorem Shared.PassesUndo.unwinds {mine : Option Undo} (h : s.PassesUndo s' mine)
    (hs' : s'.SoundUndo) (hu : s.Unwinds u)
    (hne : ∀ v, mine = some v → v.n ≠ u.n ∧ v.transactionId ≠ u.transactionId) :
    s'.Unwinds u where
  begun := Nat.lt_of_lt_of_le hu.begun h.rollbacks
  rolling := h.rolling _ hu.rolling (fun v hv => (hne v hv).2)
  ids := hu.ids
  stored := fun a ha => ⟨(hu.stored a ha).1, (hu.stored a ha).2.carried h.store⟩
  fresh := by
    intro a ha hback k hk hsuccess hid
    rcases h.compensations k hk with hold | ⟨v, hv, -, htx⟩
    · exact hu.fresh a ha hback k hold hsuccess hid
    · obtain ⟨hatx, hstored⟩ := hu.stored a ha
      have hsame := (hs'.known k hk).2.transaction (hstored.carried h.store) hid
      exact (hne v hv).2 (by rw [← htx, hsame, hatx])
  marked := by
    intro k hk hsuccess htx
    rcases h.compensations k hk with hold | ⟨v, hv, -, hvtx⟩
    · rcases hu.marked k hold hsuccess htx with hmarked | hown
      · exact .inl (hmarked.carried h.store)
      · exact .inr hown
    · exact absurd (hvtx.symm.trans htx) (hne v hv).2
  order := hu.order
  below := by
    intro a ha hundo k hk hn
    rcases h.compensations k hk with hold | ⟨v, hv, hvn, -⟩
    · exact hu.below a ha hundo k hold hn
    · exact absurd (hvn.symm.trans hn) (hne v hv).1
  honest := hu.honest

theorem Shared.Unwinds.tail {n : Nat} {tx : String} {action : StoredAction}
    {rest : List StoredAction} {unmarked : Option String}
    (h : s.Unwinds ⟨n, tx, action :: rest, unmarked⟩) : s.Unwinds ⟨n, tx, rest, unmarked⟩ where
  begun := h.begun
  rolling := h.rolling
  ids := (List.nodup_cons.mp h.ids).2
  stored := fun a ha => h.stored a (List.mem_cons_of_mem _ ha)
  fresh := fun a ha => h.fresh a (List.mem_cons_of_mem _ ha)
  marked := h.marked
  order := (List.pairwise_cons.mp h.order).2
  below := fun a ha => h.below a (List.mem_cons_of_mem _ ha)
  honest := fun a ha => h.honest a (List.mem_cons_of_mem _ ha)

structure Shared.SameUndo (s s' : Shared) : Prop where
  rollbacks : s'.rollbacks = s.rollbacks
  rolling : s'.rolling = s.rolling
  compensations : s'.compensations = s.compensations
  skipped : s'.skipped = s.skipped
  store : s.store.Carries s'.store

theorem Shared.SameUndo.passes (h : s.SameUndo s') (mine : Option Undo) :
    s.PassesUndo s' mine where
  rollbacks := by rw [h.rollbacks]
  rolling := by
    intro tx htx _
    rw [h.rolling]
    exact htx
  store := h.store
  compensations := by
    intro k hk
    rw [h.compensations] at hk
    exact .inl hk

theorem Shared.SameUndo.sound (h : s.SameUndo s') (hs : s.SoundUndo) : s'.SoundUndo where
  once := by
    rw [h.compensations]
    exact hs.once
  reversed := by
    rw [h.compensations]
    exact hs.reversed
  unskipped := by
    rw [h.skipped]
    exact hs.unskipped
  known := by
    rw [h.compensations, h.rollbacks]
    intro k hk
    exact ⟨(hs.known k hk).1, (hs.known k hk).2.carried h.store⟩
  settled := by
    rw [h.compensations, h.rolling]
    intro k hk hsuccess
    rcases hs.settled k hk hsuccess with hmarked | hrolling
    · exact .inl (hmarked.carried h.store)
    · exact .inr hrolling

variable {pick : Pick}

theorem stepDispatch_same (h : stepDispatch cfg s pick t = some (s', t')) :
    s.SameUndo s' ∧ t.undo = none ∧ t'.undo = none := by
  have hsame : s.SameUndo s := ⟨rfl, rfl, rfl, rfl, carries_refl _⟩
  cases t with
  | called c =>
    cases pick with
    | decision denied =>
      cases h
      refine ⟨hsame, rfl, ?_⟩
      unfold stepCalled
      split
      · rfl
      · split
        · rfl
        · split <;> rfl
    | _ => cases h
  | looking c =>
    have hstep : stepLooking cfg s c = (s', t') := Option.some.inj h
    rw [stepLooking] at hstep
    cases hslot : c.slot with
    | none =>
      rw [hslot] at hstep
      cases hstep
      exact ⟨hsame, rfl, rfl⟩
    | some slot =>
      rw [hslot] at hstep
      simp only at hstep
      cases hreplay : replayOf s slot with
      | some answer =>
        rw [hreplay] at hstep
        cases hstep
        exact ⟨⟨rfl, rfl, rfl, rfl, carries_refl _⟩, rfl, rfl⟩
      | none =>
        rw [hreplay] at hstep
        by_cases hdry : c.isDryRun cfg = true
        · simp only [if_pos hdry] at hstep
          cases hstep
          exact ⟨hsame, rfl, rfl⟩
        · simp only [if_neg hdry] at hstep
          cases hstep
          exact ⟨⟨rfl, rfl, rfl, rfl, carries_refl _⟩, rfl, rfl⟩
  | resolving c =>
    cases pick with
    | secrets resolved startedAtMs completedAtMs =>
      have hstep : stepResolving cfg s resolved startedAtMs completedAtMs c = (s', t') :=
        Option.some.inj h
      cases resolved with
      | error name =>
        cases hstep
        exact ⟨hsame, rfl, rfl⟩
      | ok args =>
        simp only [stepResolving] at hstep
        split at hstep
        · cases hstep
          exact ⟨hsame, rfl, rfl⟩
        · cases hstep
          exact ⟨⟨rfl, rfl, rfl, rfl, carries_refl _⟩, rfl, rfl⟩
    | _ => cases h
  | running c args n startedAtMs =>
    cases pick with
    | outcome result completedAtMs =>
      cases h
      exact ⟨⟨rfl, rfl, rfl, rfl, carries_refl _⟩, rfl, rfl⟩
    | _ => cases h
  | recording c draft answer =>
    cases pick with
    | mint actionId transactionId =>
      have hstep : stepRecording cfg s actionId transactionId c draft answer = some (s', t') := h
      rw [stepRecording] at hstep
      split at hstep
      · cases hstep
      · cases hstep
        exact ⟨⟨rfl, rfl, rfl, rfl, carries_record _ _⟩, rfl, rfl⟩
    | _ => cases h
  | _ => cases h

theorem knows_of_none (h : t.undo = none) : t.KnowsUndo s := by
  refine ⟨fun u hu => ?_, ?_⟩
  · rw [h] at hu
    cases hu
  · rintro n action tool args rest out rfl
    cases h

variable {rest : List StoredAction} {out : RollbackResult} {n : Nat}

theorem knows_unwinding (h : s.Unwinds ⟨n, out.transactionId, rest, none⟩) :
    Task.KnowsUndo s (.unwinding n rest out) := by
  refine ⟨fun u hu => ?_, ?_⟩
  · cases hu
    exact h
  · rintro n' action tool args rest' out' heq
    cases heq

variable {tx : String}

theorem stepAsked_undo (hs : s.SoundUndo) (hready : s.ReadyToUndo tx) :
    UndoStep s (.asked tx) (stepAsked s tx).1 (stepAsked s tx).2 := by
  have hmarked : ∀ k ∈ s.compensations, k.success = true → k.action.row.transactionId = tx →
      s.Marked k.action := by
    intro k hk hsuccess htx
    rcases hs.settled k hk hsuccess with hmarked | hrolling
    · exact hmarked
    · rw [htx] at hrolling
      exact absurd hrolling hready.idle
  refine ⟨⟨⟨hs.once, hs.reversed, hs.unskipped⟩, ?_, ?_⟩, knows_unwinding ?_,
    ⟨Nat.le_succ _, fun tx' htx' _ => List.mem_cons_of_mem _ htx', carries_refl _,
      fun k hk => .inl hk⟩, ?_⟩
  · intro k hk
    exact ⟨Nat.lt_succ_of_lt (hs.known k hk).1, (hs.known k hk).2⟩
  · intro k hk hsuccess
    rcases hs.settled k hk hsuccess with hmark | hrolling
    · exact .inl hmark
    · exact .inr (List.mem_cons_of_mem _ hrolling)
  · refine ⟨Nat.lt_succ_self _, List.mem_cons_self, ?_, ?_, ?_, ?_, ?_, ?_, ?_⟩
    · rw [List.map_reverse, List.nodup_reverse]
      exact listed_ids s.store tx
    · intro a ha
      obtain ⟨hmem, htx⟩ := mem_listed.mp (List.mem_reverse.mp ha)
      exact ⟨htx, a, hmem, .refl a⟩
    · intro a ha hback k hk hsuccess hid
      obtain ⟨hmem, htx⟩ := mem_listed.mp (List.mem_reverse.mp ha)
      have hsame := (hs.known k hk).2.transaction ⟨a, hmem, .refl a⟩ hid
      obtain ⟨b, hb, hbid, hbback⟩ := hmarked k hk hsuccess (hsame.trans htx)
      rw [action_of_id hb hmem (hbid.trans hid), hback] at hbback
      cases hbback
    · intro k hk hsuccess htx
      exact .inl (hmarked k hk hsuccess htx)
    · rw [List.pairwise_reverse]
      have hids := List.pairwise_map.mp (listed_ids s.store tx)
      apply ((listed_sorted s.store tx).and hids).imp_of_mem
      rintro a b ha hb ⟨hlisted, hne⟩ hbundo haundo
      obtain ⟨hamem, hatx⟩ := mem_listed.mp ha
      obtain ⟨hbmem, hbtx⟩ := mem_listed.mp hb
      exact hready.listed a hamem b hbmem hatx hbtx haundo hbundo hne hlisted
    · intro a _ _ k hk hn
      have hlt := (hs.known k hk).1
      rw [hn] at hlt
      exact absurd hlt (Nat.lt_irrefl _)
    · intro a ha hok
      obtain ⟨hmem, htx⟩ := mem_listed.mp (List.mem_reverse.mp ha)
      exact hready.honest a hmem htx hok
  · intro u hu
    cases hu
    exact .inr ⟨Nat.le_refl _, hready.idle⟩

theorem UndoStep.quiet {v : Undo} (hs : s.SoundUndo) (ht : t.undo = some v)
    (hknows : t'.KnowsUndo s)
    (hundo : ∀ u, t'.undo = some u → v.n = u.n ∧ v.transactionId = u.transactionId) :
    UndoStep s t s t' where
  sound := hs
  knows := hknows
  passes := ⟨Nat.le_refl _, fun _ h _ => h, carries_refl _, fun _ h => .inl h⟩
  undo := fun u hu => .inl ⟨v, ht, hundo u hu⟩

variable {action : StoredAction}

theorem UndoStep.visited {out' : RollbackResult} (hs : s.SoundUndo)
    (h : s.Unwinds ⟨n, out.transactionId, action :: rest, none⟩)
    (hout : out'.transactionId = out.transactionId) :
    UndoStep s (.unwinding n (action :: rest) out) s (.unwinding n rest out') := by
  refine .quiet hs rfl (knows_unwinding ?_) ?_
  · rw [hout]
    exact h.tail
  · intro u hu
    cases hu
    exact ⟨rfl, hout.symm⟩

theorem stepUnwinding_undo {n : Nat} {rest : List StoredAction} {out : RollbackResult}
    (hs : s.SoundUndo) (h : s.Unwinds ⟨n, out.transactionId, rest, none⟩) :
    UndoStep s (.unwinding n rest out) (stepUnwinding cfg s n rest out).1
      (stepUnwinding cfg s n rest out).2 := by
  cases rest with
  | nil =>
    refine ⟨⟨⟨hs.once, hs.reversed, hs.unskipped⟩, hs.known, ?_⟩, knows_of_none rfl,
      ⟨Nat.le_refl _, ?_, carries_refl _, fun k hk => .inl hk⟩, fun u hu => by cases hu⟩
    · intro k hk hsuccess
      by_cases htx : k.action.row.transactionId = out.transactionId
      · rcases h.marked k hk hsuccess htx with hmarked | hown
        · exact .inl hmarked
        · cases hown
      · rcases hs.settled k hk hsuccess with hmarked | hrolling
        · exact .inl hmarked
        · exact .inr ((List.mem_erase_of_ne htx).mpr hrolling)
    · intro tx htx hne
      have hdiff : tx ≠ out.transactionId := fun heq => hne _ rfl heq.symm
      exact (List.mem_erase_of_ne hdiff).mpr htx
  | cons action rest =>
    rw [stepUnwinding]
    by_cases hback : action.row.rolledBack = true
    · rw [if_pos hback]
      exact .visited hs h rfl
    · rw [if_neg hback]
      by_cases hskip : (!action.row.success || action.row.dryRun) = true
      · rw [if_pos hskip]
        by_cases hdone : action.row.success = true
        · rw [if_pos hdone]
          exact .visited hs h rfl
        · rw [if_neg hdone]
          have hrest := h.tail
          refine ⟨⟨⟨hs.once, hs.reversed, ?_⟩, hs.known, hs.settled⟩, knows_unwinding ⟨
              hrest.begun, hrest.rolling, hrest.ids, hrest.stored, hrest.fresh, hrest.marked,
              hrest.order, hrest.below, hrest.honest⟩,
            ⟨Nat.le_refl _, fun _ h _ => h, carries_refl _, fun k hk => .inl hk⟩, ?_⟩
          · intro a ha
            rcases List.mem_append.mp ha with hold | hnew
            · exact hs.unskipped a hold
            · rw [List.mem_singleton.mp hnew]
              intro hok
              exact hdone (h.honest action List.mem_cons_self hok)
          · intro u hu
            cases hu
            exact .inl ⟨_, rfl, rfl, rfl⟩
      · rw [if_neg hskip]
        cases htier : action.row.tier with
        | autoCompensated tool args =>
          by_cases hwired : cfg.compensates = true
          · simp only [if_pos hwired]
            have hflags : action.row.success = true ∧ action.row.dryRun = false := by
              simpa using hskip
            have hundo : action.Undoable := by
              refine ⟨by simpa using hback, hflags.1, hflags.2, ?_⟩
              rw [htier]
              rfl
            refine .quiet hs rfl ⟨fun u hu => ?_, ?_⟩ ?_
            · cases hu
              exact h
            · rintro n' action' tool' args' rest' out' heq
              cases heq
              exact hundo
            · intro u hu
              cases hu
              exact ⟨rfl, rfl⟩
          · simp only [if_neg hwired]
            exact .visited hs h rfl
        | humanRollbackPlan plan => exact .visited hs h rfl
        | blocked reason => exact .visited hs h rfl

theorem Shared.Unwinds.compensated (h : s.Unwinds ⟨n, tx, action :: rest, none⟩)
    (hundo : action.Undoable) (success : Bool) :
    ({ s with compensations := s.compensations ++ [⟨n, action, success⟩] } : Shared).Unwinds
      ⟨n, tx, rest, if success then some action.row.actionId else none⟩ := by
  have hrest := h.tail
  refine ⟨h.begun, h.rolling, hrest.ids, hrest.stored, ?_, ?_, hrest.order, ?_, hrest.honest⟩
  · intro a ha hback k hk hsuccess
    rcases List.mem_append.mp hk with hold | hnew
    · exact hrest.fresh a ha hback k hold hsuccess
    · rw [List.mem_singleton.mp hnew]
      intro hid
      have hids := List.nodup_cons.mp h.ids
      apply hids.1
      show action.row.actionId ∈ _
      rw [hid]
      exact List.mem_map_of_mem ha
  · intro k hk hsuccess htx
    rcases List.mem_append.mp hk with hold | hnew
    · rcases h.marked k hold hsuccess htx with hmarked | hown
      · exact .inl hmarked
      · cases hown
    · rw [List.mem_singleton.mp hnew] at hsuccess ⊢
      right
      show (if success = true then some action.row.actionId else none) = _
      rw [if_pos hsuccess]
  · intro a ha haundo k hk hn
    rcases List.mem_append.mp hk with hold | hnew
    · exact hrest.below a ha haundo k hold hn
    · rw [List.mem_singleton.mp hnew]
      exact (List.pairwise_cons.mp h.order).1 a ha hundo haundo

theorem Shared.SoundUndo.compensated (hs : s.SoundUndo)
    (h : s.Unwinds ⟨n, tx, action :: rest, none⟩) (hundo : action.Undoable) (success : Bool) :
    ({ s with compensations := s.compensations ++ [⟨n, action, success⟩] } : Shared).SoundUndo := by
  have hfresh := h.fresh action List.mem_cons_self hundo.1
  obtain ⟨htx, hstored⟩ := h.stored action List.mem_cons_self
  refine ⟨⟨?_, ?_, hs.unskipped⟩, ?_, ?_⟩
  · intro id
    rw [List.countP_append, List.countP_singleton]
    have hold := hs.once id
    by_cases hmine : (success && action.row.actionId == id) = true
    · rw [if_pos hmine]
      obtain ⟨-, hid⟩ := Bool.and_eq_true_iff.mp hmine
      have hzero : s.compensations.countP
          (fun k => k.success && k.action.row.actionId == id) = 0 := by
        rw [List.countP_eq_zero]
        intro k hk hboth
        obtain ⟨hsuccess, hkid⟩ := Bool.and_eq_true_iff.mp hboth
        exact hfresh k hk hsuccess ((eq_of_beq hkid).trans (eq_of_beq hid).symm)
      omega
    · rw [if_neg hmine]
      omega
  · rw [List.pairwise_append]
    refine ⟨hs.reversed, List.pairwise_singleton _ _, ?_⟩
    intro k hk k' hk' hn
    rw [List.mem_singleton.mp hk'] at hn ⊢
    exact h.below action List.mem_cons_self hundo k hk hn
  · intro k hk
    rcases List.mem_append.mp hk with hold | hnew
    · exact hs.known k hold
    · rw [List.mem_singleton.mp hnew]
      exact ⟨h.begun, hstored⟩
  · intro k hk hsuccess
    rcases List.mem_append.mp hk with hold | hnew
    · exact hs.settled k hold hsuccess
    · rw [List.mem_singleton.mp hnew]
      right
      show action.row.transactionId ∈ s.rolling
      rw [htx]
      exact h.rolling

theorem stepCompensating_undo {tool args : String} (hs : s.SoundUndo)
    (h : Task.KnowsUndo s (.compensating n action tool args rest out))
    (result : Except String String) :
    UndoStep s (.compensating n action tool args rest out)
      (stepCompensating s result n action tool rest out).1
      (stepCompensating s result n action tool rest out).2 := by
  have hunwinds := h.1 _ rfl
  have hundo := h.2 n action tool args rest out rfl
  have hpasses : ∀ success, s.PassesUndo
      { s with compensations := s.compensations ++ [⟨n, action, success⟩] }
      (Task.compensating n action tool args rest out).undo := by
    intro success
    refine ⟨Nat.le_refl _, fun _ h _ => h, carries_refl _, fun k hk => ?_⟩
    rcases List.mem_append.mp hk with hold | hnew
    · exact .inl hold
    · rw [List.mem_singleton.mp hnew]
      exact .inr ⟨_, rfl, rfl, (hunwinds.stored action List.mem_cons_self).1⟩
  cases result with
  | ok reply =>
    refine ⟨hs.compensated hunwinds hundo true, ⟨fun u hu => ?_, ?_⟩, hpasses true, ?_⟩
    · cases hu
      exact hunwinds.compensated hundo true
    · rintro n' action' tool' args' rest' out' heq
      cases heq
    · intro u hu
      cases hu
      exact .inl ⟨_, rfl, rfl, rfl⟩
  | error e =>
    refine ⟨hs.compensated hunwinds hundo false, knows_unwinding ?_, hpasses false, ?_⟩
    · exact hunwinds.compensated hundo false
    · intro u hu
      cases hu
      exact .inl ⟨_, rfl, rfl, rfl⟩

theorem stepMarking_undo {tool : String} (hs : s.SoundUndo)
    (h : Task.KnowsUndo s (.marking n action tool rest out)) :
    UndoStep s (.marking n action tool rest out) (stepMarking s n action tool rest out).1
      (stepMarking s n action tool rest out).2 := by
  have hunwinds := h.1 _ rfl
  have hcarries := carries_mark s.store action.row.actionId
  have hsame : s.SameUndo (stepMarking s n action tool rest out).1 := ⟨rfl, rfl, rfl, rfl, hcarries⟩
  have hsound := hsame.sound hs
  refine ⟨hsound, knows_unwinding ⟨hunwinds.begun, hunwinds.rolling, hunwinds.ids, ?_,
    hunwinds.fresh, ?_, hunwinds.order, hunwinds.below, hunwinds.honest⟩, hsame.passes _, ?_⟩
  · intro a ha
    exact ⟨(hunwinds.stored a ha).1, (hunwinds.stored a ha).2.carried hcarries⟩
  · intro k hk hsuccess htx
    left
    rcases hunwinds.marked k hk hsuccess htx with hmarked | hown
    · exact hmarked.carried hcarries
    · -- The row is the one that is marked now.
      have hid : action.row.actionId = k.action.row.actionId := Option.some.inj hown
      obtain ⟨b, hb, hb'⟩ := (hs.known k hk).2
      refine ⟨TransactionStore.markRow action.row.actionId b, List.mem_map_of_mem hb, ?_⟩
      have hbid : b.row.actionId = action.row.actionId := hb'.id.symm.trans hid.symm
      rw [TransactionStore.markRow, if_pos hbid]
      exact ⟨hb'.id.symm, rfl⟩
  · intro u hu
    cases hu
    exact .inl ⟨_, rfl, rfl, rfl⟩

theorem stepRollback_undo (hs : s.SoundUndo) (ht : t.KnowsUndo s)
    (hok : ∀ tx, t = .asked tx → s.ReadyToUndo tx) (h : stepRollback cfg s pick t = some (s', t')) :
    UndoStep s t s' t' := by
  cases t with
  | asked tx =>
    cases h
    exact stepAsked_undo hs (hok tx rfl)
  | unwinding n rest out =>
    have hstep : stepUnwinding cfg s n rest out = (s', t') := Option.some.inj h
    have hundo := @stepUnwinding_undo cfg s n rest out hs (ht.1 _ rfl)
    rw [hstep] at hundo
    exact hundo
  | compensating n action tool args rest out =>
    cases pick with
    | compensation result =>
      have hstep : stepCompensating s result n action tool rest out = (s', t') := Option.some.inj h
      have hundo := stepCompensating_undo hs ht result
      rw [hstep] at hundo
      exact hundo
    | _ => cases h
  | marking n action tool rest out =>
    have hstep : stepMarking s n action tool rest out = (s', t') := Option.some.inj h
    have hundo := stepMarking_undo hs ht
    rw [hstep] at hundo
    exact hundo
  | _ => cases h

theorem step_undo (hs : s.SoundUndo) (ht : t.KnowsUndo s)
    (hok : ∀ tx, t = .asked tx → s.ReadyToUndo tx) (h : step cfg s pick t = some (s', t')) :
    UndoStep s t s' t' := by
  rcases Option.or_eq_some_iff.mp h with hdispatch | ⟨-, hrollback⟩
  · obtain ⟨hsame, hnone, hnone'⟩ := stepDispatch_same hdispatch
    refine ⟨hsame.sound hs, knows_of_none hnone', hsame.passes _, fun u hu => ?_⟩
    rw [hnone'] at hu
    cases hu
  · exact stepRollback_undo hs ht hok hrollback

end

abbrev UndoKept : Crowd Shared Task → Prop :=
  Meets Shared.SoundUndo (fun s t => t.KnowsUndo s) Task.RollbacksApart

theorem init_soundUndo : Shared.init.SoundUndo where
  once := fun id => Nat.zero_le 1
  reversed := List.Pairwise.nil
  unskipped := fun a h => by cases h
  known := fun k h => by cases h
  settled := fun k h => by cases h

theorem isCall_undo {t : Task} (h : t.isCall = true) : t.undo = none := by
  cases t with
  | called c => rfl
  | asked transactionId => rfl
  | _ => cases h

theorem step_undoKept {cfg : GatewayConfig} {c c' : Crowd Shared Task} (l : Label Task)
    (hok : CarefulRollbacks c l) (h : Step (gateway cfg) c l c') (hc : UndoKept c) :
    UndoKept c' := by
  refine Step.meets ?_ ?_ ?_ ?_ l hok h hc
  · intro t t' htt u u' hu hu'
    obtain ⟨hn, htx⟩ := htt u' u hu' hu
    exact ⟨hn.symm, htx.symm⟩
  · intro s s' hs henv
    rw [show s' = s from henv]
    exact ⟨hs, fun u hu => hu⟩
  · rintro c t s' - hc ⟨hcall, rfl⟩
    have hnone := isCall_undo hcall
    refine ⟨hc.shared, knows_of_none hnone, fun j v hv => ⟨hc.task j v hv, ?_⟩⟩
    intro u u' hu
    rw [hnone] at hu
    cases hu
  · rintro c i t s' t' fork hok hc hi ⟨rfl, pick, hexec⟩
    have hready : ∀ tx, t = .asked tx → c.shared.ReadyToUndo tx := by
      intro tx ht
      rw [ht] at hi
      exact hok i tx rfl hi
    obtain ⟨hsound, hknows, hpasses, hundo⟩ := step_undo hc.shared (hc.task i t hi) hready hexec
    refine ⟨hsound, hknows, fun f hf => (by cases hf), fun j v hji hv => ?_⟩
    have hmine := hc.task j v hv
    have happart := hc.pair i j t v (Ne.symm hji) hi hv
    refine ⟨⟨fun u hu => ?_, hmine.2⟩, ?_, fun f hf => (by cases hf)⟩
    · exact hpasses.unwinds hsound (hmine.1 u hu) (fun w hw => happart w u hw hu)
    · intro u u' hu hu'
      have hother := hmine.1 u' hu'
      rcases hundo u hu with ⟨w, hw, hn, htx⟩ | ⟨hn, htx⟩
      · rw [← hn, ← htx]
        exact happart w u' hw hu'
      · refine ⟨fun heq => ?_, fun heq => htx ?_⟩
        · have hlt := hother.begun
          omega
        · rw [heq]
          exact hother.rolling

/-- In a run all of whose rollbacks begin where they may, each action is compensated once, in the
reverse of the order of dispatch, and none is skipped that took effect. -/
theorem rollbacks_undo (cfg : GatewayConfig) (c : Crowd Shared Task)
    (h : Runs (gateway cfg) CarefulRollbacks ⟨.init, []⟩ c) : c.shared.UndoneInOrder :=
  (h.keeps (fun _ l _ hok hstep hc => step_undoKept l hok hstep hc)
    (Crowd.meets_nil init_soundUndo)).shared.toUndoneInOrder

def StoredAction.before (a b : StoredAction) : Bool :=
  match a.origin, b.origin with
  | .handled m _, .handled n _ => decide (m < n)
  | _, _ => false

theorem before_iff (a b : StoredAction) : a.before b = true ↔ a.Before b := by
  constructor
  · intro h
    rw [StoredAction.before] at h
    split at h
    · next m outcome n outcome' ha hb =>
      exact ⟨m, n, outcome, outcome', ha, hb, of_decide_eq_true h⟩
    · cases h
  · rintro ⟨m, n, outcome, outcome', ha, hb, hlt⟩
    rw [StoredAction.before, ha, hb]
    exact decide_eq_true hlt

instance (a b : StoredAction) : Decidable (a.Before b) := decidable_of_iff _ (before_iff a b)

def StoredAction.handlerOk (a : StoredAction) : Bool :=
  match a.origin with
  | .handled _ (.ok _) => true
  | _ => false

theorem handlerOk_iff (a : StoredAction) : a.handlerOk = true ↔ a.HandlerOk := by
  constructor
  · intro h
    rw [StoredAction.handlerOk] at h
    split at h
    · next n out ha => exact ⟨n, out, ha⟩
    · cases h
  · rintro ⟨n, out, ha⟩
    rw [StoredAction.handlerOk, ha]

instance (a : StoredAction) : Decidable a.HandlerOk := decidable_of_iff _ (handlerOk_iff a)

instance (a : StoredAction) : Decidable a.Undoable := inferInstanceAs (Decidable (_ ∧ _))

theorem readyToUndo_iff (s : Shared) (tx : String) :
    (tx ∉ s.rolling ∧
      (∀ a ∈ s.store.actions, a.row.transactionId = tx → a.HandlerOk → a.row.success = true) ∧
      ∀ a ∈ s.store.actions, ∀ b ∈ s.store.actions, a.row.transactionId = tx →
        b.row.transactionId = tx → a.Undoable → b.Undoable →
        a.row.actionId ≠ b.row.actionId → a.Listed b → a.Before b) ↔ s.ReadyToUndo tx :=
  ⟨fun h => ⟨h.1, h.2.1, h.2.2⟩, fun h => ⟨h.idle, h.honest, h.listed⟩⟩

instance (s : Shared) (tx : String) : Decidable (s.ReadyToUndo tx) :=
  decidable_of_iff _ (readyToUndo_iff s tx)

def carefulRollback : Crowd.Player Shared Task Pick Unit := gatewayPlayer plainConfig (fun c l =>
  match l with
  | .run i => (c.tasks[i]?).all (fun t => match t with
    | .asked tx => decide (c.shared.ReadyToUndo tx)
    | _ => true)
  | _ => true)

theorem carefulRollback_plays : carefulRollback.Plays (gateway plainConfig) CarefulRollbacks := by
  refine gatewayPlayer_plays (fun c l hallows i tx hl hasked => ?_)
  subst hl
  simp only [hasked, Option.all_some] at hallows
  exact of_decide_eq_true hallows

def undoableCall : Call :=
  ⟨"agt_1", "email.send", "hello", ⟨some "txn_1", none,
    some (.autoCompensated "email.recall" "hello"), false, none⟩⟩

def sends (i : Nat) (actionId : String) (startedAtMs : Int) : List (Crowd.Play Task Pick Unit) :=
  [.spawn (.called undoableCall), .run i (.decision none), .run i .go,
    .run i (.secrets (.ok "hello") startedAtMs startedAtMs),
    .run i (.outcome (.ok "sent") startedAtMs), .run i (.mint actionId "")]

def rollsBack (i : Nat) : List (Crowd.Play Task Pick Unit) :=
  [.spawn (.asked "txn_1"), .run i .go, .run i .go]

def compensates (i : Nat) : List (Crowd.Play Task Pick Unit) :=
  [.run i (.compensation (.ok "recalled")), .run i .go]

def goesOn (i : Nat) : Crowd.Play Task Pick Unit := .run i .go

theorem rollbacks_undo_sample : ∃ c : Crowd Shared Task,
    c.shared.compensations.map (·.action.row.actionId) = ["act_2", "act_1"] ∧
      c.shared.UndoneInOrder := by
  have hplay : ((sends 0 "act_1" 10 ++ sends 1 "act_2" 11 ++ rollsBack 2 ++ compensates 2 ++
      [goesOn 2] ++ compensates 2 ++ [goesOn 2]).foldlM carefulRollback.play ⟨.init, []⟩).any
        (fun c => decide (c.shared.compensations.map (·.action.row.actionId) =
          ["act_2", "act_1"])) = true := by decide +kernel
  obtain ⟨c, hc, htest⟩ := carefulRollback_plays.reaches hplay
  exact ⟨c, of_decide_eq_true htest, rollbacks_undo plainConfig c hc⟩

def strictConfig : GatewayConfig :=
  { plainConfig with inspect := fun output => ⟨true, none, output⟩ }

/-- Two rollbacks at a time both compensate; two actions of one millisecond are undone in the
order of their ids; and an output that is flagged leaves its action alone. -/
theorem compensated_twice : ∃ c c' c'' : Crowd Shared Task,
    Runs (gateway plainConfig) (fun _ _ => True) ⟨.init, []⟩ c ∧
    Runs (gateway plainConfig) (fun _ _ => True) ⟨.init, []⟩ c' ∧
    Runs (gateway strictConfig) (fun _ _ => True) ⟨.init, []⟩ c'' ∧
    c.shared.compensations.countP (fun k => k.success && k.action.row.actionId == "act_1") = 2 ∧
    ¬c.shared.UndoneInOrder ∧
    c'.shared.compensations.map (fun k => (k.rollback, k.action.row.startedAtMs)) =
      [(0, 10), (0, 10)] ∧
    ¬c'.shared.UndoneInOrder ∧
    (∃ a ∈ c''.shared.skipped, a.HandlerOk) ∧ ¬c''.shared.UndoneInOrder := by
  have hrace : ((sends 0 "act_1" 10 ++ rollsBack 1 ++ rollsBack 2 ++ compensates 1 ++
      compensates 2).foldlM anyCall.play ⟨.init, []⟩).any (fun c =>
        decide (c.shared.compensations.countP
          (fun k => k.success && k.action.row.actionId == "act_1") = 2)) = true := by
    decide +kernel
  have hties : ((sends 0 "act_2" 10 ++ sends 1 "act_1" 10 ++ rollsBack 2 ++ compensates 2 ++
      [goesOn 2] ++ compensates 2).foldlM anyCall.play ⟨.init, []⟩).any (fun c =>
        decide (c.shared.compensations.map (fun k => (k.rollback, k.action.row.startedAtMs)) =
          [(0, 10), (0, 10)] ∧ ¬c.shared.compensations.Pairwise
            (fun k k' => k.rollback = k'.rollback → k'.action.Before k.action))) = true := by
    decide +kernel
  have hflagged : ((sends 0 "act_1" 10 ++ rollsBack 1).foldlM
      (gatewayPlayer strictConfig (fun _ _ => true)).play ⟨.init, []⟩).any (fun c =>
        decide (∃ a ∈ c.shared.skipped, a.HandlerOk)) = true := by decide +kernel
  obtain ⟨c, hc, htest⟩ := anyCall_plays.reaches hrace
  obtain ⟨c', hc', htest'⟩ := anyCall_plays.reaches hties
  obtain ⟨c'', hc'', htest''⟩ := (gatewayPlayer_plays (fun _ _ _ => trivial)).reaches hflagged
  have htwo := of_decide_eq_true htest
  obtain ⟨htimes, hforward⟩ := of_decide_eq_true htest'
  obtain ⟨a, ha, hok⟩ := of_decide_eq_true htest''
  refine ⟨c, c', c'', hc, hc', hc'', htwo, fun hundone => ?_, htimes,
    fun hundone => hforward hundone.reversed, ⟨a, ha, hok⟩,
    fun hundone => hundone.unskipped a ha hok⟩
  have hone := hundone.once "act_1"
  omega

end Relux.Gateway
