import Relux.Chains
import Relux.MemoryStore
import Relux.Transition

/-! The history the layered memory keeps: what was valid at a time, as it is told later, and
the chains of records that supersede each other. -/

namespace Relux.Memory

open Chains MemoryStore

variable {V : Type}

inductive HistoryOp (V : Type) where
  | insert (record : MemoryRecord V) (now : Int)
  | supersede (oldId : String) (record : MemoryRecord V) (now : Int)
  | invalidate (id : String) (now : Int)

namespace HistoryOp

def time : HistoryOp V → Int
  | .insert _ now => now
  | .supersede _ _ now => now
  | .invalidate _ now => now

def exec (s : MemoryStore V) : HistoryOp V → MemoryStore V
  | .insert record _ => s.insert record
  | .supersede oldId record now =>
    match s.supersede oldId record now with
    | .ok s => s
    | .error _ => s
  | .invalidate id now => s.invalidate id now

def Timely : HistoryOp V → Prop
  | .insert record now => record.validFrom = now
  | .supersede _ record now => record.validFrom = now
  | .invalidate _ _ => True

end HistoryOp

def Unended (s : MemoryStore V) (id : String) (now : Int) : Prop :=
  ∀ r ∈ s.rows, r.id = id → ∀ ended, r.validTo = some ended → now ≤ ended ∨ now ≤ r.validFrom

def Unseen (s : MemoryStore V) (id : String) (now : Int) : Prop :=
  ∀ r ∈ s.rows, r.id = id →
    now ≤ r.validFrom ∨ ∃ ended, r.validTo = some ended ∧ ended ≤ r.validFrom

theorem unended_iff (s : MemoryStore V) (id : String) (now : Int) :
    (∀ r ∈ s.rows, r.id = id →
      ∀ ended ∈ r.validTo, now ≤ ended ∨ now ≤ r.validFrom) ↔ Unended s id now := by
  simp only [Unended, Option.mem_def]

theorem unseen_iff (s : MemoryStore V) (id : String) (now : Int) :
    (∀ r ∈ s.rows, r.id = id →
      now ≤ r.validFrom ∨ ∃ ended ∈ r.validTo, ended ≤ r.validFrom) ↔ Unseen s id now := by
  simp only [Unseen, Option.mem_def]

instance (s : MemoryStore V) (id : String) (now : Int) : Decidable (Unended s id now) :=
  decidable_of_iff _ (unended_iff s id now)

instance (s : MemoryStore V) (id : String) (now : Int) : Decidable (Unseen s id now) :=
  decidable_of_iff _ (unseen_iff s id now)

/-- An insertion brings a fresh id and no successor; only a record whose validity has not
ended is retired, and its successor replaces none that was valid, nor succeeds another. -/
def Careful (s : MemoryStore V) : HistoryOp V → Prop
  | .insert record _ => record.id ∉ s.rows.map (·.id) ∧ record.supersededBy = none
  | .supersede oldId record now => oldId ∈ s.rows.map (·.id) →
      Unended s oldId now ∧ Unseen s record.id now ∧ record.supersededBy = none ∧
        (record.id = oldId ∨ ∀ r ∈ s.rows, r.supersededBy = some record.id → r.id = oldId)
  | .invalidate id now => Unended s id now

def MemoryRecord.assertion (r : MemoryRecord V) : MemoryRecord V :=
  { r with validTo := none, supersededBy := none }

def Follows (s : MemoryStore V) (a b : String) : Prop :=
  ∃ r ∈ s.rows, r.id = a ∧ r.supersededBy = some b

/-- What was told of a time when it was the present is told ever after: an answer for it
gives what the run cut at that time had, as far as the limit goes. -/
def Immutable (ops : List (HistoryOp V)) : Prop :=
  ∀ pre post, ops = pre ++ post → ∀ now, (∀ op ∈ pre, op.time ≤ now) →
    (∀ op ∈ post, now < op.time) → ∀ limit,
      ((Transition.run HistoryOp.exec .empty ops).asOf now "" limit).map (·.assertion) =
        ((Transition.run HistoryOp.exec .empty pre).asOf now "" limit).map (·.assertion) ∧
      (((Transition.run HistoryOp.exec .empty pre).rows.filter (validAt now)).length ≤
          clamp limit 1 10000 →
        ∀ r, r ∈ (Transition.run HistoryOp.exec .empty pre).asOf now "" limit ↔
          r ∈ (Transition.run HistoryOp.exec .empty pre).rows ∧ validAt now r = true)

/-- The successors form simple chains that share no record: each record has its end of the
chain ahead of it, and the validity of a record has ended when that of its successor begins. -/
structure Chained (s : MemoryStore V) : Prop where
  acyclic : Acyclic (Follows s)
  single : ∀ a b c, Follows s a c → Follows s b c → a = b
  disjoint : ∀ r ∈ s.rows, ∀ next, r.supersededBy = some next →
    ∃ r' ∈ s.rows, r'.id = next ∧ ∃ ended, r.validTo = some ended ∧ ended ≤ r'.validFrom
  head : ∀ r ∈ s.rows, ∃ h ∈ s.rows, h.supersededBy = none ∧ Reaches (Follows s) r.id h.id ∧
    ∀ h' ∈ s.rows, h'.supersededBy = none → Reaches (Follows s) r.id h'.id → h' = h
  walk : ∀ id, (s.supersedesChain id).Nodup

def told (now : Int) (s : MemoryStore V) : List (MemoryRecord V) :=
  (s.rows.filter (validAt now)).map (·.assertion)

theorem asOf_told (s : MemoryStore V) (now : Int) (limit : Nat) :
    (s.asOf now "" limit).map (·.assertion) =
      ((told now s).insertionSort (fun x y => newestFirst x y = true)).take
        (clamp limit 1 10000) := by
  have hall : (fun r : MemoryRecord V => ("" == "" || r.source == "") && validAt now r) =
      validAt now := by
    funext r
    rfl
  have hsort := List.map_insertionSort (fun x y : MemoryRecord V => newestFirst x y = true)
    (fun x y : MemoryRecord V => newestFirst x y = true) (·.assertion)
    (s.rows.filter (validAt now)) (fun _ _ _ _ => Iff.rfl)
  rw [asOf, hall, List.map_take, hsort]
  rfl

variable {s : MemoryStore V} {now : Int}

theorem mem_asOf {limit : Nat} (h : (s.rows.filter (validAt now)).length ≤ clamp limit 1 10000)
    (r : MemoryRecord V) : r ∈ s.asOf now "" limit ↔ r ∈ s.rows ∧ validAt now r = true := by
  have hall : (fun r : MemoryRecord V => ("" == "" || r.source == "") && validAt now r) =
      validAt now := by
    funext r
    rfl
  rw [asOf, hall, List.take_of_length_le (by rwa [List.length_insertionSort]),
    List.mem_insertionSort, List.mem_filter]

variable {r : MemoryRecord V}

theorem validAt_iff :
    validAt now r = true ↔ r.validFrom ≤ now ∧ ∀ ended, r.validTo = some ended → now < ended := by
  rw [validAt, Bool.and_eq_true, decide_eq_true_iff]
  cases r.validTo with
  | none => simp
  | some ended => simp

variable {rows : List (MemoryRecord V)} {f : MemoryRecord V → MemoryRecord V}

theorem told_map
    (h : ∀ r ∈ rows, validAt now (f r) = validAt now r ∧ (f r).assertion = r.assertion) :
    ((rows.map f).filter (validAt now)).map (·.assertion) =
      (rows.filter (validAt now)).map (·.assertion) := by
  induction rows with
  | nil => rfl
  | cons r rs ih =>
    obtain ⟨hvalid, hsame⟩ := h r List.mem_cons_self
    have hrest := ih (fun r hr => h r (List.mem_cons_of_mem _ hr))
    rw [List.map_cons, List.filter_cons, List.filter_cons, hvalid]
    by_cases hr : validAt now r = true
    · rw [if_pos hr, if_pos hr, List.map_cons, List.map_cons, hrest, hsame]
    · rw [if_neg hr, if_neg hr, hrest]

variable {record : MemoryRecord V}

theorem told_replace (hnew : now < record.validFrom)
    (hold : ∀ r ∈ rows, r.id = record.id → validAt now r = false) :
    (rows.filter (fun r => decide (r.id ≠ record.id)) ++ [record]).filter (validAt now) =
      rows.filter (validAt now) := by
  have hrecord : validAt now record = false := by
    rw [Bool.eq_false_iff]
    intro hvalid
    have hfrom := (validAt_iff.mp hvalid).1
    omega
  rw [List.filter_append, List.filter_cons_of_neg (by simp [hrecord]), List.filter_nil,
    List.append_nil, List.filter_filter]
  apply List.filter_congr
  intro r hr
  by_cases hid : r.id = record.id
  · simp [hold r hr hid]
  · simp [hid]

variable {id : String} {time : Int} {r' : MemoryRecord V}

theorem retire_validAt (h : Unended s id time) (hnow : now < time) (hr : r ∈ s.rows)
    (hid : r.id = id) (hfrom : r'.validFrom = r.validFrom)
    (hto : r'.validTo = some time) : validAt now r' = validAt now r := by
  rw [Bool.eq_iff_iff, validAt_iff, validAt_iff, hfrom, hto]
  constructor
  · rintro ⟨hbegun, -⟩
    refine ⟨hbegun, fun ended hended => ?_⟩
    rcases h r hr hid ended hended with hle | hle
    · omega
    · omega
  · rintro ⟨hbegun, -⟩
    refine ⟨hbegun, fun ended hended => ?_⟩
    have he := Option.some.inj hended
    omega

theorem unseen_validAt (h : Unseen s id time) (hnow : now < time) (hr : r ∈ s.rows)
    (hid : r.id = id) : validAt now r = false := by
  rw [Bool.eq_false_iff]
  intro hvalid
  obtain ⟨hbegun, hlast⟩ := validAt_iff.mp hvalid
  rcases h r hr hid with hle | ⟨ended, hended, hle⟩
  · omega
  · have hlt := hlast ended hended
    omega

theorem get_isSome : (s.get id).isSome = true ↔ id ∈ s.rows.map (·.id) := by
  rw [MemoryStore.get, List.find?_isSome, List.mem_map]
  simp

variable {oldId : String}

theorem supersede_exec (h : oldId ∈ s.rows.map (·.id)) (record : MemoryRecord V) (now : Int) :
    HistoryOp.exec s (.supersede oldId record now) = (s.update oldId (fun r =>
      { r with validTo := some now, supersededBy := some record.id })).insert record := by
  simp only [HistoryOp.exec, supersede]
  rw [if_pos (get_isSome.mpr h)]

theorem supersede_missing (h : oldId ∉ s.rows.map (·.id)) (record : MemoryRecord V)
    (now : Int) : HistoryOp.exec s (.supersede oldId record now) = s := by
  have hnone : ¬ (s.get oldId).isSome = true := fun hsome => h (get_isSome.mp hsome)
  simp only [HistoryOp.exec, supersede]
  rw [if_neg hnone]

variable {op : HistoryOp V}

theorem told_step (hcareful : Careful s op) (htimely : op.Timely)
    (hnow : now < op.time) : told now (op.exec s) = told now s := by
  cases op with
  | insert record time =>
    have hlater : now < record.validFrom := by
      rw [show record.validFrom = time from htimely]
      exact hnow
    have hkeep : ∀ r ∈ s.rows, r.id = record.id → validAt now r = false := by
      intro r hr hid
      exact absurd (hid ▸ List.mem_map_of_mem hr) hcareful.1
    show ((s.insert record).rows.filter (validAt now)).map (·.assertion) = told now s
    rw [MemoryStore.insert, told_replace hlater hkeep]
    rfl
  | invalidate id time =>
    apply told_map
    intro r hr
    by_cases hid : r.id = id
    · rw [updateRow, if_pos hid]
      exact ⟨retire_validAt hcareful hnow hr hid rfl rfl, rfl⟩
    · rw [updateRow, if_neg hid]
      exact ⟨rfl, rfl⟩
  | supersede oldId record time =>
    by_cases hold : oldId ∈ s.rows.map (·.id)
    · obtain ⟨hended, hseen, -, -⟩ := hcareful hold
      have hlater : now < record.validFrom := by
        rw [show record.validFrom = time from htimely]
        exact hnow
      have hrows : ∀ r ∈ s.rows,
          validAt now (updateRow oldId (fun r =>
            { r with validTo := some time, supersededBy := some record.id }) r) = validAt now r ∧
          (updateRow oldId (fun r =>
            { r with validTo := some time, supersededBy := some record.id }) r).assertion =
              r.assertion := by
        intro r hr
        by_cases hid : r.id = oldId
        · rw [updateRow, if_pos hid]
          exact ⟨retire_validAt hended hnow hr hid rfl rfl, rfl⟩
        · rw [updateRow, if_neg hid]
          exact ⟨rfl, rfl⟩
      rw [supersede_exec hold, told, MemoryStore.insert, told_replace hlater]
      · exact told_map hrows
      · intro r hr hid
        obtain ⟨r₀, hr₀, rfl⟩ := List.mem_map.mp hr
        rw [updateRow_id] at hid
        rw [(hrows r₀ hr₀).1]
        exact unseen_validAt hseen hnow hr₀ hid
    · rw [supersede_missing hold]

variable {ops : List (HistoryOp V)}

theorem told_run
    (hcareful : Transition.Guarded HistoryOp.exec Careful s ops) (htimely : ∀ op ∈ ops, op.Timely)
    (hnow : ∀ op ∈ ops, now < op.time) :
    told now (Transition.run HistoryOp.exec s ops) = told now s := by
  induction ops generalizing s with
  | nil => rfl
  | cons op ops ih =>
    have hstep := told_step hcareful.1 (htimely op List.mem_cons_self)
      (hnow op List.mem_cons_self)
    rw [Transition.run_cons, ih hcareful.2 (fun op hop => htimely op (List.mem_cons_of_mem _ hop))
      (fun op hop => hnow op (List.mem_cons_of_mem _ hop)), hstep]

def Ordered : List (MemoryRecord V) → Prop
  | [] => True
  | r :: rs => (∀ next, r.supersededBy = some next → ∃ r' ∈ rs, r'.id = next) ∧ Ordered rs

def Edge (rows : List (MemoryRecord V)) (a b : String) : Prop :=
  ∃ r ∈ rows, r.id = a ∧ r.supersededBy = some b

theorem Ordered.map (h : Ordered rows)
    (hf : ∀ r ∈ rows, (f r).id = r.id ∧ (f r).supersededBy = r.supersededBy) :
    Ordered (rows.map f) := by
  induction rows with
  | nil => trivial
  | cons r rs ih =>
    refine ⟨fun next hnext => ?_, ih h.2 (fun r hr => hf r (List.mem_cons_of_mem _ hr))⟩
    rw [(hf r List.mem_cons_self).2] at hnext
    obtain ⟨r', hr', hid⟩ := h.1 next hnext
    exact ⟨f r', List.mem_map_of_mem hr', by rw [(hf r' (List.mem_cons_of_mem _ hr')).1, hid]⟩

theorem Ordered.replace (h : Ordered rows)
    (hf : ∀ r ∈ rows, (f r).id = r.id ∧ ∀ next, (f r).supersededBy = some next →
      next = record.id ∨ r.supersededBy = some next) (hhead : record.supersededBy = none) :
    Ordered ((rows.map f).filter (fun r => decide (r.id ≠ record.id)) ++ [record]) := by
  induction rows with
  | nil =>
    refine ⟨fun next hnext => ?_, trivial⟩
    rw [hhead] at hnext
    cases hnext
  | cons r rs ih =>
    have hrest := ih h.2 (fun r hr => hf r (List.mem_cons_of_mem _ hr))
    rw [List.map_cons, List.filter_cons]
    by_cases hid : (f r).id = record.id
    · rw [if_neg (by simp [hid])]
      exact hrest
    · rw [if_pos (by simp [hid])]
      refine ⟨fun next hnext => ?_, hrest⟩
      by_cases hlast : next = record.id
      · exact ⟨record, List.mem_append_right _ List.mem_cons_self, hlast.symm⟩
      · rcases (hf r List.mem_cons_self).2 next hnext with he | hold
        · exact absurd he hlast
        · obtain ⟨r', hr', hid'⟩ := h.1 next hold
          have hfid := (hf r' (List.mem_cons_of_mem _ hr')).1
          refine ⟨f r', List.mem_append_left _ (List.mem_filter.mpr
            ⟨List.mem_map_of_mem hr', ?_⟩), by rw [hfid, hid']⟩
          rw [hfid, hid']
          simpa using hlast

theorem edge_end (h : Ordered rows) {a b : String} (hedge : Edge rows a b) :
    b ∈ rows.map (·.id) := by
  induction rows with
  | nil =>
    obtain ⟨r, hr, -⟩ := hedge
    cases hr
  | cons r rs ih =>
    obtain ⟨x, hx, hid, hnext⟩ := hedge
    rcases List.mem_cons.mp hx with rfl | hx
    · obtain ⟨r', hr', hid'⟩ := h.1 b hnext
      rw [List.map_cons, ← hid']
      exact List.mem_cons_of_mem _ (List.mem_map_of_mem hr')
    · exact List.mem_cons_of_mem _ (ih h.2 ⟨x, hx, hid, hnext⟩)

theorem Ordered.acyclic (h : Ordered rows) (hkey : (rows.map (·.id)).Nodup) :
    Acyclic (Edge rows) := by
  induction rows with
  | nil =>
    intro n a hc
    cases hc with
    | cons hedge _ =>
      obtain ⟨r, hr, -⟩ := hedge
      cases hr
  | cons r rs ih =>
    obtain ⟨hfresh, hrest⟩ := List.nodup_cons.mp hkey
    have hacyclic := ih h.2 hrest
    cases hnext : r.supersededBy with
    | none =>
      refine hacyclic.mono (fun a b hedge => ?_)
      obtain ⟨x, hx, hid, hsome⟩ := hedge
      rcases List.mem_cons.mp hx with rfl | hx
      · rw [hnext] at hsome
        cases hsome
      · exact ⟨x, hx, hid, hsome⟩
    | some next =>
      have hplus : Acyclic (Plus (Edge rs) r.id next) := by
        rw [acyclic_plus_iff hacyclic]
        rintro ⟨n, hc⟩
        cases n with
        | zero =>
          obtain ⟨r', hr', hid⟩ := h.1 next hnext
          have hmem : r'.id ∈ rs.map (·.id) := List.mem_map_of_mem hr'
          rw [hid, hc.eq_of_zero] at hmem
          exact hfresh hmem
        | succ n =>
          obtain ⟨c, -, hedge⟩ := hc.last
          exact hfresh (edge_end h.2 hedge)
      refine hplus.mono (fun a b hedge => ?_)
      obtain ⟨x, hx, hid, hsome⟩ := hedge
      rcases List.mem_cons.mp hx with rfl | hx
      · rw [hnext] at hsome
        exact .inr ⟨hid.symm, (Option.some.inj hsome).symm⟩
      · exact .inl ⟨x, hx, hid, hsome⟩

theorem Ordered.head {rows : List (MemoryRecord V)} (h : Ordered rows) :
    ∀ r ∈ rows, ∃ e ∈ rows, e.supersededBy = none ∧ Reaches (Edge rows) r.id e.id := by
  have hgrow : ∀ {r : MemoryRecord V} {rs : List (MemoryRecord V)} {a b : String},
      Reaches (Edge rs) a b → Reaches (Edge (r :: rs)) a b := by
    rintro r rs a b ⟨n, hc⟩
    refine ⟨n, hc.mono (fun a b hedge => ?_)⟩
    obtain ⟨x, hx, hid, hsome⟩ := hedge
    exact ⟨x, List.mem_cons_of_mem _ hx, hid, hsome⟩
  induction rows with
  | nil =>
    intro r hr
    cases hr
  | cons r rs ih =>
    intro x hx
    rcases List.mem_cons.mp hx with rfl | hx
    · cases hnext : x.supersededBy with
      | none => exact ⟨x, List.mem_cons_self, hnext, 0, .nil _⟩
      | some next =>
        obtain ⟨r', hr', hid⟩ := h.1 next hnext
        obtain ⟨e, he, hend, n, hc⟩ := ih h.2 r' hr'
        have hedge : Edge (x :: rs) x.id r'.id := ⟨x, List.mem_cons_self, rfl, by rw [hnext, hid]⟩
        obtain ⟨m, hm⟩ := hgrow (r := x) ⟨n, hc⟩
        exact ⟨e, List.mem_cons_of_mem _ he, hend, m + 1, .cons hedge hm⟩
    · obtain ⟨e, he, hend, hreach⟩ := ih h.2 x hx
      exact ⟨e, List.mem_cons_of_mem _ he, hend, hgrow hreach⟩

theorem eq_of_id (hr : r ∈ s.rows) (hr' : r' ∈ s.rows) (h : r.id = r'.id) :
    r = r' :=
  List.inj_on_of_nodup_map s.primaryKey hr hr' h

theorem follows_single (s : MemoryStore V) : Single (Follows s) := by
  rintro a b c ⟨r, hr, hid, hb⟩ ⟨r', hr', hid', hc⟩
  have he := eq_of_id hr hr' (hid.trans hid'.symm)
  rw [he, hc] at hb
  exact (Option.some.inj hb).symm

theorem get_eq_some (h : s.get id = some r) : r ∈ s.rows ∧ r.id = id := by
  exact ⟨List.mem_of_find?_eq_some h, by simpa using List.find?_some h⟩

theorem chainFrom_reaches (s : MemoryStore V) (hops : Nat) (id : String) :
    ∀ b ∈ s.chainFrom hops id, ∃ n, Chain (Follows s) (n + 1) id b := by
  induction hops generalizing id with
  | zero =>
    intro b hb
    cases hb
  | succ hops ih =>
    intro b hb
    rw [chainFrom] at hb
    cases hnext : (s.get id).bind (·.supersededBy) with
    | none =>
      rw [hnext] at hb
      cases hb
    | some next =>
      rw [hnext] at hb
      simp only at hb
      obtain ⟨r, hget, hsome⟩ := Option.bind_eq_some_iff.mp hnext
      have hedge : Follows s id next := ⟨r, (get_eq_some hget).1, (get_eq_some hget).2, hsome⟩
      split at hb
      · cases hb
      · rcases List.mem_cons.mp hb with rfl | hb
        · exact ⟨0, .cons hedge (.nil _)⟩
        · obtain ⟨n, hc⟩ := ih next b hb
          exact ⟨n + 1, .cons hedge hc⟩

theorem chainFrom_nodup (h : Acyclic (Follows s)) (hops : Nat) (id : String) :
    (id :: s.chainFrom hops id).Nodup := by
  have hfresh : ∀ (hops : Nat) (id : String), id ∉ s.chainFrom hops id := by
    intro hops id hmem
    obtain ⟨n, hc⟩ := chainFrom_reaches s hops id id hmem
    exact h n id hc
  induction hops generalizing id with
  | zero => exact List.nodup_cons.mpr ⟨hfresh 0 id, List.nodup_nil⟩
  | succ hops ih =>
    refine List.nodup_cons.mpr ⟨hfresh (hops + 1) id, ?_⟩
    rw [chainFrom]
    cases (s.get id).bind (·.supersededBy) with
    | none => exact List.nodup_nil
    | some next =>
      simp only
      split
      · exact List.nodup_nil
      · exact ih next

structure Kept (s : MemoryStore V) (now : Int) : Prop where
  begun : ∀ r ∈ s.rows, r.validFrom ≤ now
  ordered : Ordered s.rows
  single : ∀ a b c, Follows s a c → Follows s b c → a = b
  disjoint : ∀ r ∈ s.rows, ∀ next, r.supersededBy = some next →
    ∃ r' ∈ s.rows, r'.id = next ∧ r.validFrom ≤ r'.validFrom ∧
      ∃ ended, r.validTo = some ended ∧ ended ≤ r'.validFrom

theorem Kept.chained (h : Kept s now) : Chained s where
  acyclic := h.ordered.acyclic s.primaryKey
  single := h.single
  disjoint := by
    intro r hr next hnext
    obtain ⟨r', hr', hid, -, hended⟩ := h.disjoint r hr next hnext
    exact ⟨r', hr', hid, hended⟩
  head := by
    intro r hr
    obtain ⟨e, he, hend, n, hreach⟩ := h.ordered.head r hr
    have hleaf : ∀ x ∈ s.rows, x.supersededBy = none → ∀ b, ¬Follows s x.id b := by
      rintro x hx hnone b ⟨y, hy, hid, hsome⟩
      rw [eq_of_id hy hx hid, hnone] at hsome
      cases hsome
    refine ⟨e, he, hend, ⟨n, hreach⟩, fun e' he' hend' hreach' => ?_⟩
    obtain ⟨m, hm⟩ := hreach'
    rcases (follows_single s).total hreach hm with hto | hto
    · exact (eq_of_id he he' (reaches_leaf (hleaf e he hend) hto)).symm
    · exact eq_of_id he' he (reaches_leaf (hleaf e' he' hend') hto)
  walk := fun id => chainFrom_nodup (h.ordered.acyclic s.primaryKey) 1024 id

/-- What becomes of a row when a record comes in: it stays as it is, or it is retired in
favour of the record. -/
def Retired (record : MemoryRecord V) (time : Int) (r r' : MemoryRecord V) : Prop :=
  r'.id = r.id ∧ r'.validFrom = r.validFrom ∧
    ((r'.supersededBy = r.supersededBy ∧ r'.validTo = r.validTo) ∨
      (r'.supersededBy = some record.id ∧ r'.validTo = some time))

theorem Kept.replace {s' : MemoryStore V} (h : Kept s now) (hle : now ≤ time)
    (hrows : s'.rows = (s.rows.map f).filter (fun r => decide (r.id ≠ record.id)) ++ [record])
    (hfrom : record.validFrom = time) (hhead : record.supersededBy = none)
    (hf : ∀ r ∈ s.rows, Retired record time r (f r))
    (hone : ∀ r ∈ s.rows, ∀ r' ∈ s.rows, r.id ≠ record.id → r'.id ≠ record.id →
      (f r).supersededBy = some record.id → (f r').supersededBy = some record.id →
        r.id = r'.id) : Kept s' time := by
  have hmem : ∀ y ∈ s'.rows, y = record ∨ ∃ r ∈ s.rows, y = f r ∧ r.id ≠ record.id := by
    intro y hy
    rw [hrows] at hy
    rcases List.mem_append.mp hy with hold | hnew
    · obtain ⟨hmap, hne⟩ := List.mem_filter.mp hold
      obtain ⟨r, hr, rfl⟩ := List.mem_map.mp hmap
      rw [(hf r hr).1] at hne
      exact .inr ⟨r, hr, rfl, by simpa using hne⟩
    · exact .inl (List.mem_singleton.mp hnew)
  have hin : ∀ r ∈ s.rows, r.id ≠ record.id → f r ∈ s'.rows := by
    intro r hr hne
    rw [hrows]
    refine List.mem_append_left _ (List.mem_filter.mpr ⟨List.mem_map_of_mem hr, ?_⟩)
    rw [(hf r hr).1]
    simpa using hne
  have hlast : record ∈ s'.rows := by
    rw [hrows]
    exact List.mem_append_right _ List.mem_cons_self
  have hpoint : ∀ r ∈ s.rows, ∀ next, (f r).supersededBy = some next → next ≠ record.id →
      r.supersededBy = some next ∧ (f r).validTo = r.validTo := by
    intro r hr next hnext hne
    rcases (hf r hr).2.2 with ⟨hsame, hto⟩ | ⟨hset, -⟩
    · exact ⟨hsame ▸ hnext, hto⟩
    · rw [hset] at hnext
      exact absurd (Option.some.inj hnext).symm hne
  constructor
  · intro y hy
    rcases hmem y hy with rfl | ⟨r, hr, rfl, -⟩
    · exact Int.le_of_eq hfrom
    · rw [(hf r hr).2.1]
      exact Int.le_trans (h.begun r hr) hle
  · rw [hrows]
    refine h.ordered.replace (fun r hr => ⟨(hf r hr).1, fun next hnext => ?_⟩) hhead
    by_cases he : next = record.id
    · exact .inl he
    · exact .inr (hpoint r hr next hnext he).1
  · rintro a b c ⟨y, hy, rfl, hac⟩ ⟨z, hz, rfl, hbc⟩
    rcases hmem y hy with rfl | ⟨r, hr, rfl, hrne⟩
    · rw [hhead] at hac
      cases hac
    · rcases hmem z hz with rfl | ⟨r', hr', rfl, hrne'⟩
      · rw [hhead] at hbc
        cases hbc
      · rw [(hf r hr).1, (hf r' hr').1]
        by_cases hc : c = record.id
        · rw [hc] at hac hbc
          exact hone r hr r' hr' hrne hrne' hac hbc
        · exact h.single _ _ c ⟨r, hr, rfl, (hpoint r hr c hac hc).1⟩
            ⟨r', hr', rfl, (hpoint r' hr' c hbc hc).1⟩
  · intro y hy next hnext
    rcases hmem y hy with rfl | ⟨r, hr, rfl, -⟩
    · rw [hhead] at hnext
      cases hnext
    · have hbegun := h.begun r hr
      by_cases hc : next = record.id
      · refine ⟨record, hlast, hc.symm, by rw [(hf r hr).2.1]; omega, ?_⟩
        rcases (hf r hr).2.2 with ⟨hsame, hto⟩ | ⟨-, hto⟩
        · obtain ⟨r', hr', -, -, ended, hended, hbefore⟩ :=
            h.disjoint r hr next (hsame ▸ hnext)
          have hbegun' := h.begun r' hr'
          exact ⟨ended, by rw [hto, hended], by omega⟩
        · exact ⟨time, hto, by omega⟩
      · obtain ⟨hold, hto⟩ := hpoint r hr next hnext hc
        obtain ⟨r', hr', hid, hle', ended, hended, hbefore⟩ := h.disjoint r hr next hold
        have hne : r'.id ≠ record.id := by
          rw [hid]
          exact hc
        refine ⟨f r', hin r' hr' hne, by rw [(hf r' hr').1, hid], ?_, ended, ?_, ?_⟩
        · rw [(hf r hr).2.1, (hf r' hr').2.1]
          exact hle'
        · rw [hto, hended]
        · rw [(hf r' hr').2.1]
          exact hbefore

theorem Kept.invalidate (h : Kept s now) (hle : now ≤ time) (hended : Unended s id time) :
    Kept (s.invalidate id time) time := by
  have hf : ∀ r : MemoryRecord V,
      (updateRow id (fun r => { r with validTo := some time }) r).id = r.id ∧
      (updateRow id (fun r => { r with validTo := some time }) r).validFrom = r.validFrom ∧
      (updateRow id (fun r => { r with validTo := some time }) r).supersededBy = r.supersededBy ∧
      ((updateRow id (fun r => { r with validTo := some time }) r).validTo = r.validTo ∨
        r.id = id ∧
        (updateRow id (fun r => { r with validTo := some time }) r).validTo = some time) := by
    intro r
    by_cases hid : r.id = id
    · rw [updateRow, if_pos hid]
      exact ⟨rfl, rfl, rfl, .inr ⟨hid, rfl⟩⟩
    · rw [updateRow, if_neg hid]
      exact ⟨rfl, rfl, rfl, .inl rfl⟩
  have hmem : ∀ y ∈ (s.invalidate id time).rows, ∃ r ∈ s.rows,
      y = updateRow id (fun r => { r with validTo := some time }) r := by
    intro y hy
    obtain ⟨r, hr, rfl⟩ := List.mem_map.mp hy
    exact ⟨r, hr, rfl⟩
  have hedge : ∀ a b, Follows (s.invalidate id time) a b → Follows s a b := by
    rintro a b ⟨y, hy, rfl, hb⟩
    obtain ⟨r, hr, rfl⟩ := hmem y hy
    exact ⟨r, hr, (hf r).1.symm, (hf r).2.2.1 ▸ hb⟩
  constructor
  · intro y hy
    obtain ⟨r, hr, rfl⟩ := hmem y hy
    rw [(hf r).2.1]
    exact Int.le_trans (h.begun r hr) hle
  · exact h.ordered.map (fun r _ => ⟨(hf r).1, (hf r).2.2.1⟩)
  · intro a b c hac hbc
    exact h.single a b c (hedge a c hac) (hedge b c hbc)
  · intro y hy next hnext
    obtain ⟨r, hr, rfl⟩ := hmem y hy
    rw [(hf r).2.2.1] at hnext
    obtain ⟨r', hr', hid, hfrom, ended, hto, hbefore⟩ := h.disjoint r hr next hnext
    refine ⟨_, List.mem_map_of_mem hr', by rw [(hf r').1, hid], ?_, ?_⟩
    · rw [(hf r).2.1, (hf r').2.1]
      exact hfrom
    · rw [(hf r').2.1]
      rcases (hf r).2.2.2 with hsame | ⟨hrid, hset⟩
      · exact ⟨ended, by rw [hsame, hto], hbefore⟩
      · refine ⟨time, hset, ?_⟩
        rcases hended r hr hrid ended hto with hlate | hlate
        · omega
        · omega

theorem Kept.step {s : MemoryStore V} {now : Int} (h : Kept s now)
    (hle : now ≤ op.time) (htimely : op.Timely) (hcareful : Careful s op) :
    Kept (op.exec s) op.time := by
  cases op with
  | insert record time =>
    refine h.replace (f := fun r => r) hle ?_ htimely hcareful.2
      (fun r _ => ⟨rfl, rfl, .inl ⟨rfl, rfl⟩⟩) ?_
    · rw [List.map_id']
      rfl
    · intro r hr r' hr' _ _ hpoint _
      exact absurd (edge_end h.ordered ⟨r, hr, rfl, hpoint⟩) hcareful.1
  | invalidate id time => exact h.invalidate hle hcareful
  | supersede oldId record time =>
    by_cases hold : oldId ∈ s.rows.map (·.id)
    · obtain ⟨-, -, hhead, hpoint⟩ := hcareful hold
      have hcases : ∀ r : MemoryRecord V, (r.id = oldId ∧ updateRow oldId (fun r =>
          { r with validTo := some time, supersededBy := some record.id }) r =
            { r with validTo := some time, supersededBy := some record.id }) ∨
          (r.id ≠ oldId ∧ updateRow oldId (fun r =>
            { r with validTo := some time, supersededBy := some record.id }) r = r) := by
        intro r
        by_cases hid : r.id = oldId
        · exact .inl ⟨hid, by rw [updateRow, if_pos hid]⟩
        · exact .inr ⟨hid, by rw [updateRow, if_neg hid]⟩
      rw [supersede_exec hold]
      refine h.replace hle rfl htimely hhead (fun r _ => ?_) ?_
      · rcases hcases r with ⟨-, heq⟩ | ⟨-, heq⟩
        · rw [heq]
          exact ⟨rfl, rfl, .inr ⟨rfl, rfl⟩⟩
        · rw [heq]
          exact ⟨rfl, rfl, .inl ⟨rfl, rfl⟩⟩
      · intro r hr r' hr' hne hne' hr₁ hr₂
        have hkey : ∀ x ∈ s.rows, x.id ≠ record.id → (updateRow oldId (fun r =>
            { r with validTo := some time, supersededBy := some record.id }) x).supersededBy =
              some record.id → x.id = oldId ∨ x.supersededBy = some record.id := by
          intro x hx _ hset
          rcases hcases x with ⟨hid, -⟩ | ⟨-, heq⟩
          · exact .inl hid
          · rw [heq] at hset
            exact .inr hset
        rcases hpoint with hself | honly
        · have hsame : ∀ x ∈ s.rows, x.id ≠ record.id → (x.id = oldId ∨
              x.supersededBy = some record.id) → x.supersededBy = some record.id := by
            rintro x hx hxne (hid | hset)
            · rw [hself] at hxne
              exact absurd hid hxne
            · exact hset
          exact h.single _ _ _ ⟨r, hr, rfl, hsame r hr hne (hkey r hr hne hr₁)⟩
            ⟨r', hr', rfl, hsame r' hr' hne' (hkey r' hr' hne' hr₂)⟩
        · have hid : ∀ x ∈ s.rows, (x.id = oldId ∨ x.supersededBy = some record.id) →
              x.id = oldId := by
            rintro x hx (hid | hset)
            · exact hid
            · exact honly x hx hset
          rw [hid r hr (hkey r hr hne hr₁), hid r' hr' (hkey r' hr' hne' hr₂)]
    · rw [supersede_missing hold]
      exact ⟨fun r hr => Int.le_trans (h.begun r hr) hle, h.ordered, h.single, h.disjoint⟩

theorem Kept.run {s : MemoryStore V} {now : Int} (h : Kept s now)
    (hcareful : Transition.Guarded HistoryOp.exec Careful s ops)
    (htimely : ∀ op ∈ ops, op.Timely) (hsorted : (now :: ops.map (·.time)).Pairwise (· ≤ ·)) :
    ∃ last, Kept (Transition.run HistoryOp.exec s ops) last := by
  induction ops generalizing s now with
  | nil => exact ⟨now, h⟩
  | cons op ops ih =>
    obtain ⟨hnow, hrest⟩ := List.pairwise_cons.mp hsorted
    have hstep := h.step (hnow op.time List.mem_cons_self) (htimely op List.mem_cons_self)
      hcareful.1
    exact ih hstep hcareful.2 (fun op hop => htimely op (List.mem_cons_of_mem _ hop)) hrest

/-- In every run of timely operations in the order of time, all of them careful, the answers
for a time past never change, and the successors form chains. -/
theorem history_immutable {ops : List (HistoryOp V)} (htimely : ∀ op ∈ ops, op.Timely)
    (hsorted : (ops.map (·.time)).Pairwise (· ≤ ·))
    (hcareful : Transition.Guarded HistoryOp.exec Careful .empty ops) :
    Immutable ops ∧ Chained (Transition.run HistoryOp.exec .empty ops) := by
  constructor
  · intro pre post hops now _ hpost limit
    subst hops
    obtain ⟨-, hlater⟩ := hcareful.append
    have htold := told_run hlater (fun op hop => htimely op (List.mem_append_right _ hop)) hpost
    refine ⟨?_, fun hfit r => mem_asOf hfit r⟩
    rw [asOf_told, asOf_told, Transition.run_append, htold]
  · cases ops with
    | nil =>
      have hkept : Kept (.empty : MemoryStore V) 0 :=
        ⟨fun r hr => (by cases hr), trivial,
          fun a b c hac => (by obtain ⟨r, hr, -⟩ := hac; cases hr),
          fun r hr => (by cases hr)⟩
      exact hkept.chained
    | cons op ops =>
      have hkept : Kept (.empty : MemoryStore V) op.time :=
        ⟨fun r hr => (by cases hr), trivial,
          fun a b c hac => (by obtain ⟨r, hr, -⟩ := hac; cases hr),
          fun r hr => (by cases hr)⟩
      have hfirst : (op.time :: (op :: ops).map (·.time)).Pairwise (· ≤ ·) := by
        refine List.pairwise_cons.mpr ⟨fun t ht => ?_, hsorted⟩
        rcases List.mem_cons.mp ht with heq | ht
        · exact Int.le_of_eq heq.symm
        · exact (List.pairwise_cons.mp hsorted).1 t ht
      obtain ⟨last, hrun⟩ := hkept.run hcareful htimely hfirst
      exact hrun.chained

def correctedFact : List (HistoryOp Unit) :=
  [.insert (.newRaw "a" "likes tea" "s" 1) 1,
    .supersede "a" (.newRaw "b" "likes coffee" "s" 2) 2, .invalidate "b" 4]

theorem history_immutable_sample :
    Immutable correctedFact ∧ Chained (Transition.run HistoryOp.exec .empty correctedFact) := by
  apply history_immutable
  · intro op hop
    simp only [correctedFact, List.mem_cons, List.not_mem_nil, or_false] at hop
    rcases hop with rfl | rfl | rfl
    · rfl
    · rfl
    · trivial
  · decide
  · refine ⟨⟨by decide, rfl⟩, fun _ => ⟨?_, ?_, rfl, .inr ?_⟩, ?_, trivial⟩
    · decide +kernel
    · decide +kernel
    · decide +kernel
    · show Unended _ _ _
      decide +kernel

def twiceSuperseded : List (HistoryOp Unit) :=
  [.insert (.newRaw "a" "likes tea" "s" 1) 1,
    .supersede "a" (.newRaw "b" "likes coffee" "s" 2) 2,
    .supersede "a" (.newRaw "c" "likes water" "s" 5) 5]

def sharedSuccessor : List (HistoryOp Unit) :=
  [.insert (.newRaw "a" "likes tea" "s" 1) 1, .insert (.newRaw "b" "likes milk" "s" 1) 1,
    .supersede "a" (.newRaw "c" "likes coffee" "s" 2) 2,
    .supersede "b" (.newRaw "c" "likes coffee" "s" 3) 3]

/-- The answer for time 3 changes, in the one run, and in the other two records have the
same successor. -/
theorem retired_again_rewrites : ¬ Immutable twiceSuperseded ∧
    ¬ Chained (Transition.run HistoryOp.exec .empty sharedSuccessor) := by
  constructor
  · intro h
    have hanswer := (h (twiceSuperseded.take 2) (twiceSuperseded.drop 2) rfl 3 (by decide)
      (by decide) 10).1
    revert hanswer
    decide +kernel
  · intro h
    have hsame : "a" = "b" := h.single "a" "b" "c"
      ⟨{ (MemoryRecord.newRaw "a" "likes tea" "s" 1) with
          validTo := some 2, supersededBy := some "c" }, by decide +kernel, rfl, rfl⟩
      ⟨{ (MemoryRecord.newRaw "b" "likes milk" "s" 1) with
          validTo := some 3, supersededBy := some "c" }, by decide +kernel, rfl, rfl⟩
    revert hsame
    decide

end Relux.Memory
