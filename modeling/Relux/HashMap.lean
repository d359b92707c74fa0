import Mathlib.Data.List.AList

/-! Finite maps with an iteration order. A lookup does not depend on the order; code
that walks a map may. -/

namespace Relux

def HashMap (κ ν : Type) : Type := AList (fun _ : κ => ν)

namespace HashMap

variable {κ ν : Type} [DecidableEq κ]

def empty : HashMap κ ν := (∅ : AList (fun _ : κ => ν))

def get? (m : HashMap κ ν) (k : κ) : Option ν := AList.lookup k m

def insert (m : HashMap κ ν) (k : κ) (v : ν) : HashMap κ ν := AList.insert k v m

def remove (m : HashMap κ ν) (k : κ) : HashMap κ ν := AList.erase k m

/-- An update in place, the effect of writing through `get_mut`. -/
def modify (m : HashMap κ ν) (k : κ) (f : ν → ν) : HashMap κ ν :=
  match m.get? k with
  | none => m
  | some v => m.insert k (f v)

omit [DecidableEq κ] in
def retain (m : HashMap κ ν) (p : κ → ν → Bool) : HashMap κ ν :=
  ⟨(AList.entries m).filter (fun e => p e.1 e.2),
    List.NodupKeys.sublist List.filter_sublist (AList.nodupKeys m)⟩

omit [DecidableEq κ] in
def entries (m : HashMap κ ν) : List (κ × ν) := (AList.entries m).map (fun e => (e.1, e.2))

omit [DecidableEq κ] in
def values (m : HashMap κ ν) : List ν := m.entries.map Prod.snd

/-- A map collected from its entries, the later one of a key in the place of the earlier. -/
def collect (l : List (κ × ν)) : HashMap κ ν := l.foldl (fun m e => m.insert e.1 e.2) empty

@[simp] theorem get?_empty (k : κ) : (empty : HashMap κ ν).get? k = none := rfl

@[simp] theorem get?_insert (m : HashMap κ ν) (k k' : κ) (v : ν) :
    (m.insert k v).get? k' = if k' = k then some v else m.get? k' := by
  by_cases h : k' = k
  · subst h
    rw [if_pos rfl]
    exact AList.lookup_insert (β := fun _ : κ => ν) m
  · rw [if_neg h]
    exact AList.lookup_insert_ne (β := fun _ : κ => ν) h

@[simp] theorem get?_remove (m : HashMap κ ν) (k k' : κ) :
    (m.remove k).get? k' = if k' = k then none else m.get? k' := by
  by_cases h : k' = k
  · subst h
    rw [if_pos rfl]
    exact AList.lookup_erase (β := fun _ : κ => ν) k' m
  · rw [if_neg h]
    exact AList.lookup_erase_ne (β := fun _ : κ => ν) h

@[simp] theorem get?_modify (m : HashMap κ ν) (k k' : κ) (f : ν → ν) :
    (m.modify k f).get? k' = if k' = k then (m.get? k).map f else m.get? k' := by
  unfold modify
  cases h : m.get? k with
  | none =>
    by_cases hk : k' = k
    · rw [hk, h, if_pos rfl, Option.map_none]
    · rw [if_neg hk]
  | some v => rw [get?_insert, Option.map_some]

variable {m : HashMap κ ν} {k : κ} {v : ν}

theorem insert_some {k' : κ} {w : ν} (h : (m.insert k v).get? k' = some w) :
    (k' = k ∧ v = w) ∨ (k' ≠ k ∧ m.get? k' = some w) := by
  rw [get?_insert] at h
  split at h
  next he => exact .inl ⟨he, Option.some.inj h⟩
  next hne => exact .inr ⟨hne, h⟩

theorem modify_some {k' : κ} {w : ν} {f : ν → ν} (h : (m.modify k f).get? k' = some w) :
    (k' = k ∧ ∃ u, m.get? k' = some u ∧ f u = w) ∨ (k' ≠ k ∧ m.get? k' = some w) := by
  rw [get?_modify] at h
  split at h
  next he => exact .inl ⟨he, he ▸ Option.map_eq_some_iff.mp h⟩
  next hne => exact .inr ⟨hne, h⟩

theorem modify_of_some {k' : κ} (h : m.get? k' = some v) (k : κ) (f : ν → ν) :
    (m.modify k f).get? k' = some (if k' = k then f v else v) := by
  rw [get?_modify]
  split
  next he => rw [← he, h, Option.map_some]
  · exact h

theorem insert_of_some {k' : κ} {w : ν} (h : m.get? k' = some w) (hnew : m.get? k = none) (v : ν) :
    (m.insert k v).get? k' = some w := by
  rw [get?_insert, if_neg, h]
  rintro rfl
  rw [hnew] at h
  cases h

theorem map_get?_modify {μ : Type} {g : ν → μ} {f : ν → ν} (hf : ∀ v, g (f v) = g v)
    (m : HashMap κ ν) (k k' : κ) : ((m.modify k f).get? k').map g = (m.get? k').map g := by
  rw [get?_modify]
  split
  next he => rw [he, Option.map_map, Function.comp_def, funext hf]
  · rfl

theorem modify_eq_none {f : ν → ν} {k' : κ} :
    (m.modify k f).get? k' = none ↔ m.get? k' = none := by
  rw [get?_modify]
  split
  next he => rw [he, Option.map_eq_none_iff]
  · rfl

theorem mem_entries : (k, v) ∈ m.entries ↔ m.get? k = some v := by
  have h := AList.mem_lookup_iff (β := fun _ : κ => ν) (a := k) (b := v) (s := m)
  rw [Option.mem_def] at h
  unfold get? entries
  rw [h, List.mem_map]
  constructor
  · rintro ⟨⟨k', v'⟩, hm, he⟩
    cases he
    exact hm
  · intro hm
    exact ⟨⟨k, v⟩, hm, rfl⟩

@[simp] theorem get?_retain (m : HashMap κ ν) (p : κ → ν → Bool) (k : κ) :
    (m.retain p).get? k = (m.get? k).filter (p k) := by
  apply Option.ext
  intro v
  rw [← mem_entries, Option.filter_eq_some_iff, ← mem_entries]
  unfold retain entries
  simp only [List.mem_map, List.mem_filter]
  constructor
  · rintro ⟨e, ⟨hm, hp⟩, he⟩
    cases he
    exact ⟨⟨e, hm, rfl⟩, hp⟩
  · rintro ⟨⟨e, hm, he⟩, hp⟩
    cases he
    exact ⟨e, ⟨hm, hp⟩, rfl⟩

theorem mem_values : v ∈ m.values ↔ ∃ k, m.get? k = some v := by
  unfold values
  rw [List.mem_map]
  constructor
  · rintro ⟨⟨k, w⟩, hm, rfl⟩
    exact ⟨k, mem_entries.mp hm⟩
  · rintro ⟨k, hk⟩
    exact ⟨(k, v), mem_entries.mpr hk, rfl⟩

theorem values_insert (m : HashMap κ ν) (k : κ) (v : ν) :
    (m.insert k v).values = v :: (m.remove k).values := by
  have h := AList.entries_insert (β := fun _ : κ => ν) (a := k) (b := v) (s := m)
  exact congrArg (fun l => (l.map (fun e => (e.1, e.2))).map Prod.snd) h

omit [DecidableEq κ] in
theorem keys_nodup (m : HashMap κ ν) : (m.entries.map Prod.fst).Nodup := by
  have h := AList.nodupKeys m
  unfold entries
  rw [List.map_map]
  exact h

variable {l : List (κ × ν)} {g : κ → Option ν}

theorem get?_foldl_insert (hsound : ∀ e ∈ l, g e.1 = some e.2) (m : HashMap κ ν) (k : κ) :
    (l.foldl (fun m e => m.insert e.1 e.2) m).get? k =
      if k ∈ l.map Prod.fst then g k else m.get? k := by
  induction l generalizing m with
  | nil => simp
  | cons e l ih =>
    rw [List.foldl_cons, ih (fun e' he' => hsound e' (List.mem_cons_of_mem e he')), List.map_cons]
    by_cases hk : k ∈ l.map Prod.fst
    · rw [if_pos hk, if_pos (List.mem_cons_of_mem _ hk)]
    · rw [if_neg hk, get?_insert]
      by_cases he : k = e.1
      · rw [if_pos he, if_pos (he ▸ List.mem_cons_self), he]
        exact (hsound e List.mem_cons_self).symm
      · rw [if_neg he, if_neg]
        rw [List.mem_cons, not_or]
        exact ⟨he, hk⟩

theorem get?_collect (hsound : ∀ e ∈ l, g e.1 = some e.2)
    (hall : ∀ k v, g k = some v → (k, v) ∈ l) (k : κ) : (collect l).get? k = g k := by
  rw [collect, get?_foldl_insert hsound]
  split
  · rfl
  next hk =>
    rw [get?_empty]
    cases hg : g k with
    | none => rfl
    | some v => exact absurd (List.mem_map.mpr ⟨(k, v), hall k v hg, rfl⟩) hk

omit [DecidableEq κ] in
def len (m : HashMap κ ν) : Nat := m.entries.length

omit [DecidableEq κ] in
omit [DecidableEq κ] in
theorem len_retain_le (m : HashMap κ ν) (p : κ → ν → Bool) : (m.retain p).len ≤ m.len := by
  unfold len retain entries
  simp only [List.length_map]
  exact List.length_filter_le _ _

theorem len_insert_of_none (h : m.get? k = none) (v : ν) : (m.insert k v).len = m.len + 1 := by
  have hk : AList.lookup (β := fun _ : κ => ν) k m = none := h
  have hentries := AList.entries_insert_of_notMem (b := v) (AList.lookup_eq_none.mp hk)
  have hlen : (m.insert k v).len = (AList.entries (AList.insert k v m)).length := by
    unfold len entries
    rw [List.length_map]
    rfl
  rw [hlen, hentries, List.length_cons]
  unfold len entries
  rw [List.length_map]

theorem len_remove_of_some (h : m.get? k = some v) : (m.remove k).len + 1 = m.len := by
  have hk : k ∈ (AList.entries m).keys := by
    have hmem := mem_entries.mpr h
    obtain ⟨e, he, heq⟩ := List.mem_map.mp hmem
    cases heq
    exact List.mem_map_of_mem he
  obtain ⟨_, l₁, l₂, _, hentries, herased⟩ := List.exists_of_kerase hk
  have hlen : (m.remove k).len = (l₁ ++ l₂).length := by
    unfold len remove entries
    rw [List.length_map]
    exact congrArg List.length herased
  rw [hlen]
  unfold len entries
  rw [List.length_map, hentries]
  simp
  omega

def Perm (m m' : HashMap κ ν) : Prop := (AList.entries m).Perm (AList.entries m')

theorem Perm.get? {m' : HashMap κ ν} (h : m.Perm m') (k : κ) : m'.get? k = m.get? k :=
  (AList.perm_lookup (β := fun _ : κ => ν) (a := k) h).symm

/-- The list with its `i`-th and `i + 1`-st element exchanged. -/
def swapAt {α : Type} : Nat → List α → List α
  | 0, a :: b :: l => b :: a :: l
  | i + 1, a :: l => a :: swapAt i l
  | _, l => l

theorem swapAt_perm {α : Type} (i : Nat) (l : List α) : l.Perm (swapAt i l) := by
  induction l generalizing i with
  | nil => cases i <;> exact .refl _
  | cons a l ih =>
    cases i with
    | zero =>
      cases l with
      | nil => exact .refl _
      | cons b l => exact .swap b a l
    | succ i => exact (ih i).cons a

def reorder (m : HashMap κ ν) (i : Nat) : HashMap κ ν :=
  ⟨swapAt i (AList.entries m),
    (List.perm_nodupKeys (swapAt_perm i (AList.entries m))).mp (AList.nodupKeys m)⟩

@[simp] theorem get?_reorder (m : HashMap κ ν) (i : Nat) (k : κ) :
    (m.reorder i).get? k = m.get? k :=
  have hperm : m.Perm (m.reorder i) := swapAt_perm i (AList.entries m)
  hperm.get? k

omit [DecidableEq κ] in
theorem len_reorder (m : HashMap κ ν) (i : Nat) : (m.reorder i).len = m.len := by
  unfold len reorder entries
  rw [List.length_map, List.length_map]
  exact (swapAt_perm i (AList.entries m)).length_eq.symm

def KeyedBy (m : HashMap κ ν) (key : ν → κ) : Prop := ∀ k v, m.get? k = some v → key v = k

namespace KeyedBy

variable {m : HashMap κ ν} {key : ν → κ}

theorem empty (key : ν → κ) : (HashMap.empty : HashMap κ ν).KeyedBy key := by
  intro k v h
  cases h

theorem insert (h : m.KeyedBy key) {k : κ} {v : ν} (hv : key v = k) :
    (m.insert k v).KeyedBy key := by
  intro k' v' h'
  rcases insert_some h' with ⟨rfl, rfl⟩ | ⟨-, hold⟩
  · exact hv
  · exact h k' v' hold

theorem remove (h : m.KeyedBy key) (k : κ) : (m.remove k).KeyedBy key := by
  intro k' v' h'
  rw [get?_remove] at h'
  split at h'
  · cases h'
  · exact h k' v' h'

theorem modify (h : m.KeyedBy key) (k : κ) {f : ν → ν} (hf : ∀ v, key (f v) = key v) :
    (m.modify k f).KeyedBy key := by
  intro k' v' h'
  rcases modify_some h' with ⟨-, v, hv, rfl⟩ | ⟨-, hold⟩
  · exact (hf v).trans (h k' v hv)
  · exact h k' v' hold

theorem reorder (h : m.KeyedBy key) (i : Nat) : (m.reorder i).KeyedBy key := by
  intro k v hv
  rw [get?_reorder] at hv
  exact h k v hv

theorem values_nodup (h : m.KeyedBy key) : (m.values.map key).Nodup := by
  have hkeys : m.values.map key = m.entries.map Prod.fst := by
    unfold values
    rw [List.map_map]
    refine List.map_congr_left (fun e he => ?_)
    exact h e.1 e.2 (mem_entries.mp he)
  rw [hkeys]
  exact keys_nodup m

end KeyedBy

def collectBy (key : ν → κ) (l : List ν) : HashMap κ ν :=
  l.foldl (fun m v => m.insert (key v) v) empty

end HashMap

end Relux
