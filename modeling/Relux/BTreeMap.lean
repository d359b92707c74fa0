import Mathlib.Order.Lattice
import Mathlib.Data.List.Basic

/-! Ordered maps: the entries stand in the order of their keys. -/

namespace Relux

structure BTreeMap (κ ν : Type) [LinearOrder κ] where
  entries : List (κ × ν)
  sorted : entries.Pairwise (fun e e' => e.1 < e'.1)

namespace BTreeMap

variable {κ ν : Type} [LinearOrder κ]

def empty : BTreeMap κ ν := ⟨[], List.Pairwise.nil⟩

def insertEntry (k : κ) (v : ν) : List (κ × ν) → List (κ × ν)
  | [] => [(k, v)]
  | e :: es =>
    if k < e.1 then (k, v) :: e :: es
    else if k = e.1 then (k, v) :: es
    else e :: insertEntry k v es

variable {k : κ} {v : ν} {es : List (κ × ν)}

theorem mem_insertEntry {e : κ × ν} (h : e ∈ insertEntry k v es) :
    e = (k, v) ∨ e ∈ es := by
  induction es with
  | nil => simpa [insertEntry] using h
  | cons e' es ih =>
    by_cases hlt : k < e'.1
    · simpa [insertEntry, hlt] using h
    · by_cases heq : k = e'.1
      · rw [insertEntry, if_neg hlt, if_pos heq] at h
        rcases List.mem_cons.mp h with h | h
        · exact Or.inl h
        · exact Or.inr (List.mem_cons_of_mem _ h)
      · rw [insertEntry, if_neg hlt, if_neg heq] at h
        rcases List.mem_cons.mp h with h | h
        · exact Or.inr (h ▸ List.mem_cons_self)
        · rcases ih h with h | h
          · exact Or.inl h
          · exact Or.inr (List.mem_cons_of_mem _ h)

theorem sorted_insertEntry (k : κ) (v : ν) (h : es.Pairwise (fun e e' => e.1 < e'.1)) :
    (insertEntry k v es).Pairwise (fun e e' => e.1 < e'.1) := by
  induction es with
  | nil => simp [insertEntry]
  | cons e es ih =>
    obtain ⟨hhead, htail⟩ := List.pairwise_cons.mp h
    by_cases hlt : k < e.1
    · rw [insertEntry, if_pos hlt]
      refine List.pairwise_cons.mpr ⟨?_, h⟩
      intro e' he'
      rcases List.mem_cons.mp he' with he' | he'
      · rw [he']
        exact hlt
      · exact lt_trans hlt (hhead e' he')
    · by_cases heq : k = e.1
      · rw [insertEntry, if_neg hlt, if_pos heq]
        refine List.pairwise_cons.mpr ⟨?_, htail⟩
        intro e' he'
        rw [heq]
        exact hhead e' he'
      · rw [insertEntry, if_neg hlt, if_neg heq]
        refine List.pairwise_cons.mpr ⟨?_, ih htail⟩
        intro e' he'
        rcases mem_insertEntry he' with he' | he'
        · rw [he']
          exact lt_of_le_of_ne (not_lt.mp hlt) (fun hsame => heq hsame.symm)
        · exact hhead e' he'

def insert (m : BTreeMap κ ν) (k : κ) (v : ν) : BTreeMap κ ν :=
  ⟨insertEntry k v m.entries, sorted_insertEntry k v m.sorted⟩

def lookup (k : κ) : List (κ × ν) → Option ν
  | [] => none
  | e :: es => if k = e.1 then some e.2 else lookup k es

def get? (m : BTreeMap κ ν) (k : κ) : Option ν := lookup k m.entries

def containsKey (m : BTreeMap κ ν) (k : κ) : Bool := (m.get? k).isSome

/-- `entry(k).or_insert(v)`. -/
def orInsert (m : BTreeMap κ ν) (k : κ) (v : ν) : BTreeMap κ ν :=
  if m.containsKey k then m else m.insert k v

def values (m : BTreeMap κ ν) : List ν := m.entries.map Prod.snd

def collect (l : List (κ × ν)) : BTreeMap κ ν := l.foldl (fun m e => m.insert e.1 e.2) empty

theorem lookup_insertEntry (k k' : κ) (v : ν) (es : List (κ × ν)) :
    lookup k' (insertEntry k v es) = if k' = k then some v else lookup k' es := by
  induction es with
  | nil => rfl
  | cons e es ih =>
    by_cases hlt : k < e.1
    · rw [insertEntry, if_pos hlt]
      rfl
    · by_cases heq : k = e.1
      · rw [insertEntry, if_neg hlt, if_pos heq]
        by_cases hk : k' = k
        · simp [lookup, hk]
        · simp [lookup, hk, ← heq]
      · rw [insertEntry, if_neg hlt, if_neg heq, lookup, lookup, ih]
        by_cases hk : k' = k
        · simp [hk, heq]
        · simp [hk]

@[simp] theorem get?_empty (k : κ) : (empty : BTreeMap κ ν).get? k = none := rfl

@[simp] theorem get?_insert (m : BTreeMap κ ν) (k k' : κ) (v : ν) :
    (m.insert k v).get? k' = if k' = k then some v else m.get? k' :=
  lookup_insertEntry k k' v m.entries

variable {m : BTreeMap κ ν}

theorem containsKey_iff : m.containsKey k = true ↔ ∃ v, m.get? k = some v := by
  simp [containsKey, Option.isSome_iff_exists]

theorem get?_orInsert (m : BTreeMap κ ν) (k k' : κ) (v : ν) :
    (m.orInsert k v).get? k' = if k' = k then some ((m.get? k).getD v) else m.get? k' := by
  by_cases hc : m.containsKey k = true
  · obtain ⟨w, hw⟩ := containsKey_iff.mp hc
    by_cases hk : k' = k
    · simp [orInsert, hc, hk, hw]
    · simp [orInsert, hc, hk]
  · have hnone : m.get? k = none := by
      simpa [containsKey] using hc
    by_cases hk : k' = k
    · simp [orInsert, hc, hk, hnone]
    · simp [orInsert, hc, hk]

theorem get?_foldl_orInsert (m b : BTreeMap κ ν) (k : κ) :
    (b.entries.foldl (fun m e => m.orInsert e.1 e.2) m).get? k = (m.get? k).or (b.get? k) := by
  have hfold : ∀ (es : List (κ × ν)) (m : BTreeMap κ ν),
      (es.foldl (fun m e => m.orInsert e.1 e.2) m).get? k = (m.get? k).or (lookup k es) := by
    intro es
    induction es with
    | nil =>
      intro m
      simp [lookup]
    | cons e es ih =>
      intro m
      rw [List.foldl_cons, ih, get?_orInsert]
      by_cases hk : k = e.1
      · rw [if_pos hk, lookup, if_pos hk, ← hk]
        cases m.get? k with
        | none => rfl
        | some v => rfl
      · rw [if_neg hk, lookup, if_neg hk]
  exact hfold b.entries m

theorem mem_entries_of_get? (h : m.get? k = some v) : (k, v) ∈ m.entries := by
  have hlookup : ∀ es : List (κ × ν), lookup k es = some v → (k, v) ∈ es := by
    intro es
    induction es with
    | nil =>
      intro hes
      cases hes
    | cons e es ih =>
      intro hes
      by_cases hk : k = e.1
      · rw [lookup, if_pos hk] at hes
        cases hes
        rw [hk]
        exact List.mem_cons_self
      · rw [lookup, if_neg hk] at hes
        exact List.mem_cons_of_mem _ (ih hes)
  exact hlookup m.entries h

theorem get?_of_mem_entries (h : (k, v) ∈ m.entries) : m.get? k = some v := by
  have hlookup : ∀ es : List (κ × ν), es.Pairwise (fun e e' => e.1 < e'.1) →
      (k, v) ∈ es → lookup k es = some v := by
    intro es hsorted hmem
    induction es with
    | nil => cases hmem
    | cons e es ih =>
      obtain ⟨hhead, htail⟩ := List.pairwise_cons.mp hsorted
      rcases List.mem_cons.mp hmem with he | hmem
      · rw [← he]
        simp [lookup]
      · have hne : k ≠ e.1 := ne_of_gt (hhead (k, v) hmem)
        rw [lookup, if_neg hne]
        exact ih htail hmem
  exact hlookup m.entries m.sorted h

theorem mem_entries : (k, v) ∈ m.entries ↔ m.get? k = some v :=
  ⟨get?_of_mem_entries, mem_entries_of_get?⟩

end BTreeMap

end Relux
