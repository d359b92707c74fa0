import Mathlib.Data.List.Basic

/-! Maps of bounded size that drop the entry used least recently. -/

namespace Relux

structure LruCache (κ ν : Type) where
  entries : List (κ × ν)
  cap : Nat

namespace LruCache

variable {κ ν : Type} [DecidableEq κ]

omit [DecidableEq κ] in
def new (cap : Nat) : LruCache κ ν := ⟨[], cap⟩

def get (cache : LruCache κ ν) (k : κ) : Option ν × LruCache κ ν :=
  match cache.entries.find? (fun e => e.1 = k) with
  | none => (none, cache)
  | some e =>
    (some e.2, { cache with entries := e :: cache.entries.filter (fun e => e.1 ≠ k) })

def put (cache : LruCache κ ν) (k : κ) (v : ν) : LruCache κ ν :=
  { cache with entries := ((k, v) :: cache.entries.filter (fun e => e.1 ≠ k)).take cache.cap }

theorem mem_of_get {cache : LruCache κ ν} {k : κ} {v : ν} (h : (cache.get k).1 = some v) :
    (k, v) ∈ cache.entries := by
  unfold get at h
  cases hfind : cache.entries.find? (fun e => e.1 = k) with
  | none =>
    rw [hfind] at h
    cases h
  | some e =>
    rw [hfind] at h
    cases h
    have hkey : e.1 = k := by simpa using List.find?_some hfind
    exact hkey ▸ List.mem_of_find?_eq_some hfind

variable {e : κ × ν}

theorem mem_get {cache : LruCache κ ν} {k : κ} (h : e ∈ (cache.get k).2.entries) :
    e ∈ cache.entries := by
  unfold get at h
  cases hfind : cache.entries.find? (fun e => e.1 = k) with
  | none =>
    rw [hfind] at h
    exact h
  | some e' =>
    rw [hfind] at h
    rcases List.mem_cons.mp h with rfl | hrest
    · exact List.mem_of_find?_eq_some hfind
    · exact List.mem_of_mem_filter hrest

theorem mem_put {cache : LruCache κ ν} {k : κ} {v : ν}
    (h : e ∈ (cache.put k v).entries) : e = (k, v) ∨ e ∈ cache.entries := by
  rcases List.mem_cons.mp (List.mem_of_mem_take h) with heq | hrest
  · exact Or.inl heq
  · exact Or.inr (List.mem_of_mem_filter hrest)

def mapVal {μ : Type} (f : κ → ν → μ) (cache : LruCache κ ν) : LruCache κ μ :=
  ⟨cache.entries.map (fun e => (e.1, f e.1 e.2)), cache.cap⟩

variable {μ : Type} (f : κ → ν → μ) (cache : LruCache κ ν) (k : κ)

theorem filter_mapVal :
    (cache.mapVal f).entries.filter (fun e => e.1 ≠ k) =
      (cache.entries.filter (fun e => e.1 ≠ k)).map (fun e => (e.1, f e.1 e.2)) := by
  unfold mapVal
  rw [List.filter_map]
  rfl

theorem find?_mapVal :
    (cache.mapVal f).entries.find? (fun e => e.1 = k) =
      (cache.entries.find? (fun e => e.1 = k)).map (fun e => (e.1, f e.1 e.2)) := by
  unfold mapVal
  rw [List.find?_map]
  rfl

theorem get_mapVal :
    (cache.mapVal f).get k = ((cache.get k).1.map (f k), (cache.get k).2.mapVal f) := by
  unfold get
  rw [find?_mapVal]
  cases hfind : cache.entries.find? (fun e => e.1 = k) with
  | none => rfl
  | some e =>
    have hkey : e.1 = k := by simpa using List.find?_some hfind
    simp only [Option.map_some, filter_mapVal]
    unfold mapVal
    rw [List.map_cons, hkey]

theorem put_mapVal (v : ν) : (cache.mapVal f).put k (f k v) = (cache.put k v).mapVal f := by
  unfold put
  rw [filter_mapVal]
  unfold mapVal
  rw [List.map_take, List.map_cons]

end LruCache

end Relux
