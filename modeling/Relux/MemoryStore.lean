import Mathlib.Data.List.Nodup
import Mathlib.Data.List.Sort
import Mathlib.Data.String.Basic

/-! The layered memory store: its records, the writes it offers, and the reads the promotion
and archiving tasks and the point-in-time queries are made of. -/

namespace Relux.Memory

inductive MemoryLayer where
  | raw
  | semantic
  | observation
  | model
  deriving DecidableEq

inductive SharePolicy where
  | none
  | explicit
  | auto
  deriving DecidableEq

inductive SourceTrust where
  | internal
  | external
  | unknown
  deriving DecidableEq

structure MemoryRecord (V : Type) where
  id : String
  layer : MemoryLayer
  text : String
  source : String
  tags : List String
  createdAt : Int
  validFrom : Int
  validTo : Option Int
  observedAt : Int
  embedding : Option V
  shareable : Bool
  sharedWith : List String
  sharedBy : Option String
  sharePolicy : SharePolicy
  sourceTrust : SourceTrust
  frozen : Bool
  lastEditedMs : Option Int
  consolidated : Bool
  tenantId : Option String
  supersededBy : Option String
  deriving DecidableEq

def MemoryRecord.newRaw {V : Type} (id text source : String) (now : Int) : MemoryRecord V where
  id := id
  layer := .raw
  text := text
  source := source
  tags := []
  createdAt := now
  validFrom := now
  validTo := none
  observedAt := now
  embedding := none
  shareable := false
  sharedWith := []
  sharedBy := none
  sharePolicy := .none
  sourceTrust := .internal
  frozen := false
  lastEditedMs := none
  consolidated := false
  tenantId := none
  supersededBy := none

inductive MemoryError where
  | supersedeTarget (oldId : String)
  | notFound (id : String)
  deriving DecidableEq

structure MemoryStore (V : Type) where
  rows : List (MemoryRecord V)
  primaryKey : (rows.map (·.id)).Nodup

namespace MemoryStore

variable {V : Type}

def empty : MemoryStore V := ⟨[], List.nodup_nil⟩

def get (s : MemoryStore V) (id : String) : Option (MemoryRecord V) :=
  s.rows.find? (fun r => r.id = id)

theorem insert_key (s : MemoryStore V) (record : MemoryRecord V) :
    ((s.rows.filter (fun r => decide (r.id ≠ record.id)) ++ [record]).map (·.id)).Nodup := by
  rw [List.map_append, List.nodup_append]
  refine ⟨s.primaryKey.sublist (List.filter_sublist.map _), by simp, ?_⟩
  intro a ha b hb
  obtain ⟨r, hr, rfl⟩ := List.mem_map.mp ha
  have hne := (List.mem_filter.mp hr).2
  simp only [List.map_cons, List.map_nil, List.mem_singleton] at hb
  rw [hb]
  simpa using hne

/-- `INSERT OR REPLACE`: a row whose id is taken goes, and the record becomes the last row. -/
def insert (s : MemoryStore V) (record : MemoryRecord V) : MemoryStore V :=
  ⟨s.rows.filter (fun r => decide (r.id ≠ record.id)) ++ [record], s.insert_key record⟩

/-- What an `UPDATE … WHERE id = ?` makes of a row; the id stays. -/
def updateRow (id : String) (f : MemoryRecord V → MemoryRecord V) (r : MemoryRecord V) :
    MemoryRecord V :=
  if r.id = id then { f r with id := r.id } else r

theorem updateRow_id (id : String) (f : MemoryRecord V → MemoryRecord V)
    (r : MemoryRecord V) : (updateRow id f r).id = r.id := by
  by_cases h : r.id = id
  · rw [updateRow, if_pos h]
  · rw [updateRow, if_neg h]

theorem update_key (s : MemoryStore V) (id : String) (f : MemoryRecord V → MemoryRecord V) :
    ((s.rows.map (updateRow id f)).map (·.id)).Nodup := by
  have hids : (s.rows.map (updateRow id f)).map (·.id) = s.rows.map (·.id) := by
    rw [List.map_map]
    apply List.map_congr_left
    intro r _
    exact updateRow_id id f r
  rw [hids]
  exact s.primaryKey

def update (s : MemoryStore V) (id : String) (f : MemoryRecord V → MemoryRecord V) :
    MemoryStore V :=
  ⟨s.rows.map (updateRow id f), s.update_key id f⟩

def invalidate (s : MemoryStore V) (id : String) (now : Int) : MemoryStore V :=
  s.update id (fun r => { r with validTo := some now })

def supersede (s : MemoryStore V) (oldId : String) (record : MemoryRecord V) (now : Int) :
    Except MemoryError (MemoryStore V) :=
  if (s.get oldId).isSome then
    .ok ((s.update oldId (fun r =>
      { r with validTo := some now, supersededBy := some record.id })).insert record)
  else .error (.supersedeTarget oldId)

/-- `ORDER BY observed_at DESC, id ASC` -/
def newestFirst (x y : MemoryRecord V) : Bool :=
  decide (y.observedAt < x.observedAt) ||
    (decide (y.observedAt = x.observedAt) && decide (x.id ≤ y.id))

def validAt (now : Int) (r : MemoryRecord V) : Bool :=
  decide (r.validFrom ≤ now) && r.validTo.all (fun ended => decide (now < ended))

def clamp (limit low high : Nat) : Nat := max low (min limit high)

def asOf (s : MemoryStore V) (now : Int) (source : String) (limit : Nat) :
    List (MemoryRecord V) :=
  ((s.rows.filter (fun r => (source == "" || r.source == source) && validAt now r)).insertionSort
    (fun x y => newestFirst x y = true)).take (clamp limit 1 10000)

def chainFrom (s : MemoryStore V) : Nat → String → List String
  | 0, _ => []
  | hops + 1, current =>
    match (s.get current).bind (·.supersededBy) with
    | some next =>
      if next.isEmpty ∨ next = current then [] else next :: chainFrom s hops next
    | none => []

def supersedesChain (s : MemoryStore V) (startId : String) : List String :=
  startId :: s.chainFrom 1024 startId

end MemoryStore

end Relux.Memory
