import Mathlib.Data.List.Nodup

/-! A table of a relational store: rows in the order they were inserted, under a primary
key. A row whose key is taken is refused. -/

namespace Relux

structure Table (κ ν : Type) where
  rows : List (κ × ν)
  primaryKey : (rows.map Prod.fst).Nodup

namespace Table

variable {κ ν : Type}

def empty : Table κ ν := ⟨[], List.nodup_nil⟩

def records (t : Table κ ν) : List ν := t.rows.map Prod.snd

variable [DecidableEq κ]

omit [DecidableEq κ] in
variable {k : κ}

variable {t : Table κ ν} {t' : Table κ ν}

variable {rows : List (κ × ν)}

end Table

end Relux
