import Mathlib.Tactic.Common
import Relux.ApplyChangeSet

/-! The walk that makes the missing parent directories of a new entry: where it stops,
and the directories it leaves when it has made one. -/

namespace Relux

abbrev Nodes := Path → Option (Node Bytes)

def growDirs (f : Nodes) (par : Path) : Nodes :=
  fun x => if x <+: par ∧ f x = none then some .dir else f x

variable {dir x : Path} {rest : Path} {comp : String}

theorem prefix_append_singleton (h : x <+: dir ++ comp :: rest) :
    x <+: dir ∨ dir ++ [comp] <+: x := by
  rcases List.prefix_or_prefix_of_prefix h (List.prefix_append dir (comp :: rest)) with h1 | h1
  · exact .inl h1
  · obtain ⟨s, rfl⟩ := h1
    rw [List.prefix_append_right_inj] at h
    cases s with
    | nil => exact .inl (by simp)
    | cons n s =>
      obtain ⟨rfl, _⟩ := List.cons_prefix_cons.mp h
      exact .inr ⟨s, by simp⟩

variable {t : Workspace} {par : Path}

variable {op : Option WriteOp} {call : Except FsError Workspace} {here : WriteOp}

variable {comps : List String} (env : ApplyEnv)

/-- The shortest part of `par` that is not a directory. -/
def FirstMissing (f : Nodes) (par x : Path) : Prop :=
  x <+: par ∧ f x ≠ some .dir ∧ ∀ y, y <+: x → y ≠ x → f y = some .dir

theorem FirstMissing.next (h : FirstMissing t.node (dir ++ comp :: rest) x) (hdir : t.IsDir dir) :
    x = dir ++ [comp] ∨ t.IsDir (dir ++ [comp]) := by
  obtain ⟨hx, hnd, hbelow⟩ := h
  rcases prefix_append_singleton hx with h1 | h1
  · exact absurd (FileTree.isDir_prefix h1 hdir) hnd
  · by_cases he : dir ++ [comp] = x
    · exact .inl he.symm
    · exact .inr (hbelow _ h1 he)

variable {p : Path}

variable {u : Workspace} {b : Bytes}

variable {tmp : Path}

variable {target : Path}

variable {tag : Nat}

end Relux
