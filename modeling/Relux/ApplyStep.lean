import Relux.PlaceFile

/-! What one phase-2 write does to a workspace without stray temp files: it either
passes and has the effect its change describes, or fails. -/

namespace Relux

def IsTemp (pid : Nat) (n : String) : Prop :=
  ∃ i, n = applyTmp pid i ∨ n = createTmp pid i ∨ n = rollbackTmp pid i

def NoTemp (pid : Nat) (t : Workspace) : Prop := ∀ p n, n ∈ p → IsTemp pid n → t.node p = none

def PlainPath (pid : Nat) (p : Path) : Prop := ∀ n ∈ p, ¬ IsTemp pid n

def PlannedWrite.placed (p : PlannedWrite) : Option Path :=
  match p.action with
  | .create => some p.target
  | .rename => p.destTarget
  | _ => none

def PlannedWrite.effect (p : PlannedWrite) (f : Nodes) : Nodes :=
  match p.action, p.destTarget with
  | .replace, _ => Function.update f p.target (some (.file (asBytes p.content)))
  | .create, _ => Function.update (growDirs f p.target.dropLast) p.target
      (some (.file (asBytes p.content)))
  | .rename, some dest => Function.update
      (Function.update (growDirs f dest.dropLast) p.target none) dest (f p.target)
  | .rename, none => f
  | .delete, _ => Function.update f p.target none

/-- A new entry fits at `q`: nothing is there and no file stands in its way. -/
def Clear (f : Nodes) (q : Path) : Prop :=
  NamesEntry q ∧ f q = none ∧ ∀ x, x <+: q.dropLast → ∀ b, f x ≠ some (.file b)

def PlannedWrite.Hits (p : PlannedWrite) (f : Nodes) : Option WriteOp → Prop
  | none => False
  | some (.mkdir d) => ∃ q ∈ p.placed, d <+: q.dropLast ∧ f d = none
  | some .reserve => p.action = .create
  | some (.stage _) => p.action = .replace ∨ p.action = .create
  | some .commit => True

def PlannedWrite.Passes (p : PlannedWrite) (f : Nodes) (op : Option WriteOp) : Prop :=
  (∀ q ∈ p.placed, Clear f q) ∧ ¬ p.Hits f op

def PlannedWrite.Ready (p : PlannedWrite) (t : Workspace) : Prop :=
  match p.action with
  | .create => p.target ≠ []
  | .rename => NamesEntry p.target ∧ t.IsFile p.target ∧
      (∃ s, p.destSafeRel = some s) ∧ ∃ d, p.destTarget = some d ∧ d ≠ [] ∧
        (NamesEntry d → ¬ t.IsFile d)
  | _ => NamesEntry p.target ∧ t.IsFile p.target

variable {t : Workspace} {n : String} {pid : Nat}

theorem IsTemp.head {n : String} (h : IsTemp pid n) : n.toList[0]? = some '.' := by
  obtain ⟨i, hi⟩ := h
  have happend : ∀ a x y z w : String, a.toList[0]? = some '.' →
      (a ++ x ++ y ++ z ++ w).toList[0]? = some '.' := fun a x y z w ha =>
    head_append (head_append (head_append (head_append ha)))
  rcases hi with hi | hi | hi
  · rw [hi]
    exact happend _ _ _ _ _ (by decide)
  · rw [hi]
    exact happend _ _ _ _ _ (by decide)
  · rw [hi]
    exact happend _ _ _ _ _ (by decide)

variable {x par : Path} {f : Nodes}

variable {q : Path}

theorem not_prefix_dropLast (h : q ≠ []) : ¬ q <+: q.dropLast := by
  intro hp
  have hl := hp.length_le
  have hpos := List.length_pos_iff.mpr h
  rw [List.length_dropLast] at hl
  omega

variable {op : Option WriteOp}

variable {p : PlannedWrite} {env : ApplyEnv} {i : Nat}

variable {u : Workspace}

end Relux
