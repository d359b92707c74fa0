import Mathlib.Logic.Function.Basic
import Mathlib.Data.List.Infix

/-! File trees and the handful of file system calls a transactional writer uses.
A tree carries the fact that every node lies in a directory, so no call can
produce a file below a file. -/

namespace Relux

inductive Node (β : Type) where
  | dir
  | file (bytes : β)

inductive FsError where
  | notFound
  | alreadyExists
  | isADirectory
  | injected
  deriving DecidableEq

structure FileTree (ν β : Type) where
  node : List ν → Option (Node β)
  root_dir : node [] = some .dir
  parent_dir : ∀ {p n}, node (p ++ [n]) ≠ none → node p = some .dir

namespace FileTree

variable {ν β : Type} {t u : FileTree ν β}

def IsDir (t : FileTree ν β) (p : List ν) : Prop := t.node p = some .dir

def IsFile (t : FileTree ν β) (p : List ν) : Prop := ∃ b, t.node p = some (.file b)

instance (t : FileTree ν β) (p : List ν) : Decidable (t.IsDir p) :=
  match h : t.node p with
  | some .dir => .isTrue h
  | some (.file _) => .isFalse (fun hd => by simp [IsDir, h] at hd)
  | none => .isFalse (fun hd => by simp [IsDir, h] at hd)

/-- A name can be made at `p`: it is not the root and its directory exists. -/
def HasParent (t : FileTree ν β) (p : List ν) : Prop := p ≠ [] ∧ t.IsDir p.dropLast

instance (t : FileTree ν β) : (p : List ν) → Decidable (t.HasParent p)
  | [] => .isFalse (fun h => h.1 rfl)
  | n :: p => decidable_of_iff (t.IsDir (n :: p).dropLast)
      ⟨fun h => ⟨List.cons_ne_nil n p, h⟩, And.right⟩

variable {p : List ν}

theorem ne_nil_of_not_dir (h : ¬ t.IsDir p) : p ≠ [] := by
  rintro rfl
  exact h t.root_dir

variable {q : List ν}

theorem isDir_of_prefix (hpq : p <+: q) (hne : p ≠ q) (h : t.node q ≠ none) : t.IsDir p := by
  obtain ⟨s, rfl⟩ := hpq
  induction s using List.reverseRecOn with
  | nil => simp at hne
  | append_singleton s n ih =>
    have hd : t.node (p ++ s) = some .dir := t.parent_dir (n := n) (by simpa using h)
    rcases s.eq_nil_or_concat with rfl | ⟨s, m, rfl⟩
    · simpa [IsDir] using hd
    · exact ih (by simp) (by rw [hd]; simp)

theorem isDir_prefix (hpq : p <+: q) (h : t.IsDir q) : t.IsDir p := by
  by_cases he : p = q
  · rwa [he]
  · exact isDir_of_prefix hpq he (by rw [h]; simp)

/-- `u` has every directory of `t`. -/
def KeepsDirs (t u : FileTree ν β) : Prop := ∀ p, t.IsDir p → u.IsDir p

@[refl] theorem KeepsDirs.refl (t : FileTree ν β) : t.KeepsDirs t := fun _ h => h

theorem KeepsDirs.trans {v : FileTree ν β} (h : t.KeepsDirs u) (h' : u.KeepsDirs v) :
    t.KeepsDirs v := fun p hp => h' p (h p hp)

variable [DecidableEq ν]

def put (t : FileTree ν β) (p : List ν) (x : Node β) (hp : t.HasParent p)
    (hd : ¬ t.IsDir p) : FileTree ν β where
  node := Function.update t.node p (some x)
  root_dir := by rw [Function.update_of_ne hp.1.symm]; exact t.root_dir
  parent_dir := by
    intro q n h
    by_cases hq : q ++ [n] = p
    · have hdir : t.node q = some .dir := by
        have h2 := hp.2
        rwa [← hq, List.dropLast_concat] at h2
      rw [Function.update_of_ne (by rw [← hq]; simp)]
      exact hdir
    · rw [Function.update_of_ne hq] at h
      have hdir := t.parent_dir h
      have hne : q ≠ p := by
        rintro rfl
        exact hd hdir
      rwa [Function.update_of_ne hne]

def erase (t : FileTree ν β) (p : List ν) (hd : ¬ t.IsDir p) : FileTree ν β where
  node := Function.update t.node p none
  root_dir := by rw [Function.update_of_ne (ne_nil_of_not_dir hd).symm]; exact t.root_dir
  parent_dir := by
    intro q n h
    by_cases hq : q ++ [n] = p
    · rw [hq, Function.update_self] at h
      exact absurd rfl h
    · rw [Function.update_of_ne hq] at h
      have hdir := t.parent_dir h
      have hne : q ≠ p := by
        rintro rfl
        exact hd hdir
      rwa [Function.update_of_ne hne]

/-- `mkdir(2)`. -/
def createDir (t : FileTree ν β) (p : List ν) : Except FsError (FileTree ν β) :=
  if hd : t.IsDir p then .error .alreadyExists
  else match t.node p with
    | some _ => .error .alreadyExists
    | none => if hp : t.HasParent p then .ok (t.put p .dir hp hd) else .error .notFound

def write (t : FileTree ν β) (p : List ν) (bytes : β) : Except FsError (FileTree ν β) :=
  if hd : t.IsDir p then .error .isADirectory
  else if hp : t.HasParent p then .ok (t.put p (.file bytes) hp hd) else .error .notFound

/-- `unlink(2)`. -/
def removeFile (t : FileTree ν β) (p : List ν) : Except FsError (FileTree ν β) :=
  if hd : t.IsDir p then .error .isADirectory
  else match t.node p with
    | none => .error .notFound
    | some _ => .ok (t.erase p hd)

theorem erase_hasParent (hd : ¬ t.IsDir p) (hq : t.HasParent q) : (t.erase p hd).HasParent q := by
  refine ⟨hq.1, ?_⟩
  have hne : q.dropLast ≠ p := by
    rintro h
    exact hd (h ▸ hq.2)
  simpa [IsDir, erase, Function.update_of_ne hne] using hq.2

theorem erase_not_dir (hd : ¬ t.IsDir p) (hq : ¬ t.IsDir q) : ¬ (t.erase p hd).IsDir q := by
  by_cases he : q = p
  · simp [IsDir, erase, he]
  · simpa [IsDir, erase, Function.update_of_ne he] using hq

/-- `rename(2)` of a regular file; an existing file at the new name is replaced. -/
def rename (t : FileTree ν β) (p q : List ν) : Except FsError (FileTree ν β) :=
  match t.node p with
  | none => .error .notFound
  | some .dir => .error .isADirectory
  | some (.file b) =>
    if hp : t.IsDir p then .error .isADirectory
    else if hd : t.IsDir q then .error .isADirectory
    else if hq : t.HasParent q then
      .ok ((t.erase p hp).put q (.file b) (erase_hasParent hp hq) (erase_not_dir hp hd))
    else .error .notFound

theorem write_ok (b : β) (hp : t.HasParent p) (hd : ¬ t.IsDir p) :
    ∃ u, t.write p b = .ok u ∧ u.node = Function.update t.node p (some (.file b)) := by
  exact ⟨t.put p (.file b) hp hd, by simp [write, hd, hp], rfl⟩

theorem createDir_ok (hp : t.HasParent p) (hn : t.node p = none) :
    ∃ u, t.createDir p = .ok u ∧ u.node = Function.update t.node p (some .dir) := by
  have hd : ¬ t.IsDir p := by simp [IsDir, hn]
  exact ⟨t.put p .dir hp hd, by simp [createDir, hd, hp, hn], rfl⟩

theorem removeFile_ok (h : t.IsFile p) :
    ∃ u, t.removeFile p = .ok u ∧ u.node = Function.update t.node p none := by
  obtain ⟨b, hb⟩ := h
  have hd : ¬ t.IsDir p := by simp [IsDir, hb]
  exact ⟨t.erase p hd, by simp [removeFile, hd, hb], rfl⟩

variable {b : β}

theorem write_eq_ok (h : t.write p b = .ok u) :
    t.HasParent p ∧ ¬ t.IsDir p ∧ u.node = Function.update t.node p (some (.file b)) := by
  unfold write at h
  split at h
  · cases h
  · rename_i hd
    split at h
    · rename_i hp
      cases h
      exact ⟨hp, hd, rfl⟩
    · cases h

theorem removeFile_eq_ok (h : t.removeFile p = .ok u) :
    t.IsFile p ∧ u.node = Function.update t.node p none := by
  unfold removeFile at h
  split at h
  · cases h
  · rename_i hd
    split at h
    · cases h
    · rename_i x hx
      cases h
      cases x with
      | dir => exact absurd hx hd
      | file b => exact ⟨⟨b, hx⟩, rfl⟩

end FileTree

end Relux
