import Relux.ChangePaths
import Relux.FileTree

/-! The transactional apply of a change set: validation of every change against the
workspace, then the writes, with a rollback of the written prefix when one fails. -/

namespace Relux

abbrev Path := List String
abbrev Bytes := List UInt8
abbrev Workspace := FileTree String Bytes

def asBytes (s : String) : Bytes := s.toList.flatMap String.utf8EncodeChar

/-- What the writer takes from its process: the process id in its temp names, the
digest of a file's bytes and the text of a failed call. -/
structure ApplyEnv where
  pid : Nat
  sha256Hex : Bytes → String
  ioText : FsError → String

structure PlannedChange where
  action : ProposedChangeAction
  path : String
  dest : Option String
  baseline : Option String
  content : String

inductive RollbackPlan where
  | restoreOriginal (original : Bytes)
  | deleteCreated
  | restoreRename
  | restoreDeleted (original : Bytes)

structure PlannedWrite where
  action : ProposedChangeAction
  safeRel : String
  target : Path
  destSafeRel : Option String
  destTarget : Option Path
  content : String
  reportRel : String
  reportBytes : Nat
  rollback : RollbackPlan

structure ApplySetFailure where
  conflict : Bool
  reason : String

structure TargetRefusal where
  conflict : Bool
  reason : String

def TargetRefusal.lift (r : TargetRefusal) : ApplySetFailure := ⟨r.conflict, r.reason⟩

def refuse (reason : String) : ApplySetFailure := ⟨false, reason⟩
def conflict (reason : String) : ApplySetFailure := ⟨true, reason⟩
def refuseTarget (reason : String) : TargetRefusal := ⟨false, reason⟩
def conflictTarget (reason : String) : TargetRefusal := ⟨true, reason⟩

def applyTargetMaxBytes : Nat := 4 * 1024 * 1024

def shortHash (h : String) : String := String.ofList (h.toList.take 8)

def pathOf (safeRel : String) : Path := (splitFields (· == '/') safeRel.toList).map String.ofList

/-- The last component can name a file. The length cap of the path gate can cut a
path after a slash or inside a dotted name, which leaves one that cannot. -/
def NamesEntry (p : Path) : Prop :=
  p.getLast? ≠ some "" ∧ p.getLast? ≠ some "." ∧ p.getLast? ≠ some ".."

instance (p : Path) : Decidable (NamesEntry p) := inferInstanceAs (Decidable (_ ∧ _ ∧ _))

/-- Paths compare by component, without empty and `.` ones. -/
def pathKey (p : Path) : Path := p.filter (fun c => c ≠ "" ∧ c ≠ ".")

def symlinkMetadata (t : Workspace) (p : Path) : Option (Node Bytes) :=
  if NamesEntry p then t.node p
  else if t.IsDir p.dropLast then some .dir else none

def resolveApplyTarget (rel : String) : Except TargetRefusal (String × Path) :=
  match sanitizeChangePath rel with
  | none => .error (refuseTarget s!"unsafe or excluded target path: {rel}")
  | some safeRel => .ok (safeRel, pathOf safeRel)

def verifyReplaceBaseline (env : ApplyEnv) (t : Workspace) (target : Path)
    (safeRel baseline : String) : Except TargetRefusal Bytes :=
  match symlinkMetadata t target with
  | none => .error (conflictTarget
      s!"target {safeRel} does not exist; a replace applies over an existing baseline file (use a create action to add a new file)")
  | some .dir => .error (refuseTarget s!"target {safeRel} is not a regular file")
  | some (.file current) =>
    if current.length > applyTargetMaxBytes then
      .error (refuseTarget s!"target {safeRel} is larger than the {applyTargetMaxBytes}-byte apply cap")
    else
      let currentHash := env.sha256Hex current
      let expected := shortHash baseline
      let found := shortHash currentHash
      if currentHash ≠ baseline then
        .error (conflictTarget
          s!"baseline mismatch for {safeRel}: the file changed since the proposal (expected {expected}, found {found})")
      else .ok current

structure Seen where
  rel : List String
  target : List Path

def Seen.insert (seen : Seen) (safeRel : String) (target : Path) : Except ApplySetFailure Seen :=
  if safeRel ∈ seen.rel ∨ pathKey target ∈ seen.target then
    .error (refuse s!"conflicting target path in the change set: {safeRel}")
  else .ok ⟨safeRel :: seen.rel, pathKey target :: seen.target⟩

def baselineOf (change : PlannedChange) (verb safeRel : String) : Except ApplySetFailure String :=
  match change.baseline with
  | none => .error (refuse s!"internal: {verb} {safeRel} reached the set writer without a baseline")
  | some baseline => .ok baseline

def verified (env : ApplyEnv) (t : Workspace) (target : Path) (change : PlannedChange)
    (verb safeRel : String) : Except ApplySetFailure Bytes :=
  match baselineOf change verb safeRel with
  | .error e => .error e
  | .ok baseline => (verifyReplaceBaseline env t target safeRel baseline).mapError TargetRefusal.lift

/-- A file system call of phase 2 that can be made to fail; a failed staging write
may leave a part of the temp file behind. -/
inductive WriteOp where
  | mkdir (dir : Path)
  | reserve
  | stage (torn : Option Bytes)
  | commit
  deriving DecidableEq

def applyTmp (pid i : Nat) : String :=
  ".relux-apply-" ++ toString pid ++ "-" ++ toString i ++ ".tmp"
def createTmp (pid i : Nat) : String :=
  ".relux-create-" ++ toString pid ++ "-" ++ toString i ++ ".tmp"
def rollbackTmp (pid i : Nat) : String :=
  ".relux-rollback-" ++ toString pid ++ "-" ++ toString i ++ ".tmp"

end Relux
