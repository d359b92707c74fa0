import Relux.HashMap
import Relux.SafeApply

/-! What a run has changed in its workspace: the files before and after it, each walked up to a
cap, and the differences between the two walks. -/

namespace Relux

/-- An entry of a directory, with its own entries in the order in which they are read. A link or
a special file is neither. -/
inductive TreeEntry where
  | file (bytes : Bytes)
  | dir (entries : List (String × TreeEntry))
  | other

abbrev DirEntries := List (String × TreeEntry)

abbrev RunWorkspace := Option DirEntries

structure FileSig where
  size : Nat
  hash : Option UInt64
  isText : Bool
  deriving DecidableEq

structure WorkspaceManifest where
  files : HashMap String FileSig
  truncated : Bool

inductive ChangeKind
  | created
  | modified
  | deleted
  deriving DecidableEq, Repr

def ChangeKind.asStr : ChangeKind → String
  | .created => "created"
  | .modified => "modified"
  | .deleted => "deleted"

structure ArtifactChange where
  relPath : String
  kind : ChangeKind
  size : Nat
  hash : Option String
  baselineHash : Option String
  isText : Bool

namespace ArtifactScan

def artifactHashMaxBytes : Nat := 1024 * 1024

def artifactScanMaxFiles : Nat := 8000

def looksText (bytes : Bytes) : Bool := !(bytes.take 8192).any (fun b => b = 0)

variable (hash : Bytes → UInt64)

def fileSig (bytes : Bytes) : FileSig :=
  if bytes.length ≤ artifactHashMaxBytes then
    ⟨bytes.length, some (hash bytes), looksText bytes⟩
  else ⟨bytes.length, none, looksText (bytes.take 8192)⟩

/-- The path of a file in a manifest, with `/` for every separator. -/
def relText (path : Path) : String :=
  String.ofList ((joinFields ['/'] (path.map String.toList)).map
    (fun c => if c = '\\' then '/' else c))

abbrev Pending := Path × DirEntries

def scanEntry (dir : Path) (s : List Pending × WorkspaceManifest) (e : String × TreeEntry) :
    Except WorkspaceManifest (List Pending × WorkspaceManifest) :=
  match e.2 with
  | .other => .ok s
  | .dir entries =>
    if SafeApply.isExcludedDir e.1 then .ok s else .ok ((dir ++ [e.1], entries) :: s.1, s.2)
  | .file bytes =>
    if SafeApply.isExcludedFile e.1 then .ok s
    else if artifactScanMaxFiles ≤ s.2.files.len then .error { s.2 with truncated := true }
    else .ok (s.1,
      { s.2 with files := s.2.files.insert (relText (dir ++ [e.1])) (fileSig hash bytes) })

def scanEntries (dir : Path) :
    DirEntries → List Pending × WorkspaceManifest →
      Except WorkspaceManifest (List Pending × WorkspaceManifest)
  | [], s => .ok s
  | e :: entries, s =>
    match scanEntry hash dir s e with
    | .error m => .error m
    | .ok s => scanEntries dir entries s

mutual

def entryDirs : TreeEntry → Nat
  | .file _ => 0
  | .dir entries => 1 + dirsIn entries
  | .other => 0

def dirsIn : List (String × TreeEntry) → Nat
  | [] => 0
  | (_, entry) :: entries => entryDirs entry + dirsIn entries

end

def pendingDirs : List Pending → Nat
  | [] => 0
  | d :: stack => 1 + dirsIn d.2 + pendingDirs stack

variable {hash} {dir : Path}

theorem scanEntry_dirs {s s' : List Pending × WorkspaceManifest}
    {e : String × TreeEntry} (h : scanEntry hash dir s e = .ok s') :
    pendingDirs s'.1 ≤ entryDirs e.2 + pendingDirs s.1 := by
  obtain ⟨name, entry⟩ := e
  cases entry with
  | other =>
    simp only [scanEntry, Except.ok.injEq] at h
    rw [← h]
    omega
  | dir entries =>
    by_cases hexcluded : SafeApply.isExcludedDir name = true
    · simp only [scanEntry, if_pos hexcluded, Except.ok.injEq] at h
      rw [← h]
      omega
    · simp only [scanEntry, if_neg hexcluded, Except.ok.injEq] at h
      rw [← h]
      simp only [pendingDirs, entryDirs]
      omega
  | file bytes =>
    by_cases hexcluded : SafeApply.isExcludedFile name = true
    · simp only [scanEntry, if_pos hexcluded, Except.ok.injEq] at h
      rw [← h]
      omega
    · by_cases hfull : artifactScanMaxFiles ≤ s.2.files.len
      · simp only [scanEntry, if_neg hexcluded, if_pos hfull] at h
        cases h
      · simp only [scanEntry, if_neg hexcluded, if_neg hfull, Except.ok.injEq] at h
        rw [← h]
        simp only
        omega

theorem scanEntries_dirs {entries : DirEntries}
    {s s' : List Pending × WorkspaceManifest} (h : scanEntries hash dir entries s = .ok s') :
    pendingDirs s'.1 ≤ dirsIn entries + pendingDirs s.1 := by
  induction entries generalizing s with
  | nil =>
    simp only [scanEntries, Except.ok.injEq] at h
    rw [h]
    omega
  | cons e entries ih =>
    cases hfirst : scanEntry hash dir s e with
    | error m => simp [scanEntries, hfirst] at h
    | ok s₁ =>
      simp only [scanEntries, hfirst] at h
      have hhead := scanEntry_dirs hfirst
      have htail := ih h
      simp only [dirsIn]
      omega

theorem scanEntries_less {d : Pending} {stack : List Pending} {m : WorkspaceManifest}
    {s : List Pending × WorkspaceManifest} (h : scanEntries hash d.1 d.2 (stack, m) = .ok s) :
    pendingDirs s.1 < pendingDirs (d :: stack) := by
  have hle := scanEntries_dirs h
  simp only [pendingDirs] at hle ⊢
  omega

variable (hash)

def scanLoop (stack : List Pending) (m : WorkspaceManifest) : WorkspaceManifest :=
  match stack with
  | [] => m
  | d :: stack =>
    match _h : scanEntries hash d.1 d.2 (stack, m) with
    | .error m => m
    | .ok s => scanLoop s.1 s.2
termination_by pendingDirs stack
decreasing_by exact scanEntries_less _h

def scanWorkspaceManifest (root : RunWorkspace) : WorkspaceManifest :=
  match root with
  | none => ⟨HashMap.empty, false⟩
  | some entries => scanLoop hash [([], entries)] ⟨HashMap.empty, false⟩

def hex16 (h : UInt64) : String :=
  String.ofList ((List.range 16).reverse.map (fun i => Nat.digitChar (h.toNat >>> (4 * i) % 16)))

def seenChange (before : WorkspaceManifest) (e : String × FileSig) : Option ArtifactChange :=
  match before.files.get? e.1 with
  | none => some ⟨e.1, .created, e.2.size, e.2.hash.map hex16, none, e.2.isText⟩
  | some prev =>
    if prev ≠ e.2 then
      some ⟨e.1, .modified, e.2.size, e.2.hash.map hex16, prev.hash.map hex16, e.2.isText⟩
    else none

def lostChange (after : WorkspaceManifest) (e : String × FileSig) : Option ArtifactChange :=
  if (after.files.get? e.1).isSome then none
  else some ⟨e.1, .deleted, 0, none, e.2.hash.map hex16, e.2.isText⟩

def diffManifests (before after : WorkspaceManifest) : List ArtifactChange :=
  (after.files.entries.filterMap (seenChange before) ++
    before.files.entries.filterMap (lostChange after)).mergeSort
      (fun a b => decide (a.relPath ≤ b.relPath))

def maxRunArtifacts : Nat := 1000

def recordRunArtifact (rows : List RunArtifact) (workspace : String) (c : ArtifactChange) :
    Option (List RunArtifact) :=
  if maxRunArtifacts ≤ rows.length then none
  else some (rows ++ [⟨workspace, c.relPath, c.kind.asStr, c.hash, c.baselineHash⟩])

def recordChanges (workspace : String) : List RunArtifact → List ArtifactChange → List RunArtifact
  | rows, [] => rows
  | rows, c :: changes =>
    match recordRunArtifact rows workspace c with
    | none => rows
    | some rows => recordChanges workspace rows changes

def runArtifacts (workspace : String) (before after : RunWorkspace) : List RunArtifact :=
  recordChanges workspace []
    (diffManifests (scanWorkspaceManifest hash before) (scanWorkspaceManifest hash after))

end ArtifactScan

end Relux
