import Relux.ApplyChangeSet

/-! The safe apply of a run: what its artifacts would do to the project root is planned first,
and done when nothing speaks against any of them. -/

namespace Relux

inductive Leaf where
  | regular (bytes : Bytes)
  | symlink

abbrev ProjectRoot := FileTree String Leaf

/-- What stands at a path of a run workspace, with its length; of a link also what it leads to. -/
inductive SourceEntry where
  | file (bytes : Bytes)
  | symlink (len : Nat) (followed : Option Bytes)
  | other (len : Nat)

namespace SourceEntry

def len : SourceEntry → Nat
  | file bytes => bytes.length
  | symlink len _ => len
  | other len => len

def isFile : SourceEntry → Bool
  | file _ => true
  | symlink _ _ => false
  | other _ => false

def read : SourceEntry → Except FsError Bytes
  | file bytes => .ok bytes
  | symlink _ (some bytes) => .ok bytes
  | symlink _ none => .error .notFound
  | other _ => .error .isADirectory

end SourceEntry

structure RunArtifact where
  workspace : String
  relPath : String
  kind : String
  hash : Option String
  baselineHash : Option String
  deriving DecidableEq

/-- What the apply takes from its surroundings: the entries of the run workspaces, the hash of a
file's bytes as it is written down, the text of a failed call and the test of the configured project
root, which gives its canonical name. -/
structure ApplyHost where
  source : String → String → Option SourceEntry
  hashHex : Bytes → String
  ioText : FsError → String
  validateProjectRoot : Except String String

inductive ApplyAction
  | create
  | overwrite
  | delete
  | noop
  | refuse
  deriving DecidableEq, Repr

structure ApplyPlanItem where
  relPath : String
  kind : String
  action : ApplyAction
  canApply : Bool
  conflict : Bool
  reason : String
  sourceSize : Nat
  targetExists : Bool

structure ApplyPlan where
  projectRoot : String
  items : List ApplyPlanItem
  applicable : Bool
  changes : Nat
  conflicts : Nat
  blocked : Nat
  note : String

inductive ApplyStatus
  | applied
  | conflicted
  | failed
  deriving DecidableEq, Repr

structure ApplyOutcome where
  plan : ApplyPlan
  status : ApplyStatus
  appliedFiles : Nat
  failedFiles : Nat
  errors : List String

namespace SafeApply

def isSeparator (c : Char) : Bool := c == '/' || c == '\\'

def components (relPath : String) : Path :=
  (splitFields isSeparator relPath.toList).map String.ofList

def hasDrive (relPath : String) : Bool := (asBytes relPath)[1]? = some 58

def applyRelPathIsSafe (relPath : String) : Bool :=
  if relPath.isEmpty || relPath.toList.head?.any isSeparator then false
  else if hasDrive relPath then false
  else (components relPath).all (fun c => !c.isEmpty && c != "." && c != "..")

def isExcludedFile (name : String) : Bool :=
  let n := toAsciiLowercase name.toList
  n = ".env".toList || ".env.".toList.isPrefixOf n ||
    [".key", ".pem", ".p12", ".pfx", ".pub", ".aic", ".keystore"].any
      (fun suffix => suffix.toList.isSuffixOf n) ||
    ["id_rsa", "id_ed25519", "id_ecdsa"].any (fun start => start.toList.isPrefixOf n) ||
    n = "bridge-token".toList || n = "dashboard-admin.json".toList ||
    ["secret", "credential", "password"].any (fun part => containsChars part.toList n)

def excludedDirNames : List String :=
  [".git", "target", "target-audit", "node_modules", "dev-data", "workspaces", "worktrees",
    "dev-keys", "references", ".venv", "venv", "__pycache__", ".cargo", "dist"]

def isExcludedDir (name : String) : Bool :=
  excludedDirNames.any (fun d => toAsciiLowercase d.toList = toAsciiLowercase name.toList)

def pathExcluded : Path → Bool
  | [] => false
  | [name] => isExcludedFile name
  | dir :: rest => isExcludedDir dir || pathExcluded rest

def applyPathExcluded (relPath : String) : Bool := pathExcluded (components relPath)

/-- The first existing component of a path below `dir` that is a link. -/
def crossedSymlink (root : ProjectRoot) (dir : Path) : List String → Option String
  | [] => none
  | comp :: rest =>
    match root.node (dir ++ [comp]) with
    | none => none
    | some (.file .symlink) => some comp
    | some _ => crossedSymlink root (dir ++ [comp]) rest

/-- `resolve_apply_target`. A path of plain components cannot leave the root. -/
def resolveTarget (root : ProjectRoot) (relPath : String) : Except String Path :=
  match crossedSymlink root [] (components relPath) with
  | some comp => .error s!"path crosses a symlink: {comp}"
  | none => .ok (components relPath)

variable (host : ApplyHost)

def applyHashMaxBytes : Nat := 1024 * 1024

def hashFileHex (root : ProjectRoot) (target : Path) : Option String :=
  match root.node target with
  | some (.file (.regular bytes)) =>
    if applyHashMaxBytes < bytes.length then none else some (host.hashHex bytes)
  | _ => none

def planItem (art : RunArtifact) (action : ApplyAction) (canApply conflict : Bool)
    (reason : String) (sourceSize : Nat) (targetExists : Bool) : ApplyPlanItem :=
  ⟨art.relPath, art.kind, action, canApply, conflict, reason, sourceSize, targetExists⟩

def planCreated (art : RunArtifact) (sourceSize : Nat) (sourceIsFile targetExists : Bool)
    (targetHash : Option String) : ApplyPlanItem :=
  if !sourceIsFile then
    planItem art .refuse false false "source file missing in the run workspace" sourceSize
      targetExists
  else if !targetExists then
    planItem art .create true false "new file — will be created" sourceSize false
  else if art.hash.isSome && art.hash = targetHash then
    planItem art .noop true false "already present with identical content" sourceSize true
  else
    planItem art .refuse false true "target already exists with different content" sourceSize true

def planModified (art : RunArtifact) (sourceSize : Nat) (sourceIsFile targetExists : Bool)
    (targetHash : Option String) : ApplyPlanItem :=
  if !sourceIsFile then
    planItem art .refuse false false "source file missing in the run workspace" sourceSize
      targetExists
  else
    match art.hash with
    | none =>
      planItem art .refuse false false "source too large to verify safely" sourceSize targetExists
    | some srcHash =>
      if !targetExists then
        planItem art .refuse false true "target missing — cannot safely modify" sourceSize false
      else
        match targetHash with
        | none =>
          planItem art .refuse false true "target unreadable / too large to verify" sourceSize true
        | some tgtHash =>
          if tgtHash = srcHash then
            planItem art .noop true false "already updated (identical content)" sourceSize true
          else if art.baselineHash = some tgtHash then
            planItem art .overwrite true false
              "target matches the run baseline — safe to overwrite" sourceSize true
          else
            planItem art .refuse false true
              "target changed since the run started (or baseline unverifiable)" sourceSize true

def planDeleted (art : RunArtifact) (targetExists : Bool) (targetHash : Option String) :
    ApplyPlanItem :=
  if !targetExists then planItem art .noop true false "already absent" 0 false
  else
    match targetHash with
    | none =>
      planItem art .refuse false true "target unreadable / too large to verify before delete" 0
        true
    | some tgtHash =>
      if art.baselineHash = some tgtHash then
        planItem art .delete true false "target matches the run baseline — safe to delete" 0 true
      else
        planItem art .refuse false true
          "target differs from the run baseline — refusing to delete" 0 true

def planOne (root : ProjectRoot) (art : RunArtifact) : ApplyPlanItem :=
  if !applyRelPathIsSafe art.relPath then
    planItem art .refuse false false "unsafe path (absolute / traversal / drive / UNC)" 0 false
  else if applyPathExcluded art.relPath then
    planItem art .refuse false false "excluded path (vcs/build/secret) — never applied" 0 false
  else
    match resolveTarget root art.relPath with
    | .error e => planItem art .refuse false false e 0 false
    | .ok target =>
      let targetExists := (root.node target).isSome
      let targetHash := hashFileHex host root target
      let source := host.source art.workspace art.relPath
      let sourceSize := (source.map SourceEntry.len).getD 0
      let sourceIsFile := source.any SourceEntry.isFile
      if art.kind = "created" then
        planCreated art sourceSize sourceIsFile targetExists targetHash
      else if art.kind = "modified" then
        planModified art sourceSize sourceIsFile targetExists targetHash
      else if art.kind = "deleted" then planDeleted art targetExists targetHash
      else
        planItem art .refuse false false s!"unknown change kind: {art.kind}" sourceSize targetExists

def isChange (item : ApplyPlanItem) : Bool :=
  item.action = .create || item.action = .overwrite || item.action = .delete

def planItems (root : ProjectRoot) (artifacts : List RunArtifact) : List ApplyPlanItem :=
  (artifacts.map (planOne host root)).mergeSort (fun a b => decide (a.relPath ≤ b.relPath))

def planNote (items : List ApplyPlanItem) (applicable : Bool) (changes conflicts blocked : Nat) :
    String :=
  if items.isEmpty then "no artifacts — nothing to apply"
  else if applicable then s!"{changes} change(s) ready to apply"
  else s!"refusing apply: {conflicts} conflict(s), {blocked} blocked"

def buildApplyPlan (root : ProjectRoot) (artifacts : List RunArtifact) : Except String ApplyPlan :=
  match host.validateProjectRoot with
  | .error e => .error e
  | .ok name =>
    let items := planItems host root artifacts
    let applicable := items.all ApplyPlanItem.canApply
    let changes := (items.filter isChange).length
    let conflicts := (items.filter ApplyPlanItem.conflict).length
    let blocked := (items.filter (fun i => !i.canApply && !i.conflict)).length
    .ok ⟨name, items, applicable, changes, conflicts, blocked,
      planNote items applicable changes conflicts blocked⟩

/-- `create_dir_all`, from the root down. A file on the way stands before all that is missing,
so nothing is made when it fails. -/
def createDirAll (root : ProjectRoot) (dir : Path) : List String → Except FsError ProjectRoot
  | [] => .ok root
  | comp :: rest =>
    match root.node (dir ++ [comp]) with
    | some .dir => createDirAll root (dir ++ [comp]) rest
    | some (.file _) => .error .alreadyExists
    | none =>
      match root.createDir (dir ++ [comp]) with
      | .error e => .error e
      | .ok root => createDirAll root (dir ++ [comp]) rest

/-- The tree, how many items have been applied and how many not, and the texts of the latter. -/
structure Progress where
  root : ProjectRoot
  applied : Nat
  failed : Nat
  errors : List String

def Progress.fail (s : Progress) (text : String) : Progress :=
  { s with failed := s.failed + 1, errors := s.errors ++ [text] }

def copyFile (root : ProjectRoot) (source : Option SourceEntry) (target : Path) :
    Except FsError ProjectRoot :=
  match source with
  | none => .error .notFound
  | some entry =>
    match entry.read with
    | .error e => .error e
    | .ok bytes => root.write target (.regular bytes)

def applyWrite (artifacts : List RunArtifact) (s : Progress) (item : ApplyPlanItem) : Progress :=
  match artifacts.find? (fun a => a.relPath = item.relPath) with
  | none => s
  | some art =>
    match resolveTarget s.root item.relPath with
    | .error e => s.fail s!"{item.relPath}: {e}"
    | .ok target =>
      match createDirAll s.root [] target.dropLast with
      | .error e => s.fail s!"{item.relPath}: mkdir: {host.ioText e}"
      | .ok root =>
        match copyFile root (host.source art.workspace item.relPath) target with
        | .error e => { s with root := root }.fail s!"{item.relPath}: copy: {host.ioText e}"
        | .ok root => { s with root := root, applied := s.applied + 1 }

def applyDelete (s : Progress) (item : ApplyPlanItem) : Progress :=
  match resolveTarget s.root item.relPath with
  | .error e => s.fail s!"{item.relPath}: {e}"
  | .ok target =>
    match s.root.removeFile target with
    | .error e => s.fail s!"{item.relPath}: delete: {host.ioText e}"
    | .ok root => { s with root := root, applied := s.applied + 1 }

def applyItem (artifacts : List RunArtifact) (s : Progress) (item : ApplyPlanItem) : Progress :=
  match item.action with
  | .create => applyWrite host artifacts s item
  | .overwrite => applyWrite host artifacts s item
  | .delete => applyDelete host s item
  | .noop => s
  | .refuse => s

def applyRun (root : ProjectRoot) (artifacts : List RunArtifact) :
    Except String ApplyOutcome × ProjectRoot :=
  match buildApplyPlan host root artifacts with
  | .error e => (.error e, root)
  | .ok plan =>
    if !plan.applicable then (.ok ⟨plan, .conflicted, 0, 0, []⟩, root)
    else
      let s := plan.items.foldl (applyItem host artifacts) ⟨root, 0, 0, []⟩
      (.ok ⟨plan, if 0 < s.failed then .failed else .applied, s.applied, s.failed, s.errors⟩,
        s.root)

end SafeApply

end Relux
