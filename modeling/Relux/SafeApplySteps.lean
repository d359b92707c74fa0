import Relux.SafeApply

/-! What planning an artifact and applying an item can come to. -/

namespace Relux

namespace SafeApply

variable {host : ApplyHost} {root : ProjectRoot} {comps : List String} {dir : Path}

theorem crossedSymlink_none_iff :
    crossedSymlink root dir comps = none ↔
      ∀ q, q ≠ [] → q <+: comps → root.node (dir ++ q) ≠ some (.file .symlink) := by
  induction comps generalizing dir with
  | nil =>
    simp only [crossedSymlink, true_iff]
    intro q hne hq
    exact absurd (List.prefix_nil.mp hq) hne
  | cons comp rest ih =>
    have hfirst : [comp] <+: comp :: rest := ⟨rest, rfl⟩
    have hsplit : ∀ q, q ≠ [] → q <+: comp :: rest → q = [comp] ∨
        ∃ q', q' ≠ [] ∧ q' <+: rest ∧ q = comp :: q' := by
      intro q hne hq
      cases q with
      | nil => exact absurd rfl hne
      | cons c q' =>
        obtain ⟨rfl, hq'⟩ := List.cons_prefix_cons.mp hq
        by_cases hnil : q' = []
        · exact Or.inl (by rw [hnil])
        · exact Or.inr ⟨q', hnil, hq', rfl⟩
    have hassoc : ∀ q', dir ++ comp :: q' = (dir ++ [comp]) ++ q' := by simp
    cases hnode : root.node (dir ++ [comp]) with
    | none =>
      simp only [crossedSymlink, hnode, true_iff]
      intro q hne hq hlink
      have habove : dir ++ [comp] <+: dir ++ q := by
        rcases hsplit q hne hq with rfl | ⟨q', _, _, rfl⟩
        · exact List.prefix_refl _
        · exact ⟨q', (hassoc q').symm⟩
      by_cases hsame : dir ++ [comp] = dir ++ q
      · rw [← hsame, hnode] at hlink
        cases hlink
      · have hdir := FileTree.isDir_of_prefix habove hsame (t := root) (by rw [hlink]; simp)
        rw [FileTree.IsDir, hnode] at hdir
        cases hdir
    | some x =>
      have hrest : x ≠ .file .symlink → (crossedSymlink root dir (comp :: rest) = none ↔
          crossedSymlink root (dir ++ [comp]) rest = none) := by
        intro hx
        cases x with
        | dir => simp only [crossedSymlink, hnode]
        | file leaf =>
          cases leaf with
          | regular bytes => simp only [crossedSymlink, hnode]
          | symlink => exact absurd rfl hx
      by_cases hlink : x = .file .symlink
      · rw [hlink] at hnode
        simp only [crossedSymlink, hnode, reduceCtorEq, false_iff]
        intro hall
        exact hall [comp] (by simp) hfirst hnode
      · rw [hrest hlink, ih]
        constructor
        · intro hall q hne hq
          rcases hsplit q hne hq with rfl | ⟨q', hne', hq', rfl⟩
          · rw [hnode]
            exact fun heq => hlink (Option.some.inj heq)
          · rw [hassoc]
            exact hall q' hne' hq'
        · intro hall q' hne' hq'
          rw [← hassoc]
          exact hall (comp :: q') (by simp) (List.cons_prefix_cons.mpr ⟨rfl, hq'⟩)

def grown (root : ProjectRoot) (par q : Path) : Option (Node Leaf) :=
  if q <+: par ∧ root.node q = none then some .dir else root.node q

theorem grown_of_isDir {par : Path} (h : root.IsDir par) (q : Path) :
    grown root par q = root.node q := by
  by_cases hq : q <+: par
  · have hdir : root.node q = some .dir := FileTree.isDir_prefix hq h
    simp [grown, hdir]
  · simp [grown, hq]

variable {root' : ProjectRoot}

theorem createDirAll_eq_ok (hdir : root.IsDir dir) (h : createDirAll root dir comps = .ok root') :
    root'.IsDir (dir ++ comps) ∧ ∀ q, root'.node q = grown root (dir ++ comps) q := by
  induction comps generalizing root dir with
  | nil =>
    simp only [createDirAll, Except.ok.injEq] at h
    rw [List.append_nil, ← h]
    exact ⟨hdir, fun q => (grown_of_isDir hdir q).symm⟩
  | cons comp rest ih =>
    have hassoc := List.append_cons dir comp rest
    cases hnode : root.node (dir ++ [comp]) with
    | some x =>
      cases x with
      | file leaf => simp [createDirAll, hnode] at h
      | dir =>
        simp only [createDirAll, hnode] at h
        rw [hassoc]
        exact ih hnode h
    | none =>
      have hparent : root.HasParent (dir ++ [comp]) := ⟨by simp, by simpa using hdir⟩
      obtain ⟨mid, hmid, hmidNode⟩ := FileTree.createDir_ok hparent hnode
      simp only [createDirAll, hnode, hmid] at h
      have hmidDir : mid.IsDir (dir ++ [comp]) := by simp [FileTree.IsDir, hmidNode]
      obtain ⟨hafter, hgrown⟩ := ih hmidDir h
      rw [hassoc]
      refine ⟨hafter, ?_⟩
      intro q
      rw [hgrown q]
      by_cases hq : q = dir ++ [comp]
      · have hinit : dir ++ [comp] <+: (dir ++ [comp]) ++ rest := List.prefix_append _ _
        simp [grown, hq, hmidNode, hnode]
      · have hsame : mid.node q = root.node q := by rw [hmidNode, Function.update_of_ne hq]
        simp [grown, hsame]

theorem createDirAll_ok (hdir : root.IsDir dir)
    (hfile : ∀ q, q <+: dir ++ comps → ∀ leaf, root.node q ≠ some (.file leaf)) :
    ∃ root', createDirAll root dir comps = .ok root' := by
  induction comps generalizing root dir with
  | nil => exact ⟨root, rfl⟩
  | cons comp rest ih =>
    have hassoc := List.append_cons dir comp rest
    have hinit : dir ++ [comp] <+: dir ++ comp :: rest := ⟨rest, by simp⟩
    cases hnode : root.node (dir ++ [comp]) with
    | some x =>
      cases x with
      | file leaf => exact absurd hnode (hfile _ hinit leaf)
      | dir =>
        simp only [createDirAll, hnode]
        exact ih hnode (fun q hq => hfile q (hassoc ▸ hq))
    | none =>
      have hparent : root.HasParent (dir ++ [comp]) := ⟨by simp, by simpa using hdir⟩
      obtain ⟨mid, hmid, hmidNode⟩ := FileTree.createDir_ok hparent hnode
      simp only [createDirAll, hnode, hmid]
      have hmidDir : mid.IsDir (dir ++ [comp]) := by simp [FileTree.IsDir, hmidNode]
      apply ih hmidDir
      intro q hq leaf
      by_cases hsame : q = dir ++ [comp]
      · rw [hsame, hmidNode, Function.update_self]
        simp
      · rw [hmidNode, Function.update_of_ne hsame]
        exact hfile q (hassoc ▸ hq) leaf

theorem createDirAll_no_file (hdir : root.IsDir dir)
    (h : createDirAll root dir comps = .ok root') {q : Path} (hq : q <+: dir ++ comps)
    (leaf : Leaf) : root.node q ≠ some (.file leaf) := by
  obtain ⟨hafter, hgrown⟩ := createDirAll_eq_ok hdir h
  intro hfile
  have hbefore : root'.node q = some .dir := FileTree.isDir_prefix hq hafter
  rw [hgrown q, grown, hfile] at hbefore
  simp at hbefore

variable {artifacts : List RunArtifact} {s : Progress} {item : ApplyPlanItem}

structure StepFailed (s s' : Progress) : Prop where
  failed : s'.failed = s.failed + 1
  keeps : ∀ q, s.root.node q ≠ none → s'.root.node q = s.root.node q
  adds : ∀ q, s.root.node q = none → s'.root.node q = none ∨ s'.root.node q = some .dir

theorem StepFailed.of_fail (s : Progress) (text : String) : StepFailed s (s.fail text) :=
  ⟨rfl, fun _ _ => rfl, fun _ hq => Or.inl hq⟩

structure Written (host : ApplyHost) (artifacts : List RunArtifact) (s : Progress)
    (item : ApplyPlanItem) (s' : Progress) (bytes : Bytes) : Prop where
  failed : s'.failed = s.failed
  read : ∃ art entry, artifacts.find? (fun a => a.relPath = item.relPath) = some art ∧
    host.source art.workspace item.relPath = some entry ∧ entry.read = .ok bytes
  clear : ∀ q, q <+: (components item.relPath).dropLast → ∀ leaf, s.root.node q ≠ some (.file leaf)
  node : ∀ q, s'.root.node q =
    if q = components item.relPath then some (.file (.regular bytes))
    else grown s.root (components item.relPath).dropLast q

variable {target : Path}

theorem resolveTarget_ok {relPath : String} (h : resolveTarget root relPath = .ok target) :
    target = components relPath ∧ crossedSymlink root [] (components relPath) = none := by
  cases hcross : crossedSymlink root [] (components relPath) with
  | some comp => simp [resolveTarget, hcross] at h
  | none =>
    simp only [resolveTarget, hcross, Except.ok.injEq] at h
    exact ⟨h.symm, rfl⟩

theorem applyWrite_cases (host : ApplyHost) (artifacts : List RunArtifact) (s : Progress)
    (item : ApplyPlanItem) :
    (artifacts.find? (fun a => a.relPath = item.relPath) = none ∧
        applyWrite host artifacts s item = s) ∨
      StepFailed s (applyWrite host artifacts s item) ∨
      ∃ bytes, Written host artifacts s item (applyWrite host artifacts s item) bytes := by
  cases hfind : artifacts.find? (fun a => a.relPath = item.relPath) with
  | none => exact Or.inl ⟨rfl, by simp only [applyWrite, hfind]⟩
  | some art =>
    right
    cases htarget : resolveTarget s.root item.relPath with
    | error e =>
      left
      simp only [applyWrite, hfind, htarget]
      exact .of_fail s _
    | ok target =>
      obtain ⟨rfl, _⟩ := resolveTarget_ok htarget
      have hdir : s.root.IsDir [] := s.root.root_dir
      cases hmkdir : createDirAll s.root [] (components item.relPath).dropLast with
      | error e =>
        left
        simp only [applyWrite, hfind, htarget, hmkdir]
        exact .of_fail s _
      | ok root =>
        obtain ⟨_, hgrown⟩ := createDirAll_eq_ok hdir hmkdir
        rw [List.nil_append] at hgrown
        cases hcopy : copyFile root (host.source art.workspace item.relPath)
            (components item.relPath) with
        | error e =>
          left
          simp only [applyWrite, hfind, htarget, hmkdir, hcopy]
          refine ⟨rfl, ?_, ?_⟩
          · intro q hq
            show root.node q = s.root.node q
            rw [hgrown q, grown, if_neg (fun hand => hq hand.2)]
          · intro q hq
            show root.node q = none ∨ root.node q = some .dir
            rw [hgrown q, grown, hq]
            by_cases hinit : q <+: (components item.relPath).dropLast
            · exact Or.inr (if_pos ⟨hinit, rfl⟩)
            · exact Or.inl (if_neg (fun hand => hinit hand.1))
        | ok root' =>
          right
          cases hsource : host.source art.workspace item.relPath with
          | none =>
            rw [hsource] at hcopy
            cases hcopy
          | some entry =>
            cases hread : entry.read with
            | error e => simp [hsource, copyFile, hread] at hcopy
            | ok bytes =>
              have hwrite := hcopy
              simp only [hsource, copyFile, hread] at hwrite
              obtain ⟨_, _, hnode⟩ := FileTree.write_eq_ok hwrite
              refine ⟨bytes, ?_⟩
              have hafter : applyWrite host artifacts s item =
                  { s with root := root', applied := s.applied + 1 } := by
                simp only [applyWrite, hfind, htarget, hmkdir, hcopy]
              rw [hafter]
              refine ⟨rfl, ⟨art, entry, hfind, hsource, hread⟩, ?_, ?_⟩
              · intro q hq leaf
                exact createDirAll_no_file hdir hmkdir hq leaf
              · intro q
                show root'.node q = _
                rw [hnode]
                by_cases hq : q = components item.relPath
                · rw [hq, Function.update_self, if_pos rfl]
                · rw [Function.update_of_ne hq, if_neg hq, hgrown q]

theorem applyDelete_cases (host : ApplyHost) (s : Progress) (item : ApplyPlanItem) :
    StepFailed s (applyDelete host s item) ∨
      (applyDelete host s item).failed = s.failed ∧ s.root.IsFile (components item.relPath) ∧
        (applyDelete host s item).root.node =
          Function.update s.root.node (components item.relPath) none := by
  cases htarget : resolveTarget s.root item.relPath with
  | error e =>
    left
    simp only [applyDelete, htarget]
    exact .of_fail s _
  | ok target =>
    obtain ⟨rfl, _⟩ := resolveTarget_ok htarget
    cases hremove : s.root.removeFile (components item.relPath) with
    | error e =>
      left
      simp only [applyDelete, htarget, hremove]
      exact .of_fail s _
    | ok root =>
      right
      obtain ⟨hfile, hnode⟩ := FileTree.removeFile_eq_ok hremove
      simp only [applyDelete, htarget, hremove]
      exact ⟨trivial, hfile, hnode⟩

variable {art : RunArtifact}

def IsWrite (art : RunArtifact) : Prop := art.kind = "created" ∨ art.kind = "modified"

def IsDelete (art : RunArtifact) : Prop := art.kind = "deleted"

theorem not_isDelete (h : IsWrite art) : ¬ IsDelete art := by
  intro hdelete
  rcases h with h | h
  · rw [IsDelete, h] at hdelete
    simp at hdelete
  · rw [IsDelete, h] at hdelete
    simp at hdelete

def Verified (host : ApplyHost) (art : RunArtifact) (bytes : Bytes) : Prop :=
  bytes.length ≤ applyHashMaxBytes ∧ art.hash = some (host.hashHex bytes)

structure Settled (host : ApplyHost) (root : ProjectRoot) (art : RunArtifact) : Prop where
  written : IsWrite art → ∃ bytes, Verified host art bytes ∧
    root.node (components art.relPath) = some (.file (.regular bytes))
  deleted : IsDelete art → root.node (components art.relPath) = none

structure Open (root : ProjectRoot) (art : RunArtifact) : Prop where
  safe : applyRelPathIsSafe art.relPath = true
  included : applyPathExcluded art.relPath = false
  straight : crossedSymlink root [] (components art.relPath) = none

theorem hashFileHex_some {hash : String} (h : hashFileHex host root target = some hash) : ∃ bytes,
      root.node target = some (.file (.regular bytes)) ∧ bytes.length ≤ applyHashMaxBytes ∧
        host.hashHex bytes = hash := by
  cases hnode : root.node target with
  | none => simp [hashFileHex, hnode] at h
  | some x =>
    cases x with
    | dir => simp [hashFileHex, hnode] at h
    | file leaf =>
      cases leaf with
      | symlink => simp [hashFileHex, hnode] at h
      | regular bytes =>
        by_cases hlarge : applyHashMaxBytes < bytes.length
        · simp only [hashFileHex, hnode, if_pos hlarge] at h
          cases h
        · simp only [hashFileHex, hnode, if_neg hlarge, Option.some.injEq] at h
          exact ⟨bytes, rfl, by omega, h⟩

theorem hashFileHex_regular (host : ApplyHost) {bytes : Bytes}
    (hnode : root.node target = some (.file (.regular bytes)))
    (hlen : bytes.length ≤ applyHashMaxBytes) :
    hashFileHex host root target = some (host.hashHex bytes) := by
  have hsmall : ¬ applyHashMaxBytes < bytes.length := by omega
  simp only [hashFileHex, hnode, if_neg hsmall]

inductive Planned (host : ApplyHost) (root : ProjectRoot) (art : RunArtifact) :
    ApplyAction → Prop
  | noop : Settled host root art → Planned host root art .noop
  | write (action : ApplyAction) : action = .create ∨ action = .overwrite → IsWrite art →
      ¬ Settled host root art → ¬ root.IsDir (components art.relPath) → Planned host root art action
  | delete : IsDelete art → root.IsFile (components art.relPath) → Planned host root art .delete

variable {isFile : Bool}

theorem planCreated_planned {size : Nat} (hkind : art.kind = "created")
    (h : (planCreated art size isFile (root.node (components art.relPath)).isSome
      (hashFileHex host root (components art.relPath))).canApply = true) :
    isFile = true ∧ Planned host root art
      (planCreated art size isFile (root.node (components art.relPath)).isSome
        (hashFileHex host root (components art.relPath))).action := by
  have hnot : ¬ IsDelete art := not_isDelete (Or.inl hkind)
  cases isFile with
  | false => simp [planCreated, planItem] at h
  | true =>
    refine ⟨rfl, ?_⟩
    cases hnode : root.node (components art.relPath) with
    | none =>
      refine .write .create (Or.inl rfl) (Or.inl hkind) ?_ ?_
      · intro hsettled
        obtain ⟨bytes, _, hbytes⟩ := hsettled.written (Or.inl hkind)
        rw [hnode] at hbytes
        cases hbytes
      · rw [FileTree.IsDir, hnode]
        simp
    | some x =>
      rw [hnode] at h
      by_cases hsame : (art.hash.isSome &&
          decide (art.hash = hashFileHex host root (components art.relPath))) = true
      · have hboth := hsame
        rw [Bool.and_eq_true, decide_eq_true_eq] at hboth
        obtain ⟨hsome, hhash⟩ := hboth
        obtain ⟨hash, hrecorded⟩ := Option.isSome_iff_exists.mp hsome
        obtain ⟨bytes, hbytes, hlen, hhex⟩ := hashFileHex_some (hhash.symm.trans hrecorded)
        have hsettled : Settled host root art :=
          ⟨fun _ => ⟨bytes, ⟨hlen, by rw [hrecorded, hhex]⟩, hbytes⟩,
            fun hdelete => absurd hdelete hnot⟩
        simp only [planCreated, Bool.not_true, Bool.false_eq_true, if_false, Option.isSome_some,
          if_pos hsame, planItem]
        exact .noop hsettled
      · simp only [planCreated, Bool.not_true, Bool.false_eq_true, if_false, Option.isSome_some,
          if_neg hsame, planItem] at h

theorem planModified_planned {size : Nat} (hkind : art.kind = "modified")
    (h : (planModified art size isFile (root.node (components art.relPath)).isSome
      (hashFileHex host root (components art.relPath))).canApply = true) :
    isFile = true ∧ Planned host root art
      (planModified art size isFile (root.node (components art.relPath)).isSome
        (hashFileHex host root (components art.relPath))).action := by
  have hnot : ¬ IsDelete art := not_isDelete (Or.inr hkind)
  cases isFile with
  | false => simp [planModified, planItem] at h
  | true =>
    refine ⟨rfl, ?_⟩
    cases hrecorded : art.hash with
    | none => simp [planModified, planItem, hrecorded] at h
    | some srcHash =>
      cases hhash : hashFileHex host root (components art.relPath) with
      | none =>
        rw [hhash] at h
        cases hnode : root.node (components art.relPath) with
        | none | some x => simp [planModified, planItem, hrecorded, hnode] at h
      | some tgtHash =>
        obtain ⟨bytes, hbytes, hlen, hhex⟩ := hashFileHex_some hhash
        rw [hhash, hbytes] at h
        rw [hbytes]
        by_cases hsame : tgtHash = srcHash
        · have hsettled : Settled host root art :=
            ⟨fun _ => ⟨bytes, ⟨hlen, by rw [hrecorded, hhex, hsame]⟩, hbytes⟩,
              fun hdelete => absurd hdelete hnot⟩
          simp only [planModified, hrecorded, Bool.not_true, Bool.false_eq_true, if_false,
            Option.isSome_some, if_pos hsame, planItem]
          exact .noop hsettled
        · by_cases hbase : art.baselineHash = some tgtHash
          · simp only [planModified, hrecorded, Bool.not_true, Bool.false_eq_true, if_false,
              Option.isSome_some, if_neg hsame, if_pos hbase, planItem]
            refine .write .overwrite (Or.inr rfl) (Or.inr hkind) ?_ ?_
            · intro hsettled
              obtain ⟨bytes', ⟨_, hhash'⟩, hbytes'⟩ := hsettled.written (Or.inr hkind)
              rw [hbytes] at hbytes'
              cases hbytes'
              rw [hrecorded, hhex] at hhash'
              exact hsame (Option.some.inj hhash').symm
            · rw [FileTree.IsDir, hbytes]
              simp
          · simp only [planModified, hrecorded, Bool.not_true, Bool.false_eq_true, if_false,
              Option.isSome_some, if_neg hsame, if_neg hbase, planItem] at h

theorem planDeleted_planned (hkind : art.kind = "deleted")
    (h : (planDeleted art (root.node (components art.relPath)).isSome
      (hashFileHex host root (components art.relPath))).canApply = true) :
    Planned host root art
      (planDeleted art (root.node (components art.relPath)).isSome
        (hashFileHex host root (components art.relPath))).action := by
  have hnot : ¬ IsWrite art := fun hwrite => not_isDelete hwrite hkind
  cases hnode : root.node (components art.relPath) with
  | none =>
    have hsettled : Settled host root art := ⟨fun hwrite => absurd hwrite hnot, fun _ => hnode⟩
    exact .noop hsettled
  | some x =>
    rw [hnode] at h
    cases hhash : hashFileHex host root (components art.relPath) with
    | none => simp [planDeleted, planItem, hhash] at h
    | some tgtHash =>
      rw [hhash] at h
      by_cases hbase : art.baselineHash = some tgtHash
      · obtain ⟨bytes, hbytes, _⟩ := hashFileHex_some hhash
        simp only [planDeleted, Bool.not_true, Bool.false_eq_true, if_false, Option.isSome_some,
          if_pos hbase, planItem]
        exact .delete hkind ⟨_, hbytes⟩
      · simp only [planDeleted, Bool.not_true, Bool.false_eq_true, if_false, Option.isSome_some,
          if_neg hbase, planItem] at h

/-- An artifact that can be applied goes to an open path; its source, for a write, is a file. -/
structure CanApply (host : ApplyHost) (root : ProjectRoot) (art : RunArtifact) : Prop where
  path : Open root art
  kind : IsWrite art ∨ IsDelete art
  source : IsWrite art → ∃ bytes, host.source art.workspace art.relPath = some (.file bytes)
  planned : Planned host root art (planOne host root art).action

theorem source_isFile {source : Option SourceEntry} (h : source.any SourceEntry.isFile = true) :
    ∃ bytes, source = some (.file bytes) := by
  cases source with
  | none => cases h
  | some entry =>
    cases entry with
    | file bytes => exact ⟨bytes, rfl⟩
    | symlink len followed => cases h
    | other len => cases h

theorem planOne_canApply (h : (planOne host root art).canApply = true) :
    CanApply host root art := by
  by_cases hsafe : applyRelPathIsSafe art.relPath = true
  · by_cases hexcluded : applyPathExcluded art.relPath = true
    · simp [planOne, hsafe, hexcluded, planItem] at h
    · cases hcross : crossedSymlink root [] (components art.relPath) with
      | some comp => simp [planOne, hsafe, hexcluded, resolveTarget, hcross, planItem] at h
      | none =>
        have hopen : Open root art := ⟨hsafe, by simpa using hexcluded, hcross⟩
        by_cases hcreated : art.kind = "created"
        · have heq : planOne host root art = planCreated art
              (((host.source art.workspace art.relPath).map SourceEntry.len).getD 0)
              ((host.source art.workspace art.relPath).any SourceEntry.isFile)
              (root.node (components art.relPath)).isSome
              (hashFileHex host root (components art.relPath)) := by
            simp [planOne, hsafe, hexcluded, resolveTarget, hcross, hcreated]
          rw [heq] at h
          obtain ⟨hsource, hplanned⟩ := planCreated_planned hcreated h
          rw [← heq] at hplanned
          exact ⟨hopen, Or.inl (Or.inl hcreated), fun _ => source_isFile hsource, hplanned⟩
        · by_cases hmodified : art.kind = "modified"
          · have heq : planOne host root art = planModified art
                (((host.source art.workspace art.relPath).map SourceEntry.len).getD 0)
                ((host.source art.workspace art.relPath).any SourceEntry.isFile)
                (root.node (components art.relPath)).isSome
                (hashFileHex host root (components art.relPath)) := by
              simp [planOne, hsafe, hexcluded, resolveTarget, hcross, hmodified]
            rw [heq] at h
            obtain ⟨hsource, hplanned⟩ := planModified_planned hmodified h
            rw [← heq] at hplanned
            exact ⟨hopen, Or.inl (Or.inr hmodified), fun _ => source_isFile hsource, hplanned⟩
          · by_cases hdeleted : art.kind = "deleted"
            · have heq : planOne host root art = planDeleted art
                  (root.node (components art.relPath)).isSome
                  (hashFileHex host root (components art.relPath)) := by
                simp [planOne, hsafe, hexcluded, resolveTarget, hcross, hdeleted]
              rw [heq] at h
              have hplanned := planDeleted_planned hdeleted h
              rw [← heq] at hplanned
              refine ⟨hopen, Or.inr hdeleted, ?_, hplanned⟩
              intro hwrite
              exact absurd hdeleted (not_isDelete hwrite)
            · simp [planOne, hsafe, hexcluded, resolveTarget, hcross, hcreated, hmodified,
                hdeleted, planItem] at h
  · simp [planOne, hsafe, planItem] at h

end SafeApply

end Relux
