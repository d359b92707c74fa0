import Mathlib.Data.Finset.Card
import Relux.ArtifactScan
import Relux.SafeApplyRuns

/-! When the changes recorded for a run are real. Each of the two walks ends at its cap, and a
file that only one of them has come to is taken for one that is only in that tree. -/

namespace Relux

namespace ArtifactScan

inductive HasFile : DirEntries → Path → Bytes → Prop
  | direct {entries : DirEntries} {name : String} {bytes : Bytes} :
      (name, .file bytes) ∈ entries → HasFile entries [name] bytes
  | inside {entries sub : DirEntries} {name : String} {path : Path} {bytes : Bytes} :
      (name, .dir sub) ∈ entries → HasFile sub path bytes → HasFile entries (name :: path) bytes

def Present (root : RunWorkspace) (rel : String) (bytes : Bytes) : Prop :=
  ∃ entries path, root = some entries ∧ HasFile entries path bytes ∧ relText path = rel

def Real (before after : RunWorkspace) (c : ArtifactChange) : Prop :=
  match c.kind with
  | .created => (∃ b, Present after c.relPath b) ∧ ∀ b, ¬ Present before c.relPath b
  | .deleted => (∃ b, Present before c.relPath b) ∧ ∀ b, ¬ Present after c.relPath b
  | .modified => ∃ b b', Present before c.relPath b ∧ Present after c.relPath b' ∧ b ≠ b'

def walkedFiles (dir : Path) : DirEntries → List (Path × Bytes)
  | [] => []
  | (name, .file bytes) :: entries =>
    if SafeApply.isExcludedFile name then walkedFiles dir entries
    else (dir ++ [name], bytes) :: walkedFiles dir entries
  | (_, .dir _) :: entries => walkedFiles dir entries
  | (_, .other) :: entries => walkedFiles dir entries

def walkedDirs (dir : Path) : List Pending → DirEntries → List Pending
  | stack, [] => stack
  | stack, (name, .dir sub) :: entries =>
    walkedDirs dir (if SafeApply.isExcludedDir name then stack else (dir ++ [name], sub) :: stack)
      entries
  | stack, (_, .file _) :: entries => walkedDirs dir stack entries
  | stack, (_, .other) :: entries => walkedDirs dir stack entries

theorem walkedDirs_dirs (dir : Path) (entries : DirEntries) (stack : List Pending) :
    pendingDirs (walkedDirs dir stack entries) ≤ dirsIn entries + pendingDirs stack := by
  induction entries generalizing stack with
  | nil => simp [walkedDirs, dirsIn]
  | cons e entries ih =>
    obtain ⟨name, entry⟩ := e
    cases entry with
    | file bytes =>
      have hrest := ih stack
      simp only [walkedDirs, dirsIn, entryDirs]
      omega
    | other =>
      have hrest := ih stack
      simp only [walkedDirs, dirsIn, entryDirs]
      omega
    | dir sub =>
      simp only [walkedDirs, dirsIn, entryDirs]
      by_cases hexcluded : SafeApply.isExcludedDir name = true
      · have hrest := ih stack
        rw [if_pos hexcluded]
        omega
      · have hrest := ih ((dir ++ [name], sub) :: stack)
        simp only [pendingDirs] at hrest
        rw [if_neg hexcluded]
        omega

theorem walkedDirs_less (d : Pending) (stack : List Pending) :
    pendingDirs (walkedDirs d.1 stack d.2) < pendingDirs (d :: stack) := by
  have hle := walkedDirs_dirs d.1 d.2 stack
  simp only [pendingDirs]
  omega

def walk (stack : List Pending) : List (Path × Bytes) :=
  match stack with
  | [] => []
  | d :: stack => walkedFiles d.1 d.2 ++ walk (walkedDirs d.1 stack d.2)
termination_by pendingDirs stack
decreasing_by exact walkedDirs_less d stack

def walkedPaths (root : RunWorkspace) : List String :=
  match root with
  | none => []
  | some entries => (walk [([], entries)]).map (fun f => relText f.1)

def Taken (paths : List String) (rel : String) : Prop :=
  ∃ earlier later, paths = earlier ++ rel :: later ∧ earlier.toFinset.card < artifactScanMaxFiles

variable {hash : Bytes → UInt64}

def takeFiles (hash : Bytes → UInt64) : List (Path × Bytes) → WorkspaceManifest → WorkspaceManifest
  | [], m => m
  | f :: files, m =>
    if artifactScanMaxFiles ≤ m.files.len then { m with truncated := true }
    else takeFiles hash files
      { m with files := m.files.insert (relText f.1) (fileSig hash f.2) }

theorem scanEntries_walk (hash : Bytes → UInt64) (dir : Path) (entries : DirEntries)
    (stack : List Pending)
    (m : WorkspaceManifest) :
    (∃ m', scanEntries hash dir entries (stack, m) = .error m' ∧
        ∀ rest, takeFiles hash (walkedFiles dir entries ++ rest) m = m') ∨
      ∃ m', scanEntries hash dir entries (stack, m) = .ok (walkedDirs dir stack entries, m') ∧
        ∀ rest, takeFiles hash (walkedFiles dir entries ++ rest) m = takeFiles hash rest m' := by
  induction entries generalizing stack m with
  | nil => exact Or.inr ⟨m, rfl, fun rest => rfl⟩
  | cons e entries ih =>
    obtain ⟨name, entry⟩ := e
    cases entry with
    | other => exact ih stack m
    | dir sub =>
      by_cases hexcluded : SafeApply.isExcludedDir name = true
      · simpa only [scanEntries, scanEntry, walkedFiles, walkedDirs, if_pos hexcluded]
          using ih stack m
      · simpa only [scanEntries, scanEntry, walkedFiles, walkedDirs, if_neg hexcluded]
          using ih ((dir ++ [name], sub) :: stack) m
    | file bytes =>
      by_cases hexcluded : SafeApply.isExcludedFile name = true
      · simpa only [scanEntries, scanEntry, walkedFiles, walkedDirs, if_pos hexcluded]
          using ih stack m
      · by_cases hfull : artifactScanMaxFiles ≤ m.files.len
        · left
          refine ⟨{ m with truncated := true }, ?_, ?_⟩
          · simp only [scanEntries, scanEntry, if_neg hexcluded, if_pos hfull]
          · intro rest
            simp only [walkedFiles, if_neg hexcluded, List.cons_append, takeFiles, if_pos hfull]
        · simpa only [scanEntries, scanEntry, walkedFiles, walkedDirs, if_neg hexcluded,
            if_neg hfull, List.cons_append, takeFiles] using ih stack
              { m with files := m.files.insert (relText (dir ++ [name])) (fileSig hash bytes) }

theorem scanLoop_walk (stack : List Pending) (m : WorkspaceManifest) :
    scanLoop hash stack m = takeFiles hash (walk stack) m := by
  induction stack using walk.induct generalizing m with
  | case1 =>
    rw [scanLoop, walk]
    rfl
  | case2 d stack ih =>
    rw [scanLoop, walk]
    rcases scanEntries_walk hash d.1 d.2 stack m with
      ⟨m', hscan, htake⟩ | ⟨m', hscan, htake⟩
    · rw [htake]
      split
      next heq =>
        rw [hscan] at heq
        cases heq
        rfl
      next heq =>
        rw [hscan] at heq
        cases heq
    · rw [htake]
      split
      next heq =>
        rw [hscan] at heq
        cases heq
      next heq =>
        rw [hscan] at heq
        cases heq
        exact ih m'

def keySet (m : HashMap String FileSig) : Finset String := (m.entries.map Prod.fst).toFinset

variable {rel : String}

theorem mem_keySet {m : HashMap String FileSig} :
    rel ∈ keySet m ↔ ∃ sig, m.get? rel = some sig := by
  simp only [keySet, List.mem_toFinset, List.mem_map]
  constructor
  · rintro ⟨⟨rel', sig⟩, hmem, rfl⟩
    exact ⟨sig, HashMap.mem_entries.mp hmem⟩
  · rintro ⟨sig, hget⟩
    exact ⟨(rel, sig), HashMap.mem_entries.mpr hget, rfl⟩

theorem card_keySet (m : HashMap String FileSig) : (keySet m).card = m.len := by
  rw [keySet, List.toFinset_card_of_nodup m.keys_nodup, List.length_map]
  rfl

theorem keySet_insert (m : HashMap String FileSig) (rel : String) (sig : FileSig) :
    keySet (m.insert rel sig) = insert rel (keySet m) := by
  ext rel'
  simp only [mem_keySet, Finset.mem_insert, HashMap.get?_insert]
  by_cases h : rel' = rel
  · simp [h]
  · simp [h]

theorem takeFiles_keys (files : List (Path × Bytes)) (m : WorkspaceManifest) (rel : String) :
    rel ∈ keySet (takeFiles hash files m).files ↔ rel ∈ keySet m.files ∨
      ∃ earlier later, files.map (fun f => relText f.1) = earlier ++ rel :: later ∧
        (keySet m.files ∪ earlier.toFinset).card < artifactScanMaxFiles := by
  induction files generalizing m with
  | nil => simp [takeFiles]
  | cons f files ih =>
    by_cases hfull : artifactScanMaxFiles ≤ m.files.len
    · rw [takeFiles, if_pos hfull]
      constructor
      · exact Or.inl
      · rintro (hmem | ⟨earlier, later, _, hcard⟩)
        · exact hmem
        · have hsub : (keySet m.files).card ≤ (keySet m.files ∪ earlier.toFinset).card :=
            Finset.card_le_card Finset.subset_union_left
          rw [card_keySet] at hsub
          omega
    · rw [takeFiles, if_neg hfull, ih, keySet_insert, List.map_cons]
      constructor
      · rintro (hmem | ⟨earlier, later, hsplit, hcard⟩)
        · rcases Finset.mem_insert.mp hmem with rfl | hmem
          · refine Or.inr ⟨[], _, rfl, ?_⟩
            rw [List.toFinset_nil, Finset.union_empty, card_keySet]
            omega
          · exact Or.inl hmem
        · refine Or.inr ⟨relText f.1 :: earlier, later, by rw [hsplit]; rfl, ?_⟩
          rwa [List.toFinset_cons, Finset.union_insert, ← Finset.insert_union]
      · rintro (hmem | ⟨earlier, later, hsplit, hcard⟩)
        · exact Or.inl (Finset.mem_insert_of_mem hmem)
        · cases earlier with
          | nil =>
            have hfirst := (List.cons_eq_cons.mp hsplit).1
            left
            rw [hfirst]
            exact Finset.mem_insert_self _ _
          | cons k earlier =>
            obtain ⟨hfirst, hrest⟩ := List.cons_eq_cons.mp hsplit
            refine Or.inr ⟨earlier, later, hrest, ?_⟩
            rwa [Finset.insert_union, ← Finset.union_insert, hfirst, ← List.toFinset_cons]

variable {sig : FileSig}

theorem takeFiles_sig {files : List (Path × Bytes)} {m : WorkspaceManifest}
    (h : (takeFiles hash files m).files.get? rel = some sig) :
    m.files.get? rel = some sig ∨ ∃ f ∈ files, relText f.1 = rel ∧ sig = fileSig hash f.2 := by
  induction files generalizing m with
  | nil => exact Or.inl h
  | cons f files ih =>
    by_cases hfull : artifactScanMaxFiles ≤ m.files.len
    · rw [takeFiles, if_pos hfull] at h
      exact Or.inl h
    · rw [takeFiles, if_neg hfull] at h
      rcases ih h with hget | ⟨f', hf', hrel⟩
      · rcases HashMap.insert_some hget with ⟨hsame, hfile⟩ | ⟨-, hold⟩
        · exact Or.inr ⟨f, List.mem_cons_self, hsame.symm, hfile.symm⟩
        · exact Or.inl hold
      · exact Or.inr ⟨f', List.mem_cons_of_mem f hf', hrel⟩

variable {dir : Path} {entries : DirEntries} {f : Path × Bytes}

theorem mem_walkedFiles (h : f ∈ walkedFiles dir entries) :
    ∃ name, f.1 = dir ++ [name] ∧ (name, TreeEntry.file f.2) ∈ entries := by
  induction entries with
  | nil => cases h
  | cons e entries ih =>
    have hlater : f ∈ walkedFiles dir entries →
        ∃ name, f.1 = dir ++ [name] ∧ (name, TreeEntry.file f.2) ∈ e :: entries := by
      intro hrest
      obtain ⟨name, hpath, hmem⟩ := ih hrest
      exact ⟨name, hpath, List.mem_cons_of_mem e hmem⟩
    obtain ⟨name, entry⟩ := e
    cases entry with
    | other => exact hlater h
    | dir sub => exact hlater h
    | file bytes =>
      by_cases hexcluded : SafeApply.isExcludedFile name = true
      · rw [walkedFiles, if_pos hexcluded] at h
        exact hlater h
      · rw [walkedFiles, if_neg hexcluded] at h
        rcases List.mem_cons.mp h with rfl | h
        · exact ⟨name, rfl, List.mem_cons_self⟩
        · exact hlater h

variable {stack : List Pending}

theorem mem_walkedDirs {d : Pending} (h : d ∈ walkedDirs dir stack entries) :
    d ∈ stack ∨ ∃ name, d.1 = dir ++ [name] ∧ (name, TreeEntry.dir d.2) ∈ entries := by
  induction entries generalizing stack with
  | nil => exact Or.inl h
  | cons e entries ih =>
    have hlater : ∀ stack', d ∈ walkedDirs dir stack' entries → d ∈ stack' ∨
        ∃ name, d.1 = dir ++ [name] ∧ (name, TreeEntry.dir d.2) ∈ e :: entries := by
      intro stack' hrest
      rcases ih hrest with hmem | ⟨name, hpath, hmem⟩
      · exact Or.inl hmem
      · exact Or.inr ⟨name, hpath, List.mem_cons_of_mem e hmem⟩
    obtain ⟨name, entry⟩ := e
    cases entry with
    | other => exact hlater stack h
    | file bytes => exact hlater stack h
    | dir sub =>
      by_cases hexcluded : SafeApply.isExcludedDir name = true
      · rw [walkedDirs, if_pos hexcluded] at h
        exact hlater stack h
      · rw [walkedDirs, if_neg hexcluded] at h
        rcases hlater _ h with hmem | hfound
        · rcases List.mem_cons.mp hmem with rfl | hmem
          · exact Or.inr ⟨name, rfl, List.mem_cons_self⟩
          · exact Or.inl hmem
        · exact Or.inr hfound

theorem mem_walk (h : f ∈ walk stack) :
    ∃ d ∈ stack, ∃ path, f.1 = d.1 ++ path ∧ HasFile d.2 path f.2 := by
  induction stack using walk.induct with
  | case1 =>
    rw [walk] at h
    cases h
  | case2 d stack ih =>
    rw [walk] at h
    rcases List.mem_append.mp h with h | h
    · obtain ⟨name, hpath, hmem⟩ := mem_walkedFiles h
      exact ⟨d, List.mem_cons_self, [name], hpath, .direct hmem⟩
    · obtain ⟨d', hd', path, hpath, hfile⟩ := ih h
      rcases mem_walkedDirs hd' with hmem | ⟨name, hdir, hmem⟩
      · exact ⟨d', List.mem_cons_of_mem d hmem, path, hpath, hfile⟩
      · refine ⟨d, List.mem_cons_self, name :: path, ?_, .inside hmem hfile⟩
        rw [hpath, hdir, List.append_assoc]
        rfl

theorem scan_taken (hash : Bytes → UInt64) (root : RunWorkspace) (rel : String) :
    (∃ sig, (scanWorkspaceManifest hash root).files.get? rel = some sig) ↔
      Taken (walkedPaths root) rel := by
  rw [← mem_keySet]
  cases root with
  | none => simp [scanWorkspaceManifest, keySet, walkedPaths, Taken, HashMap.entries, HashMap.empty]
  | some entries =>
    have hempty : keySet (HashMap.empty : HashMap String FileSig) = ∅ := rfl
    rw [scanWorkspaceManifest, scanLoop_walk, takeFiles_keys]
    simp only [hempty, Finset.notMem_empty, false_or, Finset.empty_union]
    rfl

theorem scan_sig {root : RunWorkspace}
    (h : (scanWorkspaceManifest hash root).files.get? rel = some sig) :
    ∃ b, Present root rel b ∧ sig = fileSig hash b := by
  cases root with
  | none => cases h
  | some entries =>
    rw [scanWorkspaceManifest, scanLoop_walk] at h
    rcases takeFiles_sig h with hget | ⟨f, hf, hrel, hsig⟩
    · cases hget
    · obtain ⟨d, hd, path, hpath, hfile⟩ := mem_walk hf
      rw [List.mem_singleton.mp hd] at hpath hfile
      have hsame : f.1 = path := hpath
      rw [hsame] at hrel
      exact ⟨f.2, ⟨entries, path, rfl, hfile, hrel⟩, hsig⟩

variable {before after : WorkspaceManifest} {c : ArtifactChange} {e : String × FileSig}

theorem seenChange_rel (h : seenChange before e = some c) :
    c.relPath = e.1 := by
  cases hget : before.files.get? e.1 with
  | none =>
    simp only [seenChange, hget, Option.some.injEq] at h
    rw [← h]
  | some prev =>
    by_cases hne : prev ≠ e.2
    · simp only [seenChange, hget, if_pos hne, Option.some.injEq] at h
      rw [← h]
    · simp only [seenChange, hget, if_neg hne] at h
      cases h

theorem lostChange_rel (h : lostChange after e = some c) :
    c.relPath = e.1 ∧ c.kind = .deleted ∧ after.files.get? e.1 = none := by
  by_cases hget : (after.files.get? e.1).isSome = true
  · rw [lostChange, if_pos hget] at h
    cases h
  · rw [lostChange, if_neg hget, Option.some.injEq] at h
    rw [← h]
    exact ⟨rfl, rfl, by simpa using hget⟩

theorem mem_diffManifests : c ∈ diffManifests before after ↔
    (∃ sig, after.files.get? c.relPath = some sig ∧ seenChange before (c.relPath, sig) = some c) ∨
    ∃ sig, before.files.get? c.relPath = some sig ∧ lostChange after (c.relPath, sig) = some c := by
  rw [diffManifests, List.mem_mergeSort, List.mem_append, List.mem_filterMap, List.mem_filterMap]
  constructor
  · rintro (⟨⟨rel, sig⟩, hmem, hchange⟩ | ⟨⟨rel, sig⟩, hmem, hchange⟩)
    · have hrel : c.relPath = rel := seenChange_rel hchange
      rw [← hrel] at hmem hchange
      exact Or.inl ⟨sig, HashMap.mem_entries.mp hmem, hchange⟩
    · have hrel : c.relPath = rel := (lostChange_rel hchange).1
      rw [← hrel] at hmem hchange
      exact Or.inr ⟨sig, HashMap.mem_entries.mp hmem, hchange⟩
  · rintro (⟨sig, hget, hchange⟩ | ⟨sig, hget, hchange⟩)
    · exact Or.inl ⟨_, HashMap.mem_entries.mpr hget, hchange⟩
    · exact Or.inr ⟨_, HashMap.mem_entries.mpr hget, hchange⟩

theorem created_mem (hafter : after.files.get? rel = some sig)
    (hbefore : before.files.get? rel = none) :
    ∃ c ∈ diffManifests before after, c.relPath = rel ∧ c.kind = .created := by
  refine ⟨⟨rel, .created, sig.size, sig.hash.map hex16, none, sig.isText⟩, ?_, rfl, rfl⟩
  refine mem_diffManifests.mpr (Or.inl ⟨sig, hafter, ?_⟩)
  simp only [seenChange, hbefore]

theorem deleted_mem (hbefore : before.files.get? rel = some sig)
    (hafter : after.files.get? rel = none) :
    ∃ c ∈ diffManifests before after, c.relPath = rel ∧ c.kind = .deleted := by
  refine ⟨⟨rel, .deleted, 0, none, sig.hash.map hex16, sig.isText⟩, ?_, rfl, rfl⟩
  refine mem_diffManifests.mpr (Or.inr ⟨sig, hbefore, ?_⟩)
  simp [lostChange, hafter]

theorem diff_real_iff (hash : Bytes → UInt64) (before after : RunWorkspace) :
    (∀ c ∈ diffManifests (scanWorkspaceManifest hash before) (scanWorkspaceManifest hash after),
        Real before after c) ↔
      ∀ rel, (∃ b, Present before rel b) → (∃ b, Present after rel b) →
        (Taken (walkedPaths before) rel ↔ Taken (walkedPaths after) rel) := by
  constructor
  · intro hreal rel hbefore hafter
    rw [← scan_taken hash, ← scan_taken hash]
    constructor
    · rintro ⟨sig, hsig⟩
      cases hget : (scanWorkspaceManifest hash after).files.get? rel with
      | some sig' => exact ⟨sig', rfl⟩
      | none =>
        obtain ⟨c, hc, rfl, hkind⟩ := deleted_mem hsig hget
        have hrealc := hreal c hc
        simp only [Real, hkind] at hrealc
        obtain ⟨b, hb⟩ := hafter
        exact absurd hb (hrealc.2 b)
    · rintro ⟨sig, hsig⟩
      cases hget : (scanWorkspaceManifest hash before).files.get? rel with
      | some sig' => exact ⟨sig', rfl⟩
      | none =>
        obtain ⟨c, hc, rfl, hkind⟩ := created_mem hsig hget
        have hrealc := hreal c hc
        simp only [Real, hkind] at hrealc
        obtain ⟨b, hb⟩ := hbefore
        exact absurd hb (hrealc.2 b)
  · intro hboth c hc
    rcases mem_diffManifests.mp hc with ⟨sig, hget, hchange⟩ | ⟨sig, hget, hchange⟩
    · obtain ⟨b', hb', hsig'⟩ := scan_sig hget
      cases hprev : (scanWorkspaceManifest hash before).files.get? c.relPath with
      | none =>
        simp only [seenChange, hprev, Option.some.injEq] at hchange
        have hkind : c.kind = .created := by rw [← hchange]
        have habsent : ∀ b, ¬ Present before c.relPath b := by
          intro b hb
          have htaken := (hboth c.relPath ⟨b, hb⟩ ⟨b', hb'⟩).mpr ((scan_taken hash _ _).mp ⟨sig, hget⟩)
          obtain ⟨prev, hprev'⟩ := (scan_taken hash _ _).mpr htaken
          rw [hprev] at hprev'
          cases hprev'
        simp only [Real, hkind]
        exact ⟨⟨b', hb'⟩, habsent⟩
      | some prev =>
        obtain ⟨b, hb, hsig⟩ := scan_sig hprev
        by_cases hne : prev ≠ sig
        · simp only [seenChange, hprev, if_pos hne, Option.some.injEq] at hchange
          have hkind : c.kind = .modified := by rw [← hchange]
          simp only [Real, hkind]
          refine ⟨b, b', hb, hb', ?_⟩
          rintro rfl
          exact hne (hsig.trans hsig'.symm)
        · simp only [seenChange, hprev, if_neg hne] at hchange
          cases hchange
    · obtain ⟨b, hb, _⟩ := scan_sig hget
      obtain ⟨_, hkind, hnone⟩ := lostChange_rel hchange
      have habsent : ∀ b, ¬ Present after c.relPath b := by
        intro b' hb'
        have htaken := (hboth c.relPath ⟨b, hb⟩ ⟨b', hb'⟩).mp ((scan_taken hash _ _).mp ⟨sig, hget⟩)
        obtain ⟨sig', hsig'⟩ := (scan_taken hash _ _).mpr htaken
        rw [hnone] at hsig'
        cases hsig'
      simp only [Real, hkind]
      exact ⟨⟨b, hb⟩, habsent⟩

theorem mem_recordChanges {workspace : String} {rows : List RunArtifact}
    {changes : List ArtifactChange} {art : RunArtifact}
    (h : art ∈ recordChanges workspace rows changes) : art ∈ rows ∨ ∃ c ∈ changes,
      art = ⟨workspace, c.relPath, c.kind.asStr, c.hash, c.baselineHash⟩ := by
  induction changes generalizing rows with
  | nil => exact Or.inl h
  | cons c changes ih =>
    by_cases hfull : maxRunArtifacts ≤ rows.length
    · simp only [recordChanges, recordRunArtifact, if_pos hfull] at h
      exact Or.inl h
    · simp only [recordChanges, recordRunArtifact, if_neg hfull] at h
      rcases ih h with hmem | ⟨c', hc', hart⟩
      · rcases List.mem_append.mp hmem with hmem | hmem
        · exact Or.inl hmem
        · exact Or.inr ⟨c, List.mem_cons_self, List.mem_singleton.mp hmem⟩
      · exact Or.inr ⟨c', List.mem_cons_of_mem c hc', hart⟩

/-- The run has deleted what the path names: the tree before it has such a file, that after it
has none. -/
def DeletedByRun (before after : RunWorkspace) (target : Path) : Prop :=
  ∃ rel, SafeApply.components rel = target ∧ (∃ b, Present before rel b) ∧
    ∀ b, ¬ Present after rel b

/-- The changes are real, and an apply takes away only what the run deleted, exactly where a path
in both trees is taken from both or from none. -/
theorem changes_real_iff (hash : Bytes → UInt64) (before after : RunWorkspace)
    (workspace : String) :
    ((∀ c ∈ diffManifests (scanWorkspaceManifest hash before) (scanWorkspaceManifest hash after),
        Real before after c) ∧
      ∀ (host : ApplyHost) (root : ProjectRoot) (target : Path), root.node target ≠ none →
        (SafeApply.applyRun host root (runArtifacts hash workspace before after)).2.node target =
          none → DeletedByRun before after target) ↔
      ∀ rel, (∃ b, Present before rel b) → (∃ b, Present after rel b) →
        (Taken (walkedPaths before) rel ↔ Taken (walkedPaths after) rel) := by
  constructor
  · rintro ⟨hreal, _⟩
    exact (diff_real_iff hash before after).mp hreal
  · intro hboth
    have hreal := (diff_real_iff hash before after).mpr hboth
    refine ⟨hreal, ?_⟩
    intro host root target hbefore hafter
    obtain ⟨art, hart, hkind, htarget⟩ := SafeApply.applyRun_deletes hbefore hafter
    rcases mem_recordChanges hart with hnil | ⟨c, hc, rfl⟩
    · cases hnil
    · have hrealc := hreal c hc
      cases hchange : c.kind with
      | created | modified => simp [hchange, ChangeKind.asStr] at hkind
      | deleted =>
        simp only [Real, hchange] at hrealc
        exact ⟨c.relPath, htarget, hrealc⟩

def letters (n : Nat) : String := String.ofList (List.replicate (n + 1) 'f')

theorem letters_toList (n : Nat) : (letters n).toList = List.replicate (n + 1) 'f' :=
  String.toList_ofList

theorem letters_inj {m n : Nat} (h : letters m = letters n) : m = n := by
  have hlist := congrArg (fun s => s.toList.length) h
  simp only [letters_toList, List.length_replicate] at hlist
  omega

theorem not_containsChars_replicate {needle : List Char} {c d : Char} (hc : c ∈ needle)
    (hne : c ≠ d) (n : Nat) : containsChars needle (List.replicate n d) = false := by
  have hinit : ∀ n, needle.isPrefixOf (List.replicate n d) = false := by
    intro n
    rw [Bool.eq_false_iff]
    intro hpre
    have hmem := (List.isPrefixOf_iff_prefix.mp hpre).subset hc
    exact hne (List.eq_of_mem_replicate hmem)
  induction n with
  | zero =>
    cases needle with
    | nil => cases hc
    | cons x xs => rfl
  | succ n ih =>
    rw [List.replicate_succ, containsChars, ih, ← List.replicate_succ, hinit]
    rfl

theorem replicate_apart {c d : Char} {part : List Char} (hc : c ∈ part) (hne : c ≠ d) (n : Nat) :
    part.isPrefixOf (List.replicate n d) = false ∧
      part.isSuffixOf (List.replicate n d) = false ∧ List.replicate n d ≠ part := by
  have hmem : ∀ l : List Char, l ⊆ List.replicate n d → c ∉ l :=
    fun l hl hcl => hne (List.eq_of_mem_replicate (hl hcl))
  refine ⟨?_, ?_, ?_⟩
  · rw [Bool.eq_false_iff]
    intro h
    exact hmem part (List.isPrefixOf_iff_prefix.mp h).subset hc
  · rw [Bool.eq_false_iff]
    intro h
    exact hmem part (List.isSuffixOf_iff_suffix.mp h).subset hc
  · rintro rfl
    exact hmem _ (List.Subset.refl _) hc

theorem letters_included (n : Nat) : SafeApply.isExcludedFile (letters n) = false := by
  have hlower : toAsciiLowercase (letters n).toList = List.replicate (n + 1) 'f' := by
    rw [letters_toList, toAsciiLowercase, List.map_replicate]
    rfl
  have hother : ∀ s ∈ [".env", ".env.", ".key", ".pem", ".p12", ".pfx", ".pub", ".aic",
      ".keystore", "id_rsa", "id_ed25519", "id_ecdsa", "bridge-token", "dashboard-admin.json",
      "secret", "credential", "password"], ∃ c ∈ s.toList, c ≠ 'f' := by simp
  have hpart : ∀ s ∈ [".env", ".env.", ".key", ".pem", ".p12", ".pfx", ".pub", ".aic",
      ".keystore", "id_rsa", "id_ed25519", "id_ecdsa", "bridge-token", "dashboard-admin.json",
      "secret", "credential", "password"],
      s.toList.isPrefixOf (List.replicate (n + 1) 'f') = false ∧
        s.toList.isSuffixOf (List.replicate (n + 1) 'f') = false ∧
        List.replicate (n + 1) 'f' ≠ s.toList ∧
        containsChars s.toList (List.replicate (n + 1) 'f') = false := by
    intro s hs
    obtain ⟨c, hc, hne⟩ := hother s hs
    obtain ⟨hpre, hsuf, hsame⟩ := replicate_apart hc hne (n + 1)
    exact ⟨hpre, hsuf, hsame, not_containsChars_replicate hc hne _⟩
  simp only [List.forall_mem_cons] at hpart
  simp only [SafeApply.isExcludedFile, hlower, List.any_cons, List.any_nil, hpart, decide_false,
    Bool.or_false]

theorem relText_single {name : String} (h : '\\' ∉ name.toList) : relText [name] = name := by
  have hmap : name.toList.map (fun c => if c = '\\' then '/' else c) = name.toList := by
    refine (List.map_congr_left ?_).trans (List.map_id _)
    intro c hc
    have hne : c ≠ '\\' := fun heq => h (heq ▸ hc)
    simp [hne]
  simp only [relText, List.map_cons, List.map_nil, joinFields, hmap]
  exact String.ofList_toList

theorem walkedPaths_flat {names : List String}
    (h : ∀ name ∈ names, SafeApply.isExcludedFile name = false ∧ '\\' ∉ name.toList) :
    walkedPaths (some (names.map (fun name => (name, TreeEntry.file [])))) = names := by
  have hfiles : ∀ l : List String, (∀ name ∈ l, SafeApply.isExcludedFile name = false) →
      walkedFiles [] (l.map (fun name => (name, TreeEntry.file []))) =
        l.map (fun name => ([name], [])) := by
    intro l hl
    induction l with
    | nil => rfl
    | cons name l ih =>
      have hname := hl name List.mem_cons_self
      simp only [List.map_cons, walkedFiles, hname, Bool.false_eq_true, if_false,
        List.nil_append, ih (fun n hn => hl n (List.mem_cons_of_mem name hn))]
  have hdirs : ∀ l : List String,
      walkedDirs [] [] (l.map (fun name => (name, TreeEntry.file []))) = [] := by
    intro l
    induction l with
    | nil => rfl
    | cons name l ih => simpa only [List.map_cons, walkedDirs] using ih
  have hempty : walk [] = [] := by rw [walk]
  rw [walkedPaths, walk, hdirs, hempty, List.append_nil, hfiles names (fun n hn => (h n hn).1),
    List.map_map]
  refine (List.map_congr_left ?_).trans (List.map_id _)
  intro name hname
  exact relText_single (h name hname).2

def fullBefore : RunWorkspace :=
  some (((List.range artifactScanMaxFiles).map letters).map (fun name => (name, .file [])))

def fullAfter : RunWorkspace :=
  some (("new" :: (List.range artifactScanMaxFiles).map letters).map
    (fun name => (name, .file [])))

theorem letters_plain (n : Nat) : '\\' ∉ (letters n).toList := by
  rw [letters_toList]
  intro hmem
  exact absurd (List.eq_of_mem_replicate hmem) (by decide)

theorem letters_nodup (n : Nat) : ((List.range n).map letters).Nodup :=
  List.nodup_range.map (fun _ _ h => letters_inj h)

theorem new_notMem (n : Nat) : "new" ∉ (List.range n).map letters := by
  intro hmem
  obtain ⟨i, _, hi⟩ := List.mem_map.mp hmem
  have hlist := congrArg String.toList hi
  rw [letters_toList] at hlist
  have hn : 'n' ∈ List.replicate (i + 1) 'f' := by
    rw [hlist]
    decide
  exact absurd (List.eq_of_mem_replicate hn) (by decide)

theorem present_recorded_deleted (hash : Bytes → UInt64) :
    ∃ c ∈ diffManifests (scanWorkspaceManifest hash fullBefore)
        (scanWorkspaceManifest hash fullAfter),
      c.kind = .deleted ∧ ∃ b, Present fullAfter c.relPath b := by
  have hletters : ∀ name ∈ (List.range artifactScanMaxFiles).map letters,
      SafeApply.isExcludedFile name = false ∧ '\\' ∉ name.toList := by
    intro name hname
    obtain ⟨i, _, rfl⟩ := List.mem_map.mp hname
    exact ⟨letters_included i, letters_plain i⟩
  have hbefore : walkedPaths fullBefore = (List.range artifactScanMaxFiles).map letters :=
    walkedPaths_flat hletters
  have hafter : walkedPaths fullAfter = "new" :: (List.range artifactScanMaxFiles).map letters := by
    apply walkedPaths_flat
    intro name hname
    rcases List.mem_cons.mp hname with rfl | hname
    · exact ⟨by decide +kernel, by decide⟩
    · exact hletters name hname
  have hsplit : (List.range artifactScanMaxFiles).map letters =
      (List.range (artifactScanMaxFiles - 1)).map letters ++
        [letters (artifactScanMaxFiles - 1)] := by
    have hsucc : artifactScanMaxFiles = (artifactScanMaxFiles - 1) + 1 := rfl
    rw [hsucc, List.range_succ, List.map_append]
    rfl
  have htaken : Taken (walkedPaths fullBefore) (letters (artifactScanMaxFiles - 1)) := by
    refine ⟨(List.range (artifactScanMaxFiles - 1)).map letters, [], ?_, ?_⟩
    · rw [hbefore, hsplit]
    · rw [List.toFinset_card_of_nodup (letters_nodup _), List.length_map, List.length_range]
      decide
  have hmissed : ¬ Taken (walkedPaths fullAfter) (letters (artifactScanMaxFiles - 1)) := by
    rintro ⟨earlier, later, hpaths, hcard⟩
    rw [hafter, hsplit] at hpaths
    have hnodup := letters_nodup artifactScanMaxFiles
    rw [hsplit] at hnodup
    have hfresh : letters (artifactScanMaxFiles - 1) ∉
        "new" :: (List.range (artifactScanMaxFiles - 1)).map letters := by
      intro hmem
      rcases List.mem_cons.mp hmem with heq | hmem
      · apply new_notMem artifactScanMaxFiles
        rw [← heq, hsplit]
        simp
      · exact (List.nodup_append.mp hnodup).2.2 _ hmem _ List.mem_cons_self rfl
    have hsame := (List.append_cons_inj_of_notMem hfresh (by simp)).mp
      (show ("new" :: (List.range (artifactScanMaxFiles - 1)).map letters) ++
        letters (artifactScanMaxFiles - 1) :: [] = earlier ++
          letters (artifactScanMaxFiles - 1) :: later from hpaths)
    rw [← hsame.1, List.toFinset_card_of_nodup, List.length_cons, List.length_map,
      List.length_range] at hcard
    · exact absurd hcard (by decide)
    · exact List.nodup_cons.mpr ⟨new_notMem _, letters_nodup _⟩
  have hentry : ∃ b, Present fullAfter (letters (artifactScanMaxFiles - 1)) b := by
    refine ⟨[], _, [letters (artifactScanMaxFiles - 1)], rfl, .direct ?_,
      relText_single (letters_plain _)⟩
    rw [List.map_cons, hsplit]
    simp
  obtain ⟨sig, hsig⟩ := (scan_taken hash fullBefore _).mpr htaken
  have hnone : (scanWorkspaceManifest hash fullAfter).files.get?
      (letters (artifactScanMaxFiles - 1)) = none := by
    cases hget : (scanWorkspaceManifest hash fullAfter).files.get?
        (letters (artifactScanMaxFiles - 1)) with
    | none => rfl
    | some sig' => exact absurd ((scan_taken hash _ _).mp ⟨sig', hget⟩) hmissed
  obtain ⟨c, hc, hrel, hkind⟩ := deleted_mem hsig hnone
  refine ⟨c, hc, hkind, ?_⟩
  rw [hrel]
  exact hentry

theorem added_file_misreported :
    ∃ c ∈ diffManifests (scanWorkspaceManifest (fun _ => 0) fullBefore)
        (scanWorkspaceManifest (fun _ => 0) fullAfter),
      c.kind = .deleted ∧ ¬ Real fullBefore fullAfter c := by
  obtain ⟨c, hc, hkind, b, hb⟩ := present_recorded_deleted (fun _ => 0)
  refine ⟨c, hc, hkind, ?_⟩
  intro hreal
  simp only [Real, hkind] at hreal
  exact hreal.2 b hb

end ArtifactScan

end Relux
