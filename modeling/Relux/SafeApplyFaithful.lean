import Relux.SafeApplyRuns

/-! When a safe apply is all or nothing: the artifacts must not meet one another on the way to
their targets, and what is copied must be what they record. -/

namespace Relux

namespace SafeApply

variable {host : ApplyHost} {root : ProjectRoot} {artifacts : List RunArtifact}
  {art : RunArtifact}

theorem components_ne_nil (relPath : String) : components relPath ≠ [] := by
  simpa [components] using splitFields_ne_nil isSeparator relPath.toList

/-- What a write of the artifact copies: the source of the first artifact with its path. -/
def Copied (host : ApplyHost) (artifacts : List RunArtifact) (art : RunArtifact)
    (bytes : Bytes) : Prop :=
  ∃ first entry, artifacts.find? (fun a => a.relPath = art.relPath) = some first ∧
    host.source first.workspace art.relPath = some entry ∧ entry.read = .ok bytes

variable {bytes : Bytes} {bytes' : Bytes}

theorem Copied.unique (h : Copied host artifacts art bytes)
    (h' : Copied host artifacts art bytes') : bytes = bytes' := by
  obtain ⟨first, entry, hfind, hsource, hread⟩ := h
  obtain ⟨first', entry', hfind', hsource', hread'⟩ := h'
  obtain rfl := Option.some.inj (hfind.symm.trans hfind')
  obtain rfl := Option.some.inj (hsource.symm.trans hsource')
  exact Except.ok.inj (hread.symm.trans hread')

structure PendingAt (host : ApplyHost) (root : ProjectRoot) (target : Path)
    (art : RunArtifact) : Prop where
  write : IsWrite art
  target : components art.relPath = target
  unsettled : ¬ Settled host root art

inductive LastWrite (host : ApplyHost) (root : ProjectRoot) (artifacts : List RunArtifact)
    (target : Path) : List RunArtifact → Bytes → Prop
  | last {art : RunArtifact} {rest : List RunArtifact} {bytes : Bytes} :
      PendingAt host root target art → Copied host artifacts art bytes →
      (∀ a ∈ rest, ¬ PendingAt host root target a) →
      LastWrite host root artifacts target (art :: rest) bytes
  | later {art : RunArtifact} {rest : List RunArtifact} {bytes : Bytes} :
      LastWrite host root artifacts target rest bytes →
      LastWrite host root artifacts target (art :: rest) bytes

variable {l : List RunArtifact} {target : Path}

theorem LastWrite.pending (h : LastWrite host root artifacts target l bytes) :
    ∃ a ∈ l, PendingAt host root target a := by
  induction h with
  | last hpending _ _ => exact ⟨_, List.mem_cons_self, hpending⟩
  | later _ ih =>
    obtain ⟨a, ha, hpending⟩ := ih
    exact ⟨a, List.mem_cons_of_mem _ ha, hpending⟩

theorem LastWrite.unique (h : LastWrite host root artifacts target l bytes)
    (h' : LastWrite host root artifacts target l bytes') : bytes = bytes' := by
  induction h with
  | last hpending hcopied hnone =>
    cases h' with
    | last _ hcopied' _ => exact hcopied.unique hcopied'
    | later h' =>
      obtain ⟨a, ha, hpending'⟩ := h'.pending
      exact absurd hpending' (hnone a ha)
  | later h ih =>
    cases h' with
    | last _ _ hnone =>
      obtain ⟨a, ha, hpending⟩ := h.pending
      exact absurd hpending (hnone a ha)
    | later h' => exact ih h'

def Apart (artifacts : List RunArtifact) : Prop :=
  ∀ a ∈ artifacts, ∀ b ∈ artifacts, IsWrite a →
    components b.relPath <+: components a.relPath →
      IsWrite b ∧ components b.relPath = components a.relPath

structure Consistent (host : ApplyHost) (root : ProjectRoot) (artifacts : List RunArtifact) :
    Prop where
  apart : Apart artifacts
  clear : ∀ a ∈ artifacts, IsWrite a → ∀ q, q <+: (components a.relPath).dropLast →
    ∀ leaf, root.node q ≠ some (.file leaf)
  once : artifacts.Pairwise (fun a b => IsDelete a → IsDelete b →
    components a.relPath = components b.relPath → root.node (components a.relPath) = none)
  copied : ∀ a ∈ artifacts, IsWrite a → ¬ Settled host root a →
    ∃ bytes, Copied host artifacts a bytes
  verified : ∀ a ∈ artifacts, IsWrite a → ∀ bytes,
    LastWrite host root artifacts (components a.relPath) (inOrder artifacts) bytes →
      Verified host a bytes

inductive Effect (host : ApplyHost) (root : ProjectRoot) (artifacts : List RunArtifact)
    (art : RunArtifact) (t t' : ProjectRoot) : Prop
  | kept : Settled host root art → t' = t → Effect host root artifacts art t t'
  | wrote (bytes : Bytes) : IsWrite art → ¬ Settled host root art →
      Copied host artifacts art bytes →
      (∀ q, t'.node q = if q = components art.relPath then some (.file (.regular bytes))
        else grown t (components art.relPath).dropLast q) →
      Effect host root artifacts art t t'
  | removed : IsDelete art → t.IsFile (components art.relPath) →
      (∀ q, t'.node q = if q = components art.relPath then none else t.node q) →
      Effect host root artifacts art t t'

inductive Effects (host : ApplyHost) (root : ProjectRoot) (artifacts : List RunArtifact) :
    ProjectRoot → List RunArtifact → ProjectRoot → Prop
  | nil (t : ProjectRoot) : Effects host root artifacts t [] t
  | cons {art : RunArtifact} {rest : List RunArtifact} {t t' t'' : ProjectRoot} :
      Effect host root artifacts art t t' → Effects host root artifacts t' rest t'' →
      Effects host root artifacts t (art :: rest) t''

theorem Effects.snoc {t t' t'' : ProjectRoot} {done : List RunArtifact}
    (h : Effects host root artifacts t done t') (hlast : Effect host root artifacts art t' t'') :
    Effects host root artifacts t (done ++ [art]) t'' := by
  induction h with
  | nil t => exact .cons hlast (.nil _)
  | cons hfirst _ ih => exact .cons hfirst (ih hlast)

theorem step_cases (hcan : CanApply host root art) (hmem : art ∈ artifacts) (s : Progress) :
    StepFailed s (step host root artifacts s art) ∨
      ((step host root artifacts s art).failed = s.failed ∧
        Effect host root artifacts art s.root (step host root artifacts s art).root) := by
  have hrel := planOne_relPath host root art
  have hwrite : (planOne host root art).action = .create ∨
      (planOne host root art).action = .overwrite →
      step host root artifacts s art = applyWrite host artifacts s (planOne host root art) := by
    rintro (haction | haction)
    · simp only [step, applyItem, haction]
    · simp only [step, applyItem, haction]
  have hplanned := hcan.planned
  generalize haction : (planOne host root art).action = action at hplanned hwrite
  cases hplanned with
  | noop hsettled =>
    right
    have hsame : step host root artifacts s art = s := by simp only [step, applyItem, haction]
    rw [hsame]
    exact ⟨rfl, .kept hsettled rfl⟩
  | write _ hkind hiswrite hunsettled _ =>
    rw [hwrite hkind]
    rcases applyWrite_cases host artifacts s (planOne host root art) with
      ⟨hnone, _⟩ | hfailed | ⟨bytes, hdone⟩
    · rw [hrel] at hnone
      have hself := List.find?_eq_none.mp hnone art hmem
      simp at hself
    · exact Or.inl hfailed
    · right
      have hread := hdone.read
      have hnode := hdone.node
      rw [hrel] at hread hnode
      exact ⟨hdone.failed, .wrote bytes hiswrite hunsettled hread hnode⟩
  | delete hkind _ =>
    have heq : step host root artifacts s art =
        applyDelete host s (planOne host root art) := by
      simp only [step, applyItem, haction]
    rw [heq]
    rcases applyDelete_cases host s (planOne host root art) with hfailed | ⟨hfailed, hfile, hnode⟩
    · exact Or.inl hfailed
    · right
      rw [hrel] at hfile hnode
      refine ⟨hfailed, .removed hkind hfile ?_⟩
      intro q
      rw [hnode]
      by_cases hq : q = components art.relPath
      · rw [hq, Function.update_self, if_pos rfl]
      · rw [Function.update_of_ne hq, if_neg hq]

theorem foldl_failed_le (happly : Applicable host root artifacts) (hl : ∀ a ∈ l, a ∈ artifacts)
    (s : Progress) : s.failed ≤ (l.foldl (step host root artifacts) s).failed := by
  induction l generalizing s with
  | nil => exact Nat.le_refl _
  | cons a l ih =>
    have hmem := hl a List.mem_cons_self
    have hrest := ih (fun b hb => hl b (List.mem_cons_of_mem a hb)) (step host root artifacts s a)
    rw [List.foldl_cons]
    rcases step_cases (planOne_canApply (happly a hmem)) hmem s with hfailed | ⟨hfailed, _⟩
    · have hone := hfailed.failed
      omega
    · omega

variable {s : Progress}

theorem foldl_effects (happly : Applicable host root artifacts) (hl : ∀ a ∈ l, a ∈ artifacts)
    (h : (l.foldl (step host root artifacts) s).failed = s.failed) :
    Effects host root artifacts s.root l (l.foldl (step host root artifacts) s).root := by
  induction l generalizing s with
  | nil => exact .nil _
  | cons a l ih =>
    have hmem := hl a List.mem_cons_self
    have hl' : ∀ b ∈ l, b ∈ artifacts := fun b hb => hl b (List.mem_cons_of_mem a hb)
    have hrest := foldl_failed_le happly hl' (step host root artifacts s a)
    rw [List.foldl_cons] at h ⊢
    rcases step_cases (planOne_canApply (happly a hmem)) hmem s with hfailed | ⟨hfailed, heffect⟩
    · have hone := hfailed.failed
      omega
    · exact .cons heffect (ih hl' (h.trans hfailed.symm))

variable {t t' : ProjectRoot} {done : List RunArtifact} {q par : Path} {leaf : Leaf}

theorem grown_file :
    grown t par q = some (.file leaf) ↔ t.node q = some (.file leaf) := by
  by_cases hq : q <+: par ∧ t.node q = none
  · simp [grown, hq]
  · rw [grown, if_neg hq]

theorem grown_from {node : Node Leaf} (h : grown t par q = some node) :
    t.node q = some node ∨ node = .dir ∧ q <+: par := by
  by_cases hq : q <+: par ∧ t.node q = none
  · rw [grown, if_pos hq] at h
    cases h
    exact Or.inr ⟨rfl, hq.1⟩
  · rw [grown, if_neg hq] at h
    exact Or.inl h

theorem grown_apart (h : ¬ q <+: par) : grown t par q = t.node q := by
  rw [grown, if_neg (fun hand => h hand.1)]

theorem Effects.node_from {node : Node Leaf} (h : Effects host root artifacts t done t')
    (hq : t'.node q = some node) : t.node q = some node ∨ ∃ b ∈ done, IsWrite b ∧
      (components b.relPath = q ∧ (∃ bytes, node = .file (.regular bytes)) ∨
        node = .dir ∧ q <+: (components b.relPath).dropLast) := by
  induction h with
  | nil t => exact Or.inl hq
  | @cons a rest t u t' heffect _ ih =>
    rcases ih hq with hmid | ⟨b, hb, hrest⟩
    · cases heffect with
      | kept _ hsame =>
        rw [hsame] at hmid
        exact Or.inl hmid
      | wrote bytes hwrite _ _ hnode =>
        rw [hnode q] at hmid
        split at hmid
        next htarget =>
          cases hmid
          exact Or.inr ⟨a, List.mem_cons_self, hwrite, Or.inl ⟨htarget.symm, bytes, rfl⟩⟩
        · rcases grown_from hmid with hbefore | habove
          · exact Or.inl hbefore
          · exact Or.inr ⟨a, List.mem_cons_self, hwrite, Or.inr habove⟩
      | removed _ _ hnode =>
        rw [hnode q] at hmid
        split at hmid
        · cases hmid
        · exact Or.inl hmid
    · exact Or.inr ⟨b, List.mem_cons_of_mem a hb, hrest⟩

theorem Effects.symlink_from (h : Effects host root artifacts t done t')
    (hq : t'.node q = some (.file .symlink)) : t.node q = some (.file .symlink) := by
  rcases h.node_from hq with hbefore | ⟨_, _, _, ⟨_, bytes, heq⟩ | ⟨heq, _⟩⟩
  · exact hbefore
  · cases heq
  · cases heq

theorem Effects.others (h : Effects host root artifacts t done t')
    (hq : ∀ b ∈ done, components b.relPath ≠ q) (leaf : Leaf) :
    t'.node q = some (.file leaf) ↔ t.node q = some (.file leaf) := by
  induction h with
  | nil t => exact Iff.rfl
  | @cons a rest t u t' heffect _ ih =>
    have hne : q ≠ components a.relPath := (hq a List.mem_cons_self).symm
    rw [ih (fun b hb => hq b (List.mem_cons_of_mem a hb))]
    cases heffect with
    | kept _ hsame => rw [hsame]
    | wrote bytes _ _ _ hnode => rw [hnode q, if_neg hne, grown_file]
    | removed _ _ hnode => rw [hnode q, if_neg hne]

theorem Effects.written (h : Effects host root artifacts t done t')
    (hwrites : ∀ b ∈ done, components b.relPath = q → IsWrite b)
    (habove : ∀ b ∈ done, IsWrite b → ¬ q <+: (components b.relPath).dropLast) :
    ((∀ b ∈ done, ¬ PendingAt host root q b) ∧ t'.node q = t.node q) ∨
      ∃ bytes, LastWrite host root artifacts q done bytes ∧
        t'.node q = some (.file (.regular bytes)) := by
  induction h with
  | nil t => exact Or.inl ⟨by simp, rfl⟩
  | @cons a rest t u t' heffect _ ih =>
    rcases ih (fun b hb => hwrites b (List.mem_cons_of_mem a hb))
      (fun b hb => habove b (List.mem_cons_of_mem a hb)) with
      ⟨hnone, hsame⟩ | ⟨bytes, hlast, hnode⟩
    · have hskip : ¬ PendingAt host root q a → u.node q = t.node q →
          ((∀ b ∈ a :: rest, ¬ PendingAt host root q b) ∧ t'.node q = t.node q) := by
        intro hnot hu
        refine ⟨?_, hsame.trans hu⟩
        intro b hb
        rcases List.mem_cons.mp hb with rfl | hb
        · exact hnot
        · exact hnone b hb
      cases heffect with
      | kept hsettled hu =>
        left
        exact hskip (fun hpending => hpending.unsettled hsettled) (by rw [hu])
      | wrote bytes hwrite hunsettled hcopied hnode =>
        by_cases htarget : q = components a.relPath
        · right
          refine ⟨bytes, .last ⟨hwrite, htarget.symm, hunsettled⟩ hcopied hnone, ?_⟩
          rw [hsame, hnode q, if_pos htarget]
        · left
          apply hskip (fun hpending => htarget hpending.target.symm)
          rw [hnode q, if_neg htarget, grown_apart (habove a List.mem_cons_self hwrite)]
      | removed hdelete _ hnode =>
        left
        have htarget : q ≠ components a.relPath := fun heq =>
          not_isDelete (hwrites a List.mem_cons_self heq.symm) hdelete
        apply hskip (fun hpending => htarget hpending.target.symm)
        rw [hnode q, if_neg htarget]
    · exact Or.inr ⟨bytes, .later hlast, hnode⟩

theorem Effects.deleted (h : Effects host root artifacts t done t')
    (hdeletes : ∀ b ∈ done, components b.relPath = q → IsDelete b)
    (habove : ∀ b ∈ done, IsWrite b → ¬ q <+: (components b.relPath).dropLast) :
    ((∀ b ∈ done, components b.relPath = q → Settled host root b) ∧ t'.node q = t.node q) ∨
      t'.node q = none := by
  induction h with
  | nil t => exact Or.inl ⟨by simp, rfl⟩
  | @cons a rest t u t' heffect _ ih =>
    rcases ih (fun b hb => hdeletes b (List.mem_cons_of_mem a hb))
      (fun b hb => habove b (List.mem_cons_of_mem a hb)) with ⟨hsettled, hsame⟩ | hnone
    · have hskip : (components a.relPath = q → Settled host root a) → u.node q = t.node q →
          ((∀ b ∈ a :: rest, components b.relPath = q → Settled host root b) ∧
            t'.node q = t.node q) := by
        intro ha hu
        refine ⟨?_, hsame.trans hu⟩
        intro b hb
        rcases List.mem_cons.mp hb with rfl | hb
        · exact ha
        · exact hsettled b hb
      cases heffect with
      | kept hsettledA hu =>
        left
        exact hskip (fun _ => hsettledA) (by rw [hu])
      | wrote bytes hwrite _ _ hnode =>
        left
        have htarget : q ≠ components a.relPath := fun heq =>
          not_isDelete hwrite (hdeletes a List.mem_cons_self heq.symm)
        apply hskip (fun heq => absurd heq.symm htarget)
        rw [hnode q, if_neg htarget, grown_apart (habove a List.mem_cons_self hwrite)]
      | removed _ _ hnode =>
        by_cases htarget : q = components a.relPath
        · right
          rw [hsame, hnode q, if_pos htarget]
        · left
          apply hskip (fun heq => absurd heq.symm htarget)
          rw [hnode q, if_neg htarget]
    · exact Or.inr hnone

theorem Effects.delete_settled (h : Effects host root artifacts t done t')
    (hwrites : ∀ b ∈ done, IsWrite b → ¬ q <+: components b.relPath) (hq : t.node q = none) :
    ∀ b ∈ done, IsDelete b → components b.relPath = q → Settled host root b := by
  induction h with
  | nil t => simp
  | @cons a rest t u t' heffect _ ih =>
    have hrest := ih (fun b hb => hwrites b (List.mem_cons_of_mem a hb))
    have hboth : (IsDelete a → components a.relPath = q → Settled host root a) ∧
        u.node q = none := by
      cases heffect with
      | kept hsettled hu => exact ⟨fun _ _ => hsettled, by rw [hu]; exact hq⟩
      | wrote bytes hwrite _ _ hnode =>
        have hapart := hwrites a List.mem_cons_self hwrite
        have htarget : q ≠ components a.relPath := fun heq => hapart (heq ▸ List.prefix_refl _)
        refine ⟨fun hdelete => absurd hdelete (not_isDelete hwrite), ?_⟩
        rw [hnode q, if_neg htarget,
          grown_apart (fun hpre => hapart (hpre.trans (List.dropLast_prefix _)))]
        exact hq
      | removed _ hfile hnode =>
        by_cases htarget : q = components a.relPath
        · obtain ⟨leaf, hleaf⟩ := hfile
          rw [← htarget, hq] at hleaf
          cases hleaf
        · refine ⟨fun _ heq => absurd heq.symm htarget, ?_⟩
          rw [hnode q, if_neg htarget]
          exact hq
    intro b hb hdelete htarget
    rcases List.mem_cons.mp hb with rfl | hb
    · exact hboth.1 hdelete htarget
    · exact hrest hboth.2 b hb hdelete htarget

theorem not_prefix_dropLast {p : Path} (hne : q ≠ []) (hlen : q.length ≤ p.length) :
    ¬ p <+: q.dropLast := by
  intro hpre
  have hle := hpre.length_le
  have hpos := List.length_pos_iff.mpr hne
  rw [List.length_dropLast] at hle
  omega

theorem applyWrite_ok {s : Progress} {item : ApplyPlanItem} {first : RunArtifact}
    {entry : SourceEntry} {bytes : Bytes}
    (hfind : artifacts.find? (fun a => a.relPath = item.relPath) = some first)
    (hsource : host.source first.workspace item.relPath = some entry)
    (hread : entry.read = .ok bytes)
    (hstraight : crossedSymlink s.root [] (components item.relPath) = none)
    (hclear : ∀ q, q <+: (components item.relPath).dropLast →
      ∀ leaf, s.root.node q ≠ some (.file leaf))
    (hdir : ¬ s.root.IsDir (components item.relPath)) :
    (applyWrite host artifacts s item).failed = s.failed := by
  have hroot : s.root.IsDir [] := s.root.root_dir
  have htarget : resolveTarget s.root item.relPath = .ok (components item.relPath) := by
    simp only [resolveTarget, hstraight]
  obtain ⟨mid, hmkdir⟩ := createDirAll_ok hroot hclear
  obtain ⟨hparent, hgrown⟩ := createDirAll_eq_ok hroot hmkdir
  rw [List.nil_append] at hparent hgrown
  have hmidDir : ¬ mid.IsDir (components item.relPath) := by
    rw [FileTree.IsDir, hgrown, grown_apart
      (not_prefix_dropLast (components_ne_nil _) (Nat.le_refl _))]
    exact hdir
  obtain ⟨after, hwrite, _⟩ := FileTree.write_ok (Leaf.regular bytes)
    ⟨components_ne_nil item.relPath, hparent⟩ hmidDir
  simp only [applyWrite, hfind, htarget, hmkdir, copyFile, hsource, hread, hwrite]

theorem applyDelete_ok {item : ApplyPlanItem}
    (hstraight : crossedSymlink s.root [] (components item.relPath) = none)
    (hfile : s.root.IsFile (components item.relPath)) :
    (applyDelete host s item).failed = s.failed := by
  have htarget : resolveTarget s.root item.relPath = .ok (components item.relPath) := by
    simp only [resolveTarget, hstraight]
  obtain ⟨after, hremove, _⟩ := FileTree.removeFile_ok hfile
  simp only [applyDelete, htarget, hremove]

theorem Effects.straight (h : Effects host root artifacts t done t') {comps : List String}
    (hstraight : crossedSymlink t [] comps = none) : crossedSymlink t' [] comps = none := by
  have hbefore := crossedSymlink_none_iff.mp hstraight
  refine crossedSymlink_none_iff.mpr ?_
  intro q hne hq hlink
  exact hbefore q hne hq (h.symlink_from hlink)

theorem step_succeeds (happly : Applicable host root artifacts)
    (hc : Consistent host root artifacts) (hmem : art ∈ artifacts)
    (hdone : ∀ b ∈ done, b ∈ artifacts) (h : Effects host root artifacts root done s.root)
    (honce : IsDelete art → ∀ b ∈ done, IsDelete b →
      components b.relPath = components art.relPath → root.node (components art.relPath) = none) :
    (step host root artifacts s art).failed = s.failed := by
  have hcan := planOne_canApply (happly art hmem)
  have hrel := planOne_relPath host root art
  have hstraight := h.straight hcan.path.straight
  have hplanned := hcan.planned
  have hshape : ∀ q, q <+: (components art.relPath).dropLast →
      q <+: components art.relPath ∧ q ≠ components art.relPath := by
    intro q hq
    refine ⟨hq.trans (List.dropLast_prefix _), ?_⟩
    rintro rfl
    exact not_prefix_dropLast (components_ne_nil _) (Nat.le_refl _) hq
  generalize haction : (planOne host root art).action = action at hplanned
  cases hplanned with
  | noop _ => simp only [step, applyItem, haction]
  | write _ hkind hwrite hunsettled hdir =>
    obtain ⟨bytes, first, entry, hfind, hsource, hread⟩ := hc.copied art hmem hwrite hunsettled
    have hstep : step host root artifacts s art =
        applyWrite host artifacts s (planOne host root art) := by
      rcases hkind with rfl | rfl
      · simp only [step, applyItem, haction]
      · simp only [step, applyItem, haction]
    rw [hstep]
    refine @applyWrite_ok host artifacts s _ first entry bytes ?_ ?_ hread ?_ ?_ ?_
    · rw [hrel]
      exact hfind
    · rw [hrel]
      exact hsource
    · rw [hrel]
      exact hstraight
    · rw [hrel]
      intro q hq leaf hleaf
      rcases h.node_from hleaf with hbefore | ⟨b, hb, _, ⟨htarget, _⟩ | ⟨heq, _⟩⟩
      · exact hc.clear art hmem hwrite q hq leaf hbefore
      · obtain ⟨hpre, hne⟩ := hshape q hq
        have hsame := (hc.apart art hmem b (hdone b hb) hwrite (htarget ▸ hpre)).2
        exact hne (htarget.symm.trans hsame)
      · cases heq
    · rw [hrel]
      intro hafter
      rcases h.node_from hafter with hbefore | ⟨b, hb, hbwrite, ⟨_, bytes, heq⟩ | ⟨_, habove⟩⟩
      · exact hdir hbefore
      · cases heq
      · have hpre := habove.trans (List.dropLast_prefix _)
        have hsame := (hc.apart b (hdone b hb) art hmem hbwrite hpre).2
        rw [hsame] at habove
        exact not_prefix_dropLast (components_ne_nil _) (Nat.le_refl _) habove
  | delete hdelete hfile =>
    have hstep : step host root artifacts s art =
        applyDelete host s (planOne host root art) := by
      simp only [step, applyItem, haction]
    obtain ⟨leaf, hleaf⟩ := hfile
    have hothers : ∀ b ∈ done, components b.relPath ≠ components art.relPath := by
      intro b hb htarget
      rcases (planOne_canApply (happly b (hdone b hb))).kind with hwrite | hbdelete
      · have hpre : components art.relPath <+: components b.relPath := by
          rw [htarget]
        exact not_isDelete (hc.apart b (hdone b hb) art hmem hwrite hpre).1 hdelete
      · have hnone := honce hdelete b hb hbdelete htarget
        rw [hleaf] at hnone
        cases hnone
    rw [hstep]
    apply applyDelete_ok
    · rw [hrel]
      exact hstraight
    · rw [hrel]
      exact ⟨leaf, (h.others hothers leaf).mpr hleaf⟩

theorem once_inOrder (hc : Consistent host root artifacts) :
    (inOrder artifacts).Pairwise (fun a b => IsDelete a → IsDelete b →
      components a.relPath = components b.relPath → root.node (components a.relPath) = none) := by
  refine (List.Perm.pairwise_iff ?_ (List.mergeSort_perm artifacts _)).mpr hc.once
  intro a b hab hb ha htarget
  rw [htarget]
  exact hab ha hb htarget.symm

theorem foldl_succeeds (happly : Applicable host root artifacts)
    (hc : Consistent host root artifacts) {rest : List RunArtifact} {s : Progress}
    (horder : inOrder artifacts = done ++ rest)
    (h : Effects host root artifacts root done s.root) :
    (rest.foldl (step host root artifacts) s).failed = s.failed := by
  induction rest generalizing s done with
  | nil => rfl
  | cons a rest ih =>
    have hmem : ∀ b ∈ done ++ a :: rest, b ∈ artifacts := by
      intro b hb
      rw [← horder] at hb
      exact mem_inOrder.mp hb
    have ha : a ∈ artifacts := hmem a (by simp)
    have hdone : ∀ b ∈ done, b ∈ artifacts := fun b hb => hmem b (List.mem_append_left _ hb)
    have honce : IsDelete a → ∀ b ∈ done, IsDelete b →
        components b.relPath = components a.relPath → root.node (components a.relPath) = none := by
      intro hadelete b hb hbdelete htarget
      have hpair := once_inOrder hc
      rw [horder] at hpair
      have hnone := (List.pairwise_append.mp hpair).2.2 b hb a List.mem_cons_self hbdelete
        hadelete htarget
      rwa [htarget] at hnone
    have hstep := step_succeeds happly hc ha hdone h honce
    have heffect : Effect host root artifacts a s.root (step host root artifacts s a).root := by
      rcases step_cases (planOne_canApply (happly a ha)) ha s with hfailed | ⟨_, heffect⟩
      · have hone := hfailed.failed
        omega
      · exact heffect
    rw [List.foldl_cons, ih (by rw [horder]; simp) (h.snoc heffect), hstep]

theorem planOne_settled (hopen : Open t art) (hkind : IsWrite art ∨ IsDelete art)
    (hsource : IsWrite art → ∃ bytes, host.source art.workspace art.relPath = some (.file bytes))
    (hsettled : Settled host t art) : (planOne host t art).action = .noop := by
  have htarget : resolveTarget t art.relPath = .ok (components art.relPath) := by
    simp only [resolveTarget, hopen.straight]
  rcases hkind with hwrite | hdelete
  · obtain ⟨bytes, hbytes⟩ := hsource hwrite
    obtain ⟨content, ⟨hlen, hhash⟩, hnode⟩ := hsettled.written hwrite
    have hfile := hashFileHex_regular host hnode hlen
    rcases hwrite with hcreated | hmodified
    · simp [planOne, hopen.safe, hopen.included, htarget, hcreated, planCreated, hbytes,
        SourceEntry.isFile, hnode, hfile, hhash, planItem]
    · simp [planOne, hopen.safe, hopen.included, htarget, hmodified, planModified, hbytes,
        SourceEntry.isFile, hnode, hfile, hhash, planItem]
  · have hnode := hsettled.deleted hdelete
    have hkind : art.kind = "deleted" := hdelete
    simp [planOne, hopen.safe, hopen.included, htarget, hkind, planDeleted, hnode, planItem]

theorem settled_of_noop (h : (planOne host t art).action = .noop) : Settled host t art := by
  have hcan := planOne_canApply ((planOne_isItem host t art).canApply (by rw [h]; simp))
  have hplanned := hcan.planned
  rw [h] at hplanned
  cases hplanned with
  | noop hsettled => exact hsettled
  | write _ hkind =>
    rcases hkind with heq | heq
    · cases heq
    · cases heq

variable {name : String}

theorem applyRun_settled (hroot : host.validateProjectRoot = .ok name)
    (h : ∀ a ∈ artifacts, (planOne host t a).action = .noop) :
    ∃ o, applyRun host t artifacts = (.ok o, t) ∧ ∀ i ∈ o.plan.items, i.action = .noop := by
  have happly : Applicable host t artifacts := fun a ha =>
    (planOne_isItem host t a).canApply (by rw [h a ha]; simp)
  have hrun : ∀ l : List RunArtifact, (∀ a ∈ l, a ∈ artifacts) → ∀ s,
      l.foldl (step host t artifacts) s = s := by
    intro l hl
    induction l with
    | nil => exact fun s => rfl
    | cons a l ih =>
      intro s
      have ha := h a (hl a List.mem_cons_self)
      have hstep : step host t artifacts s a = s := by simp only [step, applyItem, ha]
      rw [List.foldl_cons, hstep]
      exact ih (fun b hb => hl b (List.mem_cons_of_mem a hb)) s
  obtain ⟨plan, hitems, hcases⟩ := applyRun_cases hroot t artifacts
  rcases hcases with ⟨hnot, _⟩ | ⟨_, heq⟩
  · exact absurd happly hnot
  · have hsame : run host t artifacts = ⟨t, 0, 0, []⟩ :=
      hrun _ (fun a ha => mem_inOrder.mp ha) _
    rw [hsame] at heq
    refine ⟨_, heq, ?_⟩
    intro i hi
    have hplanned : i ∈ planItems host t artifacts := hitems ▸ hi
    rw [planItems_eq] at hplanned
    obtain ⟨a, ha, rfl⟩ := List.mem_map.mp hplanned
    exact h a (mem_inOrder.mp ha)

structure Applied (host : ApplyHost) (root : ProjectRoot) (artifacts : List RunArtifact)
    (result : Except String ApplyOutcome × ProjectRoot) : Prop where
  status : ∃ o, result.1 = .ok o ∧ o.status = .applied
  written : ∀ a ∈ artifacts, IsWrite a → ∃ bytes,
    result.2.node (components a.relPath) = some (.file (.regular bytes)) ∧
      ∀ h, a.hash = some h → host.hashHex bytes = h
  deleted : ∀ a ∈ artifacts, IsDelete a → result.2.node (components a.relPath) = none
  others : ∀ q, (∀ a ∈ artifacts, components a.relPath ≠ q) → ∀ leaf,
    result.2.node q = some (.file leaf) ↔ root.node q = some (.file leaf)
  again : ∃ o, applyRun host result.2 artifacts = (.ok o, result.2) ∧
    ∀ i ∈ o.plan.items, i.action = .noop

def AllOrNothing (host : ApplyHost) (root : ProjectRoot) (artifacts : List RunArtifact) : Prop :=
  ((applyRun host root artifacts).2 = root ∧
    ((∃ e, (applyRun host root artifacts).1 = .error e) ∨
      ∃ o, (applyRun host root artifacts).1 = .ok o ∧ o.status = .conflicted)) ∨
    Applied host root artifacts (applyRun host root artifacts)

theorem Apart.above (h : Apart artifacts) (hmem : art ∈ artifacts) :
    ∀ b ∈ inOrder artifacts, IsWrite b →
      ¬ components art.relPath <+: (components b.relPath).dropLast := by
  intro b hb hwrite hpre
  have hle := hpre.trans (List.dropLast_prefix _)
  have hsame := (h b (mem_inOrder.mp hb) art hmem hwrite hle).2
  rw [hsame] at hpre
  exact not_prefix_dropLast (components_ne_nil _) (Nat.le_refl _) hpre

theorem Apart.writes (h : Apart artifacts) (hmem : art ∈ artifacts) (hwrite : IsWrite art) :
    ∀ b ∈ inOrder artifacts, components b.relPath = components art.relPath → IsWrite b := by
  intro b hb htarget
  have hpre : components b.relPath <+: components art.relPath := by rw [htarget]
  exact (h art hmem b (mem_inOrder.mp hb) hwrite hpre).1

theorem Consistent.settled (hc : Consistent host root artifacts)
    (happly : Applicable host root artifacts)
    (h : Effects host root artifacts root (inOrder artifacts) t') (hmem : art ∈ artifacts) :
    Settled host t' art := by
  constructor
  · intro hwrite
    rcases h.written (hc.apart.writes hmem hwrite) (hc.apart.above hmem) with ⟨hnone, hsame⟩ | ⟨bytes, hlast, hnode⟩
    · have hsettled : Settled host root art := by
        by_contra hunsettled
        exact hnone art (mem_inOrder.mpr hmem) ⟨hwrite, rfl, hunsettled⟩
      obtain ⟨bytes, hverified, hnode⟩ := hsettled.written hwrite
      exact ⟨bytes, hverified, hsame.trans hnode⟩
    · exact ⟨bytes, hc.verified art hmem hwrite bytes hlast, hnode⟩
  · intro hdelete
    have hdeletes : ∀ b ∈ inOrder artifacts, components b.relPath = components art.relPath →
        IsDelete b := by
      intro b hb htarget
      rcases (planOne_canApply (happly b (mem_inOrder.mp hb))).kind with hwrite | hbdelete
      · have hpre : components art.relPath <+: components b.relPath := by rw [htarget]
        have hartwrite := (hc.apart b (mem_inOrder.mp hb) art hmem hwrite hpre).1
        exact absurd hdelete (not_isDelete hartwrite)
      · exact hbdelete
    rcases h.deleted hdeletes (hc.apart.above hmem) with ⟨hsettled, hsame⟩ | hnone
    · rw [hsame]
      exact (hsettled art (mem_inOrder.mpr hmem) rfl).deleted hdelete
    · exact hnone

theorem Effects.mem (h : Effects host root artifacts t done t') (hart : art ∈ done) :
    ∃ u v, Effect host root artifacts art u v := by
  induction h with
  | nil t => cases hart
  | cons heffect _ ih =>
    rcases List.mem_cons.mp hart with rfl | hrest
    · exact ⟨_, _, heffect⟩
    · exact ih hrest

theorem Effects.once (h : Effects host root artifacts t done t')
    (hapart : Apart artifacts) (hdone : ∀ a ∈ done, a ∈ artifacts) :
    done.Pairwise (fun a b => IsDelete a → IsDelete b →
      components a.relPath = components b.relPath → root.node (components a.relPath) = none) := by
  induction h with
  | nil t => exact List.Pairwise.nil
  | @cons a rest t u t' heffect hrest ih =>
    refine List.pairwise_cons.mpr ⟨?_, ih (fun b hb => hdone b (List.mem_cons_of_mem a hb))⟩
    intro b hb hadelete hbdelete htarget
    have hnowrite : ∀ c ∈ rest, IsWrite c → ¬ components b.relPath <+: components c.relPath := by
      intro c hc hwrite hpre
      have hbwrite := (hapart c (hdone c (List.mem_cons_of_mem a hc)) b
        (hdone b (List.mem_cons_of_mem a hb)) hwrite hpre).1
      exact not_isDelete hbwrite hbdelete
    cases heffect with
    | kept hasettled _ => exact hasettled.deleted hadelete
    | wrote _ hwrite => exact absurd hadelete (not_isDelete hwrite)
    | removed _ _ hnode =>
      have hgone : u.node (components b.relPath) = none := by
        rw [hnode, if_pos htarget.symm]
      have hbsettled := hrest.delete_settled hnowrite hgone b hb hbdelete rfl
      rw [htarget]
      exact hbsettled.deleted hbdelete

theorem consistent_of_settled (happly : Applicable host root artifacts)
    (h : Effects host root artifacts root (inOrder artifacts) t')
    (hsettled : ∀ a ∈ artifacts, Settled host t' a) : Consistent host root artifacts := by
  have hapart : Apart artifacts := by
    intro a ha b hb hwrite hpre
    obtain ⟨bytes, _, hnode⟩ := (hsettled a ha).written hwrite
    by_cases hsame : components b.relPath = components a.relPath
    · rcases (planOne_canApply (happly b hb)).kind with hbwrite | hbdelete
      · exact ⟨hbwrite, hsame⟩
      · have hnone := (hsettled b hb).deleted hbdelete
        rw [hsame, hnode] at hnone
        cases hnone
    · have hdir : t'.node (components b.relPath) = some .dir :=
        FileTree.isDir_of_prefix hpre hsame (by rw [hnode]; simp)
      rcases (planOne_canApply (happly b hb)).kind with hbwrite | hbdelete
      · obtain ⟨bytes', _, hnode'⟩ := (hsettled b hb).written hbwrite
        rw [hdir] at hnode'
        cases hnode'
      · have hnone := (hsettled b hb).deleted hbdelete
        rw [hdir] at hnone
        cases hnone
  refine ⟨hapart, ?_, ?_, ?_, ?_⟩
  · intro a ha hwrite q hq leaf hleaf
    have hpre := hq.trans (List.dropLast_prefix (components a.relPath))
    have hne : q ≠ components a.relPath := by
      rintro rfl
      exact not_prefix_dropLast (components_ne_nil _) (Nat.le_refl _) hq
    obtain ⟨bytes, _, hnode⟩ := (hsettled a ha).written hwrite
    have hdir : t'.node q = some .dir := FileTree.isDir_of_prefix hpre hne (by rw [hnode]; simp)
    have hothers : ∀ b ∈ inOrder artifacts, components b.relPath ≠ q := by
      intro b hb htarget
      have hbpre : components b.relPath <+: components a.relPath := by
        rw [htarget]
        exact hpre
      exact hne (htarget.symm.trans (hapart a ha b (mem_inOrder.mp hb) hwrite hbpre).2)
    have hafter := (h.others hothers leaf).mpr hleaf
    rw [hdir] at hafter
    cases hafter
  · have hpair := h.once hapart (fun a ha => mem_inOrder.mp ha)
    refine (List.Perm.pairwise_iff ?_ (List.mergeSort_perm artifacts _)).mp hpair
    intro a b hab hb ha htarget
    rw [htarget]
    exact hab ha hb htarget.symm
  · intro a ha hwrite hunsettled
    obtain ⟨u, v, heffect⟩ := h.mem (mem_inOrder.mpr ha)
    cases heffect with
    | kept hkept _ => exact absurd hkept hunsettled
    | wrote bytes _ _ hcopied _ => exact ⟨bytes, hcopied⟩
    | removed hdelete _ _ => exact absurd hdelete (not_isDelete hwrite)
  · intro a ha hwrite bytes hlast
    obtain ⟨content, hverified, hnode⟩ := (hsettled a ha).written hwrite
    rcases h.written (hapart.writes ha hwrite) (hapart.above ha) with
      ⟨hnone, _⟩ | ⟨bytes', hlast', hnode'⟩
    · obtain ⟨b, hb, hpending⟩ := hlast.pending
      exact absurd hpending (hnone b hb)
    · rw [hnode] at hnode'
      cases hnode'
      rw [hlast.unique hlast']
      exact hverified

theorem allOrNothing_applicable (hroot : host.validateProjectRoot = .ok name)
    (happly : Applicable host root artifacts) :
    AllOrNothing host root artifacts ↔ Consistent host root artifacts := by
  have hmem : ∀ a ∈ inOrder artifacts, a ∈ artifacts := fun a ha => mem_inOrder.mp ha
  obtain ⟨plan, _, hcases⟩ := applyRun_cases hroot root artifacts
  obtain ⟨_, hrun⟩ := hcases.resolve_left (fun h => h.1 happly)
  constructor
  · rintro (⟨_, ⟨e, he⟩ | ⟨o, ho, hconflicted⟩⟩ | happlied)
    · rw [hrun] at he
      cases he
    · rw [hrun] at ho
      cases ho
      by_cases hfailed : 0 < (run host root artifacts).failed
      · simp [hfailed] at hconflicted
      · simp [hfailed] at hconflicted
    · have hzero : (run host root artifacts).failed = 0 := by
        obtain ⟨o, ho, hstatus⟩ := happlied.status
        rw [hrun] at ho
        cases ho
        by_contra hne
        have hpos : 0 < (run host root artifacts).failed := by omega
        simp [hpos] at hstatus
      have heffects := foldl_effects happly hmem (s := ⟨root, 0, 0, []⟩) hzero
      apply consistent_of_settled happly heffects
      intro a ha
      obtain ⟨o, hagain, hnoop⟩ := happlied.again
      rw [hrun] at hagain
      obtain ⟨plan', hitems', hcases'⟩ :=
        applyRun_cases hroot (run host root artifacts).root artifacts
      have hplan : o.plan.items = planItems host (run host root artifacts).root artifacts := by
        rcases hcases' with ⟨_, hrun'⟩ | ⟨_, hrun'⟩
        · rw [hrun'] at hagain
          cases hagain
          exact hitems'
        · rw [hrun'] at hagain
          have hsame := congrArg Prod.fst hagain
          simp only [Except.ok.injEq] at hsame
          rw [← hsame]
          exact hitems'
      have hitem : planOne host (run host root artifacts).root a ∈ o.plan.items := by
        rw [hplan, planItems_eq]
        exact List.mem_map_of_mem (mem_inOrder.mpr ha)
      exact settled_of_noop (hnoop _ hitem)
  · intro hc
    have hzero : (run host root artifacts).failed = 0 :=
      @foldl_succeeds host root artifacts [] happly hc _ ⟨root, 0, 0, []⟩ rfl (.nil root)
    have heffects := foldl_effects happly hmem (s := ⟨root, 0, 0, []⟩) hzero
    have hsettled : ∀ a ∈ artifacts, Settled host (run host root artifacts).root a :=
      fun a ha => hc.settled happly heffects ha
    have hnoop : ∀ a ∈ artifacts,
        (planOne host (run host root artifacts).root a).action = .noop := by
      intro a ha
      have hcan := planOne_canApply (happly a ha)
      exact planOne_settled ⟨hcan.path.safe, hcan.path.included,
        heffects.straight hcan.path.straight⟩ hcan.kind hcan.source (hsettled a ha)
    rw [AllOrNothing, hrun]
    right
    refine ⟨⟨_, rfl, by simp [hzero]⟩, ?_, ?_, ?_, applyRun_settled hroot hnoop⟩
    · intro a ha hwrite
      obtain ⟨bytes, ⟨_, hhash⟩, hnode⟩ := (hsettled a ha).written hwrite
      refine ⟨bytes, hnode, ?_⟩
      intro h hrecorded
      rw [hhash] at hrecorded
      exact Option.some.inj hrecorded
    · intro a ha hdelete
      exact (hsettled a ha).deleted hdelete
    · intro q hq leaf
      exact heffects.others (fun a ha => hq a (hmem a ha)) leaf

/-- An apply is all or nothing exactly when the artifacts that it does not refuse are
consistent. -/
theorem allOrNothing_iff (host : ApplyHost) (root : ProjectRoot) (artifacts : List RunArtifact) :
    AllOrNothing host root artifacts ↔ ((∃ name, host.validateProjectRoot = .ok name) →
      Applicable host root artifacts → Consistent host root artifacts) := by
  cases hroot : host.validateProjectRoot with
  | error e =>
    have hrun := applyRun_error root artifacts hroot
    refine iff_of_true ?_ (by simp)
    rw [AllOrNothing, hrun]
    exact Or.inl ⟨rfl, Or.inl ⟨e, rfl⟩⟩
  | ok name =>
    by_cases happly : Applicable host root artifacts
    · rw [allOrNothing_applicable hroot happly]
      exact ⟨fun hc _ _ => hc, fun h => h ⟨name, rfl⟩ happly⟩
    · obtain ⟨plan, _, hcases⟩ := applyRun_cases hroot root artifacts
      obtain ⟨_, hrun⟩ := hcases.resolve_right (fun h => happly h.1)
      refine iff_of_true ?_ (fun _ h => absurd h happly)
      rw [AllOrNothing, hrun]
      exact Or.inl ⟨rfl, Or.inr ⟨_, rfl, rfl⟩⟩

theorem rootWithFile_parent {p : Path} {n : String}
    (h : (if p ++ [n] = [] then some .dir
      else if p ++ [n] = ["notes"] then some (.file (.regular []))
      else none : Option (Node Leaf)) ≠ none) :
    (if p = [] then some .dir
      else if p = ["notes"] then some (.file (.regular []))
      else none : Option (Node Leaf)) = some .dir := by
  cases p with
  | nil => rfl
  | cons c p =>
    have hlong : (c :: p) ++ [n] ≠ ["notes"] := by
      intro heq
      have hlen := congrArg List.length heq
      simp at hlen
    rw [if_neg (by simp), if_neg hlong] at h
    exact absurd rfl h

def rootWithFile : ProjectRoot where
  node p :=
    if p = [] then some .dir
    else if p = ["notes"] then some (.file (.regular []))
    else none
  root_dir := rfl
  parent_dir := rootWithFile_parent

def emptyFilesHost : ApplyHost where
  source _ rel := if rel = "a" ∨ rel = "notes/b" then some (.file []) else none
  hashHex _ := "0"
  ioText _ := "error"
  validateProjectRoot := .ok "/project"

def belowFile : List RunArtifact :=
  [⟨"/ws", "a", "created", some "0", none⟩, ⟨"/ws", "notes/b", "created", some "0", none⟩]

/-- The first artifact is applied, the second cannot be. -/
theorem below_file_not_allOrNothing : ¬ AllOrNothing emptyFilesHost rootWithFile belowFile := by
  have happly : Applicable emptyFilesHost rootWithFile belowFile := by
    intro a ha
    rcases List.mem_cons.mp ha with rfl | ha
    · decide +kernel
    · rw [List.mem_singleton.mp ha]
      decide +kernel
  rw [allOrNothing_applicable rfl happly]
  intro hc
  exact hc.clear ⟨"/ws", "notes/b", "created", some "0", none⟩ (by simp [belowFile])
    (Or.inl rfl) ["notes"] (by decide +kernel) (.regular []) rfl

end SafeApply

end Relux
