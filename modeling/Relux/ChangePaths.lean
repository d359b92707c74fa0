import Mathlib.Data.List.Induction
import Relux.Text
import Relux.TextParts

/-! Proposed file changes and the path gate an approved change passes before it is applied. -/

namespace Relux

inductive ProposedChangeAction where
  | replace
  | create
  | rename
  | delete
  deriving DecidableEq, Repr

def maxPathChars : Nat := 400

def isExcludedDir (comp : List Char) : Bool :=
  [".git", ".hg", ".svn", "target", "node_modules", ".relux", ".relix"].any (·.toList == comp)

def isExcludedFile (comp : List Char) : Bool :=
  let lower := toAsciiLowercase comp
  lower == ".env".toList || ".env.".toList.isPrefixOf lower || lower == "id_rsa".toList ||
    lower == "id_ed25519".toList || ".pem".toList.isSuffixOf lower ||
    ".key".toList.isSuffixOf lower || ".pfx".toList.isSuffixOf lower ||
    ".p12".toList.isSuffixOf lower

def capChars (s : List Char) (maxChars : Nat) : List Char :=
  if s.length > maxChars then s.take maxChars else s

def sanitizeSegments : List (List Char) → Option (List (List Char))
  | [] => some []
  | seg :: rest =>
    if seg = [] ∨ seg = ['.'] then sanitizeSegments rest
    else if seg = ['.', '.'] then none
    else if (rest.isEmpty && isExcludedFile seg) || (!rest.isEmpty && isExcludedDir seg) then none
    else (sanitizeSegments rest).map (seg :: ·)

def hasDriveLetter : List Char → Bool
  | c :: ':' :: _ => c.isAlpha
  | _ => false

def sanitizeChangePath (raw : String) : Option String :=
  let trimmed := trimChars raw.toList
  if trimmed.isEmpty then none
  else if trimmed.head? = some '/' ∨ trimmed.head? = some '\\' then none
  else if hasDriveLetter trimmed then none
  else match sanitizeSegments (splitFields (fun c => c == '/' || c == '\\') trimmed) with
    | none => none
    | some [] => none
    | some parts =>
      let capped := capChars (joinFields ['/'] parts) maxPathChars
      if capped.isEmpty then none else some (String.ofList capped)

/-! The paths that the gate of the safe apply lets through. -/

def isPathSep (c : Char) : Bool := c == '/' || c == '\\'

def isKept (seg : List Char) : Bool := seg ≠ [] ∧ seg ≠ ['.']

structure Allowed (segs : List (List Char)) : Prop where
  noParent : ∀ seg ∈ segs, seg ≠ ['.', '.']
  dirs : ∀ seg ∈ segs.dropLast, isExcludedDir seg = false
  file : ∀ seg ∈ segs.getLast?, isExcludedFile seg = false

variable {seg : List Char}

theorem isExcluded_of_not_kept (h : isKept seg = false) :
    isExcludedDir seg = false ∧ isExcludedFile seg = false ∧ seg ≠ ['.', '.'] := by
  simp only [isKept, decide_eq_false_iff_not, not_and_or, not_not] at h
  rcases h with rfl | rfl <;> decide

theorem allowed_single : Allowed [seg] ↔ seg ≠ ['.', '.'] ∧ isExcludedFile seg = false := by
  constructor
  · intro h
    exact ⟨h.noParent seg List.mem_cons_self, h.file seg rfl⟩
  · rintro ⟨hparent, hfile⟩
    exact ⟨by simpa using hparent, by simp, by simpa using hfile⟩

theorem allowed_cons {rest : List (List Char)} (hne : rest ≠ []) :
    Allowed (seg :: rest) ↔ seg ≠ ['.', '.'] ∧ isExcludedDir seg = false ∧ Allowed rest := by
  have hinit := List.dropLast_cons_of_ne_nil (x := seg) hne
  have hlast : (seg :: rest).getLast? = rest.getLast? := by
    rw [List.getLast?_cons, List.getLast?_eq_some_getLast hne, Option.getD_some]
  constructor
  · rintro ⟨hparent, hdirs, hfile⟩
    rw [hinit, List.forall_mem_cons] at hdirs
    rw [List.forall_mem_cons] at hparent
    rw [hlast] at hfile
    exact ⟨hparent.1, hdirs.1, hparent.2, hdirs.2, hfile⟩
  · rintro ⟨hparent, hdir, hrest⟩
    refine ⟨List.forall_mem_cons.mpr ⟨hparent, hrest.noParent⟩, ?_, ?_⟩
    · rw [hinit]
      exact List.forall_mem_cons.mpr ⟨hdir, hrest.dirs⟩
    · rw [hlast]
      exact hrest.file

theorem sanitizeSegments_eq_some {segs parts : List (List Char)} :
    sanitizeSegments segs = some parts ↔ Allowed segs ∧ parts = segs.filter isKept := by
  induction segs generalizing parts with
  | nil =>
    have hnil : Allowed [] := ⟨by simp, by simp, by simp⟩
    simp [sanitizeSegments, hnil, eq_comm]
  | cons seg rest ih =>
    have hallowed : Allowed (seg :: rest) ↔ seg ≠ ['.', '.'] ∧
        ¬((rest.isEmpty && isExcludedFile seg) || (!rest.isEmpty && isExcludedDir seg)) = true ∧
          Allowed rest := by
      cases rest with
      | nil =>
        have hnil : Allowed [] := ⟨by simp, by simp, by simp⟩
        simp [allowed_single, hnil]
      | cons next rest => simp [allowed_cons]
    rw [hallowed]
    by_cases hkept : isKept seg = true
    · have hproper : ¬(seg = [] ∨ seg = ['.']) := by simpa [isKept, not_or] using hkept
      rw [sanitizeSegments, if_neg hproper, List.filter_cons_of_pos hkept]
      by_cases hparent : seg = ['.', '.']
      · simp [hparent]
      rw [if_neg hparent]
      split
      next hexcluded => simp [hexcluded]
      next hfine =>
        simp only [Option.map_eq_some_iff, ih]
        constructor
        · rintro ⟨parts', ⟨hrest, rfl⟩, rfl⟩
          exact ⟨⟨hparent, hfine, hrest⟩, rfl⟩
        · rintro ⟨⟨-, -, hrest⟩, rfl⟩
          exact ⟨_, ⟨hrest, rfl⟩, rfl⟩
    · rw [Bool.not_eq_true] at hkept
      have hdropped : seg = [] ∨ seg = ['.'] := by
        simpa only [isKept, decide_eq_false_iff_not, not_and_or, not_not] using hkept
      obtain ⟨hdir, hfile, hparent⟩ := isExcluded_of_not_kept hkept
      rw [sanitizeSegments, if_pos hdropped, List.filter_cons_of_neg (by simp [hkept]), ih]
      simp [hdir, hfile, hparent]

def rawSegments (raw : String) : List (List Char) := splitFields isPathSep (trimChars raw.toList)

def cutSegments (raw : String) : List (List Char) :=
  cutFields maxPathChars ((rawSegments raw).filter isKept)

variable {ws : List (List Char)}

theorem joinFields_ne_nil (hne : ws ≠ []) (hw : ∀ w ∈ ws, w ≠ []) : joinFields ['/'] ws ≠ [] := by
  cases ws with
  | nil => exact absurd rfl hne
  | cons w ws =>
    have hhead := hw w List.mem_cons_self
    cases ws with
    | nil => exact hhead
    | cons v vs => simp [joinFields]

variable {raw p : String}

theorem sanitizeChangePath_eq_some :
    sanitizeChangePath raw = some p ↔
      (trimChars raw.toList).head? ≠ some '/' ∧ (trimChars raw.toList).head? ≠ some '\\' ∧
        hasDriveLetter (trimChars raw.toList) = false ∧ Allowed (rawSegments raw) ∧
        (rawSegments raw).filter isKept ≠ [] ∧ p.toList = joinFields ['/'] (cutSegments raw) := by
  have hcap : ∀ ws : List (List Char), capChars (joinFields ['/'] ws) maxPathChars =
      joinFields ['/'] (cutFields maxPathChars ws) := by
    intro ws
    rw [joinFields_cutFields]
    unfold capChars
    split
    · rfl
    · rw [List.take_of_length_le (by omega)]
  unfold sanitizeChangePath
  by_cases hempty : (trimChars raw.toList).isEmpty = true
  · rw [if_pos hempty]
    have hnil : rawSegments raw = [[]] := by
      unfold rawSegments
      rw [List.isEmpty_iff.mp hempty]
      rfl
    simp [hnil, isKept]
  rw [if_neg hempty]
  by_cases hsep : (trimChars raw.toList).head? = some '/' ∨ (trimChars raw.toList).head? = some '\\'
  · rw [if_pos hsep]
    rcases hsep with hsep | hsep <;> simp [hsep]
  rw [if_neg hsep]
  rw [not_or] at hsep
  by_cases hdrive : hasDriveLetter (trimChars raw.toList) = true
  · simp [hdrive]
  rw [if_neg hdrive]
  rw [Bool.not_eq_true] at hdrive
  have hsegs : splitFields (fun c => c == '/' || c == '\\') (trimChars raw.toList) =
      rawSegments raw := rfl
  rw [hsegs]
  cases hloop : sanitizeSegments (rawSegments raw) with
  | none =>
    have hnot : ¬Allowed (rawSegments raw) := by
      intro hallowed
      rw [sanitizeSegments_eq_some.mpr ⟨hallowed, rfl⟩] at hloop
      cases hloop
    simp [hnot]
  | some parts =>
    obtain ⟨hallowed, rfl⟩ := sanitizeSegments_eq_some.mp hloop
    cases hkept : (rawSegments raw).filter isKept with
    | nil => simp
    | cons seg rest =>
      have hproper : ∀ w ∈ seg :: rest, w ≠ [] := by
        intro w hw
        rw [← hkept, List.mem_filter] at hw
        intro hnil
        rw [hnil] at hw
        cases hw.2
      have hjoin : ¬(joinFields ['/'] (cutFields maxPathChars (seg :: rest))).isEmpty = true := by
        rw [joinFields_cutFields, List.isEmpty_iff, List.take_eq_nil_iff]
        rintro (h | h)
        · cases h
        · exact joinFields_ne_nil (List.cons_ne_nil _ _) hproper h
      simp only [hcap, if_neg hjoin, cutSegments, hkept, Option.some.injEq]
      constructor
      · rintro rfl
        exact ⟨hsep.1, hsep.2, hdrive, hallowed, List.cons_ne_nil _ _, String.toList_ofList⟩
      · rintro ⟨-, -, -, -, -, h⟩
        rw [← h, String.ofList_toList]

structure SafePath (p : String) : Prop where
  relative : p.toList.head? ≠ some '/' ∧ hasDriveLetter p.toList = false
  slashes : '\\' ∉ p.toList
  proper : ∀ seg ∈ splitFields (· == '/') p.toList, seg ≠ [] ∧ seg ≠ ['.'] ∧ seg ≠ ['.', '.']
  dirs : ∀ seg ∈ (splitFields (· == '/') p.toList).dropLast, isExcludedDir seg = false
  file : ∀ seg ∈ (splitFields (· == '/') p.toList).getLast?, isExcludedFile seg = false
  stable : sanitizeChangePath p = some p

/-- What is kept of a raw path begins as a relative path does, and ends with the name of a file
that may be written. -/
structure SafeEnds (segs : List (List Char)) : Prop where
  first : ∀ seg ∈ segs.head?, hasDriveLetter seg = false ∧ ∀ c ∈ seg.head?, isWhitespace c = false
  last : ∀ seg ∈ segs.getLast?, seg ≠ [] ∧ seg ≠ ['.'] ∧ seg ≠ ['.', '.'] ∧
    isExcludedFile seg = false ∧ ∀ c ∈ seg.getLast?, isWhitespace c = false

theorem cutSegments_ne_nil (h : (rawSegments raw).filter isKept ≠ []) :
    cutSegments raw ≠ [] := cutFields_ne_nil h

theorem cutSegments_free : ∀ seg ∈ cutSegments raw, ∀ c ∈ seg, isPathSep c = false := by
  intro seg hseg c hc
  obtain ⟨whole, hwhole, hprefix⟩ := mem_cutFields hseg
  exact splitFields_free (List.mem_of_mem_filter hwhole) c (List.IsPrefix.subset hprefix hc)

theorem splitFields_cut (hne : cutSegments raw ≠ []) :
    splitFields (· == '/') (joinFields ['/'] (cutSegments raw)) = cutSegments raw ∧
      splitFields isPathSep (joinFields ['/'] (cutSegments raw)) = cutSegments raw := by
  refine ⟨splitFields_join rfl hne ?_, splitFields_join rfl hne cutSegments_free⟩
  intro seg hseg c hc
  have hfree := cutSegments_free seg hseg c hc
  simp only [isPathSep, Bool.or_eq_false_iff] at hfree
  exact hfree.1

variable {w : List Char}

theorem head?_joinFields (hw : w ≠ []) : (joinFields ['/'] (w :: ws)).head? = w.head? := by
  cases ws with
  | nil => rfl
  | cons v vs =>
    rw [joinFields, List.append_assoc, List.head?_append_of_ne_nil _ hw]
    simp

theorem getLast?_joinFields (hne : ws ≠ []) (hlast : ws.getLast hne ≠ []) :
    (joinFields ['/'] ws).getLast? = (ws.getLast hne).getLast? := by
  induction ws with
  | nil => exact absurd rfl hne
  | cons w ws ih =>
    cases ws with
    | nil => rfl
    | cons v vs =>
      have hrest := ih (List.cons_ne_nil v vs) (by simpa using hlast)
      have hsome : (joinFields ['/'] (v :: vs)).getLast? ≠ none := by
        rw [hrest, ne_eq, List.getLast?_eq_none_iff]
        simpa using hlast
      rw [joinFields, List.getLast?_append,
        Option.or_of_isSome (Option.isSome_iff_ne_none.mpr hsome),
        hrest]
      · simp
      · simp

theorem hasDriveLetter_joinFields (hw : w ≠ []) (hfree : ∀ c ∈ w, isPathSep c = false) :
    hasDriveLetter (joinFields ['/'] (w :: ws)) = hasDriveLetter w := by
  cases ws with
  | nil => rfl
  | cons v vs =>
    cases w with
    | nil => exact absurd rfl hw
    | cons c w =>
      cases w with
      | nil => simp [joinFields, hasDriveLetter]
      | cons d w =>
        simp only [joinFields, List.cons_append, hasDriveLetter]
        split <;> simp_all

theorem mem_of_mem_joinFields {c : Char} (h : c ∈ joinFields ['/'] ws) :
    c = '/' ∨ ∃ w ∈ ws, c ∈ w := by
  induction ws with
  | nil => cases h
  | cons w ws ih =>
    cases ws with
    | nil => exact .inr ⟨w, List.mem_cons_self, h⟩
    | cons v vs =>
      rw [joinFields, List.mem_append, List.mem_append, List.mem_singleton] at h
      · rcases h with (hw | hsep) | hrest
        · exact .inr ⟨w, List.mem_cons_self, hw⟩
        · exact .inl hsep
        · rcases ih hrest with hsep | ⟨u, hu, hc⟩
          · exact .inl hsep
          · exact .inr ⟨u, List.mem_cons_of_mem _ hu, hc⟩
      · simp

theorem length_joinFields_filter (f : List Char → Bool) (ws : List (List Char)) :
    (joinFields ['/'] (ws.filter f)).length ≤ (joinFields ['/'] ws).length := by
  have hcons : ∀ (w : List Char) (vs : List (List Char)), vs ≠ [] →
      (joinFields ['/'] (w :: vs)).length = w.length + 1 + (joinFields ['/'] vs).length := by
    intro w vs hvs
    cases vs with
    | nil => exact absurd rfl hvs
    | cons v vs =>
      simp [joinFields]
      omega
  induction ws with
  | nil => simp
  | cons w ws ih =>
    by_cases hnil : ws = []
    · subst hnil
      cases hw : f w <;> simp [hw, joinFields]
    rw [hcons w ws hnil]
    by_cases hw : f w = true
    · rw [List.filter_cons_of_pos hw]
      by_cases hrest : ws.filter f = []
      · rw [hrest]
        simp [joinFields]
        omega
      · rw [hcons w _ hrest]
        omega
    · rw [List.filter_cons_of_neg hw]
      omega

theorem length_joinFields_splitFields (sep : Char → Bool) (s : List Char) :
    (joinFields ['/'] (splitFields sep s)).length = s.length := by
  induction s with
  | nil => rfl
  | cons c s ih =>
    obtain ⟨w, ws, hws⟩ := List.exists_cons_of_ne_nil (splitFields_ne_nil sep s)
    rw [hws] at ih
    cases hc : sep c with
    | true =>
      rw [splitFields_sep hc, hws]
      simp [joinFields, ih]
    | false =>
      rw [splitFields_cons hc hws]
      cases ws <;> simp_all [joinFields]

theorem mem_dropLast_filter {f : List Char → Bool} (h : w ∈ (ws.filter f).dropLast) :
    w ∈ ws.dropLast := by
  cases ws using List.reverseRecOn with
  | nil => simp at h
  | append_singleton init last =>
    rw [List.dropLast_concat]
    rw [List.filter_append] at h
    cases hlast : f last with
    | true =>
      rw [List.filter_cons_of_pos hlast, List.filter_nil, List.dropLast_concat] at h
      exact List.mem_of_mem_filter h
    | false =>
      rw [List.filter_cons_of_neg (by simp [hlast]), List.filter_nil, List.append_nil] at h
      exact List.mem_of_mem_filter (List.dropLast_subset _ h)

theorem trimmed_of_stable (h : sanitizeChangePath p = some p) : trimChars p.toList = p.toList := by
  obtain ⟨-, -, -, -, -, heq⟩ := sanitizeChangePath_eq_some.mp h
  have hsub : (trimChars p.toList).Sublist p.toList := by
    unfold trimChars trimStart
    rw [← List.reverse_sublist, List.reverse_reverse]
    exact (List.dropWhile_sublist _).trans (List.reverse_sublist.mpr (List.dropWhile_sublist _))
  have hcut : (joinFields ['/'] (cutSegments p)).length ≤
      (joinFields ['/'] ((rawSegments p).filter isKept)).length := by
    unfold cutSegments
    rw [joinFields_cutFields]
    exact (List.take_sublist _ _).length_le
  have hfilter := length_joinFields_filter isKept (rawSegments p)
  have hsplit := length_joinFields_splitFields isPathSep (trimChars p.toList)
  change (joinFields ['/'] (rawSegments p)).length = _ at hsplit
  have hlen := congrArg List.length heq
  exact hsub.eq_of_length_le (by omega)

theorem safeEnds_of_safePath (hraw : sanitizeChangePath raw = some p) (h : SafePath p) :
    SafeEnds (cutSegments raw) := by
  obtain ⟨-, -, -, -, hkept, hp⟩ := sanitizeChangePath_eq_some.mp hraw
  have hne := cutSegments_ne_nil hkept
  have hsegs : splitFields (· == '/') p.toList = cutSegments raw := by
    rw [hp]
    exact (splitFields_cut hne).1
  have hproper := h.proper
  have hfile := h.file
  rw [hsegs] at hproper hfile
  obtain ⟨hhead, hlast⟩ := trimChars_eq_self.mp (trimmed_of_stable h.stable)
  rw [hp] at hhead hlast
  have hdrive := h.relative.2
  rw [hp] at hdrive
  refine ⟨?_, ?_⟩
  · intro seg hseg
    obtain ⟨rest, hcut⟩ := List.head?_eq_some_iff.mp hseg
    have hmem : seg ∈ cutSegments raw := by
      rw [hcut]
      exact List.mem_cons_self
    have hnil := (hproper seg hmem).1
    rw [hcut] at hdrive hhead
    rw [hasDriveLetter_joinFields hnil (cutSegments_free seg hmem)] at hdrive
    rw [head?_joinFields hnil] at hhead
    exact ⟨hdrive, hhead⟩
  · intro seg hseg
    have heq : (cutSegments raw).getLast hne = seg := by
      rw [List.getLast?_eq_some_getLast hne] at hseg
      exact Option.some.inj hseg
    have hmem : seg ∈ cutSegments raw := List.mem_of_mem_getLast? hseg
    obtain ⟨hnil, hdot, hparent⟩ := hproper seg hmem
    rw [getLast?_joinFields hne (by rw [heq]; exact hnil), heq] at hlast
    exact ⟨hnil, hdot, hparent, hfile seg hseg, hlast⟩

theorem safePath_of_safeEnds (hraw : sanitizeChangePath raw = some p)
    (h : SafeEnds (cutSegments raw)) : SafePath p := by
  obtain ⟨-, -, -, hallowed, hkept, hp⟩ := sanitizeChangePath_eq_some.mp hraw
  have hne := cutSegments_ne_nil hkept
  obtain ⟨hsegs, hsegs'⟩ := splitFields_cut hne
  rw [← hp] at hsegs hsegs'
  have hlastmem : (cutSegments raw).getLast hne ∈ (cutSegments raw).getLast? := by
    rw [List.getLast?_eq_some_getLast hne]
    exact rfl
  obtain ⟨hlastNil, hlastDot, hlastParent, hlastFile, hlastBlank⟩ := h.last _ hlastmem
  have hproper : ∀ seg ∈ cutSegments raw, seg ≠ [] ∧ seg ≠ ['.'] ∧ seg ≠ ['.', '.'] := by
    intro seg hseg
    rw [← List.dropLast_append_getLast hne] at hseg
    rcases List.mem_append.mp hseg with hinit | hlast
    · have hmem := List.dropLast_subset _ (mem_cutFields_dropLast hinit)
      rw [List.mem_filter] at hmem
      obtain ⟨hin, hk⟩ := hmem
      have hboth : seg ≠ [] ∧ seg ≠ ['.'] := by simpa [isKept] using hk
      exact ⟨hboth.1, hboth.2, hallowed.noParent seg hin⟩
    · rw [List.mem_singleton.mp hlast]
      exact ⟨hlastNil, hlastDot, hlastParent⟩
  have hdirs : ∀ seg ∈ (cutSegments raw).dropLast, isExcludedDir seg = false := fun seg hseg =>
    hallowed.dirs seg (mem_dropLast_filter (mem_cutFields_dropLast hseg))
  have hfile : ∀ seg ∈ (cutSegments raw).getLast?, isExcludedFile seg = false := fun seg hseg =>
    (h.last seg hseg).2.2.2.1
  obtain ⟨first, rest, hcut⟩ := List.exists_cons_of_ne_nil hne
  have hfirst : first ∈ cutSegments raw := by
    rw [hcut]
    exact List.mem_cons_self
  have hfree := cutSegments_free first hfirst
  have hfirstNil := (hproper first hfirst).1
  obtain ⟨hdrive, hblank⟩ := h.first first (by rw [hcut]; exact rfl)
  have hhead : p.toList.head? = first.head? := by
    rw [hp, hcut, head?_joinFields hfirstNil]
  have hnosep : ∀ c, isPathSep c = true → p.toList.head? ≠ some c := by
    intro c hc hsome
    rw [hhead] at hsome
    have hmem := hfree c (List.mem_of_mem_head? hsome)
    rw [hc] at hmem
    cases hmem
  have hnodrive : hasDriveLetter p.toList = false := by
    rw [hp, hcut, hasDriveLetter_joinFields hfirstNil hfree]
    exact hdrive
  have htrim : trimChars p.toList = p.toList := by
    rw [trimChars_eq_self, hhead]
    refine ⟨hblank, ?_⟩
    rw [hp, getLast?_joinFields hne hlastNil]
    exact hlastBlank
  have hraws : rawSegments p = cutSegments raw := by
    unfold rawSegments
    rw [htrim]
    exact hsegs'
  have hfilter : (cutSegments raw).filter isKept = cutSegments raw := by
    rw [List.filter_eq_self]
    intro seg hseg
    obtain ⟨hnil, hdot, -⟩ := hproper seg hseg
    simp [isKept, hnil, hdot]
  have hlen : p.toList.length ≤ maxPathChars := by
    rw [hp]
    unfold cutSegments
    rw [joinFields_cutFields]
    exact List.length_take_le _ _
  have hagain : p.toList = joinFields ['/'] (cutSegments p) := by
    change _ = joinFields ['/'] (cutFields maxPathChars ((rawSegments p).filter isKept))
    rw [hraws, hfilter, joinFields_cutFields, ← hp, List.take_of_length_le hlen]
  refine ⟨⟨hnosep '/' rfl, hnodrive⟩, ?_, ?_, ?_, ?_, sanitizeChangePath_eq_some.mpr ?_⟩
  · intro hslash
    rw [hp] at hslash
    rcases mem_of_mem_joinFields hslash with heq | ⟨seg, hseg, hc⟩
    · cases heq
    · cases cutSegments_free seg hseg '\\' hc
  · rw [hsegs]
    exact hproper
  · rw [hsegs]
    exact hdirs
  · rw [hsegs]
    exact hfile
  · rw [htrim, hraws, hfilter]
    exact ⟨hnosep '/' rfl, hnosep '\\' rfl, hnodrive,
      ⟨fun seg hseg => (hproper seg hseg).2.2, hdirs, hfile⟩, hne, hagain⟩

/-- A path that the gate lets through is safe exactly when what is kept of the raw path begins and
ends as a safe path does. -/
theorem sanitizeChangePath_safe_iff {raw p : String} (h : sanitizeChangePath raw = some p) :
    SafePath p ↔ SafeEnds (cutSegments raw) :=
  ⟨safeEnds_of_safePath h, safePath_of_safeEnds h⟩

theorem sanitizeChangePath_safe_nested :
    SafePath "src/nested/file.rs" ↔ SafeEnds (cutSegments "src\\nested\\file.rs") :=
  sanitizeChangePath_safe_iff (by decide)

/-- With a separator behind it the name of a secret file is taken for that of a directory. -/
theorem sanitizeChangePath_passes_secret :
    ¬∀ raw p : String, sanitizeChangePath raw = some p → SafePath p := by
  intro h
  have hsafe := h "deploy/.env/" "deploy/.env" (by decide)
  exact absurd (hsafe.file ".env".toList (by decide)) (by decide)

end Relux
