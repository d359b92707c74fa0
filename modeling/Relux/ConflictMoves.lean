import Relux.ConflictResolver

/-! The edges that are put behind others. They are those of a source that come after its first
to the same call, and every path before is one after. -/

namespace Relux

namespace BTreeMap

variable {κ ν α : Type} [LinearOrder κ]

theorem get?_push (m : BTreeMap κ (List ν)) (k k' : κ) (v : ν) :
    (m.push k v).get? k' = if k' = k then some ((m.get? k).getD [] ++ [v]) else m.get? k' := by
  simp [push]

structure Groups (step : BTreeMap κ (List ν) → α → BTreeMap κ (List ν)) (key : α → Option κ)
    (value : α → ν) : Prop where
  pushes : ∀ m a k, key a = some k → step m a = m.push k (value a)
  skips : ∀ m a, key a = none → step m a = m

variable {step : BTreeMap κ (List ν) → α → BTreeMap κ (List ν)} {key : α → Option κ}
  {value : α → ν}

theorem Groups.getD (h : Groups step key value) (l : List α) (m : BTreeMap κ (List ν)) (k : κ) :
    ((l.foldl step m).get? k).getD [] =
      (m.get? k).getD [] ++ (l.filter (fun a => key a = some k)).map value := by
  induction l generalizing m with
  | nil => simp
  | cons a l ih =>
    rw [List.foldl_cons, ih]
    cases hkey : key a with
    | none =>
      rw [h.skips m a hkey]
      simp [hkey]
    | some k' =>
      rw [h.pushes m a k' hkey, get?_push]
      by_cases hk : k = k'
      · simp [hk, hkey]
      · have hne : k' ≠ k := fun heq => hk heq.symm
        simp [hk, hkey, hne]

variable {vs : List ν}

theorem Groups.nonempty (h : Groups step key value) (l : List α) {m : BTreeMap κ (List ν)}
    (hm : ∀ k vs, m.get? k = some vs → vs ≠ []) {k : κ}
    (hvs : (l.foldl step m).get? k = some vs) : vs ≠ [] := by
  induction l generalizing m with
  | nil => exact hm k vs hvs
  | cons a l ih =>
    rw [List.foldl_cons] at hvs
    refine ih ?_ hvs
    intro k₁ vs₁ hvs₁
    cases hkey : key a with
    | none =>
      rw [h.skips m a hkey] at hvs₁
      exact hm k₁ vs₁ hvs₁
    | some k' =>
      rw [h.pushes m a k' hkey, get?_push] at hvs₁
      by_cases hk : k₁ = k'
      · rw [if_pos hk] at hvs₁
        cases hvs₁
        simp
      · rw [if_neg hk] at hvs₁
        exact hm k₁ vs₁ hvs₁

theorem Groups.mem_entries (h : Groups step key value) {l : List α} {k : κ} :
    (k, vs) ∈ (l.foldl step empty).entries ↔
      vs = (l.filter (fun a => key a = some k)).map value ∧ vs ≠ [] := by
  have hgetD := h.getD l empty k
  rw [BTreeMap.mem_entries]
  constructor
  · intro hvs
    have hne : vs ≠ [] := h.nonempty l (by simp) hvs
    rw [hvs] at hgetD
    exact ⟨hgetD, hne⟩
  · rintro ⟨hvs, hne⟩
    cases hget : (l.foldl step empty).get? k with
    | none =>
      rw [hget] at hgetD
      exact absurd (hvs.trans hgetD.symm) hne
    | some vs' =>
      rw [hget] at hgetD
      rw [hvs]
      exact congrArg some hgetD

end BTreeMap

namespace Workflow

variable (toLowercase : String → String) (w : Workflow)

def calls (name : String) : Option (String × String) :=
  (w.agents.get? name).map (fun spec => (spec.peer, spec.capability))

def isParallelCall (source : String) (call : String × String) (e : Edge) : Bool :=
  e.condition = .parallel && e.source = source && w.calls e.target = some call

def parallelCalls (source : String) (call : String × String) : List Edge :=
  w.flow.edges.filter (w.isParallelCall source call)

def Interfering : Prop :=
  ∃ source call, ConflictResolver.looksWriteLike toLowercase call.2 = true ∧
    2 ≤ (w.parallelCalls source call).length

def Sequenced (a b : String) : Prop :=
  ∃ source call first later, w.parallelCalls source call = first :: later ∧
    ConflictResolver.looksWriteLike toLowercase call.2 = true ∧
    first.target = a ∧ ∃ e ∈ later, e.target = b

def Follows (a b : String) : Prop := w.Forward a b ∨ w.Sequenced toLowercase a b

end Workflow

namespace ConflictResolver

open Workflow

variable {toLowercase : String → String} {w : Workflow}

theorem parallelBySource_groups :
    BTreeMap.Groups sourceStep
      (fun e => if e.1.condition = .parallel then some e.1.source else none)
      (fun e => (e.2, e.1.target)) where
  pushes := by
    intro m e k hkey
    by_cases hcond : e.1.condition = .parallel
    · rw [if_pos hcond] at hkey
      cases hkey
      rw [sourceStep, if_pos hcond]
    · rw [if_neg hcond] at hkey
      cases hkey
  skips := by
    intro m e hkey
    by_cases hcond : e.1.condition = .parallel
    · rw [if_pos hcond] at hkey
      cases hkey
    · rw [sourceStep, if_neg hcond]

theorem groupByCall_groups (w : Workflow) :
    BTreeMap.Groups (groupStep w)
      (fun e => (w.calls e.2).map toLex) (fun e => e) where
  pushes := by
    intro m e k hkey
    cases hspec : w.agents.get? e.2 with
    | none => simp [calls, hspec] at hkey
    | some spec =>
      simp only [calls, hspec, Option.map_some, Option.some.injEq] at hkey
      simp only [groupStep, hspec, hkey]
  skips := by
    intro m e hkey
    cases hspec : w.agents.get? e.2 with
    | none => simp only [groupStep, hspec]
    | some spec => simp [calls, hspec] at hkey

def placedCalls (w : Workflow) (source : String) (call : String × String) : List (Edge × Nat) :=
  w.flow.edges.zipIdx.filter (fun e => w.isParallelCall source call e.1)

theorem placedCalls_fst (w : Workflow) (source : String) (call : String × String) :
    (placedCalls w source call).map Prod.fst = w.parallelCalls source call := by
  have hfst : (w.flow.edges.zipIdx).map Prod.fst = w.flow.edges := List.zipIdx_map_fst 0 _
  have hfilter := List.filter_map (f := Prod.fst) (p := w.isParallelCall source call)
    (l := w.flow.edges.zipIdx)
  rw [hfst] at hfilter
  exact hfilter.symm

variable {i : Nat} {source : String} {call : String × String} {e : Edge}

theorem mem_placedCalls :
    (e, i) ∈ placedCalls w source call ↔
      w.flow.edges[i]? = some e ∧ w.isParallelCall source call e = true := by
  rw [placedCalls, List.mem_filter, List.mem_zipIdx_iff_getElem?]

theorem placedCalls_same {source' : String} {call' : String × String} {e' : Edge}
    (h : (e, i) ∈ placedCalls w source call) (h' : (e', i) ∈ placedCalls w source' call') :
    source = source' ∧ call = call' := by
  obtain ⟨hget, hcall⟩ := mem_placedCalls.mp h
  obtain ⟨hget', hcall'⟩ := mem_placedCalls.mp h'
  have hsame : e = e' := Option.some.inj (hget.symm.trans hget')
  rw [hsame] at hcall
  simp only [isParallelCall, Bool.and_eq_true, decide_eq_true_eq] at hcall hcall'
  exact ⟨hcall.1.2.symm.trans hcall'.1.2, Option.some.inj (hcall.2.symm.trans hcall'.2)⟩

theorem placedCalls_sorted (w : Workflow) (source : String) (call : String × String) :
    (placedCalls w source call).Pairwise (fun e e' => e.2 < e'.2) := by
  have hall : (w.flow.edges.zipIdx).Pairwise (fun e e' => e.2 < e'.2) := by
    rw [← List.pairwise_map (f := Prod.snd) (R := (· < ·)), List.zipIdx_map_snd]
    exact List.pairwise_lt_range'
  exact hall.filter _

theorem mem_groups {edges group : List (Nat × String)} {call : String ×ₗ String}
    (hsource : (source, edges) ∈ (parallelBySource w).entries)
    (hgroup : (call, group) ∈ (groupByCall w edges).entries) :
    group = (placedCalls w source (ofLex call)).map (fun e => (e.2, e.1.target)) := by
  obtain ⟨hedges, _⟩ := parallelBySource_groups.mem_entries.mp hsource
  obtain ⟨hgroup, _⟩ := (groupByCall_groups w).mem_entries.mp hgroup
  rw [hgroup, hedges, List.map_id', List.filter_map, List.filter_filter, placedCalls]
  congr 1
  apply List.filter_congr
  intro e _
  have hcall : (w.calls e.1.target).map toLex = some call ↔
      w.calls e.1.target = some (ofLex call) := by
    cases w.calls e.1.target with
    | none => simp
    | some c => simpa using (toLex.eq_symm_apply (x := call) (y := c)).symm
  by_cases hcond : e.1.condition = .parallel
  · simp [isParallelCall, hcond, hcall, Bool.and_comm]
  · simp [isParallelCall, hcond]

variable {first : Edge × Nat} {later : List (Edge × Nat)}

theorem exists_groups (h : placedCalls w source call = first :: later) :
    ∃ edges, (source, edges) ∈ (parallelBySource w).entries ∧
      (toLex call, (first :: later).map (fun e => (e.2, e.1.target))) ∈
        (groupByCall w edges).entries := by
  let edges := (w.flow.edges.zipIdx.filter (fun e =>
    (if e.1.condition = .parallel then some e.1.source else none) = some source)).map
      (fun e => (e.2, e.1.target))
  have hfirst : first ∈ placedCalls w source call := by
    rw [h]
    exact List.mem_cons_self
  have hedges : (source, edges) ∈ (parallelBySource w).entries := by
    refine parallelBySource_groups.mem_entries.mpr ⟨rfl, ?_⟩
    obtain ⟨hget, hcall⟩ := List.mem_filter.mp hfirst
    simp only [isParallelCall, Bool.and_eq_true, decide_eq_true_eq] at hcall
    intro hnil
    have hmem : (first.2, first.1.target) ∈ edges :=
      List.mem_map.mpr ⟨first, List.mem_filter.mpr ⟨hget, by simp [hcall.1.1, hcall.1.2]⟩, rfl⟩
    rw [hnil] at hmem
    cases hmem
  have hmem : (first.2, first.1.target) ∈
      edges.filter (fun e => (w.calls e.2).map toLex = some (toLex call)) := by
    obtain ⟨hget, hcall⟩ := List.mem_filter.mp hfirst
    simp only [isParallelCall, Bool.and_eq_true, decide_eq_true_eq] at hcall
    refine List.mem_filter.mpr ⟨?_, by simp [hcall.2]⟩
    exact List.mem_map.mpr ⟨first, List.mem_filter.mpr ⟨hget, by simp [hcall.1.1, hcall.1.2]⟩, rfl⟩
  have hgroup : (toLex call, edges.filter
      (fun e => (w.calls e.2).map toLex = some (toLex call))) ∈ (groupByCall w edges).entries := by
    refine (groupByCall_groups w).mem_entries.mpr ⟨(List.map_id' _).symm, ?_⟩
    intro hnil
    rw [hnil] at hmem
    cases hmem
  refine ⟨edges, hedges, ?_⟩
  have heq := mem_groups hedges hgroup
  rw [ofLex_toLex, h] at heq
  rwa [← heq]

def Moved (toLowercase : String → String) (w : Workflow) (i : Nat) (kept : String) : Prop :=
  ∃ source call first later, placedCalls w source call = first :: later ∧
    looksWriteLike toLowercase call.2 = true ∧ first.1.target = kept ∧ ∃ e, (e, i) ∈ later

def GroupMoves (toLowercase : String → String) (move : Nat × String)
    (group : (String ×ₗ String) × List (Nat × String)) : Prop :=
  ∃ kept losing, group.2 = kept :: losing ∧
    looksWriteLike toLowercase (ofLex group.1).2 = true ∧ ∃ e ∈ losing, move = (e.1, kept.2)

theorem mem_moveGroup (s : Moves) (group : (String ×ₗ String) × List (Nat × String))
    (move : Nat × String) : move ∈ (moveGroup toLowercase s group).1 ↔
      move ∈ s.1 ∨ GroupMoves toLowercase move group := by
  have hfold : ∀ (losing : List (Nat × String)) (kept : Nat × String) (s : Moves),
      (losing.foldl (fun s e => (s.1 ++ [(e.1, kept.2)], s.2.record
        (sequenceEntry (ofLex group.1).1 (ofLex group.1).2 kept.2 e.2))) s).1 =
      s.1 ++ losing.map (fun e => (e.1, kept.2)) := by
    intro losing kept
    induction losing with
    | nil => simp
    | cons e losing ih =>
      intro s
      rw [List.foldl_cons, ih]
      simp
  obtain ⟨call, edges⟩ := group
  cases edges with
  | nil => simp [moveGroup, GroupMoves]
  | cons kept losing =>
    by_cases hwrite : looksWriteLike toLowercase (ofLex call).2 = true
    · simp only [moveGroup, if_pos hwrite, hfold, List.mem_append, List.mem_map]
      constructor
      · rintro (hmove | ⟨e, he, rfl⟩)
        · exact Or.inl hmove
        · exact Or.inr ⟨kept, losing, rfl, hwrite, e, he, rfl⟩
      · rintro (hmove | ⟨kept', losing', heq, _, e, he, rfl⟩)
        · exact Or.inl hmove
        · cases heq
          exact Or.inr ⟨e, he, rfl⟩
    · simp only [moveGroup, if_neg hwrite]
      constructor
      · exact Or.inl
      · rintro (hmove | ⟨_, _, _, hwrite', _⟩)
        · exact hmove
        · exact absurd hwrite' hwrite

theorem mem_foldl_moveGroup (groups : List ((String ×ₗ String) × List (Nat × String)))
    (s : Moves) (move : Nat × String) :
    move ∈ (groups.foldl (moveGroup toLowercase) s).1 ↔
      move ∈ s.1 ∨ ∃ group ∈ groups, GroupMoves toLowercase move group := by
  induction groups generalizing s with
  | nil => simp
  | cons group groups ih =>
    rw [List.foldl_cons, ih, mem_moveGroup]
    simp only [List.mem_cons, exists_eq_or_imp]
    exact or_assoc

theorem mem_foldl_sources (sources : List (String × List (Nat × String))) (s : Moves)
    (move : Nat × String) :
    move ∈ (sources.foldl (fun s source =>
      (groupByCall w source.2).entries.foldl (moveGroup toLowercase) s) s).1 ↔
      move ∈ s.1 ∨ ∃ source ∈ sources, ∃ group ∈ (groupByCall w source.2).entries,
        GroupMoves toLowercase move group := by
  induction sources generalizing s with
  | nil => simp
  | cons source sources ih =>
    rw [List.foldl_cons, ih, mem_foldl_moveGroup]
    simp only [List.mem_cons, exists_eq_or_imp]
    exact or_assoc

variable {kept : String}

theorem mem_findMoves {report : ConflictResolutionReport} :
    (i, kept) ∈ (findMoves toLowercase w report).1 ↔ Moved toLowercase w i kept := by
  rw [findMoves, mem_foldl_sources]
  constructor
  · rintro (hnil | ⟨source, hsource, group, hgroup, first, later, hedges, hwrite, e, he, hmove⟩)
    · cases hnil
    · have hplaced := mem_groups hsource hgroup
      rw [hedges] at hplaced
      cases hcalls : placedCalls w source.1 (ofLex group.1) with
      | nil =>
        rw [hcalls] at hplaced
        cases hplaced
      | cons first' later' =>
        rw [hcalls] at hplaced
        obtain ⟨hfirst, hlater⟩ := List.cons_eq_cons.mp hplaced
        cases hmove
        rw [hlater] at he
        obtain ⟨e', he', rfl⟩ := List.mem_map.mp he
        rw [hfirst]
        exact ⟨source.1, ofLex group.1, first', later', hcalls, hwrite, rfl, e'.1, he'⟩
  · rintro ⟨source, call, first, later, hcalls, hwrite, rfl, e, he⟩
    obtain ⟨edges, hsource, hgroup⟩ := exists_groups hcalls
    refine Or.inr ⟨(source, edges), hsource, _, hgroup, (first.2, first.1.target),
      later.map (fun e => (e.2, e.1.target)), rfl, hwrite, (i, e.target), ?_, rfl⟩
    exact List.mem_map.mpr ⟨(e, i), he, rfl⟩

theorem not_moved_first {source : String} {call : String × String}
    (h : placedCalls w source call = first :: later)
    (kept : String) : ¬ Moved toLowercase w first.2 kept := by
  rintro ⟨source', call', first', later', h', _, _, e, he⟩
  have hfirst : (first.1, first.2) ∈ placedCalls w source call := by
    rw [h]
    exact List.mem_cons_self
  have hlater : (e, first.2) ∈ placedCalls w source' call' := by
    rw [h']
    exact List.mem_cons_of_mem _ he
  obtain ⟨hsource, hcall⟩ := placedCalls_same hfirst hlater
  rw [← hsource, ← hcall, h] at h'
  have hsorted := placedCalls_sorted w source call
  rw [h] at hsorted
  have hlt := (List.pairwise_cons.mp hsorted).1 (e, first.2) ((List.cons_eq_cons.mp h').2 ▸ he)
  exact absurd hlt (Nat.lt_irrefl _)

variable {a b : String}

theorem Moved.unique (ha : Moved toLowercase w i a) (hb : Moved toLowercase w i b) : a = b := by
  obtain ⟨source, call, first, later, h, _, rfl, e, he⟩ := ha
  obtain ⟨source', call', first', later', h', _, rfl, e', he'⟩ := hb
  have hmem : (e, i) ∈ placedCalls w source call := by
    rw [h]
    exact List.mem_cons_of_mem _ he
  have hmem' : (e', i) ∈ placedCalls w source' call' := by
    rw [h']
    exact List.mem_cons_of_mem _ he'
  obtain ⟨hsource, hcall⟩ := placedCalls_same hmem hmem'
  rw [← hsource, ← hcall, h] at h'
  rw [(List.cons_eq_cons.mp h').1]

def putBehind (kept : String) (e : Edge) : Edge := { e with source := kept, condition := .success }

variable {moves : List (Nat × String)}

theorem foldl_applyMove_untouched (h : ∀ move ∈ moves, move.1 ≠ i)
    (edges : List Edge) : (moves.foldl applyMove edges)[i]? = edges[i]? := by
  induction moves generalizing edges with
  | nil => rfl
  | cons move moves ih =>
    have hmove := h move List.mem_cons_self
    rw [List.foldl_cons, ih (fun m hm => h m (List.mem_cons_of_mem move hm)), applyMove,
      List.getElem?_modify]
    simp [hmove]

theorem foldl_applyMove_touched (h : ∃ move ∈ moves, move.1 = i) (edges : List Edge) :
    ∃ kept, (i, kept) ∈ moves ∧
      (moves.foldl applyMove edges)[i]? = edges[i]?.map (putBehind kept) := by
  induction moves generalizing edges with
  | nil =>
    obtain ⟨move, hmove, _⟩ := h
    cases hmove
  | cons move moves ih =>
    by_cases hlater : ∃ move' ∈ moves, move'.1 = i
    · obtain ⟨kept, hkept, hget⟩ := ih hlater (applyMove edges move)
      refine ⟨kept, List.mem_cons_of_mem _ hkept, ?_⟩
      rw [List.foldl_cons, hget, applyMove, List.getElem?_modify]
      cases edges[i]? with
      | none => rfl
      | some e =>
        by_cases hsame : move.1 = i
        · simp [hsame, putBehind]
        · simp [hsame]
    · have hfirst : move.1 = i := by
        obtain ⟨move', hmove', hi⟩ := h
        rcases List.mem_cons.mp hmove' with rfl | hmove'
        · exact hi
        · exact absurd ⟨move', hmove', hi⟩ hlater
      have huntouched : ∀ move' ∈ moves, move'.1 ≠ i :=
        fun move' hmove' hi => hlater ⟨move', hmove', hi⟩
      refine ⟨move.2, ?_, ?_⟩
      · rw [← hfirst]
        exact List.mem_cons_self
      · rw [List.foldl_cons, foldl_applyMove_untouched huntouched, applyMove,
          List.getElem?_modify]
        cases edges[i]? with
        | none => rfl
        | some e => simp [hfirst, putBehind]

def resequence (toLowercase : String → String) (r : Resolution) : Workflow :=
  (resolveInterferingParallelCalls toLowercase r).1

variable {report : ConflictResolutionReport}

theorem resequence_unmoved (report : ConflictResolutionReport)
    (h : ∀ kept, ¬ Moved toLowercase w i kept) :
    (resequence toLowercase (w, report)).flow.edges[i]? = w.flow.edges[i]? := by
  apply foldl_applyMove_untouched
  rintro ⟨j, kept⟩ hmove rfl
  exact h kept (mem_findMoves.mp hmove)

theorem resequence_moved (report : ConflictResolutionReport) (h : Moved toLowercase w i kept) :
    (resequence toLowercase (w, report)).flow.edges[i]? =
      w.flow.edges[i]?.map (putBehind kept) := by
  have hmove : (i, kept) ∈ (findMoves toLowercase w report).1 := mem_findMoves.mpr h
  obtain ⟨kept', hkept', hget⟩ := foldl_applyMove_touched ⟨_, hmove, rfl⟩ w.flow.edges
  rw [(mem_findMoves.mp hkept').unique h] at hget
  exact hget

theorem Moved.sequenced (h : Moved toLowercase w i kept) (hget : w.flow.edges[i]? = some e) :
    w.Sequenced toLowercase kept e.target := by
  obtain ⟨source, call, first, later, hcalls, hwrite, rfl, e', he'⟩ := h
  have hmem : (e', i) ∈ placedCalls w source call := by
    rw [hcalls]
    exact List.mem_cons_of_mem _ he'
  have hsame : e' = e := Option.some.inj ((mem_placedCalls.mp hmem).1.symm.trans hget)
  have hfst := placedCalls_fst w source call
  rw [hcalls, List.map_cons] at hfst
  refine ⟨source, call, first.1, later.map Prod.fst, hfst.symm, hwrite, rfl, e', ?_, ?_⟩
  · exact List.mem_map.mpr ⟨(e', i), he', rfl⟩
  · rw [hsame]

theorem sequenced_moved (h : w.Sequenced toLowercase a b) :
    ∃ i e, w.flow.edges[i]? = some e ∧ e.target = b ∧ Moved toLowercase w i a := by
  obtain ⟨source, call, first, later, hcalls, hwrite, rfl, e, he, rfl⟩ := h
  have hfst := placedCalls_fst w source call
  rw [hcalls] at hfst
  obtain ⟨first', later', hplaced, rfl, rfl⟩ := List.map_eq_cons_iff.mp hfst
  obtain ⟨⟨e', i⟩, he', rfl⟩ := List.mem_map.mp he
  have hmem : (e', i) ∈ placedCalls w source call := by
    rw [hplaced]
    exact List.mem_cons_of_mem _ he'
  exact ⟨i, e', (mem_placedCalls.mp hmem).1, rfl, source, call, first', later', hplaced, hwrite,
    rfl, e', he'⟩

theorem moved_or_not (toLowercase : String → String) (w : Workflow) (i : Nat) :
    (∃ kept, Moved toLowercase w i kept) ∨ ∀ kept, ¬ Moved toLowercase w i kept := by
  by_cases h : ∃ kept, Moved toLowercase w i kept
  · exact Or.inl h
  · exact Or.inr (fun kept hkept => h ⟨kept, hkept⟩)

theorem edge_stays (toLowercase : String → String) (report : ConflictResolutionReport)
    (he : e ∈ w.flow.edges) :
    e ∈ (resequence toLowercase (w, report)).flow.edges ∨
      e.condition = .parallel ∧ ∃ kept,
        (∃ e' ∈ (resequence toLowercase (w, report)).flow.edges,
          e'.source = e.source ∧ e'.target = kept ∧ e'.condition = .parallel) ∧
        ⟨kept, e.target, .success⟩ ∈ (resequence toLowercase (w, report)).flow.edges := by
  obtain ⟨i, hi⟩ := List.mem_iff_getElem?.mp he
  rcases moved_or_not toLowercase w i with ⟨kept, hmoved⟩ | hnot
  · right
    have hget := resequence_moved report hmoved
    rw [hi, Option.map_some] at hget
    obtain ⟨source, call, first, later, hcalls, _, hkept, e', he'⟩ := hmoved
    have hmem : (e', i) ∈ placedCalls w source call := by
      rw [hcalls]
      exact List.mem_cons_of_mem _ he'
    have hfirst : (first.1, first.2) ∈ placedCalls w source call := by
      rw [hcalls]
      exact List.mem_cons_self
    obtain ⟨hget', hcall⟩ := mem_placedCalls.mp hmem
    obtain ⟨hgetFirst, hcallFirst⟩ := mem_placedCalls.mp hfirst
    have hsame : e' = e := Option.some.inj (hget'.symm.trans hi)
    have hunmoved := resequence_unmoved report
      (fun kept => @not_moved_first toLowercase w _ _ _ _ hcalls kept)
    rw [hgetFirst] at hunmoved
    rw [hsame] at hcall
    simp only [isParallelCall, Bool.and_eq_true, decide_eq_true_eq] at hcall hcallFirst
    refine ⟨hcall.1.1, kept, ⟨first.1, List.mem_of_getElem? hunmoved, ?_, hkept,
      hcallFirst.1.1⟩, List.mem_of_getElem? hget⟩
    exact hcallFirst.1.2.trans hcall.1.2.symm
  · left
    have hget := resequence_unmoved report hnot
    exact List.mem_of_getElem? (hget.trans hi)

theorem edge_from (he : e ∈ (resequence toLowercase (w, report)).flow.edges) :
    e ∈ w.flow.edges ∨ e.condition = .success ∧ w.Sequenced toLowercase e.source e.target ∧
      ∃ e' ∈ w.flow.edges, e'.target = e.target := by
  obtain ⟨i, hi⟩ := List.mem_iff_getElem?.mp he
  rcases moved_or_not toLowercase w i with ⟨kept, hmoved⟩ | hnot
  · right
    rw [resequence_moved report hmoved] at hi
    obtain ⟨e', he', rfl⟩ := Option.map_eq_some_iff.mp hi
    have hsequenced : w.Sequenced toLowercase kept e'.target := hmoved.sequenced he'
    exact ⟨rfl, hsequenced, e', List.mem_of_getElem? he', rfl⟩
  · left
    rw [resequence_unmoved report hnot] at hi
    exact List.mem_of_getElem? hi

theorem leads_after (h : w.Leads a b) :
    Relation.TransGen (resequence toLowercase (w, report)).Leads a b := by
  obtain ⟨e, he, rfl, rfl⟩ := h
  rcases edge_stays toLowercase report he with
    hstays | ⟨_, kept, ⟨e', he', hsource, htarget, _⟩, hbehind⟩
  · exact .single ⟨e, hstays, rfl, rfl⟩
  · exact .tail (.single ⟨e', he', hsource, htarget⟩) ⟨_, hbehind, rfl, rfl⟩

theorem forward_after (h : w.Forward a b) :
    Relation.TransGen (resequence toLowercase (w, report)).Forward a b := by
  obtain ⟨e, he, rfl, rfl, hcond⟩ := h
  rcases edge_stays toLowercase report he with
    hstays | ⟨_, kept, ⟨e', he', hsource, htarget, hparallel⟩, hbehind⟩
  · exact .single ⟨e, hstays, rfl, rfl, hcond⟩
  · refine .tail (.single ⟨e', he', hsource, htarget, ?_⟩) ⟨_, hbehind, rfl, rfl, ?_⟩
    · rw [hparallel]
      simp
    · simp

theorem sequenced_after (h : w.Sequenced toLowercase a b) :
    (resequence toLowercase (w, report)).Forward a b := by
  obtain ⟨i, e, hget, rfl, hmoved⟩ := sequenced_moved h
  have hafter := resequence_moved report hmoved
  rw [hget, Option.map_some] at hafter
  exact ⟨putBehind a e, List.mem_of_getElem? hafter, rfl, rfl, by simp [putBehind]⟩

theorem follows_iff (a b : String) :
    Relation.TransGen (resequence toLowercase (w, report)).Forward a b ↔
      Relation.TransGen (w.Follows toLowercase) a b := by
  constructor
  · apply Relation.TransGen.mono
    rintro x y ⟨e, he, rfl, rfl, hcond⟩
    rcases edge_from he with he | ⟨_, hsequenced, _⟩
    · exact Or.inl ⟨e, he, rfl, rfl, hcond⟩
    · exact Or.inr hsequenced
  · intro h
    refine Relation.TransGen.trans_induction_on h ?_ (fun _ _ hab hbc => hab.trans hbc)
    rintro x y (hforward | hsequenced)
    · exact forward_after hforward
    · exact .single (sequenced_after hsequenced)

theorem resequence_apart (toLowercase : String → String) (r : Resolution) :
    ¬ (resequence toLowercase r).Interfering toLowercase := by
  obtain ⟨w, report⟩ := r
  rintro ⟨source, call, hwrite, hlen⟩
  have hbefore : ∀ e i, (e, i) ∈ placedCalls (resequence toLowercase (w, report)) source call →
      (e, i) ∈ placedCalls w source call ∧ ∀ kept, ¬ Moved toLowercase w i kept := by
    intro e i hmem
    obtain ⟨hget, hcall⟩ := mem_placedCalls.mp hmem
    rcases moved_or_not toLowercase w i with ⟨kept, hmoved⟩ | hnot
    · rw [resequence_moved report hmoved] at hget
      obtain ⟨e', _, rfl⟩ := Option.map_eq_some_iff.mp hget
      simp [isParallelCall, putBehind] at hcall
    · rw [resequence_unmoved report hnot] at hget
      exact ⟨mem_placedCalls.mpr ⟨hget, hcall⟩, hnot⟩
  rw [← placedCalls_fst, List.length_map] at hlen
  cases hplaced : placedCalls (resequence toLowercase (w, report)) source call with
  | nil =>
    rw [hplaced] at hlen
    simp at hlen
  | cons first rest =>
    cases rest with
    | nil =>
      rw [hplaced] at hlen
      simp at hlen
    | cons second rest =>
      have hsorted := placedCalls_sorted (resequence toLowercase (w, report)) source call
      rw [hplaced] at hsorted
      have hlt : first.2 < second.2 := (List.pairwise_cons.mp hsorted).1 second List.mem_cons_self
      obtain ⟨hfirst, hnotFirst⟩ := hbefore first.1 first.2 (by
        rw [hplaced]
        exact List.mem_cons_self)
      obtain ⟨hsecond, hnotSecond⟩ := hbefore second.1 second.2 (by
        rw [hplaced]
        exact List.mem_cons_of_mem _ List.mem_cons_self)
      cases hgroup : placedCalls w source call with
      | nil =>
        rw [hgroup] at hfirst
        cases hfirst
      | cons kept losing =>
        have hmoved : ∀ e : Edge × Nat, e ∈ losing → Moved toLowercase w e.2 kept.1.target :=
          fun e he => ⟨source, call, kept, losing, hgroup, hwrite, rfl, e.1, he⟩
        rw [hgroup] at hfirst hsecond
        rcases List.mem_cons.mp hfirst with hkept | hlosing
        · rcases List.mem_cons.mp hsecond with hkept' | hlosing
          · have hsame : first.2 = second.2 := congrArg Prod.snd (hkept.trans hkept'.symm)
            omega
          · exact hnotSecond _ (hmoved second hlosing)
        · exact hnotFirst _ (hmoved first hlosing)

end ConflictResolver

end Relux
