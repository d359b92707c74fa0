import Relux.ConflictMoves

/-! When the resolver leaves an accepted workflow accepted. Only the second pass touches it,
and the edges it puts behind others can close a cycle. -/

namespace Relux

namespace ConflictResolver

open Workflow

variable {toLowercase : String → String} {isAlphanumeric : Char → Bool} {w : Workflow}
  {report : ConflictResolutionReport}

theorem byOutput_groups :
    BTreeMap.Groups (fun (m : BTreeMap String (List String)) (a : String × AgentSpec) =>
      m.push a.2.output a.1) (fun a => some a.2.output) Prod.fst where
  pushes := by
    intro m a k hkey
    rw [Option.some.inj hkey]
  skips := by
    intro m a hkey
    cases hkey

variable {α β : Type} {l : List α}

theorem filter_le_one [DecidableEq β] {f : α → β} (h : (l.map f).Nodup) (b : β) :
    (l.filter (fun a => f a = b)).length ≤ 1 := by
  induction l with
  | nil => simp
  | cons a l ih =>
    obtain ⟨hfresh, hnodup⟩ := List.nodup_cons.mp h
    by_cases ha : f a = b
    · have hnone : l.filter (fun a => f a = b) = [] := by
        apply List.filter_eq_nil_iff.mpr
        intro a' ha' hsame
        apply hfresh
        rw [ha, ← of_decide_eq_true hsame]
        exact List.mem_map_of_mem ha'
      simp [ha, hnone]
    · simpa [ha] using ih hnodup

variable {f : β → α → β}

theorem foldl_eq_self {b : β} (h : ∀ a ∈ l, f b a = b) :
    l.foldl f b = b := by
  induction l with
  | nil => rfl
  | cons a l ih =>
    rw [List.foldl_cons, h a List.mem_cons_self]
    exact ih (fun a' ha' => h a' (List.mem_cons_of_mem a ha'))

theorem resolveDuplicateOutputs_id
    (h : (w.agents.entries.map (fun a => a.2.output)).Nodup) :
    resolveDuplicateOutputs (w, report) = (w, report) := by
  have hgroups : ∀ group ∈ (byOutput w).entries, group.2.length ≤ 1 := by
    rintro ⟨output, producers⟩ hgroup
    obtain ⟨hproducers, _⟩ := byOutput_groups.mem_entries.mp hgroup
    rw [hproducers, List.length_map]
    simpa using filter_le_one h output
  rw [resolveDuplicateOutputs, foldl_eq_self]
  rintro ⟨output, producers⟩ hgroup
  have hlen := hgroups (output, producers) hgroup
  cases producers with
  | nil => rfl
  | cons kept losing =>
    have hnil : losing = [] := by
      simp only [List.length_cons] at hlen
      exact List.length_eq_zero_iff.mp (by omega)
    rw [hnil]
    rfl

theorem undefinedVars_nil {known : List String} {template : String}
    (h : ∀ v ∈ extractVars isAlphanumeric template,
      v = "workflow.input" ∨ Workflow.stripOutput v ∈ known) :
    undefinedVars isAlphanumeric known template = [] := by
  apply List.filter_eq_nil_iff.mpr
  intro v hv
  rcases h v hv with hinput | hknown
  · simp [hinput]
  · simp [hknown]

theorem resolveUndefinedReferences_id
    (hinputs : ∀ a ∈ w.agents.entries, ∀ v ∈ extractVars isAlphanumeric a.2.input,
      v = "workflow.input" ∨ Workflow.stripOutput v ∈ w.agents.values.map AgentSpec.output)
    (hresult : ∀ template, w.flow.result = some template →
      ∀ v ∈ extractVars isAlphanumeric template,
        v = "workflow.input" ∨ Workflow.stripOutput v ∈ w.agents.values.map AgentSpec.output) :
    resolveUndefinedReferences isAlphanumeric (w, report) = (w, report) := by
  have hagents : w.agents.entries.foldl
      (dropFromInput isAlphanumeric (w.agents.values.map AgentSpec.output)) (w, report) =
      (w, report) := by
    apply foldl_eq_self
    intro a ha
    rw [dropFromInput, undefinedVars_nil (hinputs a ha)]
  rw [resolveUndefinedReferences]
  simp only [hagents]
  cases hflow : w.flow.result with
  | none => simp only [dropFromResult, hflow]
  | some template =>
    simp only [dropFromResult, hflow, undefinedVars_nil (hresult template hflow)]

theorem visible_known {name v : String} (h : w.isVarVisible v name
      (seenBy w.computeVisibility name) = true) :
    v = "workflow.input" ∨ Workflow.stripOutput v ∈ w.agents.values.map AgentSpec.output := by
  by_cases hinput : v = "workflow.input"
  · exact Or.inl hinput
  · right
    by_cases hown : (w.agents.get? name).map AgentSpec.output = some (Workflow.stripOutput v)
    · rw [isVarVisible, if_neg hinput, if_pos hown] at h
      cases h
    · rw [isVarVisible, if_neg hinput, if_neg hown] at h
      obtain ⟨up, spec, hup, houtput, _⟩ := computeVisibility_upstream (of_decide_eq_true h)
      rw [BTreeMap.values, List.map_map]
      exact List.mem_map.mpr ⟨(up, spec), BTreeMap.mem_entries.mpr hup, houtput⟩

theorem checkResult_known {template v : String}
    (h : w.checkResult isAlphanumeric = .ok ()) (htemplate : w.flow.result = some template)
    (hv : v ∈ extractVars isAlphanumeric template) :
    v = "workflow.input" ∨ Workflow.stripOutput v ∈ w.agents.values.map AgentSpec.output := by
  simp only [checkResult, htemplate] at h
  have hcheck := forM_ok h v hv
  by_cases hvisible : isVarVisibleResult v (w.agents.values.map AgentSpec.output) = true
  · by_cases hinput : v = "workflow.input"
    · exact Or.inl hinput
    · rw [isVarVisibleResult, if_neg hinput] at hvisible
      exact Or.inr (by simpa using hvisible)
  · rw [if_neg hvisible] at hcheck
    cases hcheck

theorem resolvePasses_valid (h : w.validate isAlphanumeric none = .ok ()) :
    (resolvePasses toLowercase isAlphanumeric w).1 = resequence toLowercase (w, .empty) := by
  obtain ⟨hvalidated, hresult, _⟩ := validate_ok_iff.mp h
  have hinputs : ∀ a ∈ w.agents.entries, ∀ v ∈ extractVars isAlphanumeric a.2.input,
      v = "workflow.input" ∨ Workflow.stripOutput v ∈ w.agents.values.map AgentSpec.output := by
    intro a ha v hv
    have hagent : w.agents.get? a.1 = some a.2 := BTreeMap.mem_entries.mp ha
    exact visible_known (hvalidated.visible hagent hv)
  have hresults : ∀ template, w.flow.result = some template →
      ∀ v ∈ extractVars isAlphanumeric template,
        v = "workflow.input" ∨ Workflow.stripOutput v ∈ w.agents.values.map AgentSpec.output :=
    fun template htemplate v hv => checkResult_known hresult htemplate hv
  rw [resolvePasses, resolveDuplicateOutputs_id (checkOutputs_ok hvalidated.outputs).1,
    resolveUndefinedReferences_id (w := (resolveInterferingParallelCalls toLowercase
      (w, .empty)).1) hinputs hresults]
  rfl

theorem foldl_keeps {γ : Type} (g : β → γ) (h : ∀ b a, g (f b a) = g b) (l : List α)
    (b : β) : g (l.foldl f b) = g b := by
  induction l generalizing b with
  | nil => rfl
  | cons a l ih => rw [List.foldl_cons, ih, h]

theorem resolveDuplicateOutputs_escalated (r : Resolution) :
    (resolveDuplicateOutputs r).2.escalated = r.2.escalated := by
  refine foldl_keeps (fun s : Resolution × List String => s.1.2.escalated) ?_ _ _
  rintro s ⟨output, producers⟩
  cases producers with
  | nil => rfl
  | cons kept losing =>
    exact foldl_keeps (fun s : Resolution × List String => s.1.2.escalated)
      (f := renameOutput output kept) (fun _ _ => rfl) losing s

theorem findMoves_escalated (w : Workflow) (report : ConflictResolutionReport) :
    (findMoves toLowercase w report).2.escalated = report.escalated := by
  refine foldl_keeps (fun s : Moves => s.2.escalated) ?_ _ _
  intro s source
  refine foldl_keeps (fun s : Moves => s.2.escalated) ?_ _ _
  rintro s ⟨call, edges⟩
  cases edges with
  | nil => rfl
  | cons kept losing =>
    by_cases hwrite : looksWriteLike toLowercase (ofLex call).2 = true
    · simp only [moveGroup, if_pos hwrite]
      refine foldl_keeps (fun s : Moves => s.2.escalated) ?_ losing s
      exact fun _ _ => rfl
    · simp only [moveGroup, if_neg hwrite]

theorem dropFromInput_escalated (isAlphanumeric : Char → Bool) (known : List String) (s : Resolution)
    (a : String × AgentSpec) :
    (dropFromInput isAlphanumeric known s a).2.escalated = s.2.escalated := by
  cases hdropped : undefinedVars isAlphanumeric known a.2.input with
  | nil => simp only [dropFromInput, hdropped]
  | cons d dropped =>
    simp only [dropFromInput, hdropped]
    refine foldl_keeps ConflictResolutionReport.escalated ?_ (d :: dropped) s.2
    exact fun _ _ => rfl

theorem dropFromResult_escalated (known : List String) (s : Resolution) :
    (dropFromResult isAlphanumeric known s).2.escalated = s.2.escalated := by
  cases hresult : s.1.flow.result with
  | none => simp only [dropFromResult, hresult]
  | some template =>
    cases hdropped : undefinedVars isAlphanumeric known template with
    | nil => simp only [dropFromResult, hresult, hdropped]
    | cons d dropped =>
      simp only [dropFromResult, hresult, hdropped]
      refine foldl_keeps ConflictResolutionReport.escalated ?_ (d :: dropped) s.2
      exact fun _ _ => rfl

theorem resolvePasses_escalated (toLowercase : String → String) (isAlphanumeric : Char → Bool)
    (w : Workflow) :
    (resolvePasses toLowercase isAlphanumeric w).2.escalated = none := by
  rw [resolvePasses, resolveUndefinedReferences, dropFromResult_escalated]
  have hinputs := foldl_keeps (fun s : Resolution => s.2.escalated)
    (fun s a => dropFromInput_escalated isAlphanumeric
      ((resolveInterferingParallelCalls toLowercase
        (resolveDuplicateOutputs (w, .empty))).1.agents.values.map AgentSpec.output) s a)
  refine (hinputs _ _).trans ?_
  refine (findMoves_escalated _ _).trans ?_
  exact resolveDuplicateOutputs_escalated _

theorem resolve_escalated_iff (w : Workflow) :
    (resolve toLowercase isAlphanumeric w).2.escalated = none ↔
      (resolve toLowercase isAlphanumeric w).1.validate isAlphanumeric none = .ok () := by
  have hnone := resolvePasses_escalated toLowercase isAlphanumeric w
  have hkeeps : ∀ report : ConflictResolutionReport,
      (if report.strategyUsed.isEmpty then { report with strategyUsed := "none" }
        else report).escalated = report.escalated := by
    intro report
    by_cases hempty : report.strategyUsed.isEmpty = true
    · rw [if_pos hempty]
    · rw [if_neg hempty]
  rw [resolve]
  simp only [hkeeps]
  cases hvalid : (resolvePasses toLowercase isAlphanumeric w).1.validate isAlphanumeric none with
  | ok _ => simp [hnone]
  | error e => simp

theorem dropFromInput_flow (known : List String) (s : Resolution) (a : String × AgentSpec) :
    (dropFromInput isAlphanumeric known s a).1.flow = s.1.flow := by
  cases hdropped : undefinedVars isAlphanumeric known a.2.input with
  | nil => simp only [dropFromInput, hdropped]
  | cons d dropped =>
    cases hspec : s.1.agents.get? a.1 with
    | none | some spec => simp only [dropFromInput, hdropped, setInput, hspec]

theorem dropFromInput_calls (known : List String) (s : Resolution) (a : String × AgentSpec)
    (name : String) :
    (dropFromInput isAlphanumeric known s a).1.calls name = s.1.calls name := by
  cases hdropped : undefinedVars isAlphanumeric known a.2.input with
  | nil => simp only [dropFromInput, hdropped]
  | cons d dropped =>
    cases hspec : s.1.agents.get? a.1 with
    | none => simp only [dropFromInput, hdropped, setInput, hspec]
    | some spec =>
      simp only [dropFromInput, hdropped, setInput, hspec, calls, BTreeMap.get?_insert]
      by_cases hname : name = a.1
      · simp [hname, hspec]
      · simp [hname]

theorem dropFromResult_edges (isAlphanumeric : Char → Bool) (known : List String) (s : Resolution) :
    (dropFromResult isAlphanumeric known s).1.flow.edges = s.1.flow.edges ∧
      (dropFromResult isAlphanumeric known s).1.agents = s.1.agents := by
  cases hresult : s.1.flow.result with
  | none => simp only [dropFromResult, hresult, and_self]
  | some template =>
    cases hdropped : undefinedVars isAlphanumeric known template with
    | nil | cons d dropped => simp only [dropFromResult, hresult, hdropped, and_self]

theorem parallelCalls_congr {w w' : Workflow} (hedges : w'.flow.edges = w.flow.edges)
    (hcalls : ∀ name, w'.calls name = w.calls name) (source : String)
    (call : String × String) : w'.parallelCalls source call = w.parallelCalls source call := by
  rw [parallelCalls, parallelCalls, hedges]
  apply List.filter_congr
  intro e _
  rw [isParallelCall, isParallelCall, hcalls]

theorem resolveUndefinedReferences_parallelCalls (r : Resolution) (source : String)
    (call : String × String) :
    (resolveUndefinedReferences isAlphanumeric r).1.parallelCalls source call =
      r.1.parallelCalls source call := by
  let known := r.1.agents.values.map AgentSpec.output
  let s := r.1.agents.entries.foldl (dropFromInput isAlphanumeric known) r
  obtain ⟨hedges, hagents⟩ := dropFromResult_edges isAlphanumeric known s
  have hflow : s.1.flow = r.1.flow :=
    foldl_keeps (fun s : Resolution => s.1.flow) (dropFromInput_flow known) _ r
  have hcalls : ∀ name, s.1.calls name = r.1.calls name := fun name =>
    foldl_keeps (fun s : Resolution => s.1.calls name)
      (fun s a => dropFromInput_calls known s a name) _ r
  apply parallelCalls_congr
  · exact hedges.trans (congrArg FlowGraph.edges hflow)
  · intro name
    refine Eq.trans ?_ (hcalls name)
    exact congrArg (fun agents : BTreeMap String AgentSpec =>
      (agents.get? name).map (fun spec => (spec.peer, spec.capability))) hagents

theorem resolve_apart (w : Workflow) :
    ¬ (resolve toLowercase isAlphanumeric w).1.Interfering toLowercase := by
  rintro ⟨source, call, hwrite, hlen⟩
  rw [resolve, resolvePasses, resolveUndefinedReferences_parallelCalls] at hlen
  exact resequence_apart toLowercase (resolveDuplicateOutputs (w, .empty))
    ⟨source, call, hwrite, hlen⟩

theorem checkEdge_ok_iff {i : Nat} {e : Edge} :
    w.checkEdge i e = .ok () ↔
      w.agents.containsKey e.source = true ∧ w.agents.containsKey e.target = true := by
  by_cases hsource : w.agents.containsKey e.source = true
  · by_cases htarget : w.agents.containsKey e.target = true
    · simp [checkEdge, hsource, htarget]
    · simp [checkEdge, hsource, htarget]
  · simp [checkEdge, hsource]

theorem edges_ok_iff : (∀ e ∈ w.flow.edges.zipIdx, w.checkEdge e.2 e.1 = .ok ()) ↔
    ∀ e ∈ w.flow.edges,
      w.agents.containsKey e.source = true ∧ w.agents.containsKey e.target = true := by
  constructor
  · intro h e he
    obtain ⟨i, hi⟩ := List.mem_iff_getElem?.mp he
    exact checkEdge_ok_iff.mp (h (e, i) (List.mem_zipIdx_iff_getElem?.mpr hi))
  · rintro h ⟨e, i⟩ he
    exact checkEdge_ok_iff.mpr (h e (List.mem_of_getElem? (List.mem_zipIdx_iff_getElem?.mp he)))

theorem resequence_edges_known (h : ∀ e ∈ w.flow.edges,
      w.agents.containsKey e.source = true ∧ w.agents.containsKey e.target = true) :
    ∀ e ∈ (resequence toLowercase (w, report)).flow.edges,
      w.agents.containsKey e.source = true ∧ w.agents.containsKey e.target = true := by
  intro e he
  rcases edge_from he with he | ⟨_, hsequenced, e', he', htarget⟩
  · exact h e he
  · obtain ⟨source, call, first, later, hcalls, _, hfirst, _⟩ := hsequenced
    have hmem : first ∈ w.parallelCalls source call := by
      rw [hcalls]
      exact List.mem_cons_self
    rw [← hfirst, ← htarget]
    exact ⟨(h first (List.mem_filter.mp hmem).1).2, (h e' he').2⟩

theorem resequence_sees (h : ∀ e ∈ w.flow.edges,
      w.agents.containsKey e.source = true ∧ w.agents.containsKey e.target = true)
    (name : String) : seenBy w.computeVisibility name ⊆
      seenBy (resequence toLowercase (w, report)).computeVisibility name := by
  intro output houtput
  obtain ⟨up, spec, hup, hspec, hstart, hpath⟩ := computeVisibility_upstream houtput
  have hsource : ∀ e ∈ (resequence toLowercase (w, report)).flow.edges,
      ∃ spec, (resequence toLowercase (w, report)).agents.get? e.source = some spec := by
    intro e he
    exact BTreeMap.containsKey_iff.mp (resequence_edges_known h e he).1
  refine (computeVisibility_iff hsource name output).mpr ⟨up, spec, hup, hspec, ?_, ?_⟩
  · refine Relation.ReflTransGen.trans_induction_on hstart (fun _ => .refl) ?_
      (fun _ _ hab hbc => hab.trans hbc)
    exact fun hstep => (leads_after hstep).to_reflTransGen
  · refine Relation.TransGen.trans_induction_on hpath ?_ (fun _ _ hab hbc => hab.trans hbc)
    exact fun hstep => leads_after hstep

theorem resequence_validated (h : Workflow.Validated isAlphanumeric w) :
    Workflow.Validated isAlphanumeric (resequence toLowercase (w, report)) := by
  have hedges := edges_ok_iff.mp h.edges
  refine ⟨h.start, ?_, h.outputs, ?_⟩
  · apply edges_ok_iff.mpr
    exact resequence_edges_known hedges
  · intro a ha
    have hagent : w.agents.get? a.1 = some a.2 := BTreeMap.mem_entries.mp ha
    apply forM_ok_iff.mpr
    intro v hv
    have hvisible := h.visible hagent hv
    have hafter : (resequence toLowercase (w, report)).isVarVisible v a.1
        (seenBy (resequence toLowercase (w, report)).computeVisibility a.1) = true := by
      have hagents : (resequence toLowercase (w, report)).agents = w.agents := rfl
      rw [isVarVisible, hagents]
      rw [isVarVisible] at hvisible
      by_cases hinput : v = "workflow.input"
      · rw [if_pos hinput]
      · rw [if_neg hinput] at hvisible ⊢
        by_cases hown : (w.agents.get? a.1).map AgentSpec.output = some (Workflow.stripOutput v)
        · rw [if_pos hown] at hvisible
          cases hvisible
        · rw [if_neg hown] at hvisible ⊢
          exact decide_eq_true (resequence_sees hedges a.1 (of_decide_eq_true hvisible))
    rw [if_pos hafter]

theorem resolve_valid_iff (h : w.validate isAlphanumeric none = .ok ()) :
    (resolve toLowercase isAlphanumeric w).1.validate isAlphanumeric none = .ok () ↔
      ∀ name, Relation.ReflTransGen (w.Follows toLowercase) w.flow.start name →
        ¬ Relation.TransGen (w.Follows toLowercase) name name := by
  have hresult : (resolve toLowercase isAlphanumeric w).1 =
      resequence toLowercase (w, .empty) := resolvePasses_valid h
  obtain ⟨hvalidated, hcheck, _⟩ := validate_ok_iff.mp h
  have hreach : ∀ name, Relation.ReflTransGen
      (resequence toLowercase (w, .empty)).Forward w.flow.start name ↔
        Relation.ReflTransGen (w.Follows toLowercase) w.flow.start name := by
    intro name
    rw [Relation.reflTransGen_iff_eq_or_transGen, Relation.reflTransGen_iff_eq_or_transGen,
      follows_iff]
  rw [hresult, validate_ok_iff]
  constructor
  · rintro ⟨_, _, hacyclic⟩ name hname hcycle
    exact hacyclic name ((hreach name).mpr hname) ((follows_iff name name).mpr hcycle)
  · intro hacyclic
    refine ⟨resequence_validated hvalidated, hcheck, ?_⟩
    intro name hname hcycle
    exact hacyclic name ((hreach name).mp hname) ((follows_iff name name).mp hcycle)

theorem resolve_id (h : w.validate isAlphanumeric none = .ok ())
    (hapart : ¬ w.Interfering toLowercase) : (resolve toLowercase isAlphanumeric w).1 = w := by
  have hresult : (resolve toLowercase isAlphanumeric w).1 =
      resequence toLowercase (w, .empty) := resolvePasses_valid h
  have hedges : (resequence toLowercase (w, .empty)).flow.edges = w.flow.edges := by
    apply List.ext_getElem?
    intro i
    apply resequence_unmoved
    rintro kept ⟨source, call, first, later, hcalls, hwrite, _, e, he⟩
    refine hapart ⟨source, call, hwrite, ?_⟩
    rw [← placedCalls_fst, hcalls]
    have hpos := List.length_pos_of_mem he
    simp only [List.map_cons, List.length_cons, List.length_map]
    omega
  rw [hresult]
  have hflow : (resequence toLowercase (w, .empty)).flow = w.flow :=
    congrArg (fun edges => ({ w.flow with edges := edges } : FlowGraph)) hedges
  exact congrArg (fun flow => ({ w with flow := flow } : Workflow)) hflow

/-- The resolver only repairs, where no cycle over what is followed can be come to in an
accepted workflow. -/
theorem resolve_repairs_iff (toLowercase : String → String) (isAlphanumeric : Char → Bool)
    (w : Workflow) :
    ((w.validate isAlphanumeric none = .ok () →
        (resolve toLowercase isAlphanumeric w).2.escalated = none ∧
        (resolve toLowercase isAlphanumeric w).1.validate isAlphanumeric none = .ok ()) ∧
      (w.validate isAlphanumeric none = .ok () → ¬ w.Interfering toLowercase →
        (resolve toLowercase isAlphanumeric w).1 = w) ∧
      ((resolve toLowercase isAlphanumeric w).2.escalated = none →
        ((resolve toLowercase isAlphanumeric w).1.agents.entries.map
          (fun a => a.2.output)).Nodup ∧
        ¬ (resolve toLowercase isAlphanumeric w).1.Interfering toLowercase)) ↔
      (w.validate isAlphanumeric none = .ok () →
        ∀ name, Relation.ReflTransGen (w.Follows toLowercase) w.flow.start name →
          ¬ Relation.TransGen (w.Follows toLowercase) name name) := by
  constructor
  · rintro ⟨hvalid, _, _⟩ h
    exact (resolve_valid_iff h).mp (hvalid h).2
  · intro hacyclic
    refine ⟨?_, fun h hapart => resolve_id h hapart, ?_⟩
    · intro h
      have hvalid := (resolve_valid_iff h).mpr (hacyclic h)
      exact ⟨(resolve_escalated_iff w).mpr hvalid, hvalid⟩
    · intro hescalated
      have hvalidated := validate_ok ((resolve_escalated_iff w).mp hescalated)
      exact ⟨(checkOutputs_ok hvalidated.outputs).1, resolve_apart w⟩

def crossedWrites : Workflow where
  name := "crossed"
  version := 1
  description := ""
  agents := BTreeMap.collect
    [("a", ⟨"store", "db.write", "", "x"⟩), ("b", ⟨"store", "db.write", "", "y"⟩),
      ("s", ⟨"store", "db.read", "", "z"⟩)]
  flow :=
    { start := "s"
      edges := [⟨"s", "a", .parallel⟩, ⟨"s", "b", .parallel⟩, ⟨"b", "a", .success⟩]
      result := none }

theorem crossed_writes_escalate :
    crossedWrites.validate Char.isAlphanum none = .ok () ∧
      (resolve (fun s => String.ofList (s.toList.map Char.toLower)) Char.isAlphanum
        crossedWrites).2.escalated ≠ none := by
  have hvalid : crossedWrites.validate Char.isAlphanum none = .ok () := by rfl
  refine ⟨hvalid, ?_⟩
  intro hescalated
  have hafter := (resolve_escalated_iff crossedWrites).mp hescalated
  have hacyclic := (resolve_valid_iff hvalid).mp hafter
  have hstart : crossedWrites.Follows (fun s => String.ofList (s.toList.map Char.toLower))
      "s" "a" := Or.inl ⟨⟨"s", "a", .parallel⟩, by simp [crossedWrites], rfl, rfl, by simp⟩
  have hback : crossedWrites.Follows (fun s => String.ofList (s.toList.map Char.toLower))
      "b" "a" := Or.inl ⟨⟨"b", "a", .success⟩, by simp [crossedWrites], rfl, rfl, by simp⟩
  have hbehind : crossedWrites.Follows (fun s => String.ofList (s.toList.map Char.toLower))
      "a" "b" := Or.inr ⟨"s", ("store", "db.write"), ⟨"s", "a", .parallel⟩,
        [⟨"s", "b", .parallel⟩], by decide +kernel, by decide +kernel, rfl, _,
        List.mem_cons_self, rfl⟩
  exact hacyclic "a" (.single hstart) (.tail (.single hbehind) hback)

end ConflictResolver

end Relux
