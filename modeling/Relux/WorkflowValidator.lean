import Mathlib.Algebra.Order.BigOperators.Group.Finset
import Mathlib.Data.Finset.Card
import Mathlib.Data.Finset.Option
import Mathlib.Data.String.Basic
import Mathlib.Logic.Relation
import Relux.BTreeMap
import Relux.Text
import Relux.HashMap

/-! Templates of a workflow: text with markers that name variables. What Unicode calls
alphanumeric is a parameter. -/

variable {v : String}

namespace Relux

def closeMarker : List Char → Option (List Char)
  | [] => none
  | c :: rest =>
    if c = '\x7d' ∧ rest.head? = some '\x7d' then some []
    else (closeMarker rest).map (fun body => c :: body)

inductive TemplatePiece
  | text (s : List Char)
  | marker (name : String)
  deriving DecidableEq, Repr

variable (isAlphanumeric : Char → Bool)

def isVariableName (name : List Char) : Bool :=
  !name.isEmpty && name.all (fun c => isAlphanumeric c || c == '_' || c == '.')

/-- The pieces behind the next `skip` characters. A marker whose name is not an identifier
and one that is not closed are text. -/
def templatePieces : Nat → List Char → List TemplatePiece
  | _, [] => []
  | skip + 1, _ :: rest => templatePieces skip rest
  | 0, c :: rest =>
    if c = '\x7b' ∧ rest.head? = some '\x7b' then
      match closeMarker rest.tail with
      | none => [.text (c :: rest)]
      | some body =>
        let name := trimChars body
        let piece := if isVariableName isAlphanumeric name then .marker (String.ofList name)
          else .text ((c :: rest).take (body.length + 4))
        piece :: templatePieces (body.length + 3) rest
    else .text [c] :: templatePieces 0 rest

def TemplatePiece.placeholder : TemplatePiece → Option String
  | .text _ => none
  | .marker name => some name

def extractVars (template : String) : List String :=
  (templatePieces isAlphanumeric 0 template.toList).filterMap TemplatePiece.placeholder

def TemplatePiece.render (bindings : BTreeMap String String) (out : String) :
    TemplatePiece → Except String String
  | .text s => .ok (out ++ String.ofList s)
  | .marker name =>
    match bindings.get? name with
    | none => .error name
    | some value => .ok (out ++ value)

def interpolate (template : String) (bindings : BTreeMap String String) :
    Except String String :=
  (templatePieces isAlphanumeric 0 template.toList).foldlM
    (TemplatePiece.render bindings) ""

variable {bindings : BTreeMap String String} {pieces : List TemplatePiece}

theorem renderAll_ok
    (h : ∀ v ∈ pieces.filterMap TemplatePiece.placeholder, ∃ value, bindings.get? v = some value)
    (out : String) : ∃ result, pieces.foldlM (TemplatePiece.render bindings) out = .ok result := by
  induction pieces generalizing out with
  | nil => exact ⟨out, rfl⟩
  | cons piece pieces ih =>
    cases piece with
    | text s =>
      obtain ⟨result, hresult⟩ := ih (fun v hv => h v hv) (out ++ String.ofList s)
      exact ⟨result, hresult⟩
    | marker name =>
      obtain ⟨value, hvalue⟩ := h name (by simp [TemplatePiece.placeholder])
      have hrest : ∀ v ∈ pieces.filterMap TemplatePiece.placeholder,
          ∃ value, bindings.get? v = some value := by
        intro v hv
        apply h v
        exact List.mem_cons_of_mem _ hv
      obtain ⟨result, hresult⟩ := ih hrest (out ++ value)
      refine ⟨result, ?_⟩
      rw [List.foldlM_cons]
      simp only [TemplatePiece.render, hvalue]
      exact hresult

variable {template : String}

theorem interpolate_ok
    (h : ∀ v ∈ extractVars isAlphanumeric template, ∃ value, bindings.get? v = some value) :
    ∃ result, interpolate isAlphanumeric template bindings = .ok result :=
  renderAll_ok h ""

end Relux

/-! The workflow definition and its validator. -/

namespace Relux

structure AgentSpec where
  peer : String
  capability : String
  input : String
  output : String
  deriving DecidableEq, Repr

inductive EdgeCondition
  | success
  | failure
  | always
  | parallel
  deriving DecidableEq, Repr

/-- An edge; `from` and `to` are its source and its target. -/
structure Edge where
  source : String
  target : String
  condition : EdgeCondition
  deriving DecidableEq, Repr

structure FlowGraph where
  start : String
  edges : List Edge
  result : Option String

structure Workflow where
  name : String
  version : Nat
  description : String
  agents : BTreeMap String AgentSpec
  flow : FlowGraph

inductive WorkflowError
  | startAgentMissing (name : String)
  | edgeFromMissing (index : Nat) (name : String)
  | edgeToMissing (index : Nat) (name : String)
  | cycleDetected (path : List String)
  | undefinedVariable (agent field var available : String)
  | resultUndefinedVariable (var available : String)
  | unknownPeer (agent peer : String)
  | duplicateOutput (name output : String)
  deriving DecidableEq, Repr

namespace Workflow

variable (w : Workflow)

abbrev Visibility := HashMap String (Finset String) × List String

def seenBy (visibility : HashMap String (Finset String)) (name : String) : Finset String :=
  (visibility.get? name).getD ∅

/-- An edge gives its target what its source sees. The target is walked from again when
it sees more than before. -/
def showTo (child : Finset String) (v : Visibility) (e : Edge) : Visibility :=
  let entry := seenBy v.1 e.target
  let grown := entry ∪ child
  (v.1.insert e.target grown, if entry.card < grown.card then v.2 ++ [e.target] else v.2)

def visibilityStep (visibility : HashMap String (Finset String)) (current : String)
    (queue : List String) : Visibility :=
  let child := seenBy visibility current ∪
    ((w.agents.get? current).map AgentSpec.output).toFinset
  let forward := w.flow.edges.filter
    (fun e => e.source = current ∧ e.condition ≠ .failure)
  let handlers := w.flow.edges.filter
    (fun e => e.source = current ∧ e.condition = .failure)
  handlers.foldl (showTo child) (forward.foldl (showTo child) (visibility, queue))

def visibilityLoop : Nat → Visibility → Option (HashMap String (Finset String))
  | _, (visibility, []) => some visibility
  | 0, (_, _ :: _) => none
  | fuel + 1, (visibility, current :: queue) =>
    visibilityLoop fuel (w.visibilityStep visibility current queue)

def visibilityFuel : Nat := 1 + w.flow.edges.length * w.agents.entries.length

def outputs : Finset String := (w.agents.values.map AgentSpec.output).toFinset

def targets : Finset String := (w.flow.edges.map Edge.target).toFinset

def unseen (visibility : HashMap String (Finset String)) : Nat :=
  ∑ name ∈ w.targets, (w.outputs \ seenBy visibility name).card

variable {w}

theorem seenBy_insert (visibility : HashMap String (Finset String)) (k name : String)
    (s : Finset String) :
    seenBy (visibility.insert k s) name = if name = k then s else seenBy visibility name := by
  by_cases h : name = k
  · simp [seenBy, h]
  · simp [seenBy, h]

theorem showTo_seen (child : Finset String) (v : Visibility) (e : Edge) (name : String) :
    seenBy (showTo child v e).1 name =
      if name = e.target then seenBy v.1 name ∪ child else seenBy v.1 name := by
  simp only [showTo, seenBy_insert]
  by_cases h : name = e.target
  · simp [h, seenBy]
  · simp [h]

variable {child : Finset String} {e : Edge}

theorem showTo_measure (hchild : child ⊆ w.outputs) (v : Visibility) (he : e ∈ w.flow.edges) :
    (showTo child v e).2.length + w.unseen (showTo child v e).1 ≤ v.2.length + w.unseen v.1 := by
  have htarget : e.target ∈ w.targets := by
    simp only [targets, List.mem_toFinset]
    exact List.mem_map_of_mem he
  have hle : ∀ name, (w.outputs \ seenBy (showTo child v e).1 name).card ≤
      (w.outputs \ seenBy v.1 name).card := by
    intro name
    apply Finset.card_le_card
    apply Finset.sdiff_subset_sdiff (Finset.Subset.refl _)
    rw [showTo_seen]
    by_cases h : name = e.target
    · simp [h]
    · simp [h]
  by_cases hgrown : (seenBy v.1 e.target).card < (seenBy v.1 e.target ∪ child).card
  · have hlt : w.unseen (showTo child v e).1 < w.unseen v.1 := by
      apply Finset.sum_lt_sum (fun name _ => hle name)
      refine ⟨e.target, htarget, ?_⟩
      have hnot : ¬ child ⊆ seenBy v.1 e.target := by
        intro hsub
        rw [Finset.union_eq_left.mpr hsub] at hgrown
        omega
      obtain ⟨o, ho, hnew⟩ := Finset.not_subset.mp hnot
      apply Finset.card_lt_card
      rw [showTo_seen, if_pos rfl]
      refine Finset.ssubset_iff_of_subset ?_ |>.mpr ⟨o, ?_, ?_⟩
      · exact Finset.sdiff_subset_sdiff (Finset.Subset.refl _) Finset.subset_union_left
      · exact Finset.mem_sdiff.mpr ⟨hchild ho, hnew⟩
      · intro hmem
        exact (Finset.mem_sdiff.mp hmem).2 (Finset.mem_union_right _ ho)
    have hpush : (showTo child v e).2.length = v.2.length + 1 := by
      simp only [showTo]
      rw [if_pos hgrown]
      simp
    omega
  · have hle' : w.unseen (showTo child v e).1 ≤ w.unseen v.1 :=
      Finset.sum_le_sum (fun name _ => hle name)
    have hpush : (showTo child v e).2.length = v.2.length := by
      simp only [showTo]
      rw [if_neg hgrown]
    omega

variable {edges : List Edge}

theorem foldl_showTo_measure (hchild : child ⊆ w.outputs) (h : ∀ e ∈ edges, e ∈ w.flow.edges)
    (v : Visibility) :
    (edges.foldl (showTo child) v).2.length + w.unseen (edges.foldl (showTo child) v).1 ≤
      v.2.length + w.unseen v.1 := by
  induction edges generalizing v with
  | nil => exact Nat.le_refl _
  | cons e edges ih =>
    have hhead := showTo_measure hchild v (h e List.mem_cons_self)
    have htail := ih (fun e' he' => h e' (List.mem_cons_of_mem e he')) (showTo child v e)
    exact htail.trans hhead

variable {p : String → String → Prop}

theorem foldl_showTo_seen (h : ∀ e ∈ edges, ∀ o ∈ child, p e.target o)
    {v : Visibility} (hv : ∀ name, ∀ o ∈ seenBy v.1 name, p name o) :
    ∀ name, ∀ o ∈ seenBy (edges.foldl (showTo child) v).1 name, p name o := by
  induction edges generalizing v with
  | nil => exact hv
  | cons e edges ih =>
    apply ih (fun e' he' => h e' (List.mem_cons_of_mem e he'))
    intro name o ho
    rw [showTo_seen] at ho
    by_cases hname : name = e.target
    · rw [if_pos hname] at ho
      rcases Finset.mem_union.mp ho with ho | ho
      · exact hv name o ho
      · rw [hname]
        exact h e List.mem_cons_self o ho
    · rw [if_neg hname] at ho
      exact hv name o ho

variable {visibility : HashMap String (Finset String)} {queue : List String} {current : String}

theorem visibilityStep_seen (hv : ∀ name, ∀ o ∈ seenBy visibility name, p name o)
    (hedge : ∀ e ∈ w.flow.edges, e.source = current → ∀ o, p current o → p e.target o)
    (hown : ∀ e ∈ w.flow.edges, e.source = current → ∀ spec,
      w.agents.get? current = some spec → p e.target spec.output) :
    ∀ name, ∀ o ∈ seenBy (w.visibilityStep visibility current queue).1 name, p name o := by
  have hchild : ∀ e ∈ w.flow.edges, e.source = current →
      ∀ o ∈ seenBy visibility current ∪
        ((w.agents.get? current).map AgentSpec.output).toFinset, p e.target o := by
    intro e he hsource o ho
    rcases Finset.mem_union.mp ho with ho | ho
    · exact hedge e he hsource o (hv current o ho)
    · cases hspec : w.agents.get? current with
      | none => simp [hspec] at ho
      | some spec =>
        have houtput : o = spec.output := by simpa [hspec] using ho
        rw [houtput]
        exact hown e he hsource spec hspec
  apply foldl_showTo_seen
  · intro e he
    obtain ⟨he, hcond⟩ := List.mem_filter.mp he
    exact hchild e he (by simpa using (of_decide_eq_true hcond).1)
  · apply foldl_showTo_seen
    · intro e he
      obtain ⟨he, hcond⟩ := List.mem_filter.mp he
      exact hchild e he (by simpa using (of_decide_eq_true hcond).1)
    · exact hv

variable {name : String} {spec : AgentSpec}

theorem output_mem (h : w.agents.get? name = some spec) :
    spec.output ∈ w.outputs := by
  simp only [outputs, List.mem_toFinset, BTreeMap.values, List.map_map]
  exact List.mem_map.mpr ⟨(name, spec), BTreeMap.mem_entries.mpr h, rfl⟩

theorem visibilityStep_measure (hv : ∀ name, ∀ o ∈ seenBy visibility name, o ∈ w.outputs)
    (current : String) (queue : List String) :
    (w.visibilityStep visibility current queue).2.length +
        w.unseen (w.visibilityStep visibility current queue).1 ≤
      queue.length + w.unseen visibility := by
  have hchild : seenBy visibility current ∪
      ((w.agents.get? current).map AgentSpec.output).toFinset ⊆ w.outputs := by
    apply Finset.union_subset (hv current)
    intro o ho
    cases hspec : w.agents.get? current with
    | none => simp [hspec] at ho
    | some spec =>
      have houtput : o = spec.output := by simpa [hspec] using ho
      rw [houtput]
      exact output_mem hspec
  have hhandlers := foldl_showTo_measure hchild
    (fun e he => (List.mem_filter.mp he).1 :
      ∀ e ∈ w.flow.edges.filter (fun e => e.source = current ∧ e.condition = .failure),
        e ∈ w.flow.edges)
  have hforward := foldl_showTo_measure hchild
    (fun e he => (List.mem_filter.mp he).1 :
      ∀ e ∈ w.flow.edges.filter (fun e => e.source = current ∧ e.condition ≠ .failure),
        e ∈ w.flow.edges)
  exact (hhandlers _).trans (hforward (visibility, queue))

variable {fuel : Nat}

theorem visibilityLoop_isSome (hv : ∀ name, ∀ o ∈ seenBy visibility name, o ∈ w.outputs)
    (hfuel : queue.length + w.unseen visibility ≤ fuel) :
    (w.visibilityLoop fuel (visibility, queue)).isSome = true := by
  induction fuel generalizing visibility queue with
  | zero =>
    have hqueue : queue = [] := List.length_eq_zero_iff.mp (by omega)
    rw [hqueue]
    rfl
  | succ fuel ih =>
    cases queue with
    | nil => rfl
    | cons current queue =>
      have hmeasure := visibilityStep_measure hv current queue
      simp only [List.length_cons] at hfuel
      apply ih
      · exact visibilityStep_seen hv (fun _ _ _ _ ho => ho)
          (fun _ _ _ _ hspec => output_mem hspec)
      · exact hmeasure.trans (by omega)

theorem visibilityFuel_enough :
    (w.visibilityLoop w.visibilityFuel
      (HashMap.empty.insert w.flow.start ∅, [w.flow.start])).isSome = true := by
  apply visibilityLoop_isSome
  · intro name o ho
    rw [seenBy_insert] at ho
    by_cases hname : name = w.flow.start
    · simp [hname] at ho
    · simp [hname, seenBy] at ho
  · have houtputs : w.outputs.card ≤ w.agents.entries.length := by
      refine (List.toFinset_card_le _).trans ?_
      simp [BTreeMap.values]
    have htargets : w.targets.card ≤ w.flow.edges.length := by
      refine (List.toFinset_card_le _).trans ?_
      simp
    have hsum : w.unseen (HashMap.empty.insert w.flow.start ∅) ≤
        w.targets.card * w.agents.entries.length := by
      apply Finset.sum_le_card_nsmul
      intro name _
      exact (Finset.card_le_card Finset.sdiff_subset).trans houtputs
    have hprod := Nat.mul_le_mul_right w.agents.entries.length htargets
    simp only [visibilityFuel, List.length_singleton]
    omega

variable (w)

def computeVisibility : HashMap String (Finset String) :=
  (w.visibilityLoop w.visibilityFuel
    (HashMap.empty.insert w.flow.start ∅, [w.flow.start])).get visibilityFuel_enough

def stripOutput (var : String) : String :=
  if ".output".toList.isSuffixOf var.toList then
    String.ofList (var.toList.take (var.toList.length - 7))
  else var

def isVarVisible (var ownName : String) (reachable : Finset String) : Bool :=
  if var = "workflow.input" then true
  else if (w.agents.get? ownName).map AgentSpec.output = some (stripOutput var) then false
  else decide (stripOutput var ∈ reachable)

def isVarVisibleResult (var : String) (allOutputs : List String) : Bool :=
  if var = "workflow.input" then true else allOutputs.contains (stripOutput var)

structure CycleSearch where
  path : List String
  onStack : Finset String
  visited : Finset String

abbrev CycleResult := Option (Except WorkflowError CycleSearch)

def searchAll (search : String → CycleSearch → CycleResult) :
    List Edge → CycleSearch → CycleResult
  | [], s => some (.ok s)
  | e :: edges, s =>
    match search e.target s with
    | none => none
    | some (.error cycle) => some (.error cycle)
    | some (.ok s) => searchAll search edges s

def forwardEdges (current : String) : List Edge :=
  w.flow.edges.filter (fun e => e.source = current ∧ e.condition ≠ .failure)

def dfsCycle : Nat → String → CycleSearch → CycleResult
  | 0, _, _ => none
  | fuel + 1, current, s =>
    if current ∈ s.onStack then
      some (.error (.cycleDetected (s.path.drop (s.path.idxOf current) ++ [current])))
    else if current ∈ s.visited then some (.ok s)
    else
      let entered : CycleSearch :=
        { s with onStack := insert current s.onStack, path := s.path ++ [current] }
      match searchAll (dfsCycle fuel) (w.forwardEdges current) entered with
      | none => none
      | some (.error cycle) => some (.error cycle)
      | some (.ok s) =>
        some (.ok ⟨s.path.dropLast, s.onStack.erase current, insert current s.visited⟩)

def names : Finset String := insert w.flow.start w.targets

variable {w}

theorem searchAll_ok {search : String → CycleSearch → CycleResult} {edges : List Edge}
    {s s' : CycleSearch} (h : searchAll search (e :: edges) s = some (.ok s')) :
    ∃ s₁, search e.target s = some (.ok s₁) ∧ searchAll search edges s₁ = some (.ok s') := by
  unfold searchAll at h
  split at h
  · cases h
  · cases h
  next s₁ hfirst => exact ⟨s₁, hfirst, h⟩

theorem searchAll_stack {search : String → CycleSearch → CycleResult} {edges : List Edge}
    (hsearch : ∀ e s s', search e s = some (.ok s') → s'.onStack = s.onStack)
    {s s' : CycleSearch} (h : searchAll search edges s = some (.ok s')) :
    s'.onStack = s.onStack := by
  induction edges generalizing s with
  | nil =>
    cases h
    rfl
  | cons e edges ih =>
    obtain ⟨s₁, hfirst, hrest⟩ := searchAll_ok h
    exact (ih hrest).trans (hsearch e.target s s₁ hfirst)

theorem dfsCycle_ok {s s' : CycleSearch} (h : w.dfsCycle (fuel + 1) current s = some (.ok s')) :
    current ∉ s.onStack ∧ (current ∈ s.visited ∧ s' = s ∨ current ∉ s.visited ∧
      ∃ s₁, searchAll (w.dfsCycle fuel) (w.forwardEdges current)
          ⟨s.path ++ [current], insert current s.onStack, s.visited⟩ = some (.ok s₁) ∧
        s' = ⟨s₁.path.dropLast, s₁.onStack.erase current, insert current s₁.visited⟩) := by
  unfold dfsCycle at h
  split at h
  · cases h
  next hstack =>
    refine ⟨hstack, ?_⟩
    split at h
    next hvisited =>
      cases h
      exact .inl ⟨hvisited, rfl⟩
    next hvisited =>
      refine .inr ⟨hvisited, ?_⟩
      dsimp only at h
      split at h
      · cases h
      · cases h
      next s₁ hsearch =>
        cases h
        exact ⟨s₁, hsearch, rfl⟩

theorem dfsCycle_stack {s s' : CycleSearch} (h : w.dfsCycle fuel current s = some (.ok s')) :
    s'.onStack = s.onStack := by
  induction fuel generalizing current s s' with
  | zero => cases h
  | succ fuel ih =>
    obtain ⟨hstack, ⟨-, rfl⟩ | ⟨-, s₁, hsearch, rfl⟩⟩ := dfsCycle_ok h
    · rfl
    · have hon : s₁.onStack = insert current s.onStack :=
        searchAll_stack (fun e t t' ht => ih ht) hsearch
      show s₁.onStack.erase current = s.onStack
      rw [hon, Finset.erase_insert hstack]

theorem searchAll_isSome {search : String → CycleSearch → CycleResult}
    (hsearch : ∀ e s s', search e s = some (.ok s') → s'.onStack = s.onStack)
    {stack : Finset String} {edges : List Edge}
    (h : ∀ e ∈ edges, ∀ s : CycleSearch, s.onStack = stack → (search e.target s).isSome = true)
    {s : CycleSearch} (hs : s.onStack = stack) : (searchAll search edges s).isSome = true := by
  induction edges generalizing s with
  | nil => rfl
  | cons e edges ih =>
    have hsome := h e List.mem_cons_self s hs
    unfold searchAll
    split
    next hnone =>
      rw [hnone] at hsome
      cases hsome
    · rfl
    next s₁ hfirst =>
      exact ih (fun e' he' => h e' (List.mem_cons_of_mem e he'))
        ((hsearch e.target s s₁ hfirst).trans hs)

theorem target_mem_names (h : e ∈ w.forwardEdges current) : e.target ∈ w.names := by
  apply Finset.mem_insert_of_mem
  simp only [targets, List.mem_toFinset]
  exact List.mem_map_of_mem (List.mem_filter.mp h).1

theorem dfsCycle_isSome {s : CycleSearch} (hcurrent : current ∈ w.names)
    (hfuel : (w.names \ s.onStack).card < fuel) : (w.dfsCycle fuel current s).isSome = true := by
  induction fuel generalizing current s with
  | zero => omega
  | succ fuel ih =>
    unfold dfsCycle
    split
    · rfl
    next hstack =>
      split
      · rfl
      · have hless : (w.names \ insert current s.onStack).card < (w.names \ s.onStack).card := by
          apply Finset.card_lt_card
          refine (Finset.ssubset_iff_of_subset ?_).mpr ⟨current, ?_, ?_⟩
          · exact Finset.sdiff_subset_sdiff (Finset.Subset.refl _) (Finset.subset_insert _ _)
          · exact Finset.mem_sdiff.mpr ⟨hcurrent, hstack⟩
          · simp
        have hedges : ∀ e ∈ w.forwardEdges current, ∀ s₁ : CycleSearch,
            s₁.onStack = insert current s.onStack →
              (w.dfsCycle fuel e.target s₁).isSome = true := by
          intro e he s₁ hs₁
          exact @ih e.target s₁ (target_mem_names he) (by rw [hs₁]; omega)
        have hsome := @searchAll_isSome (w.dfsCycle fuel) (fun e t t' ht => dfsCycle_stack ht) _ _
          hedges ⟨s.path ++ [current], insert current s.onStack, s.visited⟩ rfl
        dsimp only
        split
        next hnone =>
          rw [hnone] at hsome
          cases hsome
        · rfl
        · rfl

theorem cycleFuel_enough :
    (w.dfsCycle (w.flow.edges.length + 2) w.flow.start ⟨[], ∅, ∅⟩).isSome = true := by
  have htargets : w.targets.card ≤ w.flow.edges.length := by
    refine (List.toFinset_card_le _).trans ?_
    simp
  have hnames : w.names.card ≤ w.targets.card + 1 := Finset.card_insert_le _ _
  apply dfsCycle_isSome (Finset.mem_insert_self _ _)
  rw [Finset.sdiff_empty]
  omega

variable (w)

def detectSuccessCycle : Except WorkflowError CycleSearch :=
  (w.dfsCycle (w.flow.edges.length + 2) w.flow.start ⟨[], ∅, ∅⟩).get cycleFuel_enough

def available : String :=
  ", ".intercalate
    ("workflow.input" :: w.agents.values.map (fun a => a.output ++ ".output"))

def checkStart : Except WorkflowError Unit :=
  if w.agents.containsKey w.flow.start then .ok () else .error (.startAgentMissing w.flow.start)

def checkEdge (i : Nat) (e : Edge) : Except WorkflowError Unit :=
  if !w.agents.containsKey e.source then .error (.edgeFromMissing i e.source)
  else if !w.agents.containsKey e.target then .error (.edgeToMissing i e.target)
  else .ok ()

def checkPeers (knownPeers : Option (List String)) : Except WorkflowError Unit :=
  match knownPeers with
  | none => .ok ()
  | some peers => w.agents.entries.forM (fun a =>
      if peers.contains a.2.peer then .ok () else .error (.unknownPeer a.1 a.2.peer))

def checkOutputs (seen : List String) : List (String × AgentSpec) → Except WorkflowError Unit
  | [] => .ok ()
  | a :: agents =>
    if a.2.output ∈ seen then .error (.duplicateOutput a.1 a.2.output)
    else checkOutputs (a.2.output :: seen) agents

variable (isAlphanumeric : Char → Bool)

def checkInput (a : String × AgentSpec) : Except WorkflowError Unit :=
  (extractVars isAlphanumeric a.2.input).forM (fun var =>
    if w.isVarVisible var a.1 (seenBy w.computeVisibility a.1) then .ok ()
    else .error (.undefinedVariable a.1 "input" var w.available))

def checkResult : Except WorkflowError Unit :=
  match w.flow.result with
  | none => .ok ()
  | some template => (extractVars isAlphanumeric template).forM (fun var =>
      if isVarVisibleResult var (w.agents.values.map AgentSpec.output) then .ok ()
      else .error (.resultUndefinedVariable var w.available))

def validate (knownPeers : Option (List String)) : Except WorkflowError Unit := do
  w.checkStart
  (w.flow.edges.zipIdx).forM (fun e => w.checkEdge e.2 e.1)
  w.checkPeers knownPeers
  checkOutputs [] w.agents.entries
  w.agents.entries.forM (w.checkInput isAlphanumeric)
  w.checkResult isAlphanumeric
  let _ ← w.detectSuccessCycle
  .ok ()

variable {w} {isAlphanumeric}

theorem bind_ok {α β ε : Type} {x : Except ε α} {f : α → Except ε β} {b : β}
    (h : x >>= f = .ok b) : ∃ a, x = .ok a ∧ f a = .ok b := by
  cases x with
  | error e => cases h
  | ok a => exact ⟨a, rfl, h⟩

theorem forM_ok {α ε : Type} {f : α → Except ε Unit} {l : List α} (h : l.forM f = .ok ()) :
    ∀ a ∈ l, f a = .ok () := by
  induction l with
  | nil => simp
  | cons a l ih =>
    obtain ⟨⟨⟩, hhead, htail⟩ := bind_ok h
    intro b hb
    rcases List.mem_cons.mp hb with hb | hb
    · rw [hb]
      exact hhead
    · exact ih htail b hb

structure Validated (isAlphanumeric : Char → Bool) (w : Workflow) : Prop where
  start : w.checkStart = .ok ()
  edges : ∀ e ∈ w.flow.edges.zipIdx, w.checkEdge e.2 e.1 = .ok ()
  outputs : checkOutputs [] w.agents.entries = .ok ()
  inputs : ∀ a ∈ w.agents.entries, w.checkInput isAlphanumeric a = .ok ()

theorem validate_ok {knownPeers : Option (List String)}
    (h : w.validate isAlphanumeric knownPeers = .ok ()) : Validated isAlphanumeric w := by
  obtain ⟨⟨⟩, hstart, h⟩ := bind_ok h
  obtain ⟨⟨⟩, hedges, h⟩ := bind_ok h
  obtain ⟨⟨⟩, _, h⟩ := bind_ok h
  obtain ⟨⟨⟩, houtputs, h⟩ := bind_ok h
  obtain ⟨⟨⟩, hinputs, _⟩ := bind_ok h
  exact ⟨hstart, forM_ok hedges, houtputs, forM_ok hinputs⟩

theorem Validated.startAgent (h : Validated isAlphanumeric w) :
    ∃ spec, w.agents.get? w.flow.start = some spec := by
  by_cases hstart : w.agents.containsKey w.flow.start = true
  · exact BTreeMap.containsKey_iff.mp hstart
  · have hfail := h.start
    rw [checkStart, if_neg hstart] at hfail
    cases hfail

theorem Validated.targetAgent (h : Validated isAlphanumeric w) (he : e ∈ w.flow.edges) :
    ∃ spec, w.agents.get? e.target = some spec := by
  obtain ⟨i, hi, hget⟩ := List.mem_iff_getElem.mp he
  have hzip : (e, i) ∈ w.flow.edges.zipIdx := by
    rw [← hget]
    exact List.mem_zipIdx_iff_getElem?.mpr (List.getElem?_eq_getElem hi)
  have hcheck := h.edges (e, i) hzip
  by_cases htarget : w.agents.containsKey e.target = true
  · exact BTreeMap.containsKey_iff.mp htarget
  · simp only [checkEdge] at hcheck
    by_cases hsource : w.agents.containsKey e.source = true
    · simp [hsource, htarget] at hcheck
    · simp [hsource] at hcheck

theorem checkOutputs_ok {seen : List String} {agents : List (String × AgentSpec)}
    (h : checkOutputs seen agents = .ok ()) :
    (agents.map (fun a => a.2.output)).Nodup ∧ ∀ a ∈ agents, a.2.output ∉ seen := by
  induction agents generalizing seen with
  | nil => simp
  | cons a agents ih =>
    by_cases hseen : a.2.output ∈ seen
    · rw [checkOutputs, if_pos hseen] at h
      cases h
    · rw [checkOutputs, if_neg hseen] at h
      obtain ⟨hnodup, hfresh⟩ := ih h
      refine ⟨List.nodup_cons.mpr ⟨?_, hnodup⟩, ?_⟩
      · intro hmem
        obtain ⟨b, hb, heq⟩ := List.mem_map.mp hmem
        apply hfresh b hb
        rw [heq]
        exact List.mem_cons_self
      · intro b hb
        rcases List.mem_cons.mp hb with hb | hb
        · rw [hb]
          exact hseen
        · exact fun hmem => hfresh b hb (List.mem_cons_of_mem _ hmem)

theorem Validated.unique (h : Validated isAlphanumeric w) {a b : String} {x y : AgentSpec}
    (ha : w.agents.get? a = some x) (hb : w.agents.get? b = some y)
    (hsame : x.output = y.output) : a = b := by
  have hnodup := (checkOutputs_ok h.outputs).1
  have hpair := List.inj_on_of_nodup_map hnodup (BTreeMap.mem_entries.mpr ha)
    (BTreeMap.mem_entries.mpr hb) hsame
  exact congrArg Prod.fst hpair

theorem Validated.visible (h : Validated isAlphanumeric w)
    (hagent : w.agents.get? name = some spec) (hv : v ∈ extractVars isAlphanumeric spec.input) :
    w.isVarVisible v name (seenBy w.computeVisibility name) = true := by
  have hcheck := forM_ok (h.inputs (name, spec) (BTreeMap.mem_entries.mpr hagent)) v hv
  by_cases hvisible : w.isVarVisible v name (seenBy w.computeVisibility name) = true
  · exact hvisible
  · rw [if_neg hvisible] at hcheck
    cases hcheck

def Leads (w : Workflow) (a b : String) : Prop := ∃ e ∈ w.flow.edges, e.source = a ∧ e.target = b

def Upstream (w : Workflow) (name output : String) : Prop :=
  ∃ up spec, w.agents.get? up = some spec ∧ spec.output = output ∧
    Relation.ReflTransGen w.Leads w.flow.start up ∧ Relation.TransGen w.Leads up name

theorem foldl_showTo_queue (v : Visibility) :
    ∀ name ∈ (edges.foldl (showTo child) v).2, name ∈ v.2 ∨ ∃ e ∈ edges, e.target = name := by
  induction edges generalizing v with
  | nil => exact fun name hname => Or.inl hname
  | cons e edges ih =>
    intro name hname
    rcases ih (showTo child v e) name hname with hname | ⟨e', he', htarget⟩
    · simp only [showTo] at hname
      by_cases hgrown : (seenBy v.1 e.target).card < (seenBy v.1 e.target ∪ child).card
      · rw [if_pos hgrown] at hname
        rcases List.mem_append.mp hname with hname | hname
        · exact Or.inl hname
        · exact Or.inr ⟨e, List.mem_cons_self, (List.mem_singleton.mp hname).symm⟩
      · rw [if_neg hgrown] at hname
        exact Or.inl hname
    · exact Or.inr ⟨e', List.mem_cons_of_mem _ he', htarget⟩

theorem visibilityStep_queue : ∀ name ∈ (w.visibilityStep visibility current queue).2,
      name ∈ queue ∨ w.Leads current name := by
  intro name hname
  rcases foldl_showTo_queue _ name hname with hname | ⟨e, he, htarget⟩
  · rcases foldl_showTo_queue _ name hname with hname | ⟨e, he, htarget⟩
    · exact Or.inl hname
    · obtain ⟨he, hcond⟩ := List.mem_filter.mp he
      exact Or.inr ⟨e, he, (of_decide_eq_true hcond).1, htarget⟩
  · obtain ⟨he, hcond⟩ := List.mem_filter.mp he
    exact Or.inr ⟨e, he, (of_decide_eq_true hcond).1, htarget⟩

theorem visibilityLoop_keeps {P : HashMap String (Finset String) → List String → Prop}
    {result : HashMap String (Finset String)}
    (hstep : ∀ visibility current queue, P visibility (current :: queue) →
      P (w.visibilityStep visibility current queue).1 (w.visibilityStep visibility current queue).2)
    (hv : P visibility queue) (h : w.visibilityLoop fuel (visibility, queue) = some result) :
    P result [] := by
  induction fuel generalizing visibility queue with
  | zero =>
    cases queue with
    | nil =>
      cases h
      exact hv
    | cons current queue => cases h
  | succ fuel ih =>
    cases queue with
    | nil =>
      cases h
      exact hv
    | cons current queue => exact ih (hstep visibility current queue hv) h

theorem visibilityLoop_upstream {result : HashMap String (Finset String)}
    (hv : ∀ name, ∀ o ∈ seenBy visibility name, w.Upstream name o)
    (hqueue : ∀ name ∈ queue, Relation.ReflTransGen w.Leads w.flow.start name)
    (h : w.visibilityLoop fuel (visibility, queue) = some result) :
    ∀ name, ∀ o ∈ seenBy result name, w.Upstream name o := by
  refine (visibilityLoop_keeps (w := w) (P := fun visibility queue =>
    (∀ name, ∀ o ∈ seenBy visibility name, w.Upstream name o) ∧
      ∀ name ∈ queue, Relation.ReflTransGen w.Leads w.flow.start name) ?_ ⟨hv, hqueue⟩ h).1
  rintro visibility current queue ⟨hv, hqueue⟩
  have hcurrent := hqueue current List.mem_cons_self
  refine ⟨visibilityStep_seen hv ?_ ?_, ?_⟩
  · rintro e he hsource o ⟨up, spec, hup, houtput, hstart, hpath⟩
    exact ⟨up, spec, hup, houtput, hstart, hpath.tail ⟨e, he, hsource, rfl⟩⟩
  · intro e he hsource spec hspec
    exact ⟨current, spec, hspec, rfl, hcurrent, .single ⟨e, he, hsource, rfl⟩⟩
  · intro name hname
    rcases visibilityStep_queue name hname with hname | hleads
    · exact hqueue name (List.mem_cons_of_mem _ hname)
    · exact hcurrent.tail hleads

theorem computeVisibility_upstream {output : String}
    (h : output ∈ seenBy w.computeVisibility name) : w.Upstream name output := by
  have hloop : w.visibilityLoop w.visibilityFuel
      (HashMap.empty.insert w.flow.start ∅, [w.flow.start]) = some w.computeVisibility :=
    (Option.some_get visibilityFuel_enough).symm
  refine visibilityLoop_upstream ?_ ?_ hloop name output h
  · intro name o ho
    rw [seenBy_insert] at ho
    by_cases hname : name = w.flow.start
    · simp [hname] at ho
    · simp [hname, seenBy] at ho
  · intro name hname
    rw [List.mem_singleton.mp hname]

end Workflow

end Relux
