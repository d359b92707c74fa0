import Relux.ByteOffsets
import Relux.HashMap
import Relux.Task

/-! The planner that cuts a goal into briefs for the agents of the roster. A slice out of range or
off a character boundary ends the program, and with it the planner: its result is then missing. -/

namespace Relux

inductive OrchestrationRole where
  | research
  | implementation
  | testing
  | review
  | documentation
  | operations
  | general
  deriving DecidableEq

namespace OrchestrationRole

def label : OrchestrationRole → String
  | .research => "research"
  | .implementation => "implementation"
  | .testing => "testing"
  | .review => "review"
  | .documentation => "documentation"
  | .operations => "operations"
  | .general => "general"

def agentKeywords : OrchestrationRole → List String
  | .research => ["research", "analyst", "investigat", "scout"]
  | .implementation => ["code", "coding", "dev", "engineer", "implement", "build"]
  | .testing => ["test", "qa", "quality"]
  | .review => ["review", "audit", "critic"]
  | .documentation => ["doc", "writer", "scribe"]
  | .operations => ["ops", "deploy", "release", "infra", "devops", "sre"]
  | .general => []

end OrchestrationRole

structure PlannedStep where
  title : String
  role : OrchestrationRole
  agentId : Option String
  dependsOn : List Nat

structure OrchestrationPlan where
  goal : String
  steps : List PlannedStep
  notes : List String

structure StateSummary where
  allAgentIds : List String
  agentSkills : List (String × List String)

structure CaseTables extends Unicode where
  toUppercase : Char → List Char

def MAX_ORCHESTRATION_STEPS : Nat := 16

def MAX_ORCHESTRATION_STEPS_CEIL : Nat := 64

def prerequisiteRoles : OrchestrationRole → List OrchestrationRole
  | .implementation => [.research]
  | .testing | .review | .documentation => [.implementation]
  | .research | .operations | .general => []

def CLAUSE_CONNECTORS : List String :=
  [", and then ", " and then ", ", then ", " then ", " after that, ", " after that ", "; ",
    ", and ", " and ", ", "]

section
variable (u : CaseTables)

def lowered (s : List Char) : List Char := (u.toLowercase (String.ofList s)).toList

/-- The loop of `splitCi`. Each place it finds is further on by a byte at least, so it never runs
out of turns. -/
def splitCiLoop (lower s dl : List Char) (width : Nat) :
    Nat → Nat → Nat → List (List Char) → Option (List (List Char))
  | 0, _, _, _ => none
  | turns + 1, start, search, out => do
    let rest ← sliceFrom lower search
    match findStr dl rest with
    | some pos =>
      let abs := search + pos
      let part ← slice s start abs
      splitCiLoop lower s dl width turns (abs + width) (abs + width) (out ++ [part])
    | none => do
      let part ← sliceFrom s start
      some (out ++ [part])

def splitCi (s : List Char) (delim : String) : Option (List (List Char)) :=
  let lower := lowered u s
  let dl := lowered u delim.toList
  splitCiLoop lower s dl (byteLen delim.toList) (byteLen lower + 1) 0 0 []

def splitRound (fragments : List (List Char)) (connector : String) :
    Option (List (List Char)) :=
  (fragments.mapM (fun fragment => splitCi u fragment connector)).map List.flatten

def cleanFragment (f : List Char) : List Char :=
  trimChars (trimMatches (fun c => c == '.' || c == ',') (trimChars f))

def splitIntoClauses (goal : List Char) : Option (List (List Char)) :=
  (CLAUSE_CONNECTORS.foldlM (splitRound u) [goal]).map (fun fragments =>
    (fragments.map cleanFragment).filter (fun f => 3 ≤ f.countP u.isAlphanumeric))

def classifyRole (clause : List Char) : OrchestrationRole :=
  let c := u.toLowercase (String.ofList clause)
  let has := fun kws : List String => kws.any (containsText c)
  if has ["research", "investigat", "explore", "gather", "find out", "look into", "survey",
      "analyz", "analyse", "compare"] then .research
  else if has ["test", "qa", "verif", "validat", "coverage"] then .testing
  else if has ["review", "audit", "inspect", "proofread", "evaluat", "critique"] then .review
  else if has ["document", "docs", "readme", "changelog", "write up", "write-up", "summari",
      "draft"] then .documentation
  else if has ["deploy", "release", "ship", "publish", "provision", "infra", "rollout"] then
    .operations
  else if has ["implement", "build", "code", "develop", "refactor", "integrat", "set up", "add ",
      "create", "write ", "fix", "prototype"] then .implementation
  else .general

def matchAgentForRole (role : OrchestrationRole) (roster : List String)
    (skillsByAgent : HashMap String (List String)) : Option String :=
  let keywords := role.agentKeywords
  if keywords.isEmpty then none
  else roster.find? (fun id =>
    if id = "prime" then false
    else if keywords.any (containsText (u.toLowercase id)) then true
    else ((skillsByAgent.get? id).map (fun skills =>
      skills.any (fun s =>
        let sl := u.toLowercase s
        containsText sl role.label || keywords.any (containsText sl)))).getD false)

def titleFromClause (clause : List Char) : String :=
  match trimChars clause with
  | first :: rest => String.ofList ((u.toUppercase first ++ rest).take 120)
  | [] => ""

def widthNote (maxSteps : Nat) : String :=
  s!"Goal had more than {maxSteps} steps; only the first {maxSteps} were planned. " ++
    "Raise the orchestration width in Prime autonomy limits (or run it in extended " ++
    "mode) to plan more."

def hireNote (role : OrchestrationRole) : String :=
  s!"No {role.label} agent on the roster; assigning to Prime. Hire one (\"create a " ++
    s!"{role.label} agent\") for a specialist."

def dependencyNote : String :=
  "Dependency order: implementation waits on research; testing, review, and " ++
    "documentation wait on implementation."

/-- The steps and the notes of the clauses that are still to be planned, after those that are
there already. -/
def planClauses (maxSteps : Nat) (roster : List String)
    (skillsByAgent : HashMap String (List String)) :
    List (List Char) → List PlannedStep → List String → List PlannedStep × List String
  | [], steps, notes => (steps, notes)
  | clause :: clauses, steps, notes =>
    if maxSteps ≤ steps.length then (steps, notes ++ [widthNote maxSteps])
    else
      let role := classifyRole u clause
      let agentId := matchAgentForRole u role roster skillsByAgent
      let notes :=
        if agentId.isNone ∧ role ≠ .general ∧ hireNote role ∉ notes then notes ++ [hireNote role]
        else notes
      planClauses maxSteps roster skillsByAgent clauses
        (steps ++ [⟨titleFromClause u clause, role, agentId, []⟩]) notes

def inferredDeps (steps : List PlannedStep) (i : Nat) (step : PlannedStep) : List Nat :=
  (List.range i).filter (fun j =>
    (steps[j]?).any (fun earlier => (prerequisiteRoles step.role).contains earlier.role))

def planOrchestrationWithLimit (goal : String) (summary : StateSummary) (maxSteps : Nat) :
    Option OrchestrationPlan := do
  let maxSteps := max 1 (min maxSteps MAX_ORCHESTRATION_STEPS_CEIL)
  let goal := trim goal
  let clauses ← splitIntoClauses u goal.toList
  let roster := summary.allAgentIds.mergeSort (fun a b => decide (a ≤ b))
  let skillsByAgent := HashMap.collect summary.agentSkills
  let planned := planClauses u maxSteps roster skillsByAgent clauses [] []
  let steps := planned.1.mapIdx (fun i step =>
    { step with dependsOn := inferredDeps planned.1 i step })
  let anyDependency := steps.any (fun step => !step.dependsOn.isEmpty)
  some ⟨goal, steps, if anyDependency then planned.2 ++ [dependencyNote] else planned.2⟩

def planOrchestration (goal : String) (summary : StateSummary) : Option OrchestrationPlan :=
  planOrchestrationWithLimit u goal summary MAX_ORCHESTRATION_STEPS

end

/-- The parts of a text between the places, each of so many bytes, from the `start`-th byte on. -/
def partsFrom (s : List Char) (width : Nat) : Nat → List Nat → List (List Char)
  | start, [] => [(sliceFrom s start).getD []]
  | start, p :: ps => (slice s start p).getD [] :: partsFrom s width (p + width) ps

def FitsIn (s : List Char) (width p : Nat) : Prop := IsBoundary s p ∧ IsBoundary s (p + width)

theorem partsFrom_infix (s : List Char) (width start : Nat) (ps : List Nat) :
    ∀ part ∈ partsFrom s width start ps, part <:+: s := by
  induction ps generalizing start with
  | nil =>
    intro part hpart
    rw [partsFrom, List.mem_singleton] at hpart
    subst hpart
    cases h : sliceFrom s start with
    | none => exact List.nil_infix
    | some t => exact infix_of_sliceFrom h
  | cons p ps ih =>
    rw [partsFrom, List.forall_mem_cons]
    refine ⟨?_, ih (p + width)⟩
    cases h : slice s start p with
    | none => exact List.nil_infix
    | some t => exact infix_of_slice h

instance (s : List Char) (width p : Nat) : Decidable (FitsIn s width p) :=
  inferInstanceAs (Decidable (_ ∧ _))

theorem splitCiLoop_eq {s dl : List Char} (hdl : dl ≠ []) (turns : Nat) (done rest : List Char)
    (out : List (List Char)) (hturns : byteLen rest < turns) :
    splitCiLoop (done ++ rest) s dl (byteLen dl) turns (byteLen done) (byteLen done) out =
      if IsBoundary s (byteLen done) ∧
          ∀ p ∈ placesFrom dl 0 (byteLen done) rest, FitsIn s (byteLen dl) p then
        some (out ++ partsFrom s (byteLen dl) (byteLen done)
          (placesFrom dl 0 (byteLen done) rest))
      else none := by
  induction turns generalizing done rest out with
  | zero => omega
  | succ turns ih =>
    rw [splitCiLoop, sliceFrom_append, Option.bind_eq_bind, Option.bind_some]
    rcases findStr_spec hdl rest (byteLen done) with ⟨hnone, hplaces⟩ |
      ⟨front, back, rfl, hsome, hplaces⟩
    · simp only [hnone, hplaces, List.not_mem_nil, false_implies, implies_true, and_true,
        isBoundary_iff]
      cases hpart : sliceFrom s (byteLen done) with
      | none => rfl
      | some part => simp [partsFrom, hpart]
    · have hsplit : done ++ (front ++ (dl ++ back)) = (done ++ front ++ dl) ++ back := by simp
      have hlen : byteLen (done ++ front ++ dl) = byteLen done + byteLen front + byteLen dl := by
        rw [byteLen_append, byteLen_append]
      have hturns' : byteLen back < turns := by
        obtain ⟨c, t, rfl⟩ := List.exists_cons_of_ne_nil hdl
        have hpos := c.utf8Size_pos
        simp only [byteLen_append, byteLen_cons] at hturns
        omega
      have hnext := fun out => ih (done ++ front ++ dl) back out hturns'
      rw [hlen, ← hsplit] at hnext
      simp only [hsome, hplaces, List.forall_mem_cons]
      cases hpart : slice s (byteLen done) (byteLen done + byteLen front) with
      | none =>
        rw [if_neg]
        · rfl
        · rintro ⟨hstart, ⟨hp, -⟩, -⟩
          have hpart' := slice_isSome.mpr ⟨Nat.le_add_right (byteLen done) _, hstart, hp⟩
          rw [hpart] at hpart'
          cases hpart'
      | some part =>
        have hpart' := Option.isSome_of_eq_some hpart
        obtain ⟨-, hstart, hp⟩ := slice_isSome.mp hpart'
        have hcond : (IsBoundary s (byteLen done) ∧
            FitsIn s (byteLen dl) (byteLen done + byteLen front) ∧
            ∀ p ∈ placesFrom dl 0 (byteLen done + byteLen front + byteLen dl) back,
              FitsIn s (byteLen dl) p) ↔
            IsBoundary s (byteLen done + byteLen front + byteLen dl) ∧
            ∀ p ∈ placesFrom dl 0 (byteLen done + byteLen front + byteLen dl) back,
              FitsIn s (byteLen dl) p := by
          constructor
          · rintro ⟨-, ⟨-, hend⟩, hrest⟩
            exact ⟨hend, hrest⟩
          · rintro ⟨hend, hrest⟩
            exact ⟨hstart, ⟨hp, hend⟩, hrest⟩
        rw [Option.bind_some, hnext]
        simp only [hcond, partsFrom, hpart, Option.getD_some, List.append_assoc,
          List.singleton_append]

section
variable (u : CaseTables)

def cutPlaces (connector : String) (s : List Char) : List Nat :=
  places connector.toList (lowered u s)

/-- Each of the connectors, one after the other, is found only at places that begin and end on
character boundaries of the fragment that it cuts. -/
def LinesUp : List String → List Char → Prop
  | [], _ => True
  | connector :: connectors, s =>
    (∀ p ∈ cutPlaces u connector s, FitsIn s (byteLen connector.toList) p) ∧
      ∀ part ∈ partsFrom s (byteLen connector.toList) 0 (cutPlaces u connector s),
        LinesUp connectors part

instance decidableLinesUp :
    (connectors : List String) → (s : List Char) → Decidable (LinesUp u connectors s)
  | [], _ => .isTrue trivial
  | _ :: connectors, _ =>
    have := decidableLinesUp connectors
    inferInstanceAs (Decidable (_ ∧ _))

variable {u} {connector : String}

theorem splitCi_eq (hne : connector.toList ≠ [])
    (hlow : u.toLowercase connector = connector) (s : List Char) :
    splitCi u s connector =
      if ∀ p ∈ cutPlaces u connector s, FitsIn s (byteLen connector.toList) p then
        some (partsFrom s (byteLen connector.toList) 0 (cutPlaces u connector s))
      else none := by
  have hdl : lowered u connector.toList = connector.toList := by
    unfold lowered
    rw [String.ofList_toList, hlow]
  have hloop := splitCiLoop_eq (s := s) hne (byteLen (lowered u s) + 1) [] (lowered u s) []
    (Nat.lt_succ_self _)
  simp only [List.nil_append, byteLen_nil, isBoundary_zero, true_and] at hloop
  simp only [splitCi, hdl]
  exact hloop

theorem mapM_guarded {α β : Type} {f : α → Option β} {P : α → Prop} [DecidablePred P] {g : α → β}
    (h : ∀ x, f x = if P x then some (g x) else none) (l : List α) :
    l.mapM f = if ∀ x ∈ l, P x then some (l.map g) else none := by
  induction l with
  | nil => simp
  | cons x l ih =>
    rw [List.mapM_cons, ih, h x]
    simp only [List.forall_mem_cons]
    by_cases hx : P x
    · by_cases hl : ∀ y ∈ l, P y
      · simp only [if_pos hx, if_pos hl, if_pos (And.intro hx hl)]
        rfl
      · rw [if_pos hx, if_neg hl, if_neg (fun hall : P x ∧ _ => hl hall.2)]
        rfl
    · rw [if_neg hx, if_neg (fun hall : P x ∧ _ => hx hall.1)]
      rfl

theorem splitRound_eq (hne : connector.toList ≠ [])
    (hlow : u.toLowercase connector = connector) (fragments : List (List Char)) :
    splitRound u fragments connector =
      if ∀ f ∈ fragments, ∀ p ∈ cutPlaces u connector f, FitsIn f (byteLen connector.toList) p then
        some (fragments.flatMap (fun f =>
          partsFrom f (byteLen connector.toList) 0 (cutPlaces u connector f)))
      else none := by
  unfold splitRound
  rw [mapM_guarded (splitCi_eq hne hlow), apply_ite (Option.map List.flatten)]
  rfl

variable {connectors : List String}

theorem splitRounds_isSome (hne : ∀ c ∈ connectors, c.toList ≠ [])
    (hlow : ∀ c ∈ connectors, u.toLowercase c = c) (fragments : List (List Char)) :
    (connectors.foldlM (splitRound u) fragments).isSome = true ↔
      ∀ f ∈ fragments, LinesUp u connectors f := by
  induction connectors generalizing fragments with
  | nil => simp [LinesUp]
  | cons connector connectors ih =>
    rw [List.forall_mem_cons] at hne hlow
    rw [List.foldlM_cons, splitRound_eq hne.1 hlow.1]
    split
    next hfits =>
      rw [Option.bind_eq_bind, Option.bind_some, ih hne.2 hlow.2]
      constructor
      · intro hparts f hf
        refine ⟨hfits f hf, fun part hpart => hparts part ?_⟩
        exact List.mem_flatMap.mpr ⟨f, hf, hpart⟩
      · intro hlines part hpart
        obtain ⟨f, hf, hpart⟩ := List.mem_flatMap.mp hpart
        exact (hlines f hf).2 part hpart
    next hfails =>
      refine iff_of_false (by simp) (fun hlines => hfails (fun f hf => (hlines f hf).1))

theorem splitRounds_infix (hne : ∀ c ∈ connectors, c.toList ≠ [])
    (hlow : ∀ c ∈ connectors, u.toLowercase c = c) {fragments out : List (List Char)}
    (h : connectors.foldlM (splitRound u) fragments = some out) :
    ∀ part ∈ out, ∃ f ∈ fragments, part <:+: f := by
  induction connectors generalizing fragments with
  | nil =>
    cases h
    exact fun part hpart => ⟨part, hpart, List.infix_rfl⟩
  | cons connector connectors ih =>
    rw [List.forall_mem_cons] at hne hlow
    rw [List.foldlM_cons, splitRound_eq hne.1 hlow.1] at h
    split at h
    next =>
      intro part hpart
      obtain ⟨part', hpart', hinner⟩ := ih hne.2 hlow.2 h part hpart
      obtain ⟨f, hf, hpart'⟩ := List.mem_flatMap.mp hpart'
      exact ⟨f, hf, hinner.trans ( partsFrom_infix f _ 0 _ part' hpart')⟩
    · cases h

theorem trimMatches_infix (p : Char → Bool) (s : List Char) : trimMatches p s <:+: s := by
  have hback : trimMatches p s <+: s.dropWhile p := by
    unfold trimMatches
    rw [← List.reverse_suffix, List.reverse_reverse]
    exact List.dropWhile_suffix p
  exact hback.isInfix.trans (List.dropWhile_suffix p).isInfix

theorem cleanFragment_infix (f : List Char) : cleanFragment f <:+: f :=
  (( trimMatches_infix isWhitespace _).trans ( trimMatches_infix _ _)).trans
    ( trimMatches_infix isWhitespace f)

theorem connectors_nonempty : ∀ c ∈ CLAUSE_CONNECTORS, c.toList ≠ [] := by decide

section
variable (hlow : ∀ c ∈ CLAUSE_CONNECTORS, u.toLowercase c = c)
include hlow

theorem splitIntoClauses_isSome (goal : List Char) :
    (splitIntoClauses u goal).isSome = true ↔ LinesUp u CLAUSE_CONNECTORS goal := by
  unfold splitIntoClauses
  rw [Option.isSome_map, splitRounds_isSome connectors_nonempty hlow]
  simp

theorem splitIntoClauses_infix {goal : List Char} {clauses : List (List Char)}
    (h : splitIntoClauses u goal = some clauses) : ∀ clause ∈ clauses, clause <:+: goal := by
  obtain ⟨fragments, hrounds, rfl⟩ := Option.map_eq_some_iff.mp h
  intro clause hclause
  obtain ⟨f, hf, rfl⟩ := List.mem_map.mp (List.mem_of_mem_filter hclause)
  obtain ⟨g, hg, hfg⟩ := splitRounds_infix connectors_nonempty hlow hrounds f hf
  rw [List.mem_singleton] at hg
  exact ( cleanFragment_infix f).trans (hg ▸ hfg)

end

theorem planClauses_steps (maxSteps : Nat) (roster : List String)
    (skillsByAgent : HashMap String (List String)) (clauses : List (List Char))
    (steps : List PlannedStep) (notes : List String) (hsteps : steps.length ≤ maxSteps) :
    (planClauses u maxSteps roster skillsByAgent clauses steps notes).1.map PlannedStep.title =
      steps.map PlannedStep.title ++
        (clauses.take (maxSteps - steps.length)).map (titleFromClause u) := by
  induction clauses generalizing steps notes with
  | nil => simp [planClauses]
  | cons clause clauses ih =>
    unfold planClauses
    split
    next hfull =>
      have hzero : maxSteps - steps.length = 0 := by omega
      simp [hzero]
    next hroom =>
      rw [ih _ _ (by simp; omega), List.length_append, List.length_singleton]
      obtain ⟨left, hleft⟩ : ∃ left, maxSteps - steps.length = left + 1 :=
        ⟨maxSteps - steps.length - 1, by omega⟩
      have hrest : maxSteps - (steps.length + 1) = left := by omega
      rw [hleft, hrest, List.take_succ_cons]
      simp

def clampedSteps (maxSteps : Nat) : Nat := max 1 (min maxSteps MAX_ORCHESTRATION_STEPS_CEIL)

/-- The planner cuts the goal into clauses that are parts of it, and plans the first of them. -/
def PlansWithin (u : CaseTables) (goal : String) (summary : StateSummary) (maxSteps : Nat) : Prop :=
  ∃ plan clauses, planOrchestrationWithLimit u goal summary maxSteps = some plan ∧
    splitIntoClauses u (trim goal).toList = some clauses ∧
    (∀ clause ∈ clauses, clause <:+: (trim goal).toList) ∧
    plan.steps.map PlannedStep.title =
      (clauses.take (clampedSteps maxSteps)).map (titleFromClause u) ∧
    plan.steps.length ≤ clampedSteps maxSteps

theorem map_title_mapIdx (steps : List PlannedStep) (deps : Nat → PlannedStep → List Nat) :
    (steps.mapIdx (fun i step => { step with dependsOn := deps i step })).map PlannedStep.title =
      steps.map PlannedStep.title := by
  refine List.ext_getElem? (fun n => ?_)
  rw [List.getElem?_map, List.getElem?_map, List.getElem?_mapIdx]
  cases steps[n]? <;> rfl

end

/-- The tables, on ASCII and the capital I with a dot, whose lowercase is one byte longer. -/
def dottedTables : CaseTables where
  toLowercase := fun s => String.ofList (s.toList.flatMap (fun c =>
    if c = 'İ' then ['i', Char.ofNat 0x307] else [c.toLower]))
  isAlphanumeric := fun c => c.isAlphanum || c = 'İ'
  toUppercase := fun c => [c.toUpper]

/-- The planner plans within the goal and the limit exactly when the connectors line up with the
goal. -/
theorem plansWithin_iff (u : CaseTables)
    (hlow : ∀ c ∈ CLAUSE_CONNECTORS, u.toLowercase c = c) (goal : String) (summary : StateSummary)
    (maxSteps : Nat) : PlansWithin u goal summary maxSteps ↔
      LinesUp u CLAUSE_CONNECTORS (trim goal).toList := by
  rw [← splitIntoClauses_isSome hlow]
  constructor
  · rintro ⟨plan, clauses, -, hclauses, -⟩
    rw [hclauses]
    rfl
  · intro hsome
    obtain ⟨clauses, hclauses⟩ := Option.isSome_iff_exists.mp hsome
    obtain ⟨plan, hplan⟩ :
        ∃ plan, planOrchestrationWithLimit u goal summary maxSteps = some plan := by
      unfold planOrchestrationWithLimit
      simp only [hclauses]
      exact ⟨_, rfl⟩
    have htitles : plan.steps.map PlannedStep.title =
        (clauses.take (clampedSteps maxSteps)).map (titleFromClause u) := by
      unfold planOrchestrationWithLimit at hplan
      simp only [hclauses, Option.bind_eq_bind, Option.bind_some, Option.some.injEq] at hplan
      rw [← hplan, map_title_mapIdx, planClauses_steps _ _ _ _ _ _ (Nat.zero_le _)]
      simp [clampedSteps]
    refine ⟨plan, clauses, hplan, hclauses, splitIntoClauses_infix hlow hclauses, htitles, ?_⟩
    have hlen := congrArg List.length htitles
    rw [List.length_map, List.length_map] at hlen
    rw [hlen, List.length_take]
    exact Nat.min_le_left _ _

theorem plansWithin_iff_docs :
    PlansWithin dottedTables "Fix it; write docs" ⟨["prime"], []⟩ 0 := by
  have hlow : ∀ c ∈ CLAUSE_CONNECTORS, dottedTables.toLowercase c = c := by decide
  exact (plansWithin_iff dottedTables hlow "Fix it; write docs" ⟨["prime"], []⟩ 0).mpr
    ((splitIntoClauses_isSome hlow _).mp (by decide))

theorem plan_slices_out_of_range : ¬∀ (goal : String) (summary : StateSummary) (maxSteps : Nat),
    PlansWithin dottedTables goal summary maxSteps := by
  intro h
  obtain ⟨plan, clauses, -, hclauses, -⟩ := h "İİ; x" ⟨["prime"], []⟩ 16
  cases hclauses

end Relux
