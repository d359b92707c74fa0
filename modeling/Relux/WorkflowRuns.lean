import Relux.WorkflowValidator

/-! The executor of workflows: a step is run, then the edges that match its outcome are
followed depth first, those that fan out after the others. -/

namespace Relux

namespace Workflow

structure DispatchError where
  peer : String
  method : String
  cause : String
  deriving DecidableEq, Repr

def DispatchError.toString (e : DispatchError) : String :=
  s!"workflow dispatch to peer `{e.peer}` method `{e.method}` failed: {e.cause}"

inductive StepOutcome
  | success
  | failed (e : DispatchError)
  deriving DecidableEq, Repr

structure ExecutionStep where
  agent : String
  peer : String
  capability : String
  input : String
  output : String
  outcome : StepOutcome
  deriving DecidableEq, Repr

/-- A step about to have its input interpolated: the bindings it sees, and the steps that
were dispatched before it in the state it is run in. -/
structure StepStart where
  agent : String
  bindings : BTreeMap String String
  ran : List String

/-- What is outside of the executor: whether the flag is set at the `n`-th check, with its
reason, what the dispatcher answers to the `n`-th step, and in which order the siblings of
a fan-out get to their dispatches. -/
structure Environment where
  cancelled : Nat → Option String
  dispatch : Nat → String → String → String → Except DispatchError String
  interleave : Nat → List String → List String
  interleave_perm : ∀ n l, (interleave n l).Perm l

/-- The state that is passed along. The last three are its history: the dispatches, the
steps started, and for each fan-out its targets with the steps visited before it. -/
structure ExecutionState where
  bindings : BTreeMap String String
  visited : Finset String
  trace : List ExecutionStep
  clock : Nat
  dispatched : List String
  started : List StepStart
  fanOuts : List (List String × Finset String)

inductive StepRunResult
  | skipped
  | ran (outcome : StepOutcome)
  | aborted (message : String)

def outputKey (output : String) : String := output ++ ".output"

variable (isAlphanumeric : Char → Bool) (w : Workflow) (env : Environment)

def dispatchStep (name : String) (spec : AgentSpec) (input : String) (clock : Nat)
    (s : ExecutionState) : StepOutcome × ExecutionState :=
  let answer := env.dispatch clock spec.peer spec.capability input
  let output := match answer with
    | .ok body => body
    | .error e => e.cause
  let outcome := match answer with
    | .ok _ => StepOutcome.success
    | .error e => .failed e
  (outcome, { s with
    bindings := s.bindings.insert (outputKey spec.output) output
    trace := s.trace ++ [⟨name, spec.peer, spec.capability, input, output, outcome⟩]
    dispatched := s.dispatched ++ [name] })

def runStepOnly (name : String) (s : ExecutionState) : StepRunResult × ExecutionState :=
  if name ∈ s.visited then (.skipped, s)
  else
    let ticked := { s with clock := s.clock + 1 }
    match env.cancelled s.clock with
    | some reason => (.aborted reason, ticked)
    | none =>
      let entered := { ticked with visited := insert name s.visited }
      match w.agents.get? name with
      | none => (.aborted s!"workflow references undefined agent `{name}`", entered)
      | some spec =>
        let started := { entered with started := s.started ++ [⟨name, s.bindings, s.dispatched⟩] }
        match interpolate isAlphanumeric spec.input s.bindings with
        | .error missing =>
          (.aborted s!"agent `{name}` input references undefined variable `{missing}`", started)
        | .ok input =>
          let result := dispatchStep env name spec input s.clock started
          (.ran result.1, result.2)

def matchesOutcome : EdgeCondition → StepOutcome → Bool
  | .success, .success => true
  | .failure, .failed _ => true
  | .always, _ => true
  | .parallel, .success => true
  | _, _ => false

def matching (name : String) (outcome : StepOutcome) : List Edge :=
  w.flow.edges.filter (fun e => e.source = name ∧ matchesOutcome e.condition outcome)

def sequentialEdges (name : String) (outcome : StepOutcome) : List Edge :=
  (w.matching name outcome).filter (fun e => e.condition ≠ .parallel)

def parallelEdges (name : String) (outcome : StepOutcome) : List Edge :=
  (w.matching name outcome).filter (fun e => e.condition = .parallel)

structure Sibling where
  target : String
  result : StepRunResult
  after : ExecutionState

def runSiblings (targets : List String) (s : ExecutionState) : List Sibling :=
  targets.zipIdx.map (fun t =>
    let r := runStepOnly isAlphanumeric w env t.1 { s with trace := [], clock := s.clock + t.2 }
    ⟨t.1, r.1, r.2⟩)

/-- What a sibling has brought to the state `s` it was copied from goes into the state
merged so far. -/
def mergeSibling (s m : ExecutionState) (sibling : Sibling) : ExecutionState :=
  { m with
    bindings := sibling.after.bindings.entries.foldl (fun b e => b.orInsert e.1 e.2) m.bindings
    visited := m.visited ∪ sibling.after.visited
    trace := m.trace ++ sibling.after.trace
    dispatched := m.dispatched ++ sibling.after.dispatched.drop s.dispatched.length
    started := m.started ++ sibling.after.started.drop s.started.length }

def mergeSiblings (siblings : List Sibling) (s : ExecutionState) : ExecutionState :=
  let merged := siblings.foldl (mergeSibling s) s
  { merged with
    clock := s.clock + siblings.length
    dispatched := s.dispatched ++
      env.interleave s.clock (merged.dispatched.drop s.dispatched.length)
    fanOuts := s.fanOuts ++ [(siblings.map Sibling.target, s.visited)] }

def Sibling.completed? (sibling : Sibling) : Option (String × StepOutcome) :=
  match sibling.result with
  | .ran outcome => some (sibling.target, outcome)
  | _ => none

def Sibling.error? (sibling : Sibling) : Option String :=
  match sibling.result with
  | .aborted message => some message
  | _ => none

inductive Halt
  | error (message : String)
  | fuel
  deriving DecidableEq, Repr

abbrev Followed := Except Halt Unit × ExecutionState

def followAll {α : Type} (follow : α → ExecutionState → Followed) :
    List α → ExecutionState → Followed
  | [], s => (.ok (), s)
  | a :: as, s =>
    match follow a s with
    | (.error halt, s) => (.error halt, s)
    | (.ok (), s) => followAll follow as s

/-- `run_from`, given what follows the edges of the step. -/
def runFrom (follow : String → StepOutcome → ExecutionState → Followed) (name : String)
    (s : ExecutionState) : Followed :=
  match runStepOnly isAlphanumeric w env name s with
  | (.skipped, s) => (.ok (), s)
  | (.ran outcome, s) => follow name outcome s
  | (.aborted message, s) => (.error (.error message), s)

def unhandled (name : String) (outcome : StepOutcome) : Except Halt Unit :=
  match outcome with
  | .success => .ok ()
  | .failed e =>
    if (w.matching name outcome).isEmpty then
      .error (.error s!"workflow step `{name}` failed with no failure handler: {e.toString}")
    else .ok ()

/-- The siblings of a fan-out, and after all of them their own edges, on the merged state. -/
def fanOut (follow : String → StepOutcome → ExecutionState → Followed)
    (targets : List String) (s : ExecutionState) : Followed :=
  let siblings := runSiblings isAlphanumeric w env targets s
  match followAll (fun c => follow c.1 c.2) (siblings.filterMap Sibling.completed?)
      (mergeSiblings env siblings s) with
  | (.error halt, s) => (.error halt, s)
  | (.ok (), s) =>
    match siblings.findSome? Sibling.error? with
    | some message => (.error (.error message), s)
    | none => (.ok (), s)

def followEdges : Nat → String → StepOutcome → ExecutionState → Followed
  | 0, _, _, s => (.error .fuel, s)
  | fuel + 1, name, outcome, s =>
    match followAll (fun e => runFrom isAlphanumeric w env (followEdges fuel) e.target)
        (w.sequentialEdges name outcome) s with
    | (.error halt, s) => (.error halt, s)
    | (.ok (), s) =>
      if (w.parallelEdges name outcome).isEmpty then (w.unhandled name outcome, s)
      else
        match fanOut isAlphanumeric w env (followEdges fuel)
            ((w.parallelEdges name outcome).map Edge.target) s with
        | (.error halt, s) => (.error halt, s)
        | (.ok (), s) => (w.unhandled name outcome, s)

def initialState (input : String) : ExecutionState where
  bindings := BTreeMap.empty.insert "workflow.input" input
  visited := ∅
  trace := []
  clock := 0
  dispatched := []
  started := []
  fanOuts := []

/-- The run from the first step. The edges of a step are followed after it was visited for
the first time, so no more are followed within each other than there are agents. -/
def runWorkflow (input : String) : Followed :=
  runFrom isAlphanumeric w env (followEdges isAlphanumeric w env w.agents.entries.length)
    w.flow.start (initialState input)

inductive ExecutionStatus
  | success
  | partiallyFailed
  | failed
  | cancelled
  deriving DecidableEq, Repr

structure WorkflowResult where
  trace : List ExecutionStep
  status : ExecutionStatus
  result : String

def renderFinalResult (bindings : BTreeMap String String) : String :=
  match w.flow.result with
  | some template =>
    match interpolate isAlphanumeric template bindings with
    | .ok result => result
    | .error missing => s!"<unresolved variable `{missing}` in flow.result>"
  | none =>
    match bindings.entries.reverse.find? (fun e => e.1 ≠ "workflow.input") with
    | some e => e.2
    | none => ""

def StepOutcome.isFailed : StepOutcome → Bool
  | .success => false
  | .failed _ => true

def execute (input : String) : WorkflowResult :=
  let (outcome, s) := runWorkflow isAlphanumeric w env input
  match env.cancelled s.clock with
  | some reason => ⟨s.trace, .cancelled, reason⟩
  | none =>
    match outcome with
    | .ok () => ⟨s.trace,
        if s.trace.any (fun step => step.outcome.isFailed) then .partiallyFailed else .success,
        renderFinalResult isAlphanumeric w s.bindings⟩
    | .error (.error message) => ⟨s.trace, .failed, message⟩
    | .error .fuel => ⟨s.trace, .failed, ""⟩

def obliging : Environment where
  cancelled _ := none
  dispatch _ _ _ _ := .ok "done"
  interleave _ l := l
  interleave_perm _ l := List.Perm.refl l

def agent (input output : String) : AgentSpec := ⟨"ai", "ai.chat", input, output⟩

def fork (edges : List Edge) : Workflow where
  name := "fork"
  version := 1
  description := ""
  agents := BTreeMap.collect [("a", agent "x" "a"), ("b", agent "y" "b"), ("c", agent "z" "c")]
  flow := ⟨"a", edges, none⟩

example : (execute Char.isAlphanum (fork [⟨"a", "b", .success⟩]) obliging "").status = .success := by
  decide +kernel

end Workflow

end Relux

/-! Runs of the executor: what a step and a fan-out do, and what holds of a whole run because
each of them keeps it. -/

namespace Relux

namespace Workflow

variable {isAlphanumeric : Char → Bool} {w : Workflow} {env : Environment}

/-- All that `run_step_only` can do. -/
inductive StepTaken (isAlphanumeric : Char → Bool) (w : Workflow) (env : Environment)
    (name : String) (s : ExecutionState) : StepRunResult → ExecutionState → Prop
  | skipped (hvisited : name ∈ s.visited) : StepTaken isAlphanumeric w env name s .skipped s
  | cancelled {reason : String} (hfresh : name ∉ s.visited)
      (hcancel : env.cancelled s.clock = some reason) :
      StepTaken isAlphanumeric w env name s (.aborted reason) { s with clock := s.clock + 1 }
  | unknown {message : String} (hfresh : name ∉ s.visited) (hagent : w.agents.get? name = none) :
      StepTaken isAlphanumeric w env name s (.aborted message)
        { s with clock := s.clock + 1, visited := insert name s.visited }
  | unresolved {message missing : String} {spec : AgentSpec} (hfresh : name ∉ s.visited)
      (hagent : w.agents.get? name = some spec)
      (hinput : interpolate isAlphanumeric spec.input s.bindings = .error missing) :
      StepTaken isAlphanumeric w env name s (.aborted message)
        { s with
          clock := s.clock + 1
          visited := insert name s.visited
          started := s.started ++ [⟨name, s.bindings, s.dispatched⟩] }
  | ran {step : ExecutionStep} {spec : AgentSpec} (hfresh : name ∉ s.visited)
      (hagent : w.agents.get? name = some spec) (hstep : step.agent = name)
      (hinput : interpolate isAlphanumeric spec.input s.bindings = .ok step.input) :
      StepTaken isAlphanumeric w env name s (.ran step.outcome)
        { s with
          clock := s.clock + 1
          visited := insert name s.visited
          bindings := s.bindings.insert (outputKey spec.output) step.output
          trace := s.trace ++ [step]
          dispatched := s.dispatched ++ [name]
          started := s.started ++ [⟨name, s.bindings, s.dispatched⟩] }

theorem runStepOnly_taken (name : String) (s : ExecutionState) :
    StepTaken isAlphanumeric w env name s (runStepOnly isAlphanumeric w env name s).1
      (runStepOnly isAlphanumeric w env name s).2 := by
  by_cases hvisited : name ∈ s.visited
  · rw [runStepOnly, if_pos hvisited]
    exact .skipped hvisited
  · rw [runStepOnly, if_neg hvisited]
    cases hcancel : env.cancelled s.clock with
    | some reason => exact .cancelled hvisited hcancel
    | none =>
      cases hagent : w.agents.get? name with
      | none => exact .unknown hvisited hagent
      | some spec =>
        cases hinput : interpolate isAlphanumeric spec.input s.bindings with
        | error missing =>
          simp only [hinput]
          exact .unresolved hvisited hagent hinput
        | ok input =>
          simp only [hinput, dispatchStep]
          exact @StepTaken.ran isAlphanumeric w env name s
            ⟨name, spec.peer, spec.capability, input, _, _⟩ spec hvisited hagent rfl hinput

theorem StepTaken.fanOuts {name : String} {s s' : ExecutionState} {result : StepRunResult}
    (h : StepTaken isAlphanumeric w env name s result s') : s'.fanOuts = s.fanOuts := by
  cases h with
  | skipped hvisited => rfl
  | cancelled hfresh hcancel => rfl
  | unknown hfresh hagent => rfl
  | unresolved hfresh hagent hinput => rfl
  | ran hfresh hagent hstep hinput => rfl

def SiblingOf (isAlphanumeric : Char → Bool) (w : Workflow) (env : Environment)
    (s : ExecutionState) (sibling : Sibling) : Prop :=
  ∃ clock, StepTaken isAlphanumeric w env sibling.target
    { s with trace := [], clock := clock } sibling.result sibling.after

theorem runSiblings_taken {targets : List String} {s : ExecutionState} {sibling : Sibling}
    (h : sibling ∈ runSiblings isAlphanumeric w env targets s) :
    SiblingOf isAlphanumeric w env s sibling := by
  obtain ⟨t, _, ht⟩ := List.mem_map.mp h
  rw [← ht]
  exact ⟨s.clock + t.2, runStepOnly_taken t.1 _⟩

theorem runSiblings_targets (targets : List String) (s : ExecutionState) :
    (runSiblings isAlphanumeric w env targets s).map Sibling.target = targets := by
  rw [runSiblings, List.map_map]
  exact List.zipIdx_map_fst 0 targets

section Keeps

variable {R : ExecutionState → ExecutionState → Prop}

theorem followAll_keeps {α : Type} {follow : α → ExecutionState → Followed} (hrefl : ∀ s, R s s)
    (htrans : ∀ s₁ s₂ s₃, R s₁ s₂ → R s₂ s₃ → R s₁ s₃) {as : List α}
    (h : ∀ a ∈ as, ∀ s, R s (follow a s).2) (s : ExecutionState) :
    R s (followAll follow as s).2 := by
  induction as generalizing s with
  | nil => exact hrefl s
  | cons a as ih =>
    have hhead := h a List.mem_cons_self s
    cases hfollow : follow a s with
    | mk result s₁ =>
      rw [hfollow] at hhead
      cases result with
      | error halt =>
        simp only [followAll, hfollow]
        exact hhead
      | ok =>
        simp only [followAll, hfollow]
        exact htrans _ _ _ hhead (ih (fun b hb => h b (List.mem_cons_of_mem a hb)) s₁)

variable {follow : String → StepOutcome → ExecutionState → Followed}

theorem runFrom_keeps (htrans : ∀ s₁ s₂ s₃, R s₁ s₂ → R s₂ s₃ → R s₁ s₃)
    (hstep : ∀ name s, R s (runStepOnly isAlphanumeric w env name s).2)
    (h : ∀ name outcome s, R s (follow name outcome s).2) (name : String)
    (s : ExecutionState) : R s (runFrom isAlphanumeric w env follow name s).2 := by
  have hrun := hstep name s
  cases hresult : runStepOnly isAlphanumeric w env name s with
  | mk result s₁ =>
    rw [hresult] at hrun
    cases result with
    | skipped =>
      simp only [runFrom, hresult]
      exact hrun
    | ran outcome =>
      simp only [runFrom, hresult]
      exact htrans _ _ _ hrun (h name outcome s₁)
    | aborted message =>
      simp only [runFrom, hresult]
      exact hrun

theorem fanOut_state (targets : List String) (s : ExecutionState) :
    (fanOut isAlphanumeric w env follow targets s).2 =
      (followAll (fun c => follow c.1 c.2)
        ((runSiblings isAlphanumeric w env targets s).filterMap Sibling.completed?)
        (mergeSiblings env (runSiblings isAlphanumeric w env targets s) s)).2 := by
  simp only [fanOut]
  cases hfollow : followAll (fun c => follow c.1 c.2)
      ((runSiblings isAlphanumeric w env targets s).filterMap Sibling.completed?)
      (mergeSiblings env (runSiblings isAlphanumeric w env targets s) s) with
  | mk result s₁ =>
    cases result with
    | error halt => rfl
    | ok =>
      cases herror : (runSiblings isAlphanumeric w env targets s).findSome? Sibling.error? with
      | none => rfl
      | some message => rfl

theorem followEdges_keeps (hrefl : ∀ s, R s s)
    (htrans : ∀ s₁ s₂ s₃, R s₁ s₂ → R s₂ s₃ → R s₁ s₃)
    (hstep : ∀ name s, R s (runStepOnly isAlphanumeric w env name s).2)
    (hfan : ∀ targets s, R s (mergeSiblings env (runSiblings isAlphanumeric w env targets s) s))
    (fuel : Nat) (name : String) (outcome : StepOutcome) (s : ExecutionState) :
    R s (followEdges isAlphanumeric w env fuel name outcome s).2 := by
  induction fuel generalizing name outcome s with
  | zero => exact hrefl s
  | succ fuel ih =>
    have hsequential := @followAll_keeps R Edge
      (fun e => runFrom isAlphanumeric w env (followEdges isAlphanumeric w env fuel) e.target)
      hrefl htrans (w.sequentialEdges name outcome)
      (fun e _ s => runFrom_keeps htrans hstep ih e.target s) s
    rw [followEdges]
    cases hfollow : followAll
        (fun e => runFrom isAlphanumeric w env (followEdges isAlphanumeric w env fuel) e.target)
        (w.sequentialEdges name outcome) s with
    | mk result s₁ =>
      rw [hfollow] at hsequential
      cases result with
      | error halt => exact hsequential
      | ok =>
        by_cases hparallel : (w.parallelEdges name outcome).isEmpty
        · simp only [hparallel, if_true]
          exact hsequential
        · have hmerge := hfan ((w.parallelEdges name outcome).map Edge.target) s₁
          have hrest := @followAll_keeps R (String × StepOutcome)
            (fun c => followEdges isAlphanumeric w env fuel c.1 c.2) hrefl htrans
            ((runSiblings isAlphanumeric w env ((w.parallelEdges name outcome).map Edge.target)
              s₁).filterMap Sibling.completed?)
            (fun c _ s => ih c.1 c.2 s)
            (mergeSiblings env (runSiblings isAlphanumeric w env
              ((w.parallelEdges name outcome).map Edge.target) s₁) s₁)
          rw [← fanOut_state] at hrest
          have hall := htrans _ _ _ hsequential (htrans _ _ _ hmerge hrest)
          simp only [hparallel]
          cases hfan₁ : fanOut isAlphanumeric w env (followEdges isAlphanumeric w env fuel)
              ((w.parallelEdges name outcome).map Edge.target) s₁ with
          | mk result s₂ =>
            rw [hfan₁] at hall
            cases result with
            | error halt => exact hall
            | ok => exact hall

theorem runWorkflow_keeps (hrefl : ∀ s, R s s)
    (htrans : ∀ s₁ s₂ s₃, R s₁ s₂ → R s₂ s₃ → R s₁ s₃)
    (hstep : ∀ name s, R s (runStepOnly isAlphanumeric w env name s).2)
    (hfan : ∀ targets s, R s (mergeSiblings env (runSiblings isAlphanumeric w env targets s) s))
    (input : String) : R (initialState input) (runWorkflow isAlphanumeric w env input).2 :=
  runFrom_keeps htrans hstep (fun name outcome s =>
    followEdges_keeps hrefl htrans hstep hfan w.agents.entries.length name outcome s)
    w.flow.start (initialState input)

end Keeps

end Workflow

end Relux
