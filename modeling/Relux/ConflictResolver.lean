import Mathlib.Data.Prod.Lex
import Relux.WorkflowCycles

/-! The resolver of conflicts between the parts of a merged workflow: it renames outputs,
puts parallel calls behind one another and drops references, once each and in this order. -/

namespace Relux

inductive ConflictKind
  | duplicateOutput
  | interferingParallelCall
  | undefinedReference
  | unresolvable
  deriving DecidableEq, Repr

inductive ResolutionStrategy
  | rename
  | sequence
  | drop
  | escalate
  deriving DecidableEq, Repr

def ResolutionStrategy.asStr : ResolutionStrategy → String
  | .rename => "rename"
  | .sequence => "sequence"
  | .drop => "drop"
  | .escalate => "escalate"

structure ConflictResolutionEntry where
  kind : ConflictKind
  strategy : ResolutionStrategy
  description : String
  affectedStep : String

structure ConflictResolutionReport where
  conflictsDetected : Nat
  conflictsResolved : Nat
  details : List ConflictResolutionEntry
  escalated : Option String
  strategyUsed : String

namespace ConflictResolutionReport

def empty : ConflictResolutionReport := ⟨0, 0, [], none, ""⟩

def record (report : ConflictResolutionReport) (entry : ConflictResolutionEntry) :
    ConflictResolutionReport :=
  { report with
    conflictsDetected := report.conflictsDetected + 1
    conflictsResolved :=
      if entry.strategy = .escalate then report.conflictsResolved
      else report.conflictsResolved + 1
    strategyUsed :=
      if report.strategyUsed.isEmpty then entry.strategy.asStr else report.strategyUsed
    details := report.details ++ [entry] }

@[simp] theorem record_escalated (report : ConflictResolutionReport)
    (entry : ConflictResolutionEntry) : (report.record entry).escalated = report.escalated := rfl

end ConflictResolutionReport

def WorkflowError.text : WorkflowError → String
  | .startAgentMissing name => s!"flow.start \x60{name}\x60 is not declared in the agents map"
  | .edgeFromMissing index name =>
    s!"edge[{index}].from \x60{name}\x60 is not declared in the agents map"
  | .edgeToMissing index name =>
    s!"edge[{index}].to \x60{name}\x60 is not declared in the agents map"
  | .cycleDetected path => "cycle detected in success-path edges: " ++ " → ".intercalate path
  | .undefinedVariable agent field var available =>
    s!"agent \x60{agent}\x60 field \x60{field}\x60 references undefined variable \x60{var}\x60. " ++
      s!"Defined variables: workflow.input, {available}"
  | .resultUndefinedVariable var available =>
    s!"flow.result references undefined variable \x60{var}\x60. " ++
      s!"Defined variables: workflow.input, {available}"
  | .unknownPeer agent peer =>
    s!"agent \x60{agent}\x60 references peer alias \x60{peer}\x60 not in peers config"
  | .duplicateOutput name output =>
    s!"agent \x60{name}\x60 output binding \x60{output}\x60 collides with another agent's output"

/-- `entry(k).or_default().push(v)`. -/
def BTreeMap.push {κ ν : Type} [LinearOrder κ] (m : BTreeMap κ (List ν)) (k : κ) (v : ν) :
    BTreeMap κ (List ν) := m.insert k ((m.get? k).getD [] ++ [v])

namespace ConflictResolver

abbrev Resolution := Workflow × ConflictResolutionReport

def setOutput (w : Workflow) (name output : String) : Workflow :=
  match w.agents.get? name with
  | none => w
  | some spec => { w with agents := w.agents.insert name { spec with output := output } }

def freshOutputName (base : String) (taken : List String) : String :=
  match ((List.range 998).map (fun n => s!"{base}_{n + 2}")).find?
    (fun candidate => !taken.contains candidate) with
  | some candidate => candidate
  | none => s!"{base}__x"

def renameOutput (output kept : String) (s : Resolution × List String) (losing : String) :
    Resolution × List String :=
  let newOutput := freshOutputName output s.2
  ((setOutput s.1.1 losing newOutput,
    s.1.2.record
      { kind := .duplicateOutput
        strategy := .rename
        description :=
          s!"step \x60{losing}\x60 shared output binding \x60{output}\x60 with \x60{kept}\x60 — " ++
            s!"renamed to \x60{newOutput}\x60 (existing references resolve to \x60{kept}\x60)"
        affectedStep := losing }),
    newOutput :: s.2)

def byOutput (w : Workflow) : BTreeMap String (List String) :=
  w.agents.entries.foldl (fun m a => m.push a.2.output a.1) BTreeMap.empty

def resolveDuplicateOutputs (r : Resolution) : Resolution :=
  ((byOutput r.1).entries.foldl (fun s group =>
    match group.2 with
    | [] => s
    | kept :: losing => losing.foldl (renameOutput group.1 kept) s)
    (r, r.1.agents.values.map AgentSpec.output)).1

def writeKeywords : List String :=
  ["set", "put", "write", "create", "delete", "update", "post", "send", "publish", "mutate"]

variable (toLowercase : String → String)

def looksWriteLike (capability : String) : Bool :=
  let lower := (toLowercase capability).toList
  writeKeywords.any (fun kw =>
    containsChars ('.' :: kw.toList) lower || containsChars (kw.toList ++ ['_']) lower ||
      containsChars ('_' :: kw.toList) lower || kw.toList.isSuffixOf lower ||
      kw.toList.isPrefixOf lower)

def sourceStep (m : BTreeMap String (List (Nat × String))) (e : Edge × Nat) :
    BTreeMap String (List (Nat × String)) :=
  if e.1.condition = .parallel then m.push e.1.source (e.2, e.1.target) else m

def parallelBySource (w : Workflow) : BTreeMap String (List (Nat × String)) :=
  w.flow.edges.zipIdx.foldl sourceStep BTreeMap.empty

def groupStep (w : Workflow) (m : BTreeMap (String ×ₗ String) (List (Nat × String)))
    (e : Nat × String) : BTreeMap (String ×ₗ String) (List (Nat × String)) :=
  match w.agents.get? e.2 with
  | none => m
  | some spec => m.push (toLex (spec.peer, spec.capability)) e

def groupByCall (w : Workflow) (edges : List (Nat × String)) :
    BTreeMap (String ×ₗ String) (List (Nat × String)) :=
  edges.foldl (groupStep w) BTreeMap.empty

abbrev Moves := List (Nat × String) × ConflictResolutionReport

def sequenceEntry (peer cap keptTo losingTo : String) : ConflictResolutionEntry where
  kind := .interferingParallelCall
  strategy := .sequence
  description :=
    s!"parallel siblings \x60{keptTo}\x60 and \x60{losingTo}\x60 both call \x60{cap}\x60 on " ++
      s!"peer \x60{peer}\x60 (write-like) — re-sequenced \x60{losingTo}\x60 after \x60{keptTo}\x60 " ++
      "to avoid a race on the shared resource"
  affectedStep := losingTo

def moveGroup (s : Moves) (group : (String ×ₗ String) × List (Nat × String)) : Moves :=
  let call := ofLex group.1
  match group.2 with
  | [] => s
  | kept :: losing =>
    if looksWriteLike toLowercase call.2 then
      losing.foldl (fun s e => (s.1 ++ [(e.1, kept.2)],
        s.2.record (sequenceEntry call.1 call.2 kept.2 e.2))) s
    else s

def applyMove (edges : List Edge) (move : Nat × String) : List Edge :=
  edges.modify move.1 (fun e => { e with source := move.2, condition := .success })

def findMoves (w : Workflow) (report : ConflictResolutionReport) : Moves :=
  (parallelBySource w).entries.foldl (fun s source =>
    (groupByCall w source.2).entries.foldl (moveGroup toLowercase) s) ([], report)

def resolveInterferingParallelCalls (r : Resolution) : Resolution :=
  let moves := findMoves toLowercase r.1 r.2
  ({ r.1 with flow := { r.1.flow with edges := moves.1.foldl applyMove r.1.flow.edges } }, moves.2)

def pushBytes (c : Char) : List Char :=
  (String.singleton c).toUTF8.data.toList.map (fun b => Char.ofNat b.toNat)

/-- The loop of `strip_var_marker`, behind the next `skip` characters. -/
def stripLoop (var : List Char) : Nat → List Char → List Char → List Char
  | _, out, [] => out
  | skip + 1, out, _ :: rest => stripLoop var skip out rest
  | 0, out, c :: rest =>
    if c = '\x7b' ∧ rest.head? = some '\x7b' then
      match closeMarker rest.tail with
      | none => out ++ c :: rest
      | some body =>
        if trimChars body = var then
          let after := (c :: rest).drop (body.length + 4)
          if after.head? = some ' ' ∧ out.getLast? = some ' ' then
            stripLoop var (body.length + 4) out rest
          else stripLoop var (body.length + 3) out rest
        else stripLoop var (body.length + 3) (out ++ (c :: rest).take (body.length + 4)) rest
    else stripLoop var 0 (out ++ pushBytes c) rest

def stripVarMarker (s var : String) : String := String.ofList (stripLoop var.toList 0 [] s.toList)

variable (isAlphanumeric : Char → Bool)

def undefinedVars (known : List String) (template : String) : List String :=
  (extractVars isAlphanumeric template).filter (fun v =>
    v ≠ "workflow.input" && !known.contains (Workflow.stripOutput v))

def dropEntry (step text : String) : ConflictResolutionEntry where
  kind := .undefinedReference
  strategy := .drop
  description := text
  affectedStep := step

def droppedInput (name d : String) : ConflictResolutionEntry :=
  dropEntry name (s!"step \x60{name}\x60 input referenced undefined variable " ++
    s!"\x60\x7b\x7b {d} \x7d\x7d\x60 — marker dropped, agent still runs")

def droppedResult (d : String) : ConflictResolutionEntry :=
  dropEntry "flow.result" (s!"flow.result referenced undefined variable " ++
    s!"\x60\x7b\x7b {d} \x7d\x7d\x60 — marker dropped")

def setInput (w : Workflow) (name input : String) : Workflow :=
  match w.agents.get? name with
  | none => w
  | some spec => { w with agents := w.agents.insert name { spec with input := input } }

def dropFromInput (known : List String) (s : Resolution) (a : String × AgentSpec) : Resolution :=
  match undefinedVars isAlphanumeric known a.2.input with
  | [] => s
  | dropped =>
    (setInput s.1 a.1 (dropped.foldl stripVarMarker a.2.input),
      dropped.foldl (fun report d => report.record (droppedInput a.1 d)) s.2)

def dropFromResult (known : List String) (s : Resolution) : Resolution :=
  match s.1.flow.result with
  | none => s
  | some result =>
    match undefinedVars isAlphanumeric known result with
    | [] => s
    | dropped =>
      let rewritten := dropped.foldl stripVarMarker result
      ({ s.1 with flow :=
          { s.1.flow with result := if (trim rewritten).isEmpty then none else some rewritten } },
        dropped.foldl (fun report d => report.record (droppedResult d)) s.2)

def resolveUndefinedReferences (r : Resolution) : Resolution :=
  let known := r.1.agents.values.map AgentSpec.output
  dropFromResult isAlphanumeric known
    (r.1.agents.entries.foldl (dropFromInput isAlphanumeric known) r)

def resolvePasses (w : Workflow) : Resolution :=
  resolveUndefinedReferences isAlphanumeric
    (resolveInterferingParallelCalls toLowercase (resolveDuplicateOutputs (w, .empty)))

/-- `ConflictResolver::resolve`. -/
def resolve (w : Workflow) : Resolution :=
  let r := resolvePasses toLowercase isAlphanumeric w
  let report :=
    match r.1.validate isAlphanumeric none with
    | .ok _ => r.2
    | .error e =>
      { r.2 with escalated := some e.text }.record
        { kind := .unresolvable
          strategy := .escalate
          description := s!"workflow still invalid after resolution: {e.text}"
          affectedStep := "" }
  (r.1, if report.strategyUsed.isEmpty then { report with strategyUsed := "none" } else report)

end ConflictResolver

end Relux
