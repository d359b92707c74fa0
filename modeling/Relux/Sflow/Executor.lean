import Relux.Sflow.Interpolate
import Relux.Numbers
import Relux.Sol.Vm

/-! The statements of the flow scripts, in the shape the parser builds them, and the values of
their expressions and conditions. -/

namespace Relux

namespace Sflow

inductive Expr where
  | literal (s : String)
  | lastResult
  | var (name : String)
  | stepResult (name : String)
  | listLit (elements : List Expr)
  | mapLit (pairs : List (String × Expr))
  | call (name : String) (args : List Expr)

inductive Atom where
  | status
  | result
  | var (name : String)
  | stepStatus (name : String)
  | stepResult (name : String)

inductive CmpOp where
  | eq
  | neq
  | contains
  | matches

inductive Condition where
  | true
  | false
  | compare (atom : Atom) (op : CmpOp) (rhs : String)
  | exists (atom : Atom)
  | and (a b : Condition)
  | or (a b : Condition)
  | not (c : Condition)

/-- The clauses of a `try` are the kinds they catch with their bodies. -/
inductive Stmt where
  | step (name : Option String) (peer wireMethod : String) (arg : Expr) (line : Nat)
  | set (name : String) (value : Expr) (line : Nat)
  | if (branches : List (Condition × List Stmt)) (elseBody : Option (List Stmt)) (line : Nat)
  | loopTimes (count : Nat) (body : List Stmt) (line : Nat)
  | while (cond : Condition) (body : List Stmt) (line : Nat)
  | until (cond : Condition) (body : List Stmt) (line : Nat)
  | for (varName : String) (iter : Expr) (body : List Stmt) (line : Nat)
  | try (body : List Stmt) (catches : List (CatchKind × List Stmt)) (line : Nat)
  | rethrow (line : Nat)
  | return (value : Option Expr) (line : Nat)
  | solLog (message : Expr) (line : Nat)
  | solSleep (secs : Nat)
  | solAssert (cond : Condition) (line : Nat)
  | solSetResult (value : Expr) (line : Nat)

def builtinArity (name : String) : Option Nat :=
  if name = "map_set" then some 3
  else if ["list_len", "map_keys", "map_len"].contains name then some 1
  else if ["list_get", "list_get_list", "list_push", "list_contains", "list_join", "list_split",
      "map_get", "map_get_map", "map_has", "map_del"].contains name then some 2
  else none

def expectArity (name : String) (received expected line : Nat) : Except RuntimeError Unit :=
  if received = expected then .ok ()
  else
    let plural := if expected = 1 then "" else "s"
    .error (.ofLocal line s!"{name}() takes {expected} argument{plural} but received {received}")

open SflowValue

def boolText (b : Bool) : SflowValue := .string (if b then "true" else "false")

def indexOf (name text : String) (line : Nat) : Except RuntimeError Int :=
  match parseI64 text.toList with
  | some idx => .ok idx
  | none => .error (.ofLocal line s!"{name} index must be an integer, got `{text}`")

def itemAt (items : List SflowValue) (idx : Int) : Option SflowValue :=
  if idx < 0 then none else items[idx.toNat]?

def listGet (v idxText : SflowValue) (line : Nat) : Except RuntimeError SflowValue := do
  let idx ← indexOf "list_get" (toDisplay idxText) line
  .ok ((itemAt (listItemsFrom v) idx).getD default)

def listGetList (v idxText : SflowValue) (line : Nat) : Except RuntimeError SflowValue := do
  let idx ← indexOf "list_get_list" (toDisplay idxText) line
  let items := listItemsFrom v
  match itemAt items idx with
  | none =>
    .error (.ofLocal line s!"list_get_list: index {idx} out of bounds (len {items.length})")
  | some (.list elems) => .ok (.list elems)
  | some other =>
    .error (.ofLocal line
      s!"list_get_list: element at index {idx} is not a list (it's `{toDisplay other}`)")

def listSplit (src sep : String) : SflowValue :=
  .list ((if sep = "" then [src] else src.splitOn sep).map .string)

def valueOf (pairs : List (String × SflowValue)) (key : String) : Option SflowValue :=
  (pairs.find? (fun p => p.1 == key)).map Prod.snd

def mapGetMap (v : SflowValue) (key : String) (line : Nat) : Except RuntimeError SflowValue :=
  match valueOf (mapPairsFrom v) key with
  | none => .error (.ofLocal line s!"map_get_map: key `{key}` not present")
  | some (.map pairs) => .ok (.map pairs)
  | some other =>
    .error (.ofLocal line
      s!"map_get_map: value at `{key}` is not a map (it's `{toDisplay other}`)")

def setPair (key : String) (val : SflowValue) :
    List (String × SflowValue) → List (String × SflowValue)
  | [] => [(key, val)]
  | p :: pairs => if p.1 = key then (p.1, val) :: pairs else p :: setPair key val pairs

def applyBuiltin (name : String) (args : List SflowValue) (line : Nat) :
    Except RuntimeError SflowValue :=
  let a := (args[0]?).getD default
  let b := (args[1]?).getD default
  let c := (args[2]?).getD default
  if name = "list_len" then .ok (.string (toString (listItemsFrom a).length))
  else if name = "list_get" then listGet a b line
  else if name = "list_get_list" then listGetList a b line
  else if name = "list_push" then .ok (.list (listItemsFrom a ++ [b]))
  else if name = "list_contains" then
    .ok (boolText ((listItemsFrom a).any (fun x => toDisplay x == toDisplay b)))
  else if name = "list_join" then
    .ok (.string ((toDisplay b).intercalate (displayItems (listItemsFrom a))))
  else if name = "list_split" then .ok (listSplit (toDisplay a) (toDisplay b))
  else if name = "map_get" then .ok ((valueOf (mapPairsFrom a) (toDisplay b)).getD default)
  else if name = "map_get_map" then mapGetMap a (toDisplay b) line
  else if name = "map_set" then .ok (.map (setPair (toDisplay b) c (mapPairsFrom a)))
  else if name = "map_has" then
    .ok (boolText ((mapPairsFrom a).any (fun p => p.1 == toDisplay b)))
  else if name = "map_keys" then .ok (.list ((mapPairsFrom a).map (fun p => .string p.1)))
  else if name = "map_len" then .ok (.string (toString (mapPairsFrom a).length))
  else .ok (.map ((mapPairsFrom a).filter (fun p => p.1 != toDisplay b)))

namespace ExecState

theorem interpolate_isSome (st : ExecState) (s : String) : (st.interpolate s).isSome = true := by
  rw [st.interpolate_eq]
  rfl

variable (st : ExecState) (line : Nat)

mutual

def resolveValue : Expr → Except RuntimeError SflowValue
  | .literal s => .ok (.string ((st.interpolate s).get (st.interpolate_isSome s)))
  | .lastResult => .ok (.string st.lastStep.result)
  | .var name => .ok ((st.vars.get? name).getD default)
  | .stepResult name => .ok (.string (st.stepResult name))
  | .listLit elements => (resolveValues elements).map .list
  | .mapLit pairs => (resolvePairs pairs []).map .map
  | .call name args =>
    match builtinArity name with
    | none => .error (.ofLocal line s!"unknown built-in `{name}`")
    | some expected => do
      expectArity name args.length expected line
      let values ← resolveValues args
      applyBuiltin name values line

def resolveValues : List Expr → Except RuntimeError (List SflowValue)
  | [] => .ok []
  | e :: es => do
    let v ← resolveValue e
    let vs ← resolveValues es
    .ok (v :: vs)

def resolvePairs : List (String × Expr) → List (String × SflowValue) →
    Except RuntimeError (List (String × SflowValue))
  | [], out => .ok out
  | (k, e) :: pairs, out => do
    let v ← resolveValue e
    resolvePairs pairs (setPair k v out)

end

def resolve (e : Expr) : Except RuntimeError String := (st.resolveValue line e).map toDisplay

def readAtom : Atom → String
  | .status => st.lastStep.status
  | .result => st.lastStep.result
  | .var name => st.varText name
  | .stepStatus name => st.stepStatus name
  | .stepResult name => st.stepResult name

abbrev RegexEngine := String → Except String (String → Bool)

def eval (regex : RegexEngine) : Condition → Except RuntimeError Bool
  | .true => .ok Bool.true
  | .false => .ok Bool.false
  | .and a b => do
    let l ← eval regex a
    if l then eval regex b else .ok Bool.false
  | .or a b => do
    let l ← eval regex a
    if l then .ok Bool.true else eval regex b
  | .not c => (eval regex c).map (fun b => !b)
  | .exists atom => .ok (st.readAtom atom != "")
  | .compare atom op rhs =>
    let lhs := st.readAtom atom
    match op with
    | .eq => .ok (lhs == rhs)
    | .neq => .ok (lhs != rhs)
    | .contains => .ok (containsText lhs rhs)
    | .matches =>
      match regex rhs with
      | .ok re => .ok (re lhs)
      | .error e => .error (.ofLocal line s!"invalid regex `{rhs}`: {e}")

end ExecState

end Sflow

end Relux

/-! The executor of the flow scripts. A statement is a run: what it leaves behind, and how it
ends. What the host gives (the remote peers, the regular expressions) is a parameter. -/

namespace Relux

namespace Sflow

structure Host where
  remoteCall (calls : List (String × String × String)) (peer method arg : String) :
    Except Sol.RemoteCallError ByteArray
  utf8Error : ByteArray → String
  regex : ExecState.RegexEngine
  maxLoopIters : Nat

def Host.responseText (host : Host) (body : ByteArray) : String :=
  match String.fromUTF8? body with
  | some response => response
  | none => s!"<binary response: {body.size} bytes; {host.utf8Error body}>"

open Sol.error_kinds in
def classifyRemoteError (err : Sol.RemoteCallError) : CatchKind :=
  if err.kind = TIMEOUT ∨ err.kind = APPROVAL_TIMEOUT then .timeout
  else if err.kind = TRANSPORT ∨ err.kind = PEER_UNREACHABLE ∨ err.kind = 0 then .meshError
  else if err.kind = POLICY_DENIED ∨ err.kind = APPROVAL_DENIED ∨ err.kind = APPROVAL_REQUIRED then
    .policyDenied
  else .responderError

structure Event where
  kind : String
  payload : String
  deriving DecidableEq

structure Exec extends ExecState where
  chronicle : List Event
  calls : List (String × String × String)

def Exec.new : Exec := { ExecState.new with chronicle := [], calls := [] }

inductive BlockFlow where
  | continue
  | return
  deriving DecidableEq

abbrev Run := Exec → Exec × Except RuntimeError BlockFlow

namespace Exec

def write (e : Exec) (kind payload : String) : Exec :=
  { e with chronicle := e.chronicle ++ [⟨kind, payload⟩] }

def restore (e : Exec) (name : String) (prior : Option SflowValue) : Exec :=
  match prior with
  | some p => { e with vars := (e.vars.remove name).insert name p }
  | none => { e with vars := e.vars.remove name }

def record (e : Exec) (name : Option String) (r : StepRecord) : Exec :=
  { e with
    lastStep := r
    namedSteps := match name with
      | some n => e.namedSteps.insert n r
      | none => e.namedSteps }

end Exec

def tryRun {α : Type} (x : Except RuntimeError α) (next : α → Run) : Run := fun e =>
  match x with
  | .ok a => next a e
  | .error err => (e, .error err)

section
variable (host : Host)

def execStep (name : Option String) (peer wireMethod : String) (arg : Expr) (line : Nat) : Run :=
  fun e => tryRun (e.resolve line arg) (fun interpolated e =>
    let label := name.getD "(unnamed)"
    let e := e.write "sol.step_start" s!"step={label} peer={peer} method={wireMethod} line={line}"
    let answer := host.remoteCall e.calls peer wireMethod interpolated
    let e := { e with calls := e.calls ++ [(peer, wireMethod, interpolated)] }
    match answer with
    | .ok bytes =>
      let body := host.responseText bytes
      let e := e.record name ⟨"completed", body⟩
      (e.write "sol.step_done"
        s!"step={label} peer={peer} method={wireMethod} status=completed bytes={body.utf8ByteSize}",
        .ok .continue)
    | .error err =>
      let kind := classifyRemoteError err
      let e := e.record name ⟨"failed", err.cause⟩
      (e.write "sol.step_done" (s!"step={label} peer={peer} method={wireMethod} status=failed " ++
        s!"kind={kind.asStr} cause={err.cause}"),
        .error ⟨kind, err.kind, err.cause, line⟩)) e

/-- The branches that are still to be tried, the first of them the `index`-th. -/
def execBranches (line : Nat) (elseBody : Option Run) : Nat → List (Condition × Run) → Run
  | _, [] => fun e =>
    match elseBody with
    | some body => body (e.write "sol.condition_branch" "taken=else")
    | none => (e.write "sol.condition_branch" "taken=none", .ok .continue)
  | index, (cond, body) :: branches => fun e =>
    tryRun (e.eval line host.regex cond) (fun truth e =>
      if truth then
        let label := if index = 0 then "if" else "elif"
        body (e.write "sol.condition_branch" s!"taken={label} index={index}")
      else execBranches line elseBody (index + 1) branches e) e

/-- One turn of a loop: the body runs with its number as `loop.iter`. -/
def turn (kind : String) (line iter : Nat) (body : Run) : Run := fun e =>
  let prev := e.loopIter
  let e := { e with loopIter := some iter }
  let e := e.write "sol.loop_iter" s!"iter={iter} kind={kind} line={line}"
  let res := body e
  ({ res.1 with loopIter := prev }, res.2)

def afterTurn (res : Exec × Except RuntimeError BlockFlow) (next : Run) :
    Exec × Except RuntimeError BlockFlow :=
  match res with
  | (e, .ok .continue) => next e
  | ended => ended

/-- The turns from `iter` on, of which so many are left. -/
def timesLoop (line : Nat) (body : Run) : Nat → Nat → Run
  | 0, _ => fun e => (e, .ok .continue)
  | left + 1, iter => fun e =>
    afterTurn (turn "times" line iter body e) (timesLoop line body left (iter + 1))

def execLoopTimes (count : Nat) (body : Run) (line : Nat) : Run := fun e =>
  let cap := host.maxLoopIters
  let e := if count > cap then
      e.write "sol.loop_limit_hit" s!"requested={count} cap={cap} line={line}"
    else e
  timesLoop line body (min count cap) 0 e

def whileLoop (cond : Condition) (kind : String) (invert : Bool) (line : Nat) (body : Run) :
    Nat → Nat → Run
  | 0, _ => fun e =>
    (e.write "sol.loop_limit_hit" s!"cap={host.maxLoopIters} kind={kind} line={line}",
      .ok .continue)
  | left + 1, iter => fun e =>
    tryRun (e.eval line host.regex cond) (fun truth e =>
      if (truth != invert) = true then
        afterTurn (turn kind line iter body e)
          (whileLoop cond kind invert line body left (iter + 1))
      else (e, .ok .continue)) e

def execWhile (cond : Condition) (body : Run) (line : Nat) (invert : Bool) : Run :=
  whileLoop host cond (if invert then "until" else "while") invert line body host.maxLoopIters 0

/-- The loop variable is bound to the item, or there is an error at the cap of variables. -/
def bindItem (varName : String) (line idx : Nat) (elem : SflowValue) (e : Exec) :
    Except RuntimeError Exec :=
  ({ e with loopIter := some idx }.setVar varName elem line).map (fun st =>
    { e with toExecState := st }.write "sol.loop_iter" s!"iter={idx} kind=for line={line}")

/-- The items that are still to come, the first of them the `idx`-th; `prior` is what the variable
was bound to before the loop. -/
def forLoop (varName : String) (prior : Option SflowValue) (line : Nat) (body : Run) :
    Nat → List SflowValue → Run
  | _, [] => fun e => (e.restore varName prior, .ok .continue)
  | idx, elem :: items => fun e =>
    let prevLoop := e.loopIter
    match bindItem varName line idx elem e with
    | .error err => ({ e with loopIter := some idx }, .error err)
    | .ok bound =>
      let (e, res) := body bound
      let e := { e with loopIter := prevLoop }
      match res with
      | .error err => (e, .error err)
      | .ok .return => (e.restore varName prior, .ok .return)
      | .ok .continue => forLoop varName prior line body (idx + 1) items e

def forStart (varName : String) (line : Nat) (items : List SflowValue) (e : Exec) : Exec :=
  let cap := host.maxLoopIters
  let e := if items.length > cap then
      e.write "sol.loop_limit_hit" s!"requested={items.length} cap={cap} kind=for line={line}"
    else e
  { e with vars := e.vars.remove varName }

def execFor (varName : String) (iter : Expr) (body : Run) (line : Nat) : Run := fun e =>
  tryRun (e.resolveValue line iter) (fun value e =>
    let items := listItemsFrom value
    forLoop varName (e.vars.get? varName) line body 0 (items.take host.maxLoopIters)
      (forStart host varName line items e)) e

def pickCatch {α : Type} (catches : List (CatchKind × α)) (kind : CatchKind) :
    Option (CatchKind × α) :=
  (catches.find? (fun c => c.1 = kind)).or (catches.find? (fun c => c.1 = .any))

/-- The body of a clause, with the error it handles in `error.kind` and `error.message`. -/
def handle (err : RuntimeError) (body : Run) : Run := fun e =>
  let prevErr := e.currentError
  let st := { e.toExecState with currentError := some err }
  let st := st.setInternal "error.kind" err.kind.asStr
  let st := st.setInternal "error.message" err.message
  let (e, res) := body { e with toExecState := st }
  let st := { e.toExecState with currentError := prevErr }
  let st := st.clearInternal "error.kind"
  let st := st.clearInternal "error.message"
  ({ e with toExecState := st }, res)

def execTry (body : Run) (catches : List (CatchKind × Run)) (line : Nat) : Run := fun e =>
  match body e with
  | (e, .ok flow) => (e, .ok flow)
  | (e, .error err) =>
    match pickCatch catches err.kind with
    | none => (e, .error err)
    | some (kind, clause) =>
      handle err clause (e.write "sol.error_caught"
        s!"kind={err.kind.asStr} catch={kind.asStr} line={line} cause={err.message}")

def execRethrow (line : Nat) : Run := fun e =>
  (e, .error (e.currentError.getD (.ofLocal line "rethrow outside of a catch block")))

def execReturn (value : Option Expr) (line : Nat) : Run := fun e =>
  match value with
  | some v =>
    tryRun (e.resolve line v) (fun text e => ({ e with flowResult := text }, .ok .return)) e
  | none =>
    (if e.flowResult = "" then { e with flowResult := e.lastStep.result } else e, .ok .return)

mutual

def execStmt : Stmt → Run
  | .step name peer wireMethod arg line => execStep host name peer wireMethod arg line
  | .set name value line => fun e =>
    tryRun (do
      let resolved ← e.resolveValue line value
      e.setVar name resolved line) (fun st e => ({ e with toExecState := st }, .ok .continue)) e
  | .if branches elseBody line => execBranches host line (elseRun elseBody) 0 (branchRuns branches)
  | .loopTimes count body line => execLoopTimes host count (execBlock body) line
  | .while cond body line => execWhile host cond (execBlock body) line false
  | .until cond body line => execWhile host cond (execBlock body) line true
  | .for varName iter body line => execFor host varName iter (execBlock body) line
  | .try body catches line => execTry (execBlock body) (catchRuns catches) line
  | .rethrow line => execRethrow line
  | .return value line => execReturn value line
  | .solLog message line => fun e =>
    tryRun (e.resolve line message) (fun m e => (e.write "sol.log" m, .ok .continue)) e
  | .solSleep _ => fun e => (e, .ok .continue)
  | .solAssert cond line => fun e =>
    tryRun (e.eval line host.regex cond) (fun truth e =>
      if truth then (e, .ok .continue)
      else (e, .error (.ofLocal line "sol.assert: condition was false"))) e
  | .solSetResult value line => fun e =>
    tryRun (e.resolve line value) (fun v e => ({ e with flowResult := v }, .ok .continue)) e

def execBlock : List Stmt → Run
  | [] => fun e => (e, .ok .continue)
  | stmt :: stmts => fun e =>
    match execStmt stmt e with
    | (e, .ok .continue) => execBlock stmts e
    | ended => ended

def branchRuns : List (Condition × List Stmt) → List (Condition × Run)
  | [] => []
  | (cond, body) :: branches => (cond, execBlock body) :: branchRuns branches

def elseRun : Option (List Stmt) → Option Run
  | none => none
  | some body => some (execBlock body)

def catchRuns : List (CatchKind × List Stmt) → List (CatchKind × Run)
  | [] => []
  | (kind, body) :: catches => (kind, execBlock body) :: catchRuns catches

end

structure ExecOutcome where
  result : String
  error : Option RuntimeError

def run (program : List Stmt) : Exec × ExecOutcome :=
  match execBlock host program Exec.new with
  | (e, .ok _) => (e, ⟨e.flowResult, none⟩)
  | (e, .error err) =>
    (e.write "sol.flow_failed" s!"kind={err.kind.asStr} message={err.message}",
      ⟨e.flowResult, some err⟩)

end

end Sflow

end Relux
