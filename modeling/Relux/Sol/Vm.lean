import Relux.Sol.Syntax

/-! The virtual machine. What it takes from its host (the dispatcher, the floating point
unit, the profile it is built in) is a parameter; memory is not bounded. -/

namespace Relux

namespace Sol

/-- The payload of `PushConst`; `other` is any node that is not a constant. -/
inductive Const where
  | integer (v : Int)
  | float (bits : Word)
  | char (c : Char)
  | bool (b : Bool)
  | undefined
  | string (s : String)
  | other
  deriving DecidableEq

inductive Inst where
  | pushConst (c : Const)
  | storeLocal (offset : Word)
  | loadLocal (offset : Word)
  | pop
  | dup
  | intAdd
  | intSub
  | intMul
  | intDiv
  | intEq
  | intNeq
  | intGt
  | intLt
  | intGte
  | intLte
  | floatAdd
  | floatSub
  | floatMul
  | floatDiv
  | floatEq
  | floatNeq
  | floatGt
  | floatLt
  | floatGte
  | floatLte
  | charEq
  | charNeq
  | charGt
  | charLt
  | charGte
  | charLte
  | logOr
  | logAnd
  | logNot
  | bitXor
  | bitAnd
  | bitOr
  | bitNeg
  | bitLShift
  | bitRShift
  | newStruct (fields : Nat)
  | getField (idx : Nat)
  | setField (idx : Nat)
  | newArray
  | arrayLen
  | getElem
  | setElem
  | concatStr
  | eqStr
  | jump (target : Nat)
  | jumpFalse (target : Nat)
  | call (target argCount : Nat)
  | ret
  | retVal
  | printInt
  | printFloat
  | printChar
  | printString
  | remoteCall
  | remoteCallStream
  | tryEnter (catchPc : Nat)
  | tryExit
  | loadErrorKind
  | loadErrorCause
  | loadErrorRetryHint
  | rethrow
  | loadLastConfidence
  | pushList (n : Nat)
  | pushMap (n : Nat)
  | listLen
  | listGet
  | listPush
  | listContains
  | listJoin
  | listSplit
  | mapGet
  | mapSet
  | mapHas
  | mapKeys
  | mapLen
  | mapDel
  | listGetList
  | mapGetMap
  deriving DecidableEq

structure RemoteCallError where
  kind : Nat
  peer : String
  method : String
  cause : String
  deriving DecidableEq

def RemoteCallError.ofLocal (peer method cause : String) : RemoteCallError :=
  ⟨0, peer, method, cause⟩

/-- The answers of the remote peers. The number is how many steps have been taken, so the
answer to the same call may change. -/
structure Dispatcher where
  remoteCall (step : Nat) (peer method arg : String) : Except RemoteCallError ByteArray
  remoteCallStream (step : Nat) (peer method arg : String) : Except RemoteCallError ByteArray

structure Floats where
  add : Word → Word → Word
  sub : Word → Word → Word
  mul : Word → Word → Word
  div : Word → Word → Word
  eq : Word → Word → Bool
  lt : Word → Word → Bool
  le : Word → Word → Bool
  display : Word → String

structure Host where
  overflowChecks : Bool
  dispatcher : Option Dispatcher
  lastConfidence (step : Nat) : Word
  floats : Floats
  utf8Error : ByteArray → String

def Host.responseText (host : Host) (body : ByteArray) : String :=
  match String.fromUTF8? body with
  | some response => response
  | none => s!"<binary response: {body.size} bytes; {host.utf8Error body}>"

def quietHost : Host where
  overflowChecks := false
  dispatcher := none
  lastConfidence _ := 0
  floats := ⟨fun a _ => a, fun a _ => a, fun a _ => a, fun a _ => a, fun a b => a == b,
    fun a b => a.ult b, fun a b => a.ule b, fun _ => ""⟩
  utf8Error _ := ""

inductive HeapObject where
  | string (s : String)
  | struct (fields : List Word)
  | array (items : List Word)
  | list (items : List Word)
  | map (pairs : List (String × Word))
  deriving DecidableEq

structure Frame where
  returnPtr : Nat
  oldFp : Nat
  deriving DecidableEq

structure TryHandler where
  catchPc : Nat
  fpAtEnter : Nat
  stackLenAtEnter : Nat
  deriving DecidableEq

/-- The top of `stack` is its last element, the innermost of `callStack` and `tryHandlers`
the first. -/
structure VM where
  stack : List Word
  heap : List HeapObject
  callStack : List Frame
  instPtr : Nat
  fp : Nat
  program : List Inst
  done : Bool
  fuel : Nat
  stepsTaken : Nat
  flowName : Option String
  fuelExhaustedSteps : Option Nat
  lastError : Option RemoteCallError
  tryHandlers : List TryHandler
  fault : Option String
  stdout : List String
  deriving DecidableEq

def VM_ERROR_SENTINEL : Word := BitVec.allOnes 64

def DEFAULT_MAX_STEPS : Nat := 100000

def MAX_STEPS_CEILING : Nat := 10000000

namespace VM

def ofProgram (program : List Inst) : VM where
  stack := []
  heap := []
  callStack := []
  instPtr := 0
  fp := 0
  program := program
  done := false
  fuel := DEFAULT_MAX_STEPS
  stepsTaken := 0
  flowName := none
  fuelExhaustedSteps := none
  lastError := none
  tryHandlers := []
  fault := none
  stdout := []

def withFuel (vm : VM) (fuel : Nat) : VM := { vm with fuel := max (min fuel MAX_STEPS_CEILING) 1 }

def withFlowName (vm : VM) (name : String) : VM := { vm with flowName := some name }

def push (vm : VM) (val : Word) : VM := { vm with stack := vm.stack ++ [val] }

def recordFault (vm : VM) (cause : String) : VM := { vm with fault := some (vm.fault.getD cause) }

def pop (vm : VM) : Word × VM :=
  match vm.stack.getLast? with
  | some v => (v, { vm with stack := vm.stack.dropLast })
  | none => (0, vm.recordFault "stack underflow")

def ALLOC_CEILING : Nat := 1 <<< 24

/-- `check_alloc`, with what is done when it grants the request. -/
def checkAlloc (vm : VM) (requested : Nat) (what : String) (granted : VM) : VM :=
  let budget := min vm.fuel ALLOC_CEILING
  if requested > budget then
    vm.recordFault
      s!"{what}: requested {requested} elements exceeds allocation budget {budget}"
  else granted

def flow (vm : VM) : String := vm.flowName.getD "<sol_vm>"

def raiseMalformed (vm : VM) (cause : String) : VM :=
  { vm with
    done := true
    lastError := some (RemoteCallError.ofLocal "<sol_vm>" vm.flow s!"malformed bytecode: {cause}") }

/-- `try_dispatch_error`: the result when no handler takes the error. -/
def tryDispatchError (vm : VM) : Option Word × VM :=
  match vm.tryHandlers with
  | [] => (some VM_ERROR_SENTINEL, { vm with done := true })
  | handler :: handlers =>
    (none, { vm with
      tryHandlers := handlers
      fp := handler.fpAtEnter
      stack := vm.stack.take handler.stackLenAtEnter
      instPtr := handler.catchPc })

def allocate (vm : VM) (o : HeapObject) : VM :=
  { vm with heap := vm.heap ++ [o], stack := vm.stack ++ [BitVec.ofNat 64 vm.heap.length] }

def text? (vm : VM) (r : Word) : Option String :=
  match vm.heap[r.toNat]? with
  | some (.string s) => some s
  | _ => none

def textOrEmpty (vm : VM) (r : Word) : String := (vm.text? r).getD ""

def listItems? (vm : VM) (r : Word) : Option (List Word) :=
  match vm.heap[r.toNat]? with
  | some (.list items) => some items
  | _ => none

def items? (vm : VM) (r : Word) : Option (List Word) :=
  match vm.heap[r.toNat]? with
  | some (.list items) => some items
  | some (.array items) => some items
  | _ => none

def pairs? (vm : VM) (r : Word) : Option (List (String × Word)) :=
  match vm.heap[r.toNat]? with
  | some (.map pairs) => some pairs
  | _ => none

end VM

def itemAt (items : List Word) (idx : Word) : Option Word :=
  if idx.toInt < 0 then none else items[idx.toNat]?

def valueOf (pairs : List (String × Word)) (key : String) : Option Word :=
  (pairs.find? (fun p => p.1 == key)).map Prod.snd

def setValue (key : String) (val : Word) : List (String × Word) → List (String × Word)
  | [] => [(key, val)]
  | p :: pairs => if p.1 = key then (key, val) :: pairs else p :: setValue key val pairs

/-- `heap_display`, with the depth of the calls it may nest. -/
def heapDisplay (heap : List HeapObject) : Nat → Nat → Option String
  | 0, _ => none
  | depth + 1, idx =>
    match heap[idx]? with
    | some (.string s) => some s
    | some (.list items) =>
      (items.mapM (fun r => heapDisplay heap depth r.toNat)).map (String.intercalate "|")
    | some (.map pairs) =>
      (pairs.mapM (fun p => (heapDisplay heap depth p.2.toNat).map (fun v => s!"{p.1}={v}"))).map
        (String.intercalate ";")
    | _ => some ""

namespace error_kinds

def TRANSPORT : Nat := 1
def TIMEOUT : Nat := 2
def PEER_UNREACHABLE : Nat := 3
def POLICY_DENIED : Nat := 6
def APPROVAL_TIMEOUT : Nat := 15
def APPROVAL_DENIED : Nat := 16
def APPROVAL_REQUIRED : Nat := 19

end error_kinds

open error_kinds in
def classifiedErrorKind (err : RemoteCallError) : String :=
  if err.kind = TIMEOUT ∨ err.kind = APPROVAL_TIMEOUT then "timeout"
  else if err.kind = TRANSPORT ∨ err.kind = PEER_UNREACHABLE ∨ err.kind = 0 then "mesh_error"
  else if err.kind = POLICY_DENIED ∨ err.kind = APPROVAL_DENIED ∨ err.kind = APPROVAL_REQUIRED then
    "policy_denied"
  else "responder_error"

end Sol

end Relux
