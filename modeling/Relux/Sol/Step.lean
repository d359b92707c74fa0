import Relux.Sol.Vm

/-! One instruction of the virtual machine, and its run. -/

namespace Relux

namespace Sol

/-- Why an instruction has no result: overflow in a profile that checks it, or `heap_display`
on a value whose display does not end. -/
inductive Panic where
  | overflow
  | recursion
  deriving DecidableEq

/-- An instruction falls through to the check of its faults, or leaves `step` before it. -/
inductive Flow where
  | next (vm : VM)
  | leave (result : Option Word) (vm : VM)

def ofBool (b : Bool) : Word := if b then 1 else 0

namespace VM

def unary (vm : VM) (f : Word → Word) : VM := vm.pop.2.push (f vm.pop.1)

def binary (vm : VM) (f : Word → Word → Word) : VM :=
  let b := vm.pop.1
  let vm := vm.pop.2
  let a := vm.pop.1
  vm.pop.2.push (f a b)

def compare (vm : VM) (f : Word → Word → Bool) : VM := vm.binary (fun a b => ofBool (f a b))

def operands (vm : VM) : Word × Word := (vm.pop.2.pop.1, vm.pop.1)

def arith (vm : VM) (host : Host) (overflow : Word → Word → Bool) (f : Word → Word → Word) :
    Except Panic Flow :=
  if host.overflowChecks && overflow vm.operands.1 vm.operands.2 then .error .overflow
  else .ok (.next (vm.binary f))

/-- `(self.fp as isize + offset) as usize`. -/
def slot (vm : VM) (offset : Word) : Nat := (BitVec.ofNat 64 vm.fp + offset).toNat

def slotOverflow (vm : VM) (offset : Word) : Bool := (BitVec.ofNat 64 vm.fp).saddOverflow offset

def pushConst (vm : VM) : Const → VM
  | .integer v => vm.push (BitVec.ofInt 64 v)
  | .float bits => vm.push bits
  | .char c => vm.push (BitVec.ofNat 64 c.toNat)
  | .bool b => vm.push (ofBool b)
  | .undefined => vm.push 0
  | .string s => vm.allocate (.string s)
  | .other => (vm.recordFault "invalid constant AST node passed to PushConst").push 0

def loadLocal (vm : VM) (offset : Word) : VM :=
  match vm.stack[vm.slot offset]? with
  | some val => vm.push val
  | none =>
    vm.recordFault
      s!"LoadLocal: slot {vm.slot offset} out of range (stack len {vm.stack.length})"

def storeLocal (vm : VM) (offset : Word) : VM :=
  let val := vm.pop.1
  let vm := vm.pop.2
  let idx := vm.slot offset
  let needed := min (idx + 1) (BitVec.allOnes 64).toNat
  let growBy := needed - vm.stack.length
  vm.checkAlloc growBy "StoreLocal stack growth"
    { vm with stack := (vm.stack ++ List.replicate growBy 0).set idx val }

def dup (vm : VM) : VM :=
  match vm.stack.getLast? with
  | some val => vm.push val
  | none => vm.recordFault "Dup on empty stack"

/-- `checked_div`: the quotient is missing for a divisor of zero, and when it overflows. -/
def intDiv (vm : VM) : VM :=
  let b := vm.pop.1
  let vm := vm.pop.2
  let a := vm.pop.1
  let vm := vm.pop.2
  if b = 0 ∨ BitVec.sdivOverflow a b then
    vm.recordFault s!"IntDiv: division error ({a.toInt} / {b.toInt})"
  else vm.push (a.sdiv b)

def popMany (vm : VM) : Nat → List Word × VM
  | 0 => ([], vm)
  | n + 1 =>
    let v := vm.pop.1
    let rest := vm.pop.2.popMany n
    (rest.1 ++ [v], rest.2)

def newStruct (vm : VM) (fields : Nat) : VM :=
  vm.checkAlloc fields "NewStruct" ((vm.popMany fields).2.allocate (.struct (vm.popMany fields).1))

def getField (vm : VM) (idx : Nat) : VM :=
  let structRef := vm.pop.1
  let vm := vm.pop.2
  match vm.heap[structRef.toNat]? with
  | some (.struct fields) =>
    match fields[idx]? with
    | some v => vm.push v
    | none => vm.recordFault s!"GetField: field index {idx} out of range"
  | _ => vm.recordFault s!"GetField: heap ref {structRef.toNat} is not a struct"

def setField (vm : VM) (idx : Nat) : VM :=
  let structRef := vm.pop.1
  let vm := vm.pop.2
  let value := vm.pop.1
  let vm := vm.pop.2
  match vm.heap[structRef.toNat]? with
  | some (.struct fields) =>
    if idx < fields.length then
      { vm with
        heap := vm.heap.set structRef.toNat (.struct (fields.set idx value))
        stack := vm.stack ++ [value] }
    else vm.recordFault s!"SetField: field index {idx} out of range"
  | _ => vm.recordFault s!"SetField: heap ref {structRef.toNat} is not a struct"

def newArray (vm : VM) : VM :=
  let size := vm.pop.1.toNat
  let vm := vm.pop.2
  vm.checkAlloc size "NewArray" (vm.allocate (.array (List.replicate size 0)))

def arrayLen (vm : VM) : VM :=
  let arrRef := vm.pop.1
  let vm := vm.pop.2
  match vm.heap[arrRef.toNat]? with
  | some (.array items) => vm.push (BitVec.ofNat 64 items.length)
  | _ => vm.recordFault s!"ArrayLen: heap ref {arrRef.toNat} is not an array"

def getElem (vm : VM) : VM :=
  let idx := vm.pop.1.toNat
  let vm := vm.pop.2
  let arrRef := vm.pop.1
  let vm := vm.pop.2
  match vm.heap[arrRef.toNat]? with
  | some (.array items) =>
    match items[idx]? with
    | some v => vm.push v
    | none => vm.recordFault s!"GetElem: index {idx} out of bounds (len {items.length})"
  | _ => vm.recordFault s!"GetElem: heap ref {arrRef.toNat} is not an array"

def setElem (vm : VM) : VM :=
  let value := vm.pop.1
  let vm := vm.pop.2
  let idx := vm.pop.1.toNat
  let vm := vm.pop.2
  let arrRef := vm.pop.1
  let vm := vm.pop.2
  match vm.heap[arrRef.toNat]? with
  | some (.array items) =>
    if idx < items.length then
      { vm with
        heap := vm.heap.set arrRef.toNat (.array (items.set idx value))
        stack := vm.stack ++ [value] }
    else vm.recordFault s!"SetElem: index {idx} out of bounds (len {items.length})"
  | _ => vm.recordFault s!"SetElem: heap ref {arrRef.toNat} is not an array"

def concatStr (vm : VM) : VM :=
  let idx2 := vm.pop.1
  let vm := vm.pop.2
  let idx1 := vm.pop.1
  let vm := vm.pop.2
  match vm.text? idx1, vm.text? idx2 with
  | some s1, some s2 => vm.allocate (.string (s1 ++ s2))
  | _, _ =>
    vm.recordFault s!"ConcatStr: heap refs {idx1.toNat}/{idx2.toNat} are not both strings"

def eqStr (vm : VM) : VM :=
  let idx2 := vm.pop.1
  let vm := vm.pop.2
  let idx1 := vm.pop.1
  let vm := vm.pop.2
  match vm.text? idx1, vm.text? idx2 with
  | some s1, some s2 => vm.push (ofBool (s1 == s2))
  | _, _ => vm.recordFault s!"EqStr: heap refs {idx1.toNat}/{idx2.toNat} are not both strings"

def jumpFalse (vm : VM) (target : Nat) : VM :=
  let cond := vm.pop.1
  let vm := vm.pop.2
  if cond = 0 then { vm with instPtr := target } else vm

def call (vm : VM) (target argCount : Nat) : VM :=
  if argCount ≤ vm.stack.length then
    { vm with
      callStack := ⟨vm.instPtr, vm.fp⟩ :: vm.callStack
      fp := vm.stack.length - argCount
      instPtr := target }
  else vm.recordFault s!"Call: arg_count {argCount} exceeds stack depth {vm.stack.length}"

def leaveFrame (vm : VM) (frame : Frame) (frames : List Frame) (val : Word) : VM :=
  { vm with
    stack := vm.stack.take vm.fp ++ [val]
    fp := frame.oldFp
    instPtr := frame.returnPtr
    callStack := frames }

/-- The end of the program: a fault of this instruction is raised in place of the value. -/
def finish (vm : VM) (val : Word) : Flow :=
  let vm := { vm with done := true }
  match vm.fault with
  | some cause =>
    .leave (some VM_ERROR_SENTINEL) ({ vm with fault := none }.raiseMalformed cause)
  | none => .leave (some val) vm

def ret (vm : VM) : Flow :=
  match vm.callStack with
  | frame :: frames => .next (vm.leaveFrame frame frames 0)
  | [] => vm.pop.2.finish vm.pop.1

def retVal (vm : VM) : Flow :=
  let returnValue := vm.pop.1
  let vm := vm.pop.2
  match vm.callStack with
  | frame :: frames => .next (vm.leaveFrame frame frames returnValue)
  | [] => vm.finish returnValue

def print (vm : VM) (line : String) : VM := { vm with stdout := vm.stdout ++ [line] }

def printInt (vm : VM) : VM := (vm.pop.2.print (toString vm.pop.1.toInt)).push 0

def printFloat (vm : VM) (host : Host) : VM :=
  (vm.pop.2.print (host.floats.display vm.pop.1)).push 0

/-- `char::from_u32`. -/
def printChar (vm : VM) : VM :=
  let c := (vm.pop.1.setWidth 32).toNat
  let vm := vm.pop.2
  (if c.isValidChar then vm.print (Char.ofNat c).toString else vm).push 0

def printString (vm : VM) : VM :=
  let idx := vm.pop.1
  let vm := vm.pop.2
  match vm.text? idx with
  | some s => (vm.print s).push 0
  | none => (vm.recordFault s!"PrintString: heap ref {idx.toNat} is not a string").push 0

/-- An error that no handler takes leaves `step`. -/
def dispatchError (vm : VM) : Flow :=
  match vm.tryDispatchError with
  | (some sentinel, vm) => .leave (some sentinel) vm
  | (none, vm) => .next vm

/-- An error of an accessor leaves `step` also when a handler takes it. -/
def accessError (vm : VM) (err : RemoteCallError) : Flow :=
  let raised := { vm with lastError := some err }.tryDispatchError
  .leave raised.1 raised.2

def haltWith (vm : VM) (err : RemoteCallError) : Flow :=
  .leave (some VM_ERROR_SENTINEL) { vm with lastError := some err, done := true }

/-- `RemoteCall` and `RemoteCallStream`, which `what` names. -/
def remoteCall (vm : VM) (host : Host) (what : String)
    (dispatch : Dispatcher → String → String → String → Except RemoteCallError ByteArray) : Flow :=
  let argRef := vm.pop.1
  let vm := vm.pop.2
  let methodRef := vm.pop.1
  let vm := vm.pop.2
  let peerRef := vm.pop.1
  let vm := vm.pop.2
  match vm.text? argRef with
  | none =>
    vm.haltWith (.ofLocal "<unresolved>" "<unresolved>" s!"{what}: arg is not a heap string")
  | some arg =>
    match vm.text? methodRef with
    | none =>
      vm.haltWith (.ofLocal "<unresolved>" "<unresolved>" s!"{what}: method is not a heap string")
    | some method =>
      match vm.text? peerRef with
      | none =>
        vm.haltWith (.ofLocal "<unresolved>" method s!"{what}: peer is not a heap string")
      | some peer =>
        match host.dispatcher with
        | none => vm.haltWith (.ofLocal peer method "no RemoteCallDispatcher attached to VM")
        | some dispatcher =>
          match dispatch dispatcher peer method arg with
          | .ok body =>
            .next { vm.allocate (.string (host.responseText body)) with lastError := none }
          | .error e => { vm with lastError := some e }.dispatchError

def tryEnter (vm : VM) (catchPc : Nat) : VM :=
  { vm with tryHandlers := ⟨catchPc, vm.fp, vm.stack.length⟩ :: vm.tryHandlers }

def tryExit (vm : VM) : VM := { vm with tryHandlers := vm.tryHandlers.tail }

def loadErrorKind (vm : VM) : VM :=
  vm.allocate (.string ((vm.lastError.map classifiedErrorKind).getD ""))

def loadErrorCause (vm : VM) : VM :=
  vm.allocate (.string ((vm.lastError.map RemoteCallError.cause).getD ""))

def pushList (vm : VM) (n : Nat) : VM :=
  vm.checkAlloc n "PushList" ((vm.popMany n).2.allocate (.list (vm.popMany n).1))

def popPairs (vm : VM) : Nat → List (String × Word) × VM
  | 0 => ([], vm)
  | n + 1 =>
    let value := vm.pop.1
    let vm := vm.pop.2
    let keyRef := vm.pop.1
    let vm := vm.pop.2
    let rest := vm.popPairs n
    (rest.1 ++ [(vm.textOrEmpty keyRef, value)], rest.2)

def pushMap (vm : VM) (n : Nat) : VM :=
  vm.checkAlloc n "PushMap" ((vm.popPairs n).2.allocate (.map (vm.popPairs n).1))

def listLen (vm : VM) : VM :=
  let lstRef := vm.pop.1
  let vm := vm.pop.2
  vm.push (BitVec.ofNat 64 ((vm.items? lstRef).getD []).length)

def listGet (vm : VM) : VM :=
  let idx := vm.pop.1
  let vm := vm.pop.2
  let lstRef := vm.pop.1
  let vm := vm.pop.2
  match (vm.items? lstRef).bind (itemAt · idx) with
  | some item => vm.push item
  | none => vm.allocate (.string "")

def listPush (vm : VM) : VM :=
  let val := vm.pop.1
  let vm := vm.pop.2
  let lstRef := vm.pop.1
  let vm := vm.pop.2
  vm.allocate (.list ((vm.items? lstRef).getD [] ++ [val]))

def display (vm : VM) (r : Word) : Option String := heapDisplay vm.heap (vm.heap.length + 1) r.toNat

def displaysTo (vm : VM) (needle : String) : List Word → Option Bool
  | [] => some false
  | r :: rs =>
    match vm.display r with
    | none => none
    | some s => if s = needle then some true else vm.displaysTo needle rs

def listContains (vm : VM) : Except Panic Flow :=
  let valRef := vm.pop.1
  let vm := vm.pop.2
  let lstRef := vm.pop.1
  let vm := vm.pop.2
  match vm.display valRef with
  | none => .error .recursion
  | some needle =>
    match vm.displaysTo needle ((vm.items? lstRef).getD []) with
    | none => .error .recursion
    | some found => .ok (.next (vm.push (ofBool found)))

def listJoin (vm : VM) : Except Panic Flow :=
  let sepRef := vm.pop.1
  let vm := vm.pop.2
  let lstRef := vm.pop.1
  let vm := vm.pop.2
  match ((vm.items? lstRef).getD []).mapM vm.display with
  | none => .error .recursion
  | some parts => .ok (.next (vm.allocate (.string ((vm.textOrEmpty sepRef).intercalate parts))))

def listGetList (vm : VM) : Flow :=
  let idx := vm.pop.1
  let vm := vm.pop.2
  let lstRef := vm.pop.1
  let vm := vm.pop.2
  match (vm.listItems? lstRef).bind (itemAt · idx) with
  | none =>
    vm.accessError (.ofLocal "<local>" "list_get_list"
      s!"list_get_list: index {idx.toInt} out of bounds or not a list")
  | some elem =>
    match vm.listItems? elem with
    | some _ => .next (vm.push elem)
    | none =>
      vm.accessError (.ofLocal "<local>" "list_get_list"
        s!"list_get_list: element at {idx.toInt} is not a list")

def mapGetMap (vm : VM) : Flow :=
  let keyRef := vm.pop.1
  let vm := vm.pop.2
  let mapRef := vm.pop.1
  let vm := vm.pop.2
  let key := vm.textOrEmpty keyRef
  match (vm.pairs? mapRef).bind (valueOf · key) with
  | none =>
    vm.accessError (.ofLocal "<local>" "map_get_map" s!"map_get_map: key `{key}` not present")
  | some val =>
    match vm.pairs? val with
    | some _ => .next (vm.push val)
    | none =>
      vm.accessError (.ofLocal "<local>" "map_get_map"
        s!"map_get_map: value at `{key}` is not a map")

def allocateTexts (vm : VM) (texts : List String) : VM :=
  { vm with heap := vm.heap ++ texts.map HeapObject.string }.allocate
    (.list ((List.range texts.length).map (fun i => BitVec.ofNat 64 (vm.heap.length + i))))

def listSplit (vm : VM) : VM :=
  let sepRef := vm.pop.1
  let vm := vm.pop.2
  let strRef := vm.pop.1
  let vm := vm.pop.2
  let s := vm.textOrEmpty strRef
  let sep := vm.textOrEmpty sepRef
  vm.allocateTexts (if sep = "" then [s] else s.splitOn sep)

def mapGet (vm : VM) : VM :=
  let keyRef := vm.pop.1
  let vm := vm.pop.2
  let mapRef := vm.pop.1
  let vm := vm.pop.2
  match (vm.pairs? mapRef).bind (valueOf · (vm.textOrEmpty keyRef)) with
  | some val => vm.push val
  | none => vm.allocate (.string "")

def mapSet (vm : VM) : VM :=
  let val := vm.pop.1
  let vm := vm.pop.2
  let keyRef := vm.pop.1
  let vm := vm.pop.2
  let mapRef := vm.pop.1
  let vm := vm.pop.2
  vm.allocate (.map (setValue (vm.textOrEmpty keyRef) val ((vm.pairs? mapRef).getD [])))

def mapHas (vm : VM) : VM :=
  let keyRef := vm.pop.1
  let vm := vm.pop.2
  let mapRef := vm.pop.1
  let vm := vm.pop.2
  let key := vm.textOrEmpty keyRef
  vm.push (ofBool (((vm.pairs? mapRef).getD []).any (fun p => p.1 == key)))

def mapKeys (vm : VM) : VM :=
  let mapRef := vm.pop.1
  let vm := vm.pop.2
  vm.allocateTexts (((vm.pairs? mapRef).getD []).map Prod.fst)

def mapLen (vm : VM) : VM :=
  let mapRef := vm.pop.1
  let vm := vm.pop.2
  vm.push (BitVec.ofNat 64 ((vm.pairs? mapRef).getD []).length)

def mapDel (vm : VM) : VM :=
  let keyRef := vm.pop.1
  let vm := vm.pop.2
  let mapRef := vm.pop.1
  let vm := vm.pop.2
  let key := vm.textOrEmpty keyRef
  vm.allocate (.map (((vm.pairs? mapRef).getD []).filter (fun p => p.1 != key)))

def exec (host : Host) (vm : VM) : Inst → Except Panic Flow
  | .pushConst c => .ok (.next (vm.pushConst c))
  | .loadLocal offset =>
    if host.overflowChecks && vm.slotOverflow offset then .error .overflow
    else .ok (.next (vm.loadLocal offset))
  | .storeLocal offset =>
    if host.overflowChecks && vm.slotOverflow offset then .error .overflow
    else .ok (.next (vm.storeLocal offset))
  | .pop => .ok (.next vm.pop.2)
  | .dup => .ok (.next vm.dup)
  | .intAdd => vm.arith host BitVec.saddOverflow (· + ·)
  | .intSub => vm.arith host BitVec.ssubOverflow (· - ·)
  | .intMul => vm.arith host BitVec.smulOverflow (· * ·)
  | .intDiv => .ok (.next vm.intDiv)
  | .intEq => .ok (.next (vm.compare (· == ·)))
  | .intNeq => .ok (.next (vm.compare (· != ·)))
  | .intGt => .ok (.next (vm.compare (fun a b => b.slt a)))
  | .intGte => .ok (.next (vm.compare (fun a b => b.sle a)))
  | .intLt => .ok (.next (vm.compare BitVec.slt))
  | .intLte => .ok (.next (vm.compare BitVec.sle))
  | .floatAdd => .ok (.next (vm.binary host.floats.add))
  | .floatSub => .ok (.next (vm.binary host.floats.sub))
  | .floatMul => .ok (.next (vm.binary host.floats.mul))
  | .floatDiv => .ok (.next (vm.binary host.floats.div))
  | .floatEq => .ok (.next (vm.compare host.floats.eq))
  | .floatNeq => .ok (.next (vm.compare (fun a b => !host.floats.eq a b)))
  | .floatGt => .ok (.next (vm.compare (fun a b => host.floats.lt b a)))
  | .floatGte => .ok (.next (vm.compare (fun a b => host.floats.le b a)))
  | .floatLt => .ok (.next (vm.compare host.floats.lt))
  | .floatLte => .ok (.next (vm.compare host.floats.le))
  | .charEq => .ok (.next (vm.compare (· == ·)))
  | .charNeq => .ok (.next (vm.compare (· != ·)))
  | .charGt => .ok (.next (vm.compare (fun a b => b.ult a)))
  | .charGte => .ok (.next (vm.compare (fun a b => b.ule a)))
  | .charLt => .ok (.next (vm.compare BitVec.ult))
  | .charLte => .ok (.next (vm.compare BitVec.ule))
  | .logOr => .ok (.next (vm.compare (fun a b => a == 1 || b == 1)))
  | .logAnd => .ok (.next (vm.compare (fun a b => a == 1 && b == 1)))
  | .logNot => .ok (.next (vm.unary (fun a => ofBool (a == 0))))
  | .bitXor => .ok (.next (vm.binary (· ^^^ ·)))
  | .bitAnd => .ok (.next (vm.binary (· &&& ·)))
  | .bitOr => .ok (.next (vm.binary (· ||| ·)))
  | .bitNeg => .ok (.next (vm.unary (~~~ ·)))
  | .bitLShift => vm.arith host (fun _ b => decide (64 ≤ b.toNat)) (fun a b => a <<< (b.toNat % 64))
  | .bitRShift => vm.arith host (fun _ b => decide (64 ≤ b.toNat)) (fun a b => a >>> (b.toNat % 64))
  | .newStruct fields => .ok (.next (vm.newStruct fields))
  | .getField idx => .ok (.next (vm.getField idx))
  | .setField idx => .ok (.next (vm.setField idx))
  | .newArray => .ok (.next vm.newArray)
  | .arrayLen => .ok (.next vm.arrayLen)
  | .getElem => .ok (.next vm.getElem)
  | .setElem => .ok (.next vm.setElem)
  | .concatStr => .ok (.next vm.concatStr)
  | .eqStr => .ok (.next vm.eqStr)
  | .jump target => .ok (.next { vm with instPtr := target })
  | .jumpFalse target => .ok (.next (vm.jumpFalse target))
  | .call target argCount => .ok (.next (vm.call target argCount))
  | .ret => .ok vm.ret
  | .retVal => .ok vm.retVal
  | .printInt => .ok (.next vm.printInt)
  | .printFloat => .ok (.next (vm.printFloat host))
  | .printChar => .ok (.next vm.printChar)
  | .printString => .ok (.next vm.printString)
  | .remoteCall =>
    .ok (vm.remoteCall host "remote_call" (fun d => d.remoteCall vm.stepsTaken))
  | .remoteCallStream =>
    .ok (vm.remoteCall host "remote_call_stream" (fun d => d.remoteCallStream vm.stepsTaken))
  | .tryEnter catchPc => .ok (.next (vm.tryEnter catchPc))
  | .tryExit => .ok (.next vm.tryExit)
  | .loadErrorKind => .ok (.next vm.loadErrorKind)
  | .loadErrorCause => .ok (.next vm.loadErrorCause)
  | .loadErrorRetryHint => .ok (.next (vm.push 0))
  | .rethrow => .ok vm.dispatchError
  | .loadLastConfidence => .ok (.next (vm.push (host.lastConfidence vm.stepsTaken)))
  | .pushList n => .ok (.next (vm.pushList n))
  | .pushMap n => .ok (.next (vm.pushMap n))
  | .listLen => .ok (.next vm.listLen)
  | .listGet => .ok (.next vm.listGet)
  | .listPush => .ok (.next vm.listPush)
  | .listContains => vm.listContains
  | .listJoin => vm.listJoin
  | .listSplit => .ok (.next vm.listSplit)
  | .mapGet => .ok (.next vm.mapGet)
  | .mapSet => .ok (.next vm.mapSet)
  | .mapHas => .ok (.next vm.mapHas)
  | .mapKeys => .ok (.next vm.mapKeys)
  | .mapLen => .ok (.next vm.mapLen)
  | .mapDel => .ok (.next vm.mapDel)
  | .listGetList => .ok vm.listGetList
  | .mapGetMap => .ok vm.mapGetMap

def exhaust (vm : VM) : VM :=
  { vm with
    done := true
    fuelExhaustedSteps := some vm.stepsTaken
    lastError := some (.ofLocal "<sol_vm>" vm.flow
      s!"sol VM fuel exhausted after {vm.stepsTaken} steps (instruction index {vm.instPtr})") }

def tick (vm : VM) : VM :=
  { vm with fuel := vm.fuel - 1, stepsTaken := vm.stepsTaken + 1, instPtr := vm.instPtr + 1 }

def settle (vm : VM) : Option Word × VM :=
  match vm.fault with
  | some cause => (some VM_ERROR_SENTINEL, { vm with fault := none }.raiseMalformed cause)
  | none => (none, vm)

end VM

def Flow.settle : Flow → Option Word × VM
  | .next vm => vm.settle
  | .leave result vm => (result, vm)

namespace VM

def step (host : Host) (vm : VM) : Except Panic (Option Word × VM) :=
  if vm.done then .ok (none, vm)
  else
    match vm.program[vm.instPtr]? with
    | none =>
      .ok (some (vm.stack.getLast?.getD 0), { vm with done := true, stack := vm.stack.dropLast })
    | some inst =>
      if vm.fuel = 0 then .ok (some VM_ERROR_SENTINEL, vm.exhaust)
      else (vm.tick.exec host inst).map Flow.settle

/-- How a run of bounded length ends: `unfinished` when it takes more steps. -/
inductive Halt where
  | result (value : Word) (vm : VM)
  | panicked (panic : Panic) (vm : VM)
  | unfinished (vm : VM)

def runFor (host : Host) : Nat → VM → Halt
  | 0, vm => .unfinished vm
  | n + 1, vm =>
    match vm.step host with
    | .error panic => .panicked panic vm
    | .ok (some value, vm) => .result value vm
    | .ok (none, vm) => runFor host n vm

def run (host : Host) (vm : VM) : Halt := vm.runFor host (vm.fuel + 1)

end VM

end Sol

end Relux
