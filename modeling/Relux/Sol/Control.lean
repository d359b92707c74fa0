import Relux.Sol.Step

/-! What an instruction leaves as it was. -/

namespace Relux

namespace Sol

structure Control where
  callStack : List Frame
  instPtr : Nat
  fp : Nat
  program : List Inst
  done : Bool
  fuel : Nat
  stepsTaken : Nat
  flowName : Option String
  fuelExhaustedSteps : Option Nat
  lastError : Option RemoteCallError
  tryHandlers : List TryHandler

namespace VM

def control (vm : VM) : Control where
  callStack := vm.callStack
  instPtr := vm.instPtr
  fp := vm.fp
  program := vm.program
  done := vm.done
  fuel := vm.fuel
  stepsTaken := vm.stepsTaken
  flowName := vm.flowName
  fuelExhaustedSteps := vm.fuelExhaustedSteps
  lastError := vm.lastError
  tryHandlers := vm.tryHandlers

variable (vm : VM)

@[simp] theorem push_control (val : Word) : (vm.push val).control = vm.control := rfl

@[simp] theorem recordFault_control (cause : String) :
    (vm.recordFault cause).control = vm.control := rfl

@[simp] theorem allocate_control (o : HeapObject) : (vm.allocate o).control = vm.control := rfl

@[simp] theorem print_control (line : String) : (vm.print line).control = vm.control := rfl

@[simp] theorem pop_control : vm.pop.2.control = vm.control := by
  unfold pop
  cases vm.stack.getLast? <;> rfl

@[simp] theorem checkAlloc_control {granted : VM} (requested : Nat) (what : String)
    (h : granted.control = vm.control) :
    (vm.checkAlloc requested what granted).control = vm.control := by
  unfold checkAlloc
  by_cases hbudget : requested > min vm.fuel ALLOC_CEILING
  · simp [hbudget]
  · simp [hbudget, h]

@[simp] theorem popMany_control (n : Nat) : (vm.popMany n).2.control = vm.control := by
  induction n generalizing vm with
  | zero => rfl
  | succ n ih => simp [popMany, ih]

@[simp] theorem popPairs_control (n : Nat) : (vm.popPairs n).2.control = vm.control := by
  induction n generalizing vm with
  | zero => rfl
  | succ n ih => simp [popPairs, ih]

@[simp] theorem unary_control (f : Word → Word) : (vm.unary f).control = vm.control := by
  simp [unary]

@[simp] theorem binary_control (f : Word → Word → Word) :
    (vm.binary f).control = vm.control := by
  simp [binary]

@[simp] theorem compare_control (f : Word → Word → Bool) :
    (vm.compare f).control = vm.control := by
  simp [compare]

@[simp] theorem pushConst_control (c : Const) : (vm.pushConst c).control = vm.control := by
  cases c <;> rfl

@[simp] theorem loadLocal_control (offset : Word) :
    (vm.loadLocal offset).control = vm.control := by
  unfold loadLocal
  cases vm.stack[vm.slot offset]? <;> simp

@[simp] theorem storeLocal_control (offset : Word) :
    (vm.storeLocal offset).control = vm.control := by
  unfold storeLocal
  rw [checkAlloc_control]
  · exact vm.pop_control
  · rfl

@[simp] theorem dup_control : vm.dup.control = vm.control := by
  unfold dup
  cases vm.stack.getLast? <;> simp

@[simp] theorem intDiv_control : vm.intDiv.control = vm.control := by
  unfold intDiv
  dsimp only
  split <;> simp

@[simp] theorem newStruct_control (fields : Nat) :
    (vm.newStruct fields).control = vm.control := by
  simp [newStruct]

@[simp] theorem getField_control (idx : Nat) : (vm.getField idx).control = vm.control := by
  unfold getField
  dsimp only
  split
  · split <;> simp
  · simp

@[simp] theorem setField_control (idx : Nat) : (vm.setField idx).control = vm.control := by
  have hpop : vm.pop.2.pop.2.control = vm.control := by simp
  unfold setField
  dsimp only
  split
  · split
    · exact hpop
    · simp
  · simp

@[simp] theorem newArray_control : vm.newArray.control = vm.control := by
  simp [newArray]

@[simp] theorem arrayLen_control : vm.arrayLen.control = vm.control := by
  unfold arrayLen
  dsimp only
  split <;> simp

@[simp] theorem getElem_control : vm.getElem.control = vm.control := by
  unfold getElem
  dsimp only
  split
  · split <;> simp
  · simp

@[simp] theorem setElem_control : vm.setElem.control = vm.control := by
  have hpop : vm.pop.2.pop.2.pop.2.control = vm.control := by simp
  unfold setElem
  dsimp only
  split
  · split
    · exact hpop
    · simp
  · simp

@[simp] theorem concatStr_control : vm.concatStr.control = vm.control := by
  unfold concatStr
  dsimp only
  split <;> simp

@[simp] theorem eqStr_control : vm.eqStr.control = vm.control := by
  unfold eqStr
  dsimp only
  split <;> simp

@[simp] theorem printInt_control : vm.printInt.control = vm.control := by simp [printInt]

@[simp] theorem printFloat_control (host : Host) : (vm.printFloat host).control = vm.control := by
  simp [printFloat]

@[simp] theorem printChar_control : vm.printChar.control = vm.control := by
  unfold printChar
  rw [push_control]
  split
  · rw [print_control, pop_control]
  · exact vm.pop_control

@[simp] theorem printString_control : vm.printString.control = vm.control := by
  unfold printString
  dsimp only
  split <;> simp

@[simp] theorem loadErrorKind_control : vm.loadErrorKind.control = vm.control := by
  simp [loadErrorKind]

@[simp] theorem loadErrorCause_control : vm.loadErrorCause.control = vm.control := by
  simp [loadErrorCause]

@[simp] theorem pushList_control (n : Nat) : (vm.pushList n).control = vm.control := by
  simp [pushList]

@[simp] theorem pushMap_control (n : Nat) : (vm.pushMap n).control = vm.control := by
  simp [pushMap]

@[simp] theorem listLen_control : vm.listLen.control = vm.control := by simp [listLen]

@[simp] theorem listGet_control : vm.listGet.control = vm.control := by
  unfold listGet
  dsimp only
  split <;> simp

@[simp] theorem listPush_control : vm.listPush.control = vm.control := by simp [listPush]

@[simp] theorem allocateTexts_control (texts : List String) :
    (vm.allocateTexts texts).control = vm.control := rfl

@[simp] theorem listSplit_control : vm.listSplit.control = vm.control := by simp [listSplit]

@[simp] theorem mapGet_control : vm.mapGet.control = vm.control := by
  unfold mapGet
  dsimp only
  split <;> simp

@[simp] theorem mapSet_control : vm.mapSet.control = vm.control := by simp [mapSet]

@[simp] theorem mapHas_control : vm.mapHas.control = vm.control := by simp [mapHas]

@[simp] theorem mapKeys_control : vm.mapKeys.control = vm.control := by simp [mapKeys]

@[simp] theorem mapLen_control : vm.mapLen.control = vm.control := by simp [mapLen]

@[simp] theorem mapDel_control : vm.mapDel.control = vm.control := by simp [mapDel]

end VM

end Sol

end Relux
