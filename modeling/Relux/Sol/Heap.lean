import Relux.Sol.Robust

/-! What an instruction does to the heap. Only structures and arrays are updated in place; texts,
lists and maps stay what they are for the rest of the run. -/

namespace Relux

namespace Sol

def HeapObject.isFixed : HeapObject → Bool
  | .string _ | .list _ | .map _ => true
  | .struct _ | .array _ => false

def HeapObject.isMap : HeapObject → Bool
  | .map _ => true
  | _ => false

namespace VM

/-- The heap after an instruction: new objects that are no maps, an update in place, or a new map
from the pairs of a literal or from those of another map. -/
inductive HeapChange (vm : VM) : Inst → List HeapObject → Prop
  | grew {inst : Inst} (objects : List HeapObject) (h : ∀ o ∈ objects, o.isMap = false) :
      HeapChange vm inst (vm.heap ++ objects)
  | updated {inst : Inst} (i : Nat) (o o' : HeapObject) (hold : vm.heap[i]? = some o)
      (ho : o.isFixed = false) (ho' : o'.isFixed = false) : HeapChange vm inst (vm.heap.set i o')
  | literal (n : Nat) (hn : n ≤ min vm.fuel ALLOC_CEILING) :
      HeapChange vm (.pushMap n) (vm.heap ++ [.map (vm.popPairs n).1])
  | inserted (pairs : List (String × Word)) (key : String) (val : Word)
      (hpairs : pairs = [] ∨ .map pairs ∈ vm.heap) :
      HeapChange vm .mapSet (vm.heap ++ [.map (setValue key val pairs)])
  | removed (pairs : List (String × Word)) (key : String)
      (hpairs : pairs = [] ∨ .map pairs ∈ vm.heap) :
      HeapChange vm .mapDel (vm.heap ++ [.map (pairs.filter (fun p => p.1 != key))])

variable {host : Host} {vm : VM} {inst : Inst}

theorem HeapChange.same {heap : List HeapObject} (h : heap = vm.heap) :
    HeapChange vm inst heap := by
  rw [h, ← List.append_nil vm.heap]
  exact .grew [] (by simp)

theorem HeapChange.allocated {popped : VM} {o : HeapObject} (ho : o.isMap = false)
    (h : popped.heap = vm.heap) : HeapChange vm inst (popped.allocate o).heap := by
  have hgrew : HeapChange vm inst (vm.heap ++ [o]) := .grew [o] (by simpa using ho)
  rw [← h] at hgrew
  exact hgrew

@[simp] theorem push_heap (val : Word) : (vm.push val).heap = vm.heap := rfl

@[simp] theorem recordFault_heap (cause : String) : (vm.recordFault cause).heap = vm.heap := rfl

@[simp] theorem allocate_heap (o : HeapObject) : (vm.allocate o).heap = vm.heap ++ [o] := rfl

@[simp] theorem print_heap (line : String) : (vm.print line).heap = vm.heap := rfl

@[simp] theorem settle_heap : vm.settle.2.heap = vm.heap := by
  unfold settle
  cases vm.fault <;> rfl

@[simp] theorem popMany_heap (vm : VM) (n : Nat) : (vm.popMany n).2.heap = vm.heap := by
  induction n generalizing vm with
  | zero => rfl
  | succ n ih => simp [popMany, ih]

@[simp] theorem popPairs_heap (vm : VM) (n : Nat) : (vm.popPairs n).2.heap = vm.heap := by
  induction n generalizing vm with
  | zero => rfl
  | succ n ih => simp [popPairs, ih]

theorem unary_heap (f : Word → Word) : (vm.unary f).heap = vm.heap := by simp [unary]

theorem binary_heap (f : Word → Word → Word) : (vm.binary f).heap = vm.heap := by simp [binary]

theorem loadLocal_heap (offset : Word) : (vm.loadLocal offset).heap = vm.heap := by
  unfold loadLocal
  cases vm.stack[vm.slot offset]? <;> rfl

theorem checkAlloc_heap (vm : VM) {granted : VM} {requested : Nat} {what : String} :
    (vm.checkAlloc requested what granted).heap = vm.heap ∨
      requested ≤ min vm.fuel ALLOC_CEILING ∧
        (vm.checkAlloc requested what granted).heap = granted.heap := by
  unfold checkAlloc
  by_cases hbudget : requested > min vm.fuel ALLOC_CEILING
  · exact .inl (by simp [hbudget])
  · exact .inr ⟨by omega, by simp [hbudget]⟩

theorem storeLocal_heap (offset : Word) : (vm.storeLocal offset).heap = vm.heap := by
  rcases checkAlloc_heap vm.pop.2 with h | ⟨-, h⟩
  · exact h.trans pop_heap
  · exact h.trans pop_heap

theorem dup_heap : vm.dup.heap = vm.heap := by
  unfold dup
  cases vm.stack.getLast? <;> rfl

theorem intDiv_heap : vm.intDiv.heap = vm.heap := by
  unfold intDiv
  dsimp only
  split <;> simp

theorem getField_heap (idx : Nat) : (vm.getField idx).heap = vm.heap := by
  unfold getField
  dsimp only
  split
  · split <;> simp
  · simp

theorem arrayLen_heap : vm.arrayLen.heap = vm.heap := by
  unfold arrayLen
  dsimp only
  split <;> simp

theorem getElem_heap : vm.getElem.heap = vm.heap := by
  unfold getElem
  dsimp only
  split
  · split <;> simp
  · simp

theorem eqStr_heap : vm.eqStr.heap = vm.heap := by
  unfold eqStr
  dsimp only
  split <;> simp

theorem call_heap (target argCount : Nat) : (vm.call target argCount).heap = vm.heap := by
  unfold call
  split <;> rfl

theorem jumpFalse_heap (target : Nat) : (vm.jumpFalse target).heap = vm.heap := by
  unfold jumpFalse
  dsimp only
  split <;> simp

theorem finish_heap (val : Word) : (vm.finish val).settle.2.heap = vm.heap := by
  unfold finish
  dsimp only
  split <;> rfl

theorem ret_heap : vm.ret.settle.2.heap = vm.heap := by
  unfold ret
  split
  · exact settle_heap
  · exact (finish_heap _).trans pop_heap

theorem retVal_heap : vm.retVal.settle.2.heap = vm.heap := by
  unfold retVal
  dsimp only
  split
  · exact settle_heap.trans pop_heap
  · exact (finish_heap _).trans pop_heap

theorem printChar_heap : vm.printChar.heap = vm.heap := by
  unfold printChar
  dsimp only
  split <;> simp

theorem printString_heap : vm.printString.heap = vm.heap := by
  unfold printString
  dsimp only
  split <;> simp

theorem tryDispatchError_heap (vm : VM) : vm.tryDispatchError.2.heap = vm.heap := by
  unfold tryDispatchError
  split <;> rfl

theorem dispatchError_heap (vm : VM) : vm.dispatchError.settle.2.heap = vm.heap := by
  have h := tryDispatchError_heap vm
  unfold dispatchError
  cases hraised : vm.tryDispatchError with
  | mk r vm' =>
    rw [hraised] at h
    cases r with
    | none => exact settle_heap.trans h
    | some sentinel => exact h

theorem accessError_heap (vm : VM) (err : RemoteCallError) :
    (vm.accessError err).settle.2.heap = vm.heap :=
  tryDispatchError_heap { vm with lastError := some err }

theorem listGetList_heap : vm.listGetList.settle.2.heap = vm.heap := by
  unfold listGetList
  dsimp only
  split
  · exact (accessError_heap _ _).trans (by simp)
  · split
    · exact settle_heap.trans (by simp)
    · exact (accessError_heap _ _).trans (by simp)

theorem mapGetMap_heap : vm.mapGetMap.settle.2.heap = vm.heap := by
  unfold mapGetMap
  dsimp only
  split
  · exact (accessError_heap _ _).trans (by simp)
  · split
    · exact settle_heap.trans (by simp)
    · exact (accessError_heap _ _).trans (by simp)

theorem remoteCall_heap (what : String)
    (dispatch : Dispatcher → String → String → String → Except RemoteCallError ByteArray) :
    HeapChange vm inst (vm.remoteCall host what dispatch).settle.2.heap := by
  have hpop : vm.pop.2.pop.2.pop.2.heap = vm.heap := by simp
  unfold remoteCall
  dsimp only
  split
  · exact .same hpop
  · split
    · exact .same hpop
    · split
      · exact .same hpop
      · split
        · exact .same hpop
        · split
          · rw [Flow.settle, settle_heap]
            exact .allocated rfl hpop
          · exact .same ((dispatchError_heap _).trans hpop)

theorem setField_heap (idx : Nat) : HeapChange vm inst (vm.setField idx).heap := by
  have hpop : vm.pop.2.pop.2.heap = vm.heap := by simp
  unfold setField
  dsimp only
  rw [hpop]
  split
  next fields hold =>
    split
    · exact .updated _ _ _ hold rfl rfl
    · exact .same hpop
  · exact .same hpop

theorem setElem_heap : HeapChange vm inst vm.setElem.heap := by
  have hpop : vm.pop.2.pop.2.pop.2.heap = vm.heap := by simp
  unfold setElem
  dsimp only
  rw [hpop]
  split
  next items hold =>
    split
    · exact .updated _ _ _ hold rfl rfl
    · exact .same hpop
  · exact .same hpop

theorem pushConst_heap (c : Const) : HeapChange vm inst (vm.pushConst c).heap := by
  cases c with
  | string s => exact .allocated rfl rfl
  | _ => exact .same rfl

theorem concatStr_heap : HeapChange vm inst vm.concatStr.heap := by
  unfold concatStr
  dsimp only
  split
  · exact .allocated rfl (by simp)
  · exact .same (by simp)

theorem newStruct_heap (fields : Nat) : HeapChange vm inst (vm.newStruct fields).heap := by
  rcases checkAlloc_heap vm with h | ⟨-, h⟩
  · exact .same h
  · rw [newStruct, h]
    exact .allocated rfl (popMany_heap vm fields)

theorem newArray_heap : HeapChange vm inst vm.newArray.heap := by
  unfold newArray
  rcases checkAlloc_heap vm.pop.2 with h | ⟨-, h⟩
  · exact .same (h.trans pop_heap)
  · rw [h]
    exact .allocated rfl pop_heap

theorem pushList_heap (n : Nat) : HeapChange vm inst (vm.pushList n).heap := by
  rcases checkAlloc_heap vm with h | ⟨-, h⟩
  · exact .same h
  · rw [pushList, h]
    exact .allocated rfl (popMany_heap vm n)

theorem pushMap_heap (n : Nat) : HeapChange vm (.pushMap n) (vm.pushMap n).heap := by
  rcases checkAlloc_heap vm with h | ⟨hn, h⟩
  · exact .same h
  · rw [pushMap, h, allocate_heap, popPairs_heap]
    exact .literal n hn

theorem listGet_heap : HeapChange vm inst vm.listGet.heap := by
  unfold listGet
  dsimp only
  split
  · exact .same (by simp)
  · exact .allocated rfl (by simp)

theorem mapGet_heap : HeapChange vm inst vm.mapGet.heap := by
  unfold mapGet
  dsimp only
  split
  · exact .same (by simp)
  · exact .allocated rfl (by simp)

variable {vm' : VM}

theorem allocateTexts_heap (h : vm'.heap = vm.heap) (texts : List String) :
    HeapChange vm inst (vm'.allocateTexts texts).heap := by
  have hheap : (vm'.allocateTexts texts).heap = vm.heap ++ (texts.map HeapObject.string ++
      [HeapObject.list ((List.range texts.length).map
        (fun i => BitVec.ofNat 64 (vm'.heap.length + i)))]) := by
    rw [← h, ← List.append_assoc]
    rfl
  rw [hheap]
  refine .grew _ (fun o ho => ?_)
  rcases List.mem_append.mp ho with ho | ho
  · obtain ⟨s, -, rfl⟩ := List.mem_map.mp ho
    rfl
  · rw [List.mem_singleton.mp ho]
    rfl

theorem pairs?_getD_mem (vm : VM) (r : Word) :
    (vm.pairs? r).getD [] = [] ∨ .map ((vm.pairs? r).getD []) ∈ vm.heap := by
  unfold pairs?
  split
  next pairs h => exact .inr (List.mem_of_getElem? h)
  · exact .inl rfl

theorem mapSet_heap : HeapChange vm .mapSet vm.mapSet.heap := by
  have hpop : vm.pop.2.pop.2.pop.2.heap = vm.heap := by simp
  unfold mapSet
  rw [allocate_heap, hpop]
  exact .inserted _ _ _ (hpop ▸ pairs?_getD_mem _ _)

theorem mapDel_heap : HeapChange vm .mapDel vm.mapDel.heap := by
  have hpop : vm.pop.2.pop.2.heap = vm.heap := by simp
  unfold mapDel
  rw [allocate_heap, hpop]
  exact .removed _ _ (hpop ▸ pairs?_getD_mem _ _)

variable {flow : Flow}

theorem arith_heap {overflow : Word → Word → Bool} {f : Word → Word → Word}
    (h : vm.arith host overflow f = .ok flow) : HeapChange vm inst flow.settle.2.heap := by
  unfold arith at h
  split at h
  · cases h
  · cases h
    exact .same (settle_heap.trans (binary_heap f))

theorem listContains_heap (h : vm.listContains = .ok flow) :
    HeapChange vm inst flow.settle.2.heap := by
  unfold listContains at h
  dsimp only at h
  split at h
  · cases h
  · split at h
    · cases h
    · cases h
      exact .same (settle_heap.trans (by simp))

theorem listJoin_heap (h : vm.listJoin = .ok flow) : HeapChange vm inst flow.settle.2.heap := by
  unfold listJoin at h
  dsimp only at h
  split at h
  · cases h
  · cases h
    rw [Flow.settle, settle_heap]
    exact .allocated rfl (by simp)

theorem exec_heap (h : vm.exec host inst = .ok flow) : HeapChange vm inst flow.settle.2.heap := by
  have hnext : ∀ vm' : VM, HeapChange vm inst vm'.heap → HeapChange vm inst vm'.settle.2.heap := by
    intro vm' hchange
    rw [settle_heap]
    exact hchange
  cases inst with
  | loadLocal offset =>
    simp only [exec] at h
    split at h
    · cases h
    · cases h
      exact hnext _ (.same (loadLocal_heap offset))
  | storeLocal offset =>
    simp only [exec] at h
    split at h
    · cases h
    · cases h
      exact hnext _ (.same (storeLocal_heap offset))
  | intAdd | intSub | intMul => exact arith_heap h
  | bitLShift =>
    simp only [exec] at h
    exact arith_heap h
  | bitRShift =>
    simp only [exec] at h
    exact arith_heap h
  | pushConst c => cases h; exact hnext _ (pushConst_heap c)
  | pop => cases h; exact hnext _ (.same pop_heap)
  | dup => cases h; exact hnext _ (.same dup_heap)
  | intDiv => cases h; exact hnext _ (.same intDiv_heap)
  | logNot | bitNeg => cases h; exact hnext _ (.same (unary_heap _))
  | newStruct fields => cases h; exact hnext _ (newStruct_heap fields)
  | getField idx => cases h; exact hnext _ (.same (getField_heap idx))
  | setField idx => cases h; exact hnext _ (setField_heap idx)
  | newArray => cases h; exact hnext _ newArray_heap
  | arrayLen => cases h; exact hnext _ (.same arrayLen_heap)
  | getElem => cases h; exact hnext _ (.same getElem_heap)
  | setElem => cases h; exact hnext _ setElem_heap
  | concatStr => cases h; exact hnext _ concatStr_heap
  | eqStr => cases h; exact hnext _ (.same eqStr_heap)
  | jump target => cases h; exact hnext _ (.same rfl)
  | jumpFalse target => cases h; exact hnext _ (.same (jumpFalse_heap target))
  | call target argCount => cases h; exact hnext _ (.same (call_heap target argCount))
  | ret => cases h; exact .same ret_heap
  | retVal => cases h; exact .same retVal_heap
  | printInt => cases h; exact hnext _ (.same (by simp [printInt]))
  | printFloat => cases h; exact hnext _ (.same (by simp [printFloat]))
  | printChar => cases h; exact hnext _ (.same printChar_heap)
  | printString => cases h; exact hnext _ (.same printString_heap)
  | remoteCall => cases h; exact remoteCall_heap _ _
  | remoteCallStream => cases h; exact remoteCall_heap _ _
  | tryEnter catchPc => cases h; exact hnext _ (.same rfl)
  | tryExit => cases h; exact hnext _ (.same rfl)
  | loadErrorKind | loadErrorCause => cases h; exact hnext _ (.allocated rfl rfl)
  | loadErrorRetryHint => cases h; exact hnext _ (.same rfl)
  | rethrow => cases h; exact .same (dispatchError_heap vm)
  | loadLastConfidence => cases h; exact hnext _ (.same rfl)
  | pushList n => cases h; exact hnext _ (pushList_heap n)
  | pushMap n => cases h; exact hnext _ (pushMap_heap n)
  | listLen => cases h; exact hnext _ (.same (by simp [listLen]))
  | listGet => cases h; exact hnext _ listGet_heap
  | listPush => cases h; exact hnext _ (.allocated rfl (by simp))
  | listContains => exact listContains_heap h
  | listJoin => exact listJoin_heap h
  | listSplit => cases h; exact hnext _ (allocateTexts_heap (by simp) _)
  | mapGet => cases h; exact hnext _ mapGet_heap
  | mapSet => cases h; exact hnext _ mapSet_heap
  | mapHas => cases h; exact hnext _ (.same (by simp [mapHas]))
  | mapKeys => cases h; exact hnext _ (allocateTexts_heap (by simp) _)
  | mapLen => cases h; exact hnext _ (.same (by simp [mapLen]))
  | mapDel => cases h; exact hnext _ mapDel_heap
  | listGetList => cases h; exact .same listGetList_heap
  | mapGetMap => cases h; exact .same mapGetMap_heap
  | _ => cases h; exact hnext _ (.same (binary_heap _))

abbrev Steps (host : Host) : VM → VM → Prop :=
  Relation.ReflTransGen (fun vm vm' => ∃ r, vm.step host = .ok (r, vm'))

theorem settle_program (vm : VM) : vm.settle.2.program = vm.program := by
  unfold settle
  cases vm.fault <;> rfl

theorem Effect.program (h : Effect host vm inst flow) : flow.settle.2.program = vm.program := by
  cases h with
  | caught err handler handlers hraises hflow hhandlers hstack hfault hc =>
    have hprogram := congrArg Control.program hc
    rcases hflow with rfl | rfl
    · exact (settle_program _).trans hprogram
    · exact hprogram
  | plain _ _ hc | jumped _ _ hc | called _ _ _ hc | returned _ _ _ _ hc | answered _ _ hc
  | entered _ hc | exited hc => exact (settle_program _).trans (congrArg Control.program hc)
  | finished _ _ _ _ _ hc | malformed _ _ _ _ hc | refused _ _ _ hc | uncaught _ _ _ hc =>
    exact congrArg Control.program hc

variable {r : Option Word}

theorem step_program (h : vm.step host = .ok (r, vm')) :
    vm'.program = vm.program := by
  cases hdone : vm.done with
  | true =>
    rw [step, hdone, if_pos rfl] at h
    cases h
    rfl
  | false =>
    cases step_taken hdone h with
    | ended hprogram => rfl
    | exhausted inst hprogram hfuel => rfl
    | executed inst flow hprogram hfuel hexec => exact (exec_effect hexec).program

theorem Steps.program (h : Steps host vm vm') : vm'.program = vm.program := by
  induction h with
  | refl => rfl
  | tail hsteps hstep ih =>
    obtain ⟨r, hstep⟩ := hstep
    exact (step_program hstep).trans ih

theorem step_heap (h : vm.step host = .ok (r, vm')) :
    vm'.heap = vm.heap ∨ ∃ inst, vm.done = false ∧ vm.fuel ≠ 0 ∧
      vm.program[vm.instPtr]? = some inst ∧ HeapChange vm.tick inst vm'.heap := by
  cases hdone : vm.done with
  | true =>
    rw [step, hdone, if_pos rfl] at h
    cases h
    exact .inl rfl
  | false =>
    cases step_taken hdone h with
    | ended hprogram => exact .inl rfl
    | exhausted inst hprogram hfuel => exact .inl rfl
    | executed inst flow hprogram hfuel hexec =>
      exact .inr ⟨inst, rfl, hfuel, hprogram, exec_heap hexec⟩

def Later (vm vm' : VM) : Prop :=
  ∀ (i : Nat) (o : HeapObject), o.isFixed = true → vm.heap[i]? = some o → vm'.heap[i]? = some o

theorem Later.refl (vm : VM) : Later vm vm := fun _ _ _ h => h

theorem Later.trans {vm₁ vm₂ vm₃ : VM} (h : Later vm₁ vm₂) (h' : Later vm₂ vm₃) : Later vm₁ vm₃ :=
  fun i o ho hold => h' i o ho (h i o ho hold)

theorem later_of_prefix (h : vm.heap <+: vm'.heap) : Later vm vm' := by
  intro i o _ hold
  obtain ⟨objects, hheap⟩ := h
  have hlt : i < vm.heap.length := (List.getElem?_eq_some_iff.mp hold).1
  rw [← hheap, List.getElem?_append_left hlt, hold]

theorem HeapChange.later (h : HeapChange vm inst vm'.heap) : Later vm vm' := by
  generalize hheap : vm'.heap = heap at h
  cases h with
  | grew objects hobjects => exact later_of_prefix ⟨objects, hheap.symm⟩
  | updated i o o' hold ho ho' =>
    intro j obj hobj hj
    rw [hheap]
    by_cases hij : i = j
    · rw [← hij, hold] at hj
      cases hj
      rw [ho] at hobj
      cases hobj
    · rw [List.getElem?_set_ne hij, hj]
  | literal n hn | inserted pairs key val hpairs | removed pairs key hpairs =>
    exact later_of_prefix ⟨_, hheap.symm⟩

theorem Steps.later (h : Steps host vm vm') : Later vm vm' := by
  induction h with
  | refl => exact .refl vm
  | tail hsteps hstep ih =>
    obtain ⟨r, hstep⟩ := hstep
    rcases step_heap hstep with hsame | ⟨inst, -, -, -, hchange⟩
    · exact ih.trans ( later_of_prefix (hsame ▸ List.prefix_rfl))
    · exact ih.trans hchange.later

end VM

end Sol

end Relux
